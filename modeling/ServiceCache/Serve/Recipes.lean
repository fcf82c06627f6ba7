import ServiceCache.Channel.RoundTrip

/-!
# Recipes

A request gives its recipe inline, as base64, or names files under a `--recipe-root`. The base64
engine and the file system are parameters; what an open file says of itself and what can be read
from it need not agree, since it may grow.

Left out: the reply for a reader thread that died, since `read` does not panic.
-/

namespace ServiceCache.Serve.Recipes

open Channel (Codec Frame maxPayloadLen maxJsonLen headerLen)

/-! ## Problems -/

structure Problem where
  kind : String
  title : String
  status : Nat
  detail : Option String := none
  deriving DecidableEq, Repr

namespace Problem

def new (status : Nat) (slug title : String) : Problem where
  kind := "urn:servicecache:" ++ slug
  title := title
  status := status

def withDetail (p : Problem) (detail : String) : Problem := { p with detail := some detail }

def invalidBody (error : String) : Problem :=
  (new 400 "invalid-body" "The request body is not valid").withDetail error

def invalidRecipe (error : String) : Problem :=
  (new 400 "invalid-recipe" "The recipe is not valid base64").withDetail error

def recipeFilesRefused (detail : String) : Problem :=
  (new 403 "recipe-files-refused" "Recipe files are not accepted").withDetail detail

def recipeFileInvalid (path detail : String) : Problem :=
  (new 400 "recipe-file-invalid" "A recipe file cannot be read").withDetail
    (path ++ ": " ++ detail)

def recipeTooLarge (limit : Nat) : Problem :=
  (new 413 "recipe-too-large" "The recipe is too large").withDetail
    ("the recipe is limited to " ++ toString limit ++ " bytes")

end Problem

/-! ## Reading files -/

abbrev Path := List String

structure Metadata where
  isFile : Bool
  len : Nat

/-- An open file: its metadata, the path behind its descriptor, and what a read to its end
finds. -/
structure File where
  metadata : Except String Metadata
  link : Except String Path
  content : Except String (List UInt8)

structure App where
  recipeRoots : List Path
  euid : Nat
  openFile : String → Except String File

/-- `Roots::contains`; `starts_with` compares whole components. -/
def App.contains (app : App) (path : Path) : Bool :=
  app.recipeRoots.any fun root => root.isPrefixOf path

def isAbsolute (path : String) : Bool := path.toList.head? = some '/'

def separated (recipe : List UInt8) : List UInt8 :=
  if recipe = [] ∨ recipe.getLast? = some 10 then recipe else recipe ++ [10]

/-- The bounded read, behind a recipe that is already separated. Its bound is a `u64` that is
counted up by one, and wraps around in a release build. -/
def append (maxLen : Nat) (path : String) (recipe : List UInt8) (len : Nat)
    (content : Except String (List UInt8)) : Except Problem (List UInt8) :=
  if maxLen < recipe.length then .error (.recipeTooLarge maxLen)
  else if maxLen - recipe.length < len then .error (.recipeTooLarge maxLen)
  else
    match content with
    | .error e => .error (.recipeFileInvalid path e)
    | .ok bytes =>
      let bytes := bytes.take ((maxLen - recipe.length + 1) % 2 ^ 64)
      if maxLen - recipe.length < bytes.length then .error (.recipeTooLarge maxLen)
      else .ok (recipe ++ bytes)

/-- The checks of one round: the path must be absolute, and what was opened a regular file
under a root. The length it states and its content remain. -/
def App.openRecipe (app : App) (path : String) :
    Except Problem (Nat × Except String (List UInt8)) := do
  if !isAbsolute path then throw (.recipeFileInvalid path "not an absolute path")
  let file ← (app.openFile path).mapError (.recipeFileInvalid path)
  let metadata ← file.metadata.mapError (.recipeFileInvalid path)
  if !metadata.isFile then throw (.recipeFileInvalid path "not a regular file")
  let real ← file.link.mapError (.recipeFileInvalid path)
  if !app.contains real then
    throw (.recipeFilesRefused (path ++ " is outside every --recipe-root"))
  return (metadata.len, file.content)

def App.readFile (app : App) (maxLen : Nat) (recipe : List UInt8) (path : String) :
    Except Problem (List UInt8) :=
  match app.openRecipe path with
  | .error e => .error e
  | .ok (len, content) => append maxLen path (separated recipe) len content

def App.read (app : App) (paths : List String) (maxLen : Nat) : Except Problem (List UInt8) :=
  paths.foldlM (app.readFile maxLen) []

/-! ## Requests -/

/-- The base64 engine, of which only its round trip is used. -/
structure Base64 where
  encode : List UInt8 → String
  decode : String → Except String (List UInt8)
  decode_encode : ∀ b, decode (encode b) = .ok b

/-- `api::CreateInstance`, as far as it concerns the recipe. -/
structure CreateInstance where
  recipe : Option String := none
  recipeFiles : List String := []

variable (engine : Base64)

def decodeRecipe (recipe : String) : Except Problem (List UInt8) :=
  (engine.decode recipe).mapError .invalidRecipe

/-- `recipe_bytes`, for a peer whose user may be unknown. -/
def App.recipeBytes (app : App) (peer : Option Nat) (request : CreateInstance) :
    Except Problem (Option (List UInt8)) :=
  match request.recipe, request.recipeFiles with
  | none, [] => .ok none
  | some _, _ :: _ => .error (.invalidBody "give recipe or recipe_files, not both")
  | some recipe, [] => (decodeRecipe engine recipe).map some
  | none, path :: paths =>
    if app.recipeRoots = [] then
      .error (.recipeFilesRefused "the server was not started with --recipe-root")
    else if peer ≠ some app.euid then
      .error (.recipeFilesRefused "recipe files are accepted only from the server's own user")
    else (app.read (path :: paths) maxPayloadLen).map some

def inline (b : List UInt8) : CreateInstance := { recipe := some (engine.encode b) }

def inFile (path : String) : CreateInstance := { recipeFiles := [path] }

structure App.Holds (app : App) (path : String) (b : List UInt8) : Prop where
  absolute : isAbsolute path = true
  file : ∃ real, app.contains real = true ∧
    app.openFile path = .ok ⟨.ok ⟨true, b.length⟩, .ok real, .ok b⟩

/-- The condition on a request: a recipe that is given inline decodes to a payload of a
frame. -/
def CreateInstance.InlineFits (request : CreateInstance) : Prop :=
  request.recipeFiles = [] → ∀ text ∈ request.recipe, ∀ b, engine.decode text = .ok b →
    b.length ≤ maxPayloadLen

section Files

variable {app : App} {maxLen : Nat} {recipe r b : List UInt8} {path : String}

theorem append_le {len : Nat} {content : Except String (List UInt8)}
    (h : append maxLen path recipe len content = .ok r) : r.length ≤ maxLen := by
  unfold append at h
  split at h
  · cases h
  · split at h
    · cases h
    · split at h
      · cases h
      · simp only at h
        split at h
        · cases h
        · cases h
          rw [List.length_append]
          omega

theorem readFile_le (h : app.readFile maxLen recipe path = .ok r) : r.length ≤ maxLen := by
  unfold App.readFile at h
  split at h
  · cases h
  · exact append_le h

theorem foldlM_readFile_le (paths : List String) (start : recipe.length ≤ maxLen)
    (h : paths.foldlM (app.readFile maxLen) recipe = .ok r) : r.length ≤ maxLen := by
  induction paths generalizing recipe with
  | nil =>
    cases h
    exact start
  | cons path paths ih =>
    rw [List.foldlM_cons] at h
    cases first : app.readFile maxLen recipe path with
    | error e => rw [first] at h; cases h
    | ok next =>
      rw [first] at h
      exact ih (readFile_le first) h

def readLimit (maxLen : Nat) (recipe : List UInt8) : Nat := (maxLen - recipe.length + 1) % 2 ^ 64

theorem append_content (recipe b : List UInt8) :
    append maxLen path recipe b.length (.ok b) =
      if recipe.length + b.length ≤ maxLen then .ok (recipe ++ b.take (readLimit maxLen recipe))
      else .error (.recipeTooLarge maxLen) := by
  unfold append readLimit
  dsimp only
  by_cases fits : recipe.length + b.length ≤ maxLen
  · have short := List.length_take_le' ((maxLen - recipe.length + 1) % 2 ^ 64) b
    rw [if_pos fits, if_neg (by omega), if_neg (by omega), if_neg (by omega)]
  · rw [if_neg fits]
    split
    · rfl
    · rw [if_pos (by omega)]

theorem App.Holds.openRecipe (h : app.Holds path b) :
    app.openRecipe path = .ok (b.length, .ok b) := by
  obtain ⟨real, under, opened⟩ := h.file
  simp only [App.openRecipe, h.absolute, opened, Except.mapError, bind, Except.bind, under,
    Bool.not_true, Bool.false_eq_true, if_false]
  rfl

theorem App.Holds.readFile (h : app.Holds path b) :
    app.readFile maxLen recipe path =
      if (separated recipe).length + b.length ≤ maxLen then
        .ok (separated recipe ++ b.take (readLimit maxLen (separated recipe)))
      else .error (.recipeTooLarge maxLen) := by
  unfold App.readFile
  rw [h.openRecipe]
  exact append_content _ _

theorem take_readLimit (small : maxLen + 1 < 2 ^ 64) (fits : recipe.length + b.length ≤ maxLen) :
    b.take (readLimit maxLen recipe) = b := by
  refine List.take_of_length_le ?_
  rw [readLimit, Nat.mod_eq_of_lt (by omega)]
  omega

theorem App.Holds.read (h : app.Holds path b) (small : maxLen + 1 < 2 ^ 64) :
    app.read [path] maxLen =
      if b.length ≤ maxLen then .ok b else .error (.recipeTooLarge maxLen) := by
  have nothing : separated [] = [] := rfl
  have counted : ([] : List UInt8).length + b.length = b.length := Nat.zero_add _
  unfold App.read
  rw [List.foldlM_cons, h.readFile, nothing, counted]
  by_cases fits : b.length ≤ maxLen
  · rw [if_pos fits, if_pos fits, take_readLimit small (Nat.le_trans (Nat.le_of_eq counted) fits)]
    rfl
  · rw [if_neg fits, if_neg fits]
    rfl

end Files

/-! ## The frame of a recipe -/

section Frames

variable {M : Type} {c : Codec M} {f : Frame M}

/-- `send` can write both lengths, and `recv` goes on behind the header. -/
def Accepts (c : Codec M) (f : Frame M) : Prop :=
  (c.encode f.message).length < 2 ^ 32 ∧ f.payload.length < 2 ^ 32 ∧
    ∀ (s : Channel.State M) (fds : List Nat),
      s.headed ((f.bytes c).take headerLen) fds ≠ s.answer .error

theorem accepts_iff : Accepts c f ↔
    (c.encode f.message).length ≤ maxJsonLen ∧ f.payload.length ≤ maxPayloadLen := by
  constructor
  · rintro ⟨json, payload, goesOn⟩
    have header := goesOn {} []
    rw [Channel.State.headed, Frame.header_take, List.take_left' (Channel.toLeBytes_length _),
      List.drop_left' (Channel.toLeBytes_length _), Channel.fromLeBytes_toLeBytes json,
      Channel.fromLeBytes_toLeBytes payload] at header
    by_contra over_
    refine header (if_pos ?_)
    omega
  · rintro ⟨json, payload⟩
    have fits : (⟨f.message, f.payload, []⟩ : Frame M).Fits c := ⟨json, payload, Nat.zero_le _⟩
    obtain ⟨shortJson, shortPayload⟩ := fits.lengths
    refine ⟨shortJson, shortPayload, ?_⟩
    intro s fds same
    have goesOn := Channel.headed_of_bytes s fits fds
    have grown := congrArg (fun t => t.results.length) (goesOn.symm.trans same)
    simp [Channel.State.answer] at grown

end Frames

/-! ## Either way -/

section Requests

variable {engine} {app : App} {peer : Option Nat} {recipe b : List UInt8} {path : String}
  {request : CreateInstance}

theorem recipeBytes_inline (b : List UInt8) :
    app.recipeBytes engine peer (inline engine b) = .ok (some b) := by
  simp only [App.recipeBytes, inline, decodeRecipe, engine.decode_encode]
  rfl

theorem App.Holds.recipeBytes (h : app.Holds path b) (own : peer = some app.euid) :
    app.recipeBytes engine peer (inFile path) =
      if b.length ≤ maxPayloadLen then .ok (some b)
      else .error (.recipeTooLarge maxPayloadLen) := by
  obtain ⟨real, under, _⟩ := h.file
  have rooted : app.recipeRoots ≠ [] := by
    intro none
    rw [App.contains, none] at under
    cases under
  have gate : ¬ peer ≠ some app.euid := not_not.mpr own
  have small : maxPayloadLen + 1 < 2 ^ 64 := by decide
  simp only [App.recipeBytes, inFile, if_neg rooted, if_neg gate, h.read small]
  split
  · rfl
  · rfl

theorem recipeBytes_foreign (foreign : peer ≠ some app.euid) (r : Option (List UInt8)) :
    .ok r ≠ app.recipeBytes engine peer (inFile path) := by
  simp only [App.recipeBytes, inFile, if_pos foreign]
  split
  · simp
  · simp

theorem recipeBytes_cases (h : app.recipeBytes engine peer request = .ok (some recipe)) :
    (request.recipeFiles = [] ∧ ∃ text ∈ request.recipe, engine.decode text = .ok recipe) ∨
      request.recipe = none ∧ recipe.length ≤ maxPayloadLen := by
  unfold App.recipeBytes at h
  split at h
  · cases h
  · cases h
  next text given none =>
    refine .inl ⟨none, text, given, ?_⟩
    cases decoded : engine.decode text with
    | error e => simp [decodeRecipe, decoded, Except.mapError, Except.map] at h
    | ok b =>
      simp only [decodeRecipe, decoded, Except.mapError, Except.map, Except.ok.injEq,
        Option.some.injEq] at h
      rw [h]
  next path paths none files =>
    refine .inr ⟨none, ?_⟩
    split at h
    · cases h
    · split at h
      · cases h
      · cases read : app.read (path :: paths) maxPayloadLen with
        | error e => rw [read] at h; cases h
        | ok b =>
          rw [read] at h
          cases h
          exact foldlM_readFile_le _ (Nat.zero_le _) read

theorem inlineFits_inline (b : List UInt8) :
    (inline engine b).InlineFits engine ↔ b.length ≤ maxPayloadLen := by
  constructor
  · intro fits
    exact fits rfl _ rfl b (engine.decode_encode b)
  · rintro short _ _ ⟨⟩ b' decoded
    rw [engine.decode_encode] at decoded
    cases decoded
    exact short

end Requests

/-- A recipe is judged the same, given inline or as a file under a root, exactly when it is
the server's own user who asks and the recipe is not longer than the payload of a frame.
And all that is accepted from a request fits its frame exactly when this holds of a recipe
that the request gives inline. -/
theorem recipe_judged_same_iff {M : Type} (c : Codec M) (message : M)
    (short : (c.encode message).length ≤ maxJsonLen) (app : App) (peer : Option Nat) :
    (∀ path b, app.Holds path b →
      (app.recipeBytes engine peer (inline engine b) = app.recipeBytes engine peer (inFile path) ↔
        peer = some app.euid ∧ (inline engine b).InlineFits engine)) ∧
      ∀ request : CreateInstance,
        (∀ recipe, app.recipeBytes engine peer request = .ok (some recipe) →
          Accepts c ⟨message, recipe, []⟩) ↔ request.InlineFits engine := by
  constructor
  · intro path b holds
    rw [recipeBytes_inline, inlineFits_inline]
    by_cases own : peer = some app.euid
    · rw [holds.recipeBytes own]
      by_cases fits : b.length ≤ maxPayloadLen
      · simp only [fits, own, if_true, and_self]
      · simp only [fits, if_false, reduceCtorEq, and_false]
    · simp only [own, false_and, iff_false]
      exact recipeBytes_foreign own (some b)
  · intro request
    constructor
    · intro accepted files text given b decoded
      have bytes : app.recipeBytes engine peer request = .ok (some b) := by
        simp only [App.recipeBytes, Option.mem_def.mp given, files, decodeRecipe, decoded]
        rfl
      exact (accepts_iff.mp (accepted b bytes)).2
    · intro fits recipe bytes
      refine accepts_iff.mpr ⟨short, ?_⟩
      rcases recipeBytes_cases bytes with ⟨files, text, given, decoded⟩ | ⟨_, bounded⟩
      · exact fits files text given recipe decoded
      · exact bounded

def byteChars : Base64 where
  encode b := String.ofList (b.map fun x => Char.ofNat x.toNat)
  decode text := .ok (text.toList.map fun x => .ofNat x.toNat)
  decode_encode b := by
    have each : ∀ x : Fin 256, (Char.ofNat x.val).toNat = x.val := by decide +kernel
    have back : ∀ x : UInt8, UInt8.ofNat (Char.ofNat x.toNat).toNat = x := by
      intro x
      rw [each ⟨x.toNat, x.toNat_lt⟩]
      exact UInt8.ofNat_toNat
    simp [Function.comp_def, back]

def oneFile (b : List UInt8) : App where
  recipeRoots := [["srv"]]
  euid := 1000
  openFile path :=
    if path = "/srv/recipe" then .ok ⟨.ok ⟨true, b.length⟩, .ok ["srv", "recipe"], .ok b⟩
    else .error "No such file or directory"

theorem oneFile_holds (b : List UInt8) : (oneFile b).Holds "/srv/recipe" b where
  absolute := by decide
  file := ⟨["srv", "recipe"], rfl, rfl⟩

theorem recipe_judged_same_short :
    (oneFile [1, 2]).recipeBytes byteChars (some 1000) (inFile "/srv/recipe") =
      .ok (some [1, 2]) := by
  have same := ((recipe_judged_same_iff byteChars Channel.byteCodec 3 (by decide)
    (oneFile [1, 2]) (some 1000)).1 "/srv/recipe" [1, 2] (oneFile_holds _)).mpr
      ⟨rfl, (inlineFits_inline _).mpr (by decide)⟩
  rw [← same, recipeBytes_inline]

/-- One byte more than a frame takes: as a file it is refused; inline it is accepted, whatever
the engine, and the frame is not. -/
theorem large_inline_recipe_accepted :
    ∃ b : List UInt8, (oneFile b).Holds "/srv/recipe" b ∧ (∀ engine,
      (oneFile b).recipeBytes engine (some 1000) (inFile "/srv/recipe") =
        .error (.recipeTooLarge maxPayloadLen) ∧
      (oneFile b).recipeBytes engine (some 1000) (inline engine b) = .ok (some b)) ∧
      ¬ Accepts Channel.byteCodec ⟨3, b, []⟩ := by
  have long : (List.replicate (maxPayloadLen + 1) (0 : UInt8)).length = maxPayloadLen + 1 :=
    List.length_replicate
  refine ⟨List.replicate (maxPayloadLen + 1) 0, oneFile_holds _, ?_, ?_⟩
  · intro engine
    refine ⟨?_, recipeBytes_inline _⟩
    have own : some 1000 = some (oneFile (List.replicate (maxPayloadLen + 1) 0)).euid := rfl
    rw [(oneFile_holds _).recipeBytes own, long, if_neg (by omega)]
  · rw [accepts_iff, long]
    omega

end ServiceCache.Serve.Recipes
