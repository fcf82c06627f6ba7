/-!
# Byte strings

The notation of a manifest's readiness probe, which `decode_byte_string` reads and `preview`
writes. What an accepted string looks like is said apart from the loop, as a sequence of pieces.
-/

namespace ServiceCache.ByteString

/-! ## The source -/

inductive DecodeError
  | hexDigits
  | escape (other : Option Char)
  | character (ch : Char)
  deriving DecidableEq, Repr

/-- The message of a refusal; how `{:?}` renders a character is not part of the source. -/
def DecodeError.text (debug : Char → String) : DecodeError → String
  | .hexDigits => "\\x needs two hex digits"
  | .escape none => "unsupported escape at end of string"
  | .escape (some c) => "unsupported escape \\" ++ c.toString
  | .character ch => "unsupported character " ++ debug ch ++ "; escape bytes as \\xNN"

def toDigit (c : Char) : Option Nat :=
  if '0' ≤ c ∧ c ≤ '9' then some (c.toNat - '0'.toNat)
  else if 'a' ≤ c ∧ c ≤ 'f' then some (c.toNat - 'a'.toNat + 10)
  else if 'A' ≤ c ∧ c ≤ 'F' then some (c.toNat - 'A'.toNat + 10)
  else none

/-- The loop of `decode_byte_string`, with the bytes pushed so far. -/
def decodeFrom (bytes : List UInt8) : List Char → Except DecodeError (List UInt8)
  | [] => .ok bytes
  | '\\' :: '\\' :: chars => decodeFrom (bytes ++ [92]) chars
  | '\\' :: 'x' :: high :: low :: chars =>
    match toDigit high, toDigit low with
    | some high, some low => decodeFrom (bytes ++ [.ofNat (high * 16 + low)]) chars
    | _, _ => .error .hexDigits
  | '\\' :: 'x' :: _ => .error .hexDigits
  | '\\' :: chars => .error (.escape chars.head?)
  | ch :: chars =>
    if ' ' ≤ ch ∧ ch ≤ '~' then decodeFrom (bytes ++ [.ofNat ch.toNat]) chars
    else .error (.character ch)

def decodeByteString (source : String) : Except DecodeError (List UInt8) :=
  decodeFrom [] source.toList

def lowerHex (d : Fin 16) : Char :=
  ['0', '1', '2', '3', '4', '5', '6', '7', '8', '9', 'a', 'b', 'c', 'd', 'e', 'f'].get d

def Shown (byte : UInt8) : Prop := 32 ≤ byte ∧ byte ≤ 126 ∧ byte ≠ 92

instance (byte : UInt8) : Decidable (Shown byte) :=
  inferInstanceAs (Decidable (_ ∧ _))

def highDigit (byte : UInt8) : Fin 16 := ⟨byte.toNat / 16, by have := byte.toNat_lt; omega⟩

def lowDigit (byte : UInt8) : Fin 16 := ⟨byte.toNat % 16, by omega⟩

/-- What one turn of `preview` writes; `{:02x}` of a byte has two digits. -/
def shown (byte : UInt8) : List Char :=
  if Shown byte then [Char.ofNat byte.toNat]
  else ['\\', 'x', lowerHex (highDigit byte), lowerHex (lowDigit byte)]

def previewLen : Nat := 24

def preview (bytes : List UInt8) : String :=
  String.ofList ((bytes.take previewLen).flatMap shown ++
    if previewLen < bytes.length then ['.', '.', '.'] else [])

/-! ## The notation -/

def upperHex (d : Fin 16) : Char :=
  ['0', '1', '2', '3', '4', '5', '6', '7', '8', '9', 'A', 'B', 'C', 'D', 'E', 'F'].get d

structure HexDigit where
  value : Fin 16
  char : Char
  spells : char = lowerHex value ∨ char = upperHex value

inductive Piece
  | printable (c : Char) (range : ' ' ≤ c ∧ c ≤ '~') (plain : c ≠ '\\')
  | backslash
  | hex (high low : HexDigit)

namespace Piece

def chars : Piece → List Char
  | printable c _ _ => [c]
  | backslash => ['\\', '\\']
  | hex high low => ['\\', 'x', high.char, low.char]

def byte : Piece → UInt8
  | printable c _ _ => .ofNat c.toNat
  | backslash => 92
  | hex high low => .ofNat (high.value * 16 + low.value)

end Piece

/-- The string is the sequence of pieces, which denotes the bytes. -/
def Denotes (source : String) (bytes : List UInt8) : Prop :=
  ∃ pieces : List Piece, source.toList = pieces.flatMap Piece.chars ∧
    bytes = pieces.map Piece.byte

/-! ## Digits -/

theorem toDigit_lower (d : Fin 16) : toDigit (lowerHex d) = some d.val := by
  revert d
  decide

theorem toDigit_upper (d : Fin 16) : toDigit (upperHex d) = some d.val := by
  revert d
  decide

theorem HexDigit.toDigit (h : HexDigit) : toDigit h.char = some h.value.val := by
  rcases h.spells with same | same
  · rw [same, toDigit_lower]
  · rw [same, toDigit_upper]

theorem toDigit_ascii (k : Fin 128) : ∀ n ∈ toDigit (Char.ofNat k.val),
    ∃ d : Fin 16, d.val = n ∧
      (Char.ofNat k.val = lowerHex d ∨ Char.ofNat k.val = upperHex d) := by
  revert k
  decide

theorem lt_of_toDigit {c : Char} {n : Nat} (digit : toDigit c = some n) : c.toNat < 128 := by
  have bound {hi : Char} (le : c ≤ hi) (ascii : hi.toNat < 128) : c.toNat < 128 :=
    Nat.lt_of_le_of_lt le ascii
  unfold toDigit at digit
  split at digit
  next range => exact bound range.2 (by decide)
  · split at digit
    next range => exact bound range.2 (by decide)
    · split at digit
      next range => exact bound range.2 (by decide)
      · cases digit

theorem exists_hexDigit {c : Char} {n : Nat} (digit : toDigit c = some n) :
    ∃ h : HexDigit, h.char = c ∧ h.value.val = n := by
  have ascii := toDigit_ascii ⟨c.toNat, lt_of_toDigit digit⟩ n
  rw [Char.ofNat_toNat] at ascii
  obtain ⟨d, value, spells⟩ := ascii digit
  exact ⟨⟨d, c, spells⟩, rfl, value⟩

/-! ## Reading -/

theorem decodeFrom_piece (bytes : List UInt8) (p : Piece) (chars : List Char) :
    decodeFrom bytes (p.chars ++ chars) = decodeFrom (bytes ++ [p.byte]) chars := by
  cases p with
  | printable c range plain =>
    rw [Piece.chars, List.singleton_append, decodeFrom, if_pos range, Piece.byte]
    all_goals
      intros
      exact plain ‹_›
  | backslash => rfl
  | hex high low =>
    have digits : decodeFrom bytes ((Piece.hex high low).chars ++ chars) =
        match toDigit high.char, toDigit low.char with
        | some high, some low => decodeFrom (bytes ++ [.ofNat (high * 16 + low)]) chars
        | _, _ => .error .hexDigits := rfl
    rw [digits, high.toDigit, low.toDigit]
    rfl

theorem decodeFrom_pieces (bytes : List UInt8) (pieces : List Piece) :
    decodeFrom bytes (pieces.flatMap Piece.chars) = .ok (bytes ++ pieces.map Piece.byte) := by
  induction pieces generalizing bytes with
  | nil => simp [decodeFrom]
  | cons p pieces ih =>
    rw [List.flatMap_cons, decodeFrom_piece, ih, List.map_cons, List.append_assoc]
    rfl

theorem exists_pieces {bytes read : List UInt8} {chars : List Char}
    (accepted : decodeFrom bytes chars = .ok read) :
    ∃ pieces : List Piece, chars = pieces.flatMap Piece.chars ∧
      read = bytes ++ pieces.map Piece.byte := by
  fun_induction decodeFrom bytes chars with
  | case1 bytes =>
    cases accepted
    exact ⟨[], rfl, (List.append_nil _).symm⟩
  | case2 bytes chars ih =>
    obtain ⟨pieces, rfl, rfl⟩ := ih accepted
    exact ⟨.backslash :: pieces, rfl, by simp [Piece.byte]⟩
  | case3 bytes high low chars h l second first ih =>
    obtain ⟨pieces, rfl, rfl⟩ := ih accepted
    obtain ⟨a, rfl, rfl⟩ := exists_hexDigit first
    obtain ⟨b, rfl, rfl⟩ := exists_hexDigit second
    exact ⟨.hex a b :: pieces, rfl, by simp [Piece.byte]⟩
  | case4 => cases accepted
  | case5 => cases accepted
  | case6 => cases accepted
  | case7 bytes ch chars _ _ _ plain range ih =>
    obtain ⟨pieces, rfl, rfl⟩ := ih accepted
    exact ⟨.printable ch range plain :: pieces, rfl, by simp [Piece.byte]⟩
  | case8 => cases accepted

theorem decodeByteString_eq_ok_iff {source : String} {bytes : List UInt8} :
    decodeByteString source = .ok bytes ↔ Denotes source bytes := by
  constructor
  · intro accepted
    exact exists_pieces accepted
  · rintro ⟨pieces, spelt, rfl⟩
    rw [decodeByteString, spelt, decodeFrom_pieces, List.nil_append]

/-! ## Previews -/

theorem printable_of_shown (byte : UInt8) (h : Shown byte) :
    (' ' ≤ Char.ofNat byte.toNat ∧ Char.ofNat byte.toNat ≤ '~') ∧
      Char.ofNat byte.toNat ≠ '\\' ∧ UInt8.ofNat (Char.ofNat byte.toNat).toNat = byte := by
  have each (k : Fin 256) : Shown (.ofNat k.val) →
      (' ' ≤ Char.ofNat k.val ∧ Char.ofNat k.val ≤ '~') ∧
        Char.ofNat k.val ≠ '\\' ∧ UInt8.ofNat (Char.ofNat k.val).toNat = .ofNat k.val := by
    revert k
    decide +kernel
  have this := each ⟨byte.toNat, byte.toNat_lt⟩
  rw [UInt8.ofNat_toNat] at this
  exact this h

def Piece.ofByte (byte : UInt8) : Piece :=
  if h : Shown byte then
    .printable (Char.ofNat byte.toNat) (printable_of_shown byte h).1 (printable_of_shown byte h).2.1
  else
    .hex ⟨highDigit byte, lowerHex (highDigit byte), .inl rfl⟩
      ⟨lowDigit byte, lowerHex (lowDigit byte), .inl rfl⟩

theorem Piece.chars_ofByte (byte : UInt8) : (ofByte byte).chars = shown byte := by
  unfold ofByte shown
  split
  · rfl
  · rfl

theorem Piece.byte_ofByte (byte : UInt8) : (ofByte byte).byte = byte := by
  unfold ofByte
  split
  next h => exact (printable_of_shown byte h).2.2
  · have digits : byte.toNat / 16 * 16 + byte.toNat % 16 = byte.toNat := Nat.div_add_mod' ..
    change UInt8.ofNat (byte.toNat / 16 * 16 + byte.toNat % 16) = byte
    rw [digits, UInt8.ofNat_toNat]

theorem denotes_shown (bytes : List UInt8) :
    Denotes (String.ofList (bytes.flatMap shown)) bytes := by
  refine ⟨bytes.map .ofByte, ?_, ?_⟩
  · rw [String.toList_ofList, List.flatMap_map]
    simp only [Piece.chars_ofByte]
  · simp only [List.map_map, Function.comp_def, Piece.byte_ofByte, List.map_id']

theorem preview_short {bytes : List UInt8} (short : bytes.length ≤ previewLen) :
    preview bytes = String.ofList (bytes.flatMap shown) := by
  rw [preview, List.take_of_length_le short, if_neg (Nat.not_lt.mpr short), List.append_nil]

/-- A byte string is accepted exactly when it is a sequence of printable characters, double
backslashes and `\xHH` escapes, and decodes to what these denote. Any bytes can be written
so, and what `preview` shows whole decodes to the bytes it was made of. -/
theorem byte_strings_decode :
    (∀ source bytes, decodeByteString source = .ok bytes ↔ Denotes source bytes) ∧
      (∀ bytes, ∃ source, decodeByteString source = .ok bytes) ∧
      ∀ bytes, bytes.length ≤ previewLen → decodeByteString (preview bytes) = .ok bytes := by
  refine ⟨fun _ _ => decodeByteString_eq_ok_iff, ?_, ?_⟩
  · intro bytes
    exact ⟨_, decodeByteString_eq_ok_iff.mpr (denotes_shown bytes)⟩
  · intro bytes short
    rw [preview_short short]
    exact decodeByteString_eq_ok_iff.mpr (denotes_shown bytes)

theorem byte_strings_decode_backslash :
    preview [0, 34, 92, 200] = "\\x00\"\\x5c\\xc8" ∧
      decodeByteString "\\x00\"\\x5c\\xc8" = .ok [0, 34, 92, 200] := by
  have shows : preview [0, 34, 92, 200] = "\\x00\"\\x5c\\xc8" := by decide +kernel
  refine ⟨shows, ?_⟩
  rw [← shows]
  exact byte_strings_decode.2.2 _ (by decide)

end ServiceCache.ByteString
