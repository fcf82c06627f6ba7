import ServiceCache.Channel.Model
import Mathlib.Data.List.Basic

/-!
# What is sent is received

What `recv` has read of its frame, what the stream holds and what `send` has not written yet
make up the frames that were sent and not received.
-/

namespace ServiceCache.Channel

open Transition (System guarded)

section Bytes

theorem toLeBytes_length (n : Nat) : (toLeBytes n).length = 4 := rfl

theorem fromLeBytes_toLeBytes {n : Nat} (h : n < 2 ^ 32) : fromLeBytes (toLeBytes n) = n := by
  simp only [fromLeBytes, toLeBytes, List.foldr, UInt8.toNat_ofNat']
  omega

@[simp] theorem attach_length (fds : List Nat) (bytes : List UInt8) :
    (attach fds bytes).length = bytes.length := by
  cases bytes <;> simp [attach]

theorem attach_map_byte (fds : List Nat) (bytes : List UInt8) :
    (attach fds bytes).map Cell.byte = bytes := by
  cases bytes with
  | nil => rfl
  | cons b bytes => simp [attach, Function.comp_def]

theorem attach_drop_fds (fds : List Nat) (bytes : List UInt8) {k : Nat} (h : 0 < k) :
    ∀ cell ∈ (attach fds bytes).drop k, cell.fds = [] := by
  cases bytes with
  | nil => simp [attach]
  | cons b bytes =>
    obtain ⟨k, rfl⟩ := Nat.exists_eq_add_of_lt h
    simp only [attach, Nat.zero_add, List.drop_succ_cons]
    intro cell mem
    obtain ⟨b, -, rfl⟩ := List.mem_map.mp (List.mem_of_mem_drop mem)
    rfl

theorem flatMap_fds_of_none {cells : List Cell} (h : ∀ cell ∈ cells, cell.fds = []) :
    cells.flatMap Cell.fds = [] := by
  induction cells with
  | nil => rfl
  | cons cell cells ih =>
    rw [List.flatMap_cons, h cell (by simp), ih fun other mem => h other (by simp [mem])]
    rfl

theorem attach_take_bytes (fds : List Nat) (bytes : List UInt8) (k n : Nat) :
    bytes.take k ++ (((attach fds bytes).drop k).take n).map Cell.byte = bytes.take (k + n) := by
  rw [List.map_take, List.map_drop, attach_map_byte, ← List.take_add]

theorem attach_take_fds (fds : List Nat) (bytes : List UInt8) {k n : Nat} (some : 0 < n)
    (more : k < bytes.length) :
    (if k = 0 then [] else fds) ++ (((attach fds bytes).drop k).take n).flatMap Cell.fds = fds := by
  by_cases first : k = 0
  · subst first
    cases bytes with
    | nil => cases more
    | cons b bytes =>
      obtain ⟨n, rfl⟩ := Nat.exists_eq_add_of_lt some
      have rest : (((bytes.map (⟨·, []⟩)).take n : List Cell)).flatMap Cell.fds = [] := by
        refine flatMap_fds_of_none fun cell mem => ?_
        obtain ⟨b, -, rfl⟩ := List.mem_map.mp (List.mem_of_mem_take mem)
        rfl
      simp [attach, rest]
  · rw [if_neg first, flatMap_fds_of_none, List.append_nil]
    intro cell mem
    exact attach_drop_fds fds bytes (Nat.pos_of_ne_zero first) cell (List.mem_of_mem_take mem)

end Bytes

section Frames

variable {M : Type} {c : Codec M} {f : Frame M}

theorem Frame.bytes_length : (f.bytes c).length =
    headerLen + (c.encode f.message).length + f.payload.length := by
  simp only [Frame.bytes, List.length_append, toLeBytes_length, headerLen]

@[simp] theorem Frame.cells_length : (f.cells c).length = (f.bytes c).length := attach_length ..

theorem Frame.header_take :
    (f.bytes c).take headerLen = toLeBytes (c.encode f.message).length ++ toLeBytes f.payload.length := by
  rw [Frame.bytes, List.append_assoc]
  exact List.take_left' (by simp [toLeBytes_length, headerLen])

theorem Frame.json_drop : (f.bytes c).drop headerLen = c.encode f.message ++ f.payload := by
  rw [Frame.bytes, List.append_assoc]
  exact List.drop_left' (by simp [toLeBytes_length, headerLen])

theorem Frame.payload_drop :
    (f.bytes c).drop (headerLen + (c.encode f.message).length) = f.payload := by
  rw [← List.drop_drop, Frame.json_drop]
  exact List.drop_left' rfl

theorem Frame.Fits.lengths (h : f.Fits c) :
    (c.encode f.message).length < 2 ^ 32 ∧ f.payload.length < 2 ^ 32 := by
  obtain ⟨json, payload, -⟩ := h
  unfold maxJsonLen at json
  unfold maxPayloadLen at payload
  omega

end Frames

variable {M : Type}

def Reading.Of (c : Codec M) (f : Frame M) (k : Nat) : Reading → Prop
  | .header got fds =>
    k < headerLen ∧ got = (f.bytes c).take k ∧ fds = if k = 0 then [] else f.fds
  | .json jsonLen payloadLen got fds =>
    jsonLen = (c.encode f.message).length ∧ payloadLen = f.payload.length ∧
      got = (c.encode f.message).take got.length ∧ k = headerLen + got.length ∧ fds = f.fds
  | .payload text payloadLen got fds =>
    text = c.encode f.message ∧ payloadLen = f.payload.length ∧
      got = f.payload.take got.length ∧ k = headerLen + text.length + got.length ∧ fds = f.fds
  | .stopped => False

def State.unsent (c : Codec M) (s : State M) : List Cell :=
  match s.sending with
  | some f => (f.cells c).drop s.sent
  | none => []

def Result.frame? : Result M → Option (Frame M)
  | .frame f => some f
  | _ => none

def State.received (s : State M) : List (Frame M) := s.results.filterMap Result.frame?

inductive Flow (c : Codec M) (s : State M) : List (Frame M) → Prop
  | between {pending : List (Frame M)} (at_ : s.reading = .header [] [])
      (flow : s.stream ++ s.unsent c = pending.flatMap (Frame.cells c)) : Flow c s pending
  | within {f : Frame M} {rest : List (Frame M)} (k : Nat) (some : 0 < k)
      (at_ : s.reading.Of c f k)
      (flow : s.stream ++ s.unsent c =
        (f.cells c).drop k ++ rest.flatMap (Frame.cells c)) : Flow c s (f :: rest)

inductive Stop (s : State M) : List (Frame M) → Result M → Prop
  /-- Everything was received, or the sender was cut off before the first byte of the rest. -/
  | closed {rest : List (Frame M)} (whole : s.sending = none → rest = [])
      (cut : ∀ f, s.sending = some f → rest = [f] ∧ s.sent = 0) : Stop s rest .closed
  | cut {f : Frame M} (sending : s.sending = some f) (inside : 0 < s.sent) : Stop s [f] .error

structure Inv (c : Codec M) (s : State M) : Prop where
  fits : ∀ f ∈ s.frames, f.Fits c
  sending : ∀ f, s.sending = some f → s.sent < (f.cells c).length ∧ ∃ before, s.frames = before ++ [f]
  going : s.reading ≠ .stopped → s.results = s.received.map .frame ∧
    ∃ pending, s.frames = s.received ++ pending ∧ Flow c s pending
  finished : s.reading = .stopped → s.closed = true ∧ ∃ rest r, s.frames = s.received ++ rest ∧
    s.results = s.received.map .frame ++ [r] ∧ Stop s rest r

section Receiving

variable {c : Codec M} {s : State M} {f : Frame M} {rest : List (Frame M)} {k n : Nat}

theorem flow_take {tail : List Cell}
    (flow : s.stream ++ s.unsent c = (f.cells c).drop k ++ tail) (le : n ≤ s.stream.length)
    (fit : k + n ≤ (f.cells c).length) :
    s.stream.take n = ((f.cells c).drop k).take n ∧
      s.stream.drop n ++ s.unsent c = (f.cells c).drop (k + n) ++ tail := by
  have enough : n ≤ ((f.cells c).drop k).length := by rw [List.length_drop]; omega
  refine ⟨?_, ?_⟩
  · rw [← List.take_append_of_le_length le, flow, List.take_append_of_le_length enough]
  · rw [← List.drop_append_of_le_length le, flow, List.drop_append_of_le_length enough,
      List.drop_drop]

theorem Flow.first (h : Flow c s (f :: rest)) : ∃ k, s.reading.Of c f k ∧
    s.stream ++ s.unsent c = (f.cells c).drop k ++ rest.flatMap (Frame.cells c) := by
  cases h with
  | within k pos at_ flow => exact ⟨k, at_, flow⟩
  | between at_ flow =>
    refine ⟨0, ?_, by simpa using flow⟩
    rw [at_]
    exact ⟨by decide, by simp, by simp⟩

theorem cells_pos (f : Frame M) : headerLen ≤ (f.cells c).length := by
  rw [Frame.cells_length, Frame.bytes_length]
  omega

theorem Inv.drained (h : Inv c s) (frames : s.frames = s.received ++ f :: rest)
    (dry : s.unsent c = (f.cells c).drop k ++ rest.flatMap (Frame.cells c))
    (more : k < (f.cells c).length) : rest = [] ∧ s.sending = some f ∧ s.sent = k := by
  have missing : 0 < ((f.cells c).drop k).length := by rw [List.length_drop]; omega
  have lengths := congrArg List.length dry
  cases sending : s.sending with
  | none =>
    rw [State.unsent, sending, List.length_append] at lengths
    simp only [List.length_nil] at lengths
    omega
  | some g =>
    obtain ⟨inside, before, last⟩ := h.sending g sending
    rw [State.unsent, sending, List.length_append, List.length_drop] at lengths
    rw [frames] at last
    have same : (f :: rest).getLast? = some g := by
      have := congrArg List.getLast? last
      rwa [List.getLast?_concat, List.getLast?_append_cons] at this
    obtain rfl | ⟨init, g', rfl⟩ := List.eq_nil_or_concat rest
    · obtain rfl : f = g := by simpa using same
      refine ⟨rfl, rfl, ?_⟩
      simp only [List.length_drop, List.flatMap_nil, List.length_nil] at lengths
      omega
    · rw [List.concat_eq_append, ← List.cons_append, List.getLast?_concat] at same
      cases same
      simp only [List.concat_eq_append, List.flatMap_append, List.flatMap_cons, List.flatMap_nil,
        List.append_nil, List.length_append] at lengths
      omega

theorem received_answer (s : State M) (r : Result M) :
    (s.answer r).received = s.received ++ r.frame?.toList := by
  cases r <;> simp [State.received, State.answer, Result.frame?]

theorem Inv.answer_error (h : Inv c s) (frames : s.frames = s.received ++ f :: rest)
    (results : s.results = s.received.map .frame) (closed : s.closed = true) (pos : 0 < k)
    (dry : s.unsent c = (f.cells c).drop k ++ rest.flatMap (Frame.cells c))
    (more : k < (f.cells c).length) : Inv c (s.answer .error) := by
  obtain ⟨rfl, sending, rfl⟩ := h.drained frames dry more
  have same : (s.answer .error).received = s.received := by rw [received_answer]; simp [Result.frame?]
  refine ⟨h.fits, h.sending, fun going => absurd rfl going, fun _ => ⟨closed, [f], .error, ?_, ?_, ?_⟩⟩
  · rw [same]
    exact frames
  · rw [same, ← results]
    rfl
  · exact .cut sending pos

theorem Inv.answer_closed (h : Inv c s) {pending : List (Frame M)}
    (frames : s.frames = s.received ++ pending) (results : s.results = s.received.map .frame)
    (closed : s.closed = true) (dry : s.unsent c = pending.flatMap (Frame.cells c)) :
    Inv c (s.answer .closed) := by
  have same : (s.answer .closed).received = s.received := by rw [received_answer]; simp [Result.frame?]
  refine ⟨h.fits, h.sending, fun going => absurd rfl going,
    fun _ => ⟨closed, pending, .closed, ?_, ?_, ?_⟩⟩
  · rw [same]
    exact frames
  · rw [same, ← results]
    rfl
  · have first {f : Frame M} {rest : List (Frame M)} (is : pending = f :: rest) :
        rest = [] ∧ s.sending = some f ∧ s.sent = 0 := by
      rw [is] at frames dry
      exact h.drained frames (by simpa using dry) (Nat.lt_of_lt_of_le (by decide) (cells_pos f))
    cases pending with
    | nil =>
      refine .closed (fun _ => rfl) fun g (sending : s.sending = some g) => ?_
      obtain ⟨inside, -⟩ := h.sending g sending
      have lengths := congrArg List.length dry
      rw [State.unsent, sending] at lengths
      simp only [List.length_drop, List.flatMap_nil, List.length_nil] at lengths
      omega
    | cons f rest =>
      obtain ⟨rfl, sending, sent⟩ := first rfl
      refine .closed (fun (idle : s.sending = none) => ?_) fun g (is : s.sending = some g) => ?_
      · rw [idle] at sending
        cases sending
      · rw [sending] at is
        cases is
        exact ⟨rfl, sent⟩

structure InFrame (c : Codec M) (s : State M) (f : Frame M) (rest : List (Frame M)) (k : Nat) :
    Prop where
  results : s.results = s.received.map .frame
  frames : s.frames = s.received ++ f :: rest
  reading : s.reading.Of c f k
  flow : s.stream ++ s.unsent c = (f.cells c).drop k ++ rest.flatMap (Frame.cells c)

theorem Inv.inFrame (h : Inv c s) (going : s.reading ≠ .stopped) (more : s.stream ≠ []) :
    ∃ f rest k, InFrame c s f rest k := by
  obtain ⟨results, pending, frames, flow⟩ := h.going going
  cases pending with
  | nil =>
    cases flow with
    | between at_ flow => simp [more] at flow
  | cons f rest =>
    obtain ⟨k, reading, flow⟩ := flow.first
    exact ⟨f, rest, k, results, frames, reading, flow⟩

theorem Inv.inside (h : Inv c s) (going : s.reading ≠ .stopped)
    (begun : s.reading ≠ .header [] []) : ∃ f rest k, 0 < k ∧ InFrame c s f rest k := by
  obtain ⟨results, pending, frames, flow⟩ := h.going going
  cases flow with
  | between at_ => exact absurd at_ begun
  | within k pos reading flow => exact ⟨_, _, k, pos, results, frames, reading, flow⟩

theorem Inv.advance (h : Inv c s) (here : InFrame c s f rest k) (pos : 0 < k + n)
    (le : n ≤ s.stream.length) (fit : k + n ≤ (f.cells c).length) {r : Reading}
    (reading : r.Of c f (k + n)) :
    Inv c { s with stream := s.stream.drop n, reading := r } := by
  obtain ⟨-, flow⟩ := flow_take here.flow le fit
  have going : r ≠ .stopped := by
    rintro rfl
    exact reading
  exact ⟨h.fits, h.sending,
    fun _ => ⟨here.results, f :: rest, here.frames, .within (k + n) pos reading flow⟩,
    fun stopped => absurd stopped going⟩

theorem Inv.answer_frame (h : Inv c s) (here : InFrame c s f rest k)
    (whole : k = (f.cells c).length) : Inv c (s.answer (.frame f)) := by
  have received : (s.answer (.frame f)).received = s.received ++ [f] := received_answer s (.frame f)
  refine ⟨h.fits, h.sending, fun _ => ⟨?_, rest, ?_, .between rfl ?_⟩, fun stopped => nomatch stopped⟩
  · rw [received, List.map_append, ← here.results]
    rfl
  · rw [received, List.append_assoc]
    exact here.frames
  · have flow := here.flow
    rw [whole, List.drop_length, List.nil_append] at flow
    exact flow

theorem Inv.recv_end (h : Inv c s) {got : List UInt8} {fds : List Nat}
    (reading : s.reading = .header got fds) (dry : s.stream = []) (closed : s.closed = true) :
    Inv c (s.answer (if got = [] ∧ fds = [] then .closed else .error)) := by
  obtain ⟨results, pending, frames, flow⟩ := h.going (by simp [reading])
  cases flow with
  | between at_ flow =>
    rw [at_] at reading
    cases reading
    rw [dry, List.nil_append] at flow
    exact h.answer_closed frames results closed flow
  | @within f rest k pos at_ flow =>
    rw [reading] at at_
    obtain ⟨short, rfl, rfl⟩ := at_
    rw [dry, List.nil_append] at flow
    have more := Nat.lt_of_lt_of_le short (cells_pos (c := c) f)
    have some : (f.bytes c).take k ≠ [] := by
      rw [Frame.cells_length] at more
      rw [Ne, List.take_eq_nil_iff, not_or]
      exact ⟨by omega, List.ne_nil_of_length_pos (by omega)⟩
    rw [if_neg fun empty => some empty.1]
    exact h.answer_error frames results closed pos flow more

theorem headed_of_bytes (s : State M) (fits : f.Fits c) (fds : List Nat) :
    s.headed ((f.bytes c).take headerLen) fds =
      { s with reading := .json (c.encode f.message).length f.payload.length [] fds } := by
  obtain ⟨json, payload⟩ := fits.lengths
  rw [State.headed, Frame.header_take, List.take_left' (toLeBytes_length _),
    List.drop_left' (toLeBytes_length _), fromLeBytes_toLeBytes json, fromLeBytes_toLeBytes payload]
  refine if_neg ?_
  obtain ⟨json, payload, -⟩ := fits
  omega

variable {s' : State M}

theorem Inv.recvmsg (h : Inv c s) {got : List UInt8} {fds : List Nat}
    (reading : s.reading = .header got fds) (step : s.recvmsg got fds n = some s') : Inv c s' := by
  unfold State.recvmsg at step
  by_cases dry : s.stream = []
  · rw [if_pos dry] at step
    obtain ⟨closed, ⟨⟩⟩ := guarded step
    exact h.recv_end reading dry closed
  · rw [if_neg dry] at step
    obtain ⟨f, rest, k, here⟩ := h.inFrame (by simp [reading]) dry
    obtain ⟨fit, step⟩ := guarded step
    obtain ⟨pos, room, le⟩ := fit
    have read := here.reading
    rw [reading] at read
    obtain ⟨short, rfl, rfl⟩ := read
    have long := cells_pos (c := c) f
    rw [Frame.cells_length] at long
    rw [List.length_take, Nat.min_eq_left (by omega)] at room
    have inside : k + n ≤ (f.cells c).length := by
      rw [Frame.cells_length]
      omega
    obtain ⟨taken, -⟩ := flow_take here.flow le inside
    rw [taken, Frame.cells, attach_take_bytes, attach_take_fds f.fds _ pos (by omega)] at step
    dsimp only at step
    rw [List.length_take, Nat.min_eq_left (by rwa [Frame.cells_length] at inside)] at step
    cases step
    split
    next whole =>
      have fits : f.Fits c := h.fits f (by rw [here.frames]; simp)
      rw [whole, headed_of_bytes _ fits]
      exact h.advance here (by omega) le inside ⟨rfl, rfl, rfl, whole, rfl⟩
    next partly =>
      exact h.advance here (by omega) le inside ⟨by omega, rfl, by rw [if_neg (by omega)]⟩

theorem read_cases {want : Nat} {bytes : Option (List UInt8)} (h : s.read want n = some bytes) :
    (s.stream = [] ∧ s.closed = true ∧ bytes = none) ∨
      (s.stream ≠ [] ∧ 0 < n ∧ n ≤ want ∧ n ≤ s.stream.length ∧
        bytes = some ((s.stream.take n).map Cell.byte)) := by
  unfold State.read at h
  by_cases dry : s.stream = []
  · rw [if_pos dry] at h
    obtain ⟨closed, h⟩ := guarded h
    exact .inl ⟨dry, closed, (Option.some.inj h).symm⟩
  · rw [if_neg dry] at h
    obtain ⟨fit, h⟩ := guarded h
    exact .inr ⟨dry, fit.1, fit.2.1, fit.2.2, (Option.some.inj h).symm⟩

structure InPart (c : Codec M) (f : Frame M) (k : Nat) (part got : List UInt8) : Prop where
  read : got = part.take got.length
  lacks : got.length ≠ part.length
  rest : ∃ after, (f.bytes c).drop k = part.drop got.length ++ after

theorem short_of_take {got whole : List UInt8} (part : got = whole.take got.length)
    (ne : got.length ≠ whole.length) : got.length < whole.length := by
  have := congrArg List.length part
  rw [List.length_take] at this
  omega

theorem inPart_json {got : List UInt8} (read : got = (c.encode f.message).take got.length)
    (lacks : got.length ≠ (c.encode f.message).length) :
    InPart c f (headerLen + got.length) (c.encode f.message) got := by
  have short := short_of_take read lacks
  refine ⟨read, lacks, f.payload, ?_⟩
  rw [← List.drop_drop, Frame.json_drop, List.drop_append_of_le_length (by omega)]

theorem inPart_payload {got : List UInt8} (read : got = f.payload.take got.length)
    (lacks : got.length ≠ f.payload.length) :
    InPart c f (headerLen + (c.encode f.message).length + got.length) f.payload got := by
  refine ⟨read, lacks, [], ?_⟩
  rw [← List.drop_drop, Frame.payload_drop, List.append_nil]

section Part

variable {part got : List UInt8} (here : InFrame c s f rest k) (at_ : InPart c f k part got)

include at_

theorem InPart.short : got.length < part.length := short_of_take at_.read at_.lacks

theorem InPart.room : k + (part.length - got.length) ≤ (f.cells c).length := by
  obtain ⟨after, rest⟩ := at_.rest
  have short := at_.short
  have length := congrArg List.length rest
  rw [List.length_drop, List.length_append, List.length_drop] at length
  rw [Frame.cells_length]
  omega

include here

theorem InPart.take (le : n ≤ s.stream.length) (fit : n ≤ part.length - got.length) :
    got ++ (s.stream.take n).map Cell.byte = part.take (got.length + n) := by
  obtain ⟨after, rest⟩ := at_.rest
  have room := at_.room
  obtain ⟨taken, -⟩ := flow_take here.flow le (by omega)
  rw [taken, List.map_take, List.map_drop, Frame.cells, attach_map_byte, rest,
    List.take_append_of_le_length (by rwa [List.length_drop]), List.take_add, ← at_.read]

theorem Inv.read_part (h : Inv c s) (pos : 0 < k) {bytes : Option (List UInt8)}
    (read : s.read (part.length - got.length) n = some bytes) (next : List UInt8 → Reading)
    (of : ∀ more : List UInt8, more = part.take more.length → more.length = got.length + n →
      (next more).Of c f (k + n)) :
    (bytes = none → Inv c (s.answer .error)) ∧ ∀ b, bytes = some b →
      Inv c { s with stream := s.stream.drop n, reading := next (got ++ b) } := by
  have room := at_.room
  have short := at_.short
  obtain ⟨dry, closed, rfl⟩ | ⟨-, some, fit, le, rfl⟩ := read_cases read
  · refine ⟨fun _ => ?_, by simp⟩
    have flow := here.flow
    rw [dry, List.nil_append] at flow
    exact h.answer_error here.frames here.results closed pos flow (by omega)
  · refine ⟨by simp, ?_⟩
    rintro _ ⟨⟩
    refine h.advance here (by omega) le (by omega) ?_
    have grown := at_.take here le fit
    have length := congrArg List.length grown
    rw [List.length_take, Nat.min_eq_left (by omega)] at length
    exact of _ (by rw [length, grown]) length

end Part

theorem Inv.read_json (h : Inv c s) {jsonLen payloadLen : Nat} {got : List UInt8} {fds : List Nat}
    (reading : s.reading = .json jsonLen payloadLen got fds)
    (step : s.step c (.read n) = some s') : Inv c s' := by
  obtain ⟨f, rest, k, pos, here⟩ := h.inside (by simp [reading]) (by simp [reading])
  have read := here.reading
  rw [reading] at read
  obtain ⟨rfl, rfl, part, rfl, rfl⟩ := read
  simp only [State.step, reading] at step
  split at step
  next whole =>
    cases step
    have len := Frame.bytes_length (c := c) (f := f)
    have all : got = c.encode f.message := by rw [part, whole, List.take_length]
    have := h.advance (n := 0) here (by omega) (Nat.zero_le _) (by rw [Frame.cells_length]; omega)
      (r := .payload got f.payload.length [] f.fds) ⟨all, rfl, rfl, by simp, rfl⟩
    simpa using this
  next partly =>
    obtain ⟨bytes, read, rfl⟩ := Option.map_eq_some_iff.mp step
    obtain ⟨failed, goes⟩ := h.read_part here (inPart_json part partly) pos read
      (.json _ f.payload.length · f.fds) fun more is length => ⟨rfl, rfl, is, by omega, rfl⟩
    cases bytes with
    | none => exact failed rfl
    | some b => exact goes b rfl

theorem Inv.read_payload (h : Inv c s) {text : List UInt8} {payloadLen : Nat} {got : List UInt8}
    {fds : List Nat} (reading : s.reading = .payload text payloadLen got fds)
    (step : s.step c (.read n) = some s') : Inv c s' := by
  obtain ⟨f, rest, k, pos, here⟩ := h.inside (by simp [reading]) (by simp [reading])
  have read := here.reading
  rw [reading] at read
  obtain ⟨rfl, rfl, part, rfl, rfl⟩ := read
  simp only [State.step, reading] at step
  split at step
  next whole =>
    have len := Frame.bytes_length (c := c) (f := f)
    have all : got = f.payload := by rw [part, whole, List.take_length]
    rw [c.decode_encode] at step
    cases step
    rw [all]
    have ended := h.answer_frame here (by rw [Frame.cells_length]; omega)
    exact ended
  next partly =>
    obtain ⟨bytes, read, rfl⟩ := Option.map_eq_some_iff.mp step
    obtain ⟨failed, goes⟩ := h.read_part here (inPart_payload part partly) pos read
      (.payload _ f.payload.length · f.fds) fun more is length => ⟨rfl, rfl, is, by omega, rfl⟩
    cases bytes with
    | none => exact failed rfl
    | some b => exact goes b rfl

end Receiving

section Sending

variable {c : Codec M} {s s' : State M}

theorem Flow.grows {pending : List (Frame M)} (h : Flow c s pending) (more : List (Frame M))
    (reading : s'.reading = s.reading)
    (flow : s'.stream ++ s'.unsent c = s.stream ++ s.unsent c ++ more.flatMap (Frame.cells c)) :
    Flow c s' (pending ++ more) := by
  cases h with
  | between at_ rest =>
    refine .between (reading.trans at_) ?_
    rw [flow, rest, List.flatMap_append]
  | within k pos at_ rest =>
    rw [List.cons_append]
    refine .within k pos (reading ▸ at_) ?_
    rw [flow, rest, List.flatMap_append, List.append_assoc]

theorem Inv.send (h : Inv c s) {f : Frame M} (idle : s.sending = none) (opened : s.closed = false)
    (fits : f.Fits c) :
    Inv c { s with sending := some f, sent := 0, frames := s.frames ++ [f] } := by
  refine ⟨fun g mem => ?_, fun g is => ?_, fun going => ?_, fun stopped => ?_⟩
  · obtain old | new := List.mem_append.mp mem
    · exact h.fits g old
    · rw [List.mem_singleton.mp new]
      exact fits
  · cases is
    exact ⟨Nat.lt_of_lt_of_le (Nat.zero_lt_succ 7) (cells_pos f), s.frames, rfl⟩
  · obtain ⟨results, pending, frames, flow⟩ := h.going going
    refine ⟨results, pending ++ [f], ?_, flow.grows [f] rfl ?_⟩
    · change s.frames ++ [f] = s.received ++ (pending ++ [f])
      rw [frames, List.append_assoc]
    · simp [State.unsent, idle]
  · rw [(h.finished stopped).1] at opened
    cases opened

theorem unsent_sendmsg (s : State M) (f : Frame M) (n : Nat) (stream : List Cell) :
    State.unsent c { s with
      stream := stream
      sent := s.sent + n
      sending := if s.sent + n = (f.cells c).length then none else some f } =
        (f.cells c).drop (s.sent + n) := by
  unfold State.unsent
  by_cases whole : s.sent + n = (f.cells c).length
  · simp only [whole, if_true, List.drop_length]
  · simp only [whole, if_false]

theorem Inv.sendmsg (h : Inv c s) {f : Frame M} {n : Nat} (sending : s.sending = some f)
    (opened : s.closed = false) (fit : s.sent + n ≤ (f.cells c).length) :
    Inv c { s with
      stream := s.stream ++ ((f.cells c).drop s.sent).take n
      sent := s.sent + n
      sending := if s.sent + n = (f.cells c).length then none else some f } := by
  refine ⟨h.fits, fun g is => ?_, fun going => ?_, fun stopped => ?_⟩
  · dsimp only at is
    split at is
    next => cases is
    next partly =>
      cases is
      exact ⟨by dsimp only; omega, (h.sending f sending).2⟩
  · obtain ⟨results, pending, frames, flow⟩ := h.going going
    refine ⟨results, pending, frames, ?_⟩
    rw [← List.append_nil pending]
    refine flow.grows [] rfl ?_
    have written : (f.cells c).drop s.sent =
        ((f.cells c).drop s.sent).take n ++ (f.cells c).drop (s.sent + n) := by
      rw [← List.drop_drop, List.take_append_drop]
    have unsent : s.unsent c = (f.cells c).drop s.sent := by rw [State.unsent, sending]
    rw [unsent_sendmsg, unsent, List.flatMap_nil, List.append_nil, List.append_assoc, ← written]
  · rw [(h.finished stopped).1] at opened
    cases opened

theorem Inv.shut (h : Inv c s) : Inv c { s with closed := true } := by
  refine ⟨h.fits, h.sending, fun going => ?_, fun stopped => ?_⟩
  · obtain ⟨results, pending, frames, flow⟩ := h.going going
    refine ⟨results, pending, frames, ?_⟩
    rw [← List.append_nil pending]
    exact flow.grows [] rfl (by simp [State.unsent])
  · obtain ⟨-, rest, r, frames, results, stop⟩ := h.finished stopped
    refine ⟨rfl, rest, r, frames, results, ?_⟩
    cases stop with
    | closed whole cut => exact .closed whole cut
    | cut sending inside => exact .cut sending inside

end Sending

/-- `sendmsg` and `recvmsg` are not interrupted; `read` may be. -/
def Uninterrupted (_ : State M) : Event M → Prop
  | .sendInterrupted | .recvInterrupted => False
  | _ => True

instance (s : State M) : (e : Event M) → Decidable (Uninterrupted s e)
  | .sendInterrupted | .recvInterrupted => isFalse id
  | .send _ | .sendmsg _ | .close | .cut | .recvmsg _ | .read _ | .readInterrupted => isTrue trivial

section Runs

variable {c : Codec M} {s s' : State M}

theorem inv_initial : Inv c ({} : State M) :=
  ⟨fun _ mem => absurd mem List.not_mem_nil, fun _ sending => absurd sending (by simp),
    fun _ => ⟨rfl, [], rfl, .between rfl rfl⟩, fun stopped => absurd stopped (by simp)⟩

theorem Inv.next (h : Inv c s) {e : Event M} (ok : Uninterrupted s e) (step : s.step c e = some s') :
    Inv c s' := by
  cases e with
  | send f =>
    obtain ⟨guard, ⟨⟩⟩ := guarded step
    exact h.send (Option.isNone_iff_eq_none.mp guard.1) guard.2.1 guard.2.2
  | sendmsg n =>
    simp only [State.step] at step
    split at step
    next f sending =>
      obtain ⟨guard, ⟨⟩⟩ := guarded step
      exact h.sendmsg sending guard.1 guard.2.2
    next => cases step
  | sendInterrupted => exact ok.elim
  | close | cut =>
    obtain ⟨-, ⟨⟩⟩ := guarded step
    exact h.shut
  | recvmsg n =>
    simp only [State.step] at step
    split at step
    next got fds reading => exact h.recvmsg reading step
    next => cases step
  | recvInterrupted => exact ok.elim
  | read n =>
    cases reading : s.reading with
    | json jsonLen payloadLen got fds => exact h.read_json reading step
    | payload text payloadLen got fds => exact h.read_payload reading step
    | header got fds =>
      simp only [State.step, reading] at step
      cases step
    | stopped =>
      simp only [State.step, reading] at step
      cases step
  | readInterrupted =>
    cases step
    exact h

theorem inv_reachable (h : (channelSystem c).ReachableBy Uninterrupted s) : Inv c s := by
  refine System.ReachableBy.invariant (P := Inv c) (fun t start => ?_) (fun t e u _ inv ok next => ?_) h
  · rw [show t = {} from start]
    exact inv_initial
  · exact inv.next ok next

/-- What `recv` is to return of what was sent so far: the frames that were sent whole, and how the
stream ended. -/
def State.due (s : State M) : List (Result M) :=
  match s.sending with
  | none => s.frames.map .frame ++ if s.closed then [.closed] else []
  | some _ => s.frames.dropLast.map .frame ++
      if s.closed then [if s.sent = 0 then .closed else .error] else []

theorem due_of_sending {f : Frame M} {before : List (Frame M)} (sending : s.sending = some f)
    (frames : s.frames = before ++ [f]) : s.due = before.map .frame ++
      if s.closed then [if s.sent = 0 then .closed else .error] else [] := by
  rw [State.due, sending, frames]
  simp

theorem due_of_idle (sending : s.sending = none) :
    s.due = s.frames.map .frame ++ if s.closed then [.closed] else [] := by
  rw [State.due, sending]

theorem Inv.none_pending (h : Inv c s) (flow : Flow c s []) : s.sending = none := by
  cases flow with
  | between at_ flow =>
    cases sending : s.sending with
    | none => rfl
    | some f =>
      have lengths := congrArg List.length flow
      rw [State.unsent, sending, List.length_append] at lengths
      simp only [List.length_drop, List.flatMap_nil, List.length_nil] at lengths
      have := (h.sending f sending).1
      omega

theorem Inv.results_due (h : Inv c s) (stopped : s.reading = .stopped) : s.results = s.due := by
  obtain ⟨closed, rest, r, frames, results, stop⟩ := h.finished stopped
  rw [results]
  cases stop with
  | closed whole cut =>
    cases sending : s.sending with
    | none =>
      rw [due_of_idle sending, frames, whole sending, closed, List.append_nil, if_pos rfl]
    | some f =>
      obtain ⟨rfl, sent⟩ := cut f sending
      rw [due_of_sending sending frames, closed, if_pos rfl, if_pos sent]
  | cut sending inside =>
    rw [due_of_sending sending frames, closed, if_pos rfl, if_neg (Nat.pos_iff_ne_zero.mp inside)]

theorem Inv.results_prefix (h : Inv c s) : s.results <+: s.due := by
  by_cases stopped : s.reading = .stopped
  · exact h.results_due stopped ▸ List.prefix_rfl
  · obtain ⟨results, pending, frames, flow⟩ := h.going stopped
    rw [results]
    cases sending : s.sending with
    | none =>
      rw [due_of_idle sending, frames, List.map_append, List.append_assoc]
      exact List.prefix_append ..
    | some f =>
      obtain ⟨-, before, last⟩ := h.sending f sending
      obtain rfl | ⟨init, g, rfl⟩ := List.eq_nil_or_concat pending
      · rw [h.none_pending flow] at sending
        cases sending
      · rw [List.concat_eq_append, ← List.append_assoc] at frames
        obtain rfl : f = g := by
          have := congrArg List.getLast? (last.symm.trans frames)
          rw [List.getLast?_concat, List.getLast?_concat] at this
          exact Option.some.inj this
        rw [due_of_sending sending frames, List.map_append, List.append_assoc]
        exact List.prefix_append ..

theorem Inv.waiting {f : Frame M} {rest : List (Frame M)} {k : Nat} (h : Inv c s)
    (here : InFrame c s f rest k) (more : k < (f.cells c).length) (dry : s.stream = [])
    (opened : s.closed = false) : s.results = s.due := by
  have flow := here.flow
  rw [dry, List.nil_append] at flow
  obtain ⟨rfl, sending, -⟩ := h.drained here.frames flow more
  rw [due_of_sending sending here.frames, opened, here.results]
  simp

def Event.receives : Event M → Bool
  | .recvmsg _ | .read _ => true
  | _ => false

theorem recvmsg_enabled {got : List UInt8} (fds : List Nat) (short : got.length < headerLen)
    (more : s.stream ≠ [] ∨ s.closed = true) : ∃ n, (s.recvmsg got fds n).isSome = true := by
  unfold State.recvmsg
  by_cases dry : s.stream = []
  · have closed := more.resolve_left (fun some => some dry)
    exact ⟨0, by rw [if_pos dry, if_pos closed]; rfl⟩
  · have pos := List.length_pos_of_ne_nil dry
    exact ⟨1, by rw [if_neg dry, if_pos ⟨by omega, by omega, pos⟩]; rfl⟩

theorem Inv.reads {f : Frame M} {rest : List (Frame M)} {k : Nat} {part got : List UInt8}
    (h : Inv c s) (here : InFrame c s f rest k) (at_ : InPart c f k part got)
    (lacking : s.results ≠ s.due) :
    ∃ n bytes, s.read (part.length - got.length) n = some bytes := by
  have short := at_.short
  have room := at_.room
  have more : k < (f.cells c).length := by omega
  unfold State.read
  by_cases dry : s.stream = []
  · cases closed : s.closed with
    | true => exact ⟨0, none, by rw [if_pos dry, if_pos rfl]⟩
    | false => exact absurd (h.waiting here more dry closed) lacking
  · have pos := List.length_pos_of_ne_nil dry
    exact ⟨1, _, by rw [if_neg dry, if_pos ⟨by omega, by omega, pos⟩]⟩

theorem Inv.progress (h : Inv c s) (lacking : s.results ≠ s.due) :
    ∃ e : Event M, e.receives = true ∧ ∃ s', s.step c e = some s' := by
  have open_ (dry : ¬ (s.stream ≠ [] ∨ s.closed = true)) : s.stream = [] ∧ s.closed = false := by
    simpa [not_or] using dry
  cases reading : s.reading with
  | stopped => exact absurd (h.results_due reading) lacking
  | header got fds =>
    obtain ⟨results, pending, frames, flow⟩ := h.going (by simp [reading])
    by_cases more : s.stream ≠ [] ∨ s.closed = true
    · have short : got.length < headerLen := by
        cases flow with
        | between at_ =>
          rw [at_] at reading
          cases reading
          decide
        | within k pos at_ =>
          rw [reading] at at_
          obtain ⟨short, rfl, -⟩ := at_
          rw [List.length_take]
          omega
      obtain ⟨n, enabled⟩ := recvmsg_enabled fds short more
      exact ⟨.recvmsg n, rfl, Option.isSome_iff_exists.mp (by simpa only [State.step, reading])⟩
    · obtain ⟨dry, opened⟩ := open_ more
      refine absurd ?_ lacking
      cases pending with
      | nil =>
        rw [due_of_idle (h.none_pending flow), frames, results, opened]
        simp
      | cons f rest =>
        obtain ⟨k, at_, flow⟩ := flow.first
        have short : k < headerLen := by
          rw [reading] at at_
          exact at_.1
        exact h.waiting ⟨results, frames, at_, flow⟩ (Nat.lt_of_lt_of_le short (cells_pos f)) dry
          opened
  | json jsonLen payloadLen got fds =>
    by_cases whole : got.length = jsonLen
    · exact ⟨.read 0, rfl, by simp [State.step, reading, whole]⟩
    · obtain ⟨f, rest, k, -, here⟩ := h.inside (by simp [reading]) (by simp [reading])
      have at_ := here.reading
      rw [reading] at at_
      obtain ⟨rfl, rfl, part, rfl, rfl⟩ := at_
      obtain ⟨n, bytes, read⟩ := h.reads here (inPart_json part whole) lacking
      exact ⟨.read n, rfl, by simp [State.step, reading, whole, read]⟩
  | payload text payloadLen got fds =>
    by_cases whole : got.length = payloadLen
    · exact ⟨.read 0, rfl, by simp [State.step, reading, whole]⟩
    · obtain ⟨f, rest, k, -, here⟩ := h.inside (by simp [reading]) (by simp [reading])
      have at_ := here.reading
      rw [reading] at at_
      obtain ⟨rfl, rfl, part, rfl, rfl⟩ := at_
      obtain ⟨n, bytes, read⟩ := h.reads here (inPart_payload part whole) lacking
      exact ⟨.read n, rfl, by simp [State.step, reading, whole, read]⟩

def Reading.weight : Reading → Nat
  | .header _ _ => 1
  | .json _ _ _ _ => 3
  | .payload _ _ _ _ => 2
  | .stopped => 0

def State.left (s : State M) : Nat := 3 * s.stream.length + s.reading.weight

theorem left_answer_lt (r : Result M) (f : s.reading ≠ .stopped)
    (frame : ∀ f, r = .frame f → 1 < s.reading.weight) : (s.answer r).left < s.left := by
  cases r with
  | frame f => exact Nat.add_lt_add_left (frame f rfl) _
  | closed | error =>
    refine Nat.add_lt_add_left ?_ _
    change 0 < s.reading.weight
    cases reading : s.reading with
    | stopped => exact absurd reading f
    | _ => simp [Reading.weight]

theorem left_drop_lt {n w : Nat} (some : 0 < n) (le : n ≤ s.stream.length)
    (weight : w ≤ s.reading.weight + 2) : 3 * (s.stream.drop n).length + w < s.left := by
  unfold State.left
  rw [List.length_drop]
  omega

theorem step_receives {e : Event M} (receives : e.receives = true) (step : s.step c e = some s') :
    s'.due = s.due ∧ s'.left < s.left := by
  cases e with
  | recvmsg n =>
    simp only [State.step] at step
    split at step
    next got fds reading =>
      unfold State.recvmsg at step
      split at step
      next dry =>
        split at step <;> cases step
        refine ⟨rfl, left_answer_lt _ (by simp [reading]) fun f is => ?_⟩
        split at is <;> cases is
      next =>
        split at step <;> cases step
        next fit =>
          have drop (w : Nat) (le : w ≤ 3) :=
            left_drop_lt (w := w) fit.1 fit.2.2 (by rw [reading]; exact le)
          dsimp only
          split
          · unfold State.headed
            dsimp only
            split
            · exact ⟨rfl, drop 0 (by decide)⟩
            · exact ⟨rfl, drop 3 (by decide)⟩
          · exact ⟨rfl, drop 1 (by decide)⟩
    next => cases step
  | read n =>
    simp only [State.step] at step
    split at step
    next jsonLen payloadLen got fds reading =>
      split at step
      · cases step
        refine ⟨rfl, Nat.add_lt_add_left ?_ _⟩
        rw [reading]
        exact Nat.lt_succ_self 2
      · obtain ⟨bytes, read, rfl⟩ := Option.map_eq_some_iff.mp step
        obtain ⟨-, -, rfl⟩ | ⟨-, some, -, le, rfl⟩ := read_cases read
        · exact ⟨rfl, left_answer_lt _ (by simp [reading]) (by simp)⟩
        · exact ⟨rfl, left_drop_lt (w := 3) some le (by rw [reading]; exact Nat.le_add_right 3 2)⟩
    next text payloadLen got fds reading =>
      split at step
      · cases step
        split
        · exact ⟨rfl, left_answer_lt _ (by simp [reading]) (by simp [reading, Reading.weight])⟩
        · exact ⟨rfl, left_answer_lt _ (by simp [reading]) (by simp)⟩
      · obtain ⟨bytes, read, rfl⟩ := Option.map_eq_some_iff.mp step
        obtain ⟨-, -, rfl⟩ | ⟨-, some, -, le, rfl⟩ := read_cases read
        · exact ⟨rfl, left_answer_lt _ (by simp [reading]) (by simp)⟩
        · exact ⟨rfl, left_drop_lt (w := 2) some le (by rw [reading]; exact Nat.le_add_right 2 2)⟩
    next => cases step
  | _ => cases receives

theorem uninterrupted_of_receives {e : Event M} (receives : e.receives = true) :
    Uninterrupted s e := by
  cases e <;> trivial

theorem Inv.finishes {n : Nat} : ∀ {s : State M}, Inv c s → s.left ≤ n →
    ∃ events t, (∀ e ∈ events, e.receives = true) ∧ (channelSystem c).run s events = some t ∧
      t.results = s.due := by
  induction n with
  | zero =>
    intro s h le
    refine ⟨[], s, by simp, rfl, ?_⟩
    by_contra lacking
    obtain ⟨e, receives, s', step⟩ := h.progress lacking
    have := (step_receives receives step).2
    omega
  | succ n ih =>
    intro s h le
    by_cases lacking : s.results = s.due
    · exact ⟨[], s, by simp, rfl, lacking⟩
    · obtain ⟨e, receives, s', step⟩ := h.progress lacking
      obtain ⟨due, less⟩ := step_receives receives step
      obtain ⟨events, t, all, run, results⟩ :=
        ih (h.next (uninterrupted_of_receives receives) step) (by omega)
      refine ⟨e :: events, t, ?_, ?_, results.trans due⟩
      · intro e' mem
        obtain rfl | mem := List.mem_cons.mp mem
        · exact receives
        · exact all e' mem
      · change ((channelSystem c).next s e).bind _ = _
        rw [show (channelSystem c).next s e = some s' from step]
        exact run

/-- If no `sendmsg` and no `recvmsg` is interrupted, `recv` returns nothing but the frames that were
sent, in order and with their descriptors, and how the stream ended; and it gets there. -/
theorem recv_returns_sent (c : Codec M) {s : State M}
    (h : (channelSystem c).ReachableBy Uninterrupted s) :
    s.results <+: s.due ∧ ∃ events t, (∀ e ∈ events, e.receives = true) ∧
      (channelSystem c).run s events = some t ∧ t.results = s.due :=
  have inv := inv_reachable h
  ⟨inv.results_prefix, inv.finishes (Nat.le_refl _)⟩

end Runs

def byteCodec : Codec UInt8 where
  encode b := [b]
  decode bytes := bytes.head?
  decode_encode _ := rfl

/-- Two frames, of which the first has a payload and descriptors, written and read in pieces. -/
theorem recv_returns_sent_split : ∃ s : State UInt8,
    s.results = [.frame ⟨65, [1, 2], [7, 8]⟩] ∧ ∃ t : State UInt8,
      t.results = [.frame ⟨65, [1, 2], [7, 8]⟩, .frame ⟨66, [], [9]⟩, .closed] := by
  obtain ⟨s, reach, results, due⟩ : ∃ s, (channelSystem byteCodec).ReachableBy Uninterrupted s ∧
      s.results = [.frame ⟨65, [1, 2], [7, 8]⟩] ∧
        s.due = [.frame ⟨65, [1, 2], [7, 8]⟩, .frame ⟨66, [], [9]⟩, .closed] :=
    System.exists_reachableBy_of_runBy (s := ({} : State UInt8))
      (l := [.send ⟨65, [1, 2], [7, 8]⟩, .sendmsg 5, .recvmsg 3, .recvmsg 2, .sendmsg 6,
        .send ⟨66, [], [9]⟩, .recvmsg 3, .readInterrupted, .read 1, .read 0, .sendmsg 9, .read 1, .read 1,
        .read 0, .recvmsg 8, .close])
      (.init rfl) (by decide +kernel)
  obtain ⟨-, events, t, -, -, returned⟩ := recv_returns_sent byteCodec reach
  exact ⟨s, results, t, returned.trans due⟩

/-- An interrupted `recvmsg` is an error although the frame was sent whole, and an interrupted
`sendmsg` cuts the frame off. -/
theorem interrupted_recv_fails :
    (∃ s, (channelSystem byteCodec).Reachable s ∧ s.sending = none ∧ s.closed = false ∧
      s.due = [.frame ⟨65, [], [7]⟩] ∧ s.results = [.error]) ∧
    ∃ s, (channelSystem byteCodec).Reachable s ∧ s.frames = [⟨65, [], [7]⟩] ∧ s.results = [.error] := by
  refine ⟨?_, ?_⟩
  · exact System.exists_reachable_of_run (s := ({} : State UInt8))
      (l := [.send ⟨65, [], [7]⟩, .sendmsg 9, .recvmsg 4, .recvInterrupted]) (.init rfl)
      (by decide +kernel)
  · exact System.exists_reachable_of_run (s := ({} : State UInt8))
      (l := [.send ⟨65, [], [7]⟩, .sendmsg 4, .sendInterrupted, .recvmsg 4, .recvmsg 0]) (.init rfl)
      (by decide +kernel)

end ServiceCache.Channel
