import Mathlib.Algebra.Group.Nat.Defs
import ServiceCache.Transition

/-!
# The control channel

`Channel::send` and `Channel::recv` on the two ends of a stream socket. The kernel takes and
hands out as many bytes at a time as it likes, and may interrupt a call before it has moved
any. The encoding of messages is a parameter, of which only its round trip is used.
-/

namespace ServiceCache.Channel

open Transition (System)

structure Codec (M : Type) where
  encode : M → List UInt8
  decode : List UInt8 → Option M
  decode_encode : ∀ m, decode (encode m) = some m

structure Frame (M : Type) where
  message : M
  payload : List UInt8
  fds : List Nat
  deriving DecidableEq, Repr

def headerLen : Nat := 8
def maxJsonLen : Nat := 64 * 1024
def maxPayloadLen : Nat := 256 * 1024 * 1024
def maxFds : Nat := 4

def toLeBytes (n : Nat) : List UInt8 :=
  [.ofNat n, .ofNat (n / 2 ^ 8), .ofNat (n / 2 ^ 16), .ofNat (n / 2 ^ 24)]

def fromLeBytes (bytes : List UInt8) : Nat := bytes.foldr (fun b n => b.toNat + 2 ^ 8 * n) 0

structure Cell where
  byte : UInt8
  fds : List Nat
  deriving DecidableEq, Repr

section Frame

variable {M : Type} (c : Codec M)

/-- What `recv` accepts. -/
def Frame.Fits (f : Frame M) : Prop :=
  (c.encode f.message).length ≤ maxJsonLen ∧ f.payload.length ≤ maxPayloadLen ∧
    f.fds.length ≤ maxFds

instance (f : Frame M) : Decidable (f.Fits c) := inferInstanceAs (Decidable (_ ∧ _ ∧ _))

def Frame.bytes (f : Frame M) : List UInt8 :=
  toLeBytes (c.encode f.message).length ++ toLeBytes f.payload.length ++ c.encode f.message ++
    f.payload

def attach (fds : List Nat) : List UInt8 → List Cell
  | [] => []
  | b :: bytes => ⟨b, fds⟩ :: bytes.map (⟨·, []⟩)

def Frame.cells (f : Frame M) : List Cell := attach f.fds (f.bytes c)

end Frame

inductive Reading
  | header (got : List UInt8) (fds : List Nat)
  | json (jsonLen payloadLen : Nat) (got : List UInt8) (fds : List Nat)
  | payload (json : List UInt8) (payloadLen : Nat) (got : List UInt8) (fds : List Nat)
  /-- The end of the stream, or an error, was returned. -/
  | stopped
  deriving DecidableEq, Repr

inductive Result (M : Type)
  | frame (f : Frame M)
  | closed
  | error
  deriving DecidableEq, Repr

/-- Both ends and the stream. `frames` are those that `send` was called with, the one it is at
included; it is history. -/
structure State (M : Type) where
  sending : Option (Frame M) := none
  sent : Nat := 0
  frames : List (Frame M) := []
  stream : List Cell := []
  closed : Bool := false
  reading : Reading := .header [] []
  results : List (Result M) := []

inductive Event (M : Type)
  | send (f : Frame M)
  | sendmsg (n : Nat)
  /-- `EINTR`: `send` fails, and its caller gives the channel up. -/
  | sendInterrupted
  | close
  /-- The sender dies in the middle of a frame. -/
  | cut
  | recvmsg (n : Nat)
  | recvInterrupted
  | read (n : Nat)
  | readInterrupted

variable {M : Type}

def State.answer (s : State M) (r : Result M) : State M :=
  { s with
    results := s.results ++ [r]
    reading := match r with
      | .frame _ => .header [] []
      | _ => .stopped }

def State.headed (s : State M) (header : List UInt8) (fds : List Nat) : State M :=
  let jsonLen := fromLeBytes (header.take 4)
  let payloadLen := fromLeBytes (header.drop 4)
  if maxJsonLen < jsonLen ∨ maxPayloadLen < payloadLen then s.answer .error
  else { s with reading := .json jsonLen payloadLen [] fds }

def State.recvmsg (s : State M) (got : List UInt8) (fds : List Nat) (n : Nat) : Option (State M) :=
  if s.stream = [] then
    if s.closed then some (s.answer (if got = [] ∧ fds = [] then .closed else .error)) else none
  else if 0 < n ∧ n ≤ headerLen - got.length ∧ n ≤ s.stream.length then
    let got := got ++ (s.stream.take n).map Cell.byte
    let fds := fds ++ (s.stream.take n).flatMap Cell.fds
    let s := { s with stream := s.stream.drop n }
    some (if got.length = headerLen then s.headed got fds
      else { s with reading := .header got fds })
  else none

/-- `read` into a buffer that lacks `want` bytes: what it got, or that the stream is over. -/
def State.read (s : State M) (want n : Nat) : Option (Option (List UInt8)) :=
  if s.stream = [] then if s.closed then some none else none
  else if 0 < n ∧ n ≤ want ∧ n ≤ s.stream.length then some (some ((s.stream.take n).map Cell.byte))
  else none

def State.step (c : Codec M) (s : State M) : Event M → Option (State M)
  | .send f =>
    if s.sending.isNone ∧ s.closed = false ∧ f.Fits c then
      some { s with sending := some f, sent := 0, frames := s.frames ++ [f] }
    else none
  | .sendmsg n =>
    match s.sending with
    | some f =>
      if s.closed = false ∧ 0 < n ∧ s.sent + n ≤ (f.cells c).length then
        some { s with
          stream := s.stream ++ ((f.cells c).drop s.sent).take n
          sent := s.sent + n
          sending := if s.sent + n = (f.cells c).length then none else some f }
      else none
    | none => none
  | .sendInterrupted =>
    if s.sending.isSome ∧ s.closed = false then some { s with closed := true } else none
  | .close => if s.sending.isNone then some { s with closed := true } else none
  | .cut => if s.sending.isSome then some { s with closed := true } else none
  | .recvmsg n =>
    match s.reading with
    | .header got fds => s.recvmsg got fds n
    | _ => none
  | .recvInterrupted =>
    match s.reading with
    | .header _ _ => some (s.answer .error)
    | _ => none
  | .read n =>
    match s.reading with
    | .json jsonLen payloadLen got fds =>
      if got.length = jsonLen then some { s with reading := .payload got payloadLen [] fds }
      else (s.read (jsonLen - got.length) n).map fun
        | some bytes => { s with
            stream := s.stream.drop n, reading := .json jsonLen payloadLen (got ++ bytes) fds }
        | none => s.answer .error
    | .payload json payloadLen got fds =>
      if got.length = payloadLen then
        some (match c.decode json with
          | some message => s.answer (.frame ⟨message, got, fds⟩)
          | none => s.answer .error)
      else (s.read (payloadLen - got.length) n).map fun
        | some bytes => { s with
            stream := s.stream.drop n, reading := .payload json payloadLen (got ++ bytes) fds }
        | none => s.answer .error
    | _ => none
  -- `read_exact` tries again
  | .readInterrupted => some s

def channelSystem (c : Codec M) : System (State M) (Event M) where
  Initial s := s = {}
  next := State.step c

end ServiceCache.Channel
