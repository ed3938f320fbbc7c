import SocksProxy.OctetStream
import SocksProxy.Relay

/-!
# Streams in memory

The input of such a stream is given beforehand, in chunks, with what follows
them. A request gets octets of one chunk only. The stream takes so many octets
in all, and so many at a time.
-/

namespace SocksProxy

inductive Ending where
  | endOfInput
  | silence
  | failure (kind : IoKind)
  deriving DecidableEq, Repr

inductive Refusal where
  | takesNothing
  | failure (kind : IoKind)
  deriving DecidableEq, Repr

structure MemoryStream where
  input : List Bytes
  ending : Ending
  /-- How many octets may still be sent, if there is a bound. -/
  room : Option Nat
  atOnce : Option Nat
  refusal : Refusal
  /-- The octets sent, the latest request first. -/
  sent : List Bytes
  closed : Bool

namespace MemoryStream

def sentOctets (s : MemoryStream) : Bytes := s.sent.reverse.flatten

def available (s : MemoryStream) : Nat := s.input.flatten.length

def afterInput (ending : Ending) (limit : Nat) :
    Option (OctetStream.Answer (.receive limit)) :=
  match ending with
  | .endOfInput => some (.ok ⟨[], Nat.zero_le _⟩)
  | .silence => none
  | .failure kind => some (.error (.raised kind))

def receive (limit : Nat) (s : MemoryStream) :
    Option (OctetStream.Answer (.receive limit)) × MemoryStream :=
  match s.input.dropWhile List.isEmpty with
  | [] => (afterInput s.ending limit, { s with input := [] })
  | chunk :: rest =>
    let left := chunk.drop limit
    (some (.ok ⟨chunk.take limit, List.length_take_le limit chunk⟩),
      { s with input := if left.isEmpty then rest else left :: rest })

def bounded (bound : Option Nat) (octets : Bytes) : Bytes :=
  match bound with
  | none => octets
  | some most => octets.take most

theorem length_bounded_le (bound : Option Nat) (octets : Bytes) :
    (bounded bound octets).length ≤ octets.length := by
  cases bound with
  | none => exact Nat.le_refl _
  | some most => exact List.length_take_le' most octets

def send (octets : Bytes) (s : MemoryStream) :
    Option (OctetStream.Answer (.send octets)) × MemoryStream :=
  if s.room = some 0 then
    match s.refusal with
    | .takesNothing => (some (.ok ⟨0, Nat.zero_le _⟩), s)
    | .failure kind => (some (.error (.raised kind)), s)
  else
    let taken := bounded s.room (bounded s.atOnce octets)
    (some (.ok ⟨taken.length, Nat.le_trans (length_bounded_le ..) (length_bounded_le ..)⟩),
      { s with sent := taken :: s.sent, room := s.room.map (· - taken.length) })

def provide : Provider OctetStream.interface MemoryStream
  | .receive limit, s => receive limit s
  | .send octets, s => send octets s

def endpoint {σ : Type} (get : σ → MemoryStream) (set : σ → MemoryStream → σ) :
    Endpoint σ where
  receive limit s :=
    let (answer, stream) := (get s).receive limit
    (answer.map (·.map Subtype.val), set s stream)
  send octets s :=
    let (answer, stream) := (get s).send octets
    (answer.map (·.map Subtype.val), set s stream)
  close s := (some (.ok ()), set s { get s with closed := true })

end MemoryStream

end SocksProxy
