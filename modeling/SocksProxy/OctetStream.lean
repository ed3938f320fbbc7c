import SocksProxy.Program

/-!
# Octet streams

A stream is asked for at most so many octets, and to take octets of which it
may take only some. An answer without octets marks the end of the input. What
is read or written exactly may take any number of such requests.
-/

namespace SocksProxy

/-- The capacity of the buffer for messages, which holds the longest of them. -/
def scratchSize : Nat := 520

namespace OctetStream

inductive Request where
  | receive (limit : Nat)
  | send (octets : Bytes)
  deriving DecidableEq

@[reducible] def Answer : Request → Type
  | .receive limit => Except IoError { octets : Bytes // octets.length ≤ limit }
  | .send octets => Except IoError { taken : Nat // taken ≤ octets.length }

abbrev interface : Interface := ⟨Request, Answer⟩

def receive (limit : Nat) : Action interface Bytes :=
  Action.attempt (.receive limit) fun answer => answer.map Subtype.val

def send (octets : Bytes) : Action interface Nat :=
  Action.attempt (.send octets) fun answer => answer.map Subtype.val

/-- Receives octets until none is missing. Each request but the last gives one of them
at least, so that there are no more requests than octets. -/
def receiveMore : (requests missing : Nat) → Action interface Bytes
  | 0, _ => pure []
  | requests + 1, missing => do
    if missing = 0 then return []
    let octets ← receive missing
    if octets.isEmpty then throw (.io (.raised .unexpectedEof))
    return octets ++ (← receiveMore requests (missing - octets.length))

def receiveExactly (count : Nat) : Action interface Bytes := receiveMore count count

def receiveWithin (capacity count : Nat) : Action interface Bytes := do
  if capacity < count then throw (.shortBuffer count capacity)
  receiveExactly count

def receiveOctet : Action interface UInt8 := do
  let octets ← receiveExactly 1
  return octets.headD 0

def sendMore : (requests : Nat) → (octets : Bytes) → Action interface Unit
  | 0, _ => pure ()
  | requests + 1, octets => do
    if octets.isEmpty then return
    let taken ← send octets
    if taken = 0 then throw (.io (.raised .writeZero))
    sendMore requests (octets.drop taken)

def sendAll (octets : Bytes) : Action interface Unit := sendMore octets.length octets

end OctetStream

end SocksProxy
