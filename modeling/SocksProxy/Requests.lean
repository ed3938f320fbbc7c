import SocksProxy.AddressRecord
import SocksProxy.OctetStream

/-!
# The messages of a client

Method selection, the username and password, and the command request. A reader
receives the octets of its message and no more, into a buffer of the given
capacity. It refuses a wrong version as soon as the length of the first part is
known.
-/

namespace SocksProxy

open OctetStream

structure Greeting where
  methods : Bytes
  deriving DecidableEq, Repr

namespace Greeting

def offers (greeting : Greeting) (method : AuthMethod) : Bool :=
  greeting.methods.contains method.code

def receive (capacity : Nat) : Action OctetStream.interface Greeting := do
  let head ← receiveWithin capacity 2
  let version := head.getD 0 0
  if version ≠ protocolVersion then throw (.invalidVersion version)
  return ⟨← receiveWithin capacity (head.getD 1 0).toNat⟩

end Greeting

structure Credentials where
  username : Bytes
  password : Bytes
  deriving DecidableEq, Repr

namespace Credentials

def receive (capacity : Nat) : Action OctetStream.interface Credentials := do
  let head ← receiveWithin capacity 2
  let version := head.getD 0 0
  if version ≠ subnegotiationVersion then throw (.invalidSubnegotiationVersion version)
  let username ← receiveWithin capacity (head.getD 1 0).toNat
  let length ← receiveOctet
  return ⟨username, ← receiveWithin capacity length.toNat⟩

end Credentials

namespace Address

/-- Receives the rest of an address record, the code of its type having been received. -/
def receive (capacity : Nat) (code : UInt8) : Action OctetStream.interface Address := do
  match AddressType.ofCode? code with
  | none => throw (.addressTypeNotSupported code)
  | some type =>
    let length ← hostLength type
    let body ← receiveWithin capacity (length + 2)
    ExceptT.mk (.done (ofBody type length body))
where
  hostLength : AddressType → Action OctetStream.interface Nat
    | .ipv4 => pure 4
    | .ipv6 => pure 16
    | .domain => do return (← receiveOctet).toNat

end Address

structure CommandRequest where
  command : Command
  target : Address
  deriving DecidableEq, Repr

namespace CommandRequest

/-- The third octet is reserved and is not looked at. -/
def receive (capacity : Nat) : Action OctetStream.interface CommandRequest := do
  let head ← receiveWithin capacity 4
  let version := head.getD 0 0
  if version ≠ protocolVersion then throw (.invalidVersion version)
  return ⟨.ofCode (head.getD 1 0), ← Address.receive capacity (head.getD 3 0)⟩

end CommandRequest

end SocksProxy
