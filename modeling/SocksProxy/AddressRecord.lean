import SocksProxy.Address

/-!
# Addresses on the wire

A record is the code of the type, the host and the port. An IP address stands
as its octets, a domain name as its length in one octet and its UTF-8 octets.
A record is written into a buffer whole or not at all. Reading keeps the text
of the host, in the form that joins it with the port.
-/

namespace SocksProxy

/-- Writes octets at the start of a buffer, if they fit, and tells their number. -/
def writeInto (buffer octets : Bytes) : Bytes × Except Error Nat :=
  if buffer.length < octets.length then
    (buffer, .error (.shortBuffer octets.length buffer.length))
  else (octets ++ buffer.drop octets.length, .ok octets.length)

namespace Address

def hostOctets? (type : AddressType) (host : Text) : Option Bytes :=
  match type with
  | .ipv4 => (Ipv4.parse? host).map Ipv4.octets
  | .ipv6 => (Ipv6.parse? host).map Ipv6.octets
  | .domain =>
    let name := Utf8.encode host
    if name.length ≤ longestName then some (UInt8.ofNat name.length :: name) else none

def record (a : Address) : Except Error Bytes := do
  let (host, port) ← a.parts
  match hostOctets? a.type host with
  | none => .error (.invalidAddress a.text)
  | some octets =>
    let port ← portNumber port
    return a.type.code :: octets ++ Word.octets port

def encodeInto (a : Address) (buffer : Bytes) : Bytes × Except Error Nat :=
  match a.record with
  | .error e => (buffer, .error e)
  | .ok record => writeInto buffer record

def hostText (type : AddressType) (octets : Bytes) : Except Error Text :=
  match type with
  | .ipv4 => .ok (Ipv4.ofOctets octets).text
  | .ipv6 => .ok (Ipv6.ofOctets octets).text
  | .domain =>
    match Utf8.decode? octets with
    | some name => .ok name
    | none => .error (.invalidAddress (Utf8.decodeLossy octets))

/-- The address whose host and port follow each other in `body`, the host being
`length` octets long. -/
def ofBody (type : AddressType) (length : Nat) (body : Bytes) : Except Error Address := do
  let host ← hostText type (body.take length)
  let port := Word.ofOctets (body.getD length 0) (body.getD (length + 1) 0)
  return ⟨type, HostPort.join host port⟩

/-- Reads the address whose record stands first in a buffer, and tells the length of
the record. -/
def decode (buffer : Bytes) : Except Error (Address × Nat) :=
  match buffer with
  | [] => .error (.shortBuffer 1 0)
  | code :: rest =>
    match AddressType.ofCode? code with
    | none => .error (.addressTypeNotSupported code)
    | some .ipv4 => host .ipv4 1 4
    | some .ipv6 => host .ipv6 1 16
    | some .domain =>
      match rest with
      | [] => .error (.shortBuffer 2 1)
      | length :: _ => host .domain 2 length.toNat
where
  host (type : AddressType) (start length : Nat) : Except Error (Address × Nat) :=
    let required := start + length + 2
    if buffer.length < required then .error (.shortBuffer required buffer.length)
    else do return (← ofBody type length (buffer.drop start), required)

end Address

end SocksProxy
