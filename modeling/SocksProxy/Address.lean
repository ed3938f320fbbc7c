import SocksProxy.Utf8
import SocksProxy.HostPort
import SocksProxy.Failure

/-!
# Addresses of requests and replies

An address is kept as the text of its host and port, with the type it is
declared to have. Nothing is checked until it is read or written: a text may
fail to be a host and a port, and a host may not be of its type.
-/

namespace SocksProxy

structure Address where
  type : AddressType
  text : Text
  deriving DecidableEq, Repr

namespace Address

def longestName : Nat := 255

/-- The address of a text, with the type that the host has. -/
def parse (t : Text) : Except Error Address :=
  match HostPort.split? t with
  | none => .error (.invalidAddress t)
  | some (host, _) =>
    match IpAddress.parse? host with
    | some (.v4 _) => .ok ⟨.ipv4, t⟩
    | some (.v6 _) => .ok ⟨.ipv6, t⟩
    | none =>
      if Utf8.size host ≤ longestName then .ok ⟨.domain, t⟩ else .error (.invalidAddress t)

def parts (a : Address) : Except Error (Text × Text) :=
  match HostPort.split? a.text with
  | some parts => .ok parts
  | none => .error (.invalidAddress a.text)

def portNumber (t : Text) : Except Error UInt16 :=
  match parsePort? t with
  | some port => .ok port
  | none => .error (.invalidPort t)

def port (a : Address) : Except Error UInt16 := do
  let (_, port) ← a.parts
  portNumber port

def ofSocketAddress (a : SocketAddress) : Address :=
  match a with
  | .v4 .. => ⟨.ipv4, a.text⟩
  | .v6 .. => ⟨.ipv6, a.text⟩

/-- The address in a reply that has none to report. -/
def unspecified : Address := ofSocketAddress (.v4 .unspecified 0)

end Address

end SocksProxy
