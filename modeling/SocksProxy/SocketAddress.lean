import SocksProxy.Ipv6

/-!
# Socket addresses

An IP address with a port. An IPv6 socket address has flow information and a
scope as well; its text shows a scope other than zero, and no flow information.
-/

namespace SocksProxy

inductive IpAddress where
  | v4 (ip : Ipv4)
  | v6 (ip : Ipv6)
  deriving DecidableEq, Repr

namespace IpAddress

def text : IpAddress → Text
  | .v4 ip => ip.text
  | .v6 ip => ip.text

def parse? (t : Text) : Option IpAddress :=
  match Ipv4.parse? t with
  | some ip => some (.v4 ip)
  | none => (Ipv6.parse? t).map .v6

end IpAddress

/-- Reads a port. Leading zeros are accepted. -/
def parsePort? (t : Text) : Option UInt16 := (Decimal.parse? 65535 t).map UInt16.ofNat

def portText (port : UInt16) : Text := Decimal.text port.toNat

@[simp] theorem parsePort?_portText (port : UInt16) : parsePort? (portText port) = some port := by
  have h : port.toNat ≤ 65535 := by have := port.toNat_lt; omega
  simp [parsePort?, portText, Decimal.parse?_text h]

inductive SocketAddress where
  | v4 (ip : Ipv4) (port : UInt16)
  | v6 (ip : Ipv6) (port : UInt16) (flow : UInt32) (scope : UInt32)
  deriving DecidableEq, Repr

namespace SocketAddress

def port : SocketAddress → UInt16
  | .v4 _ port => port
  | .v6 _ port _ _ => port

def ip : SocketAddress → IpAddress
  | .v4 ip _ => .v4 ip
  | .v6 ip _ _ _ => .v6 ip

def ofIp : IpAddress → UInt16 → SocketAddress
  | .v4 ip, port => .v4 ip port
  | .v6 ip, port => .v6 ip port 0 0

def text : SocketAddress → Text
  | .v4 ip port => ip.text ++ ':' :: portText port
  | .v6 ip port _ scope =>
    let scopeText := if scope = 0 then [] else '%' :: Decimal.text scope.toNat
    '[' :: ip.text ++ scopeText ++ ']' :: ':' :: portText port

/-- Reads an IPv6 address with or without a scope. -/
def parseScoped? (t : Text) : Option (Ipv6 × UInt32) :=
  match cut '%' t with
  | none => do return (← Ipv6.parse? t, 0)
  | some (ip, scope) => do
    return (← Ipv6.parse? ip, UInt32.ofNat (← Decimal.parse? 4294967295 scope))

def parse? : Text → Option SocketAddress
  | '[' :: rest => do
    let (inside, after) ← cut ']' rest
    let (ip, scope) ← parseScoped? inside
    match after with
    | ':' :: port => return .v6 ip (← parsePort? port) 0 scope
    | _ => none
  | t => do
    let (ip, port) ← cut ':' t
    return .v4 (← Ipv4.parse? ip) (← parsePort? port)

end SocketAddress

end SocksProxy
