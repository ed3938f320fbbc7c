import SocksProxy.Address
import SocksProxy.Program

/-!
# Resolution of addresses

The host of an address is looked up only if it is not an IP address itself. The
empty name is the address of all interfaces. Of the addresses of another name
the first one is taken. A look-up answers with IP addresses alone: a scope that
it may give with one is left out.
-/

namespace SocksProxy.Resolution

inductive Request where
  | lookup (name : Text)

@[reducible] def Answer : Request → Type
  | .lookup _ => Except IoError (List IpAddress)

abbrev interface : Interface := ⟨Request, Answer⟩

/-- Looks a name up. A name with a null character is refused without a look-up. -/
def lookup (name : Text) : Action interface (List IpAddress) :=
  if name.contains '\x00' then throw (.io (.raised .invalidInput))
  else Action.attempt (I := interface) (.lookup name) id

def addresses (host : Text) : Action interface (List IpAddress) :=
  match IpAddress.parse? host with
  | some ip => pure [ip]
  | none => lookup host

def resolve (a : Address) : Action interface SocketAddress := do
  let (host, port) ← ExceptT.mk (.done a.parts)
  let port ← ExceptT.mk (.done (Address.portNumber port))
  match a.type with
  | .ipv4 | .ipv6 =>
    match IpAddress.parse? host with
    | some ip => return .ofIp ip port
    | none => throw (.invalidAddress a.text)
  | .domain =>
    if host.isEmpty then return .v4 .unspecified port
    match ← addresses host with
    | [] => throw (.unresolvedName host)
    | ip :: _ => return .ofIp ip port

end SocksProxy.Resolution
