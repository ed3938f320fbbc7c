import SocksProxy.Authenticator
import SocksProxy.Keepalive

/-!
# Configuration

What an operator sets, and the configuration of a server that follows from it.
An announcement replaces the addresses reported to clients; a text that cannot
be sent as an address is not used.
-/

namespace SocksProxy

abbrev Announcement := SocketAddress → Text

namespace Announcement

def host (host : Text) : Announcement := fun a => HostPort.join host a.port

def fixed (text : Text) : Announcement := fun _ => text

end Announcement

structure Configuration where
  listen : Text
  authenticator : Authenticator
  /-- The interval of keepalive probes in milliseconds, or zero. -/
  keepalive : Nat
  allowed : List Command
  announcement : Option Announcement

structure Settings where
  listen : Text := []
  credentials : Option (Text × Text) := none
  keepalive : Nat := 0
  allowed : List Command := [.connect]
  announcement : Option Announcement := none

/-- The host and port to listen on. Without a host all interfaces are meant, and without
a text the usual port as well. -/
def listenText (t : Text) : Text :=
  match t with
  | [] => "0.0.0.0:1080".toList
  | ':' :: _ => "0.0.0.0".toList ++ t
  | _ => t

def Settings.configuration (settings : Settings) : Configuration where
  listen := listenText settings.listen
  authenticator :=
    match settings.credentials with
    | none => .none
    | some (username, password) => .password username password
  keepalive := settings.keepalive
  allowed := settings.allowed.eraseDups
  announcement := settings.announcement

namespace Configuration

def allows (config : Configuration) (command : Command) : Bool := config.allowed.contains command

/-- A text as an address whose port is known to be a number. -/
def usable? (t : Text) : Option Address :=
  match Address.parse t with
  | .error _ => none
  | .ok a => if a.port.isOk then some a else none

def boundAddress (config : Configuration) (a : SocketAddress) : Address :=
  match config.announcement with
  | none => .ofSocketAddress a
  | some announce => (usable? (announce a)).getD (.ofSocketAddress a)

end Configuration

end SocksProxy
