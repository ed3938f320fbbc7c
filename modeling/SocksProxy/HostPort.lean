import SocksProxy.SocketAddress

/-!
# Host and port as one text

A host and a port are separated by a colon. A host with colons of its own
stands in brackets; brackets around any other host are accepted and dropped.
-/

namespace SocksProxy.HostPort

def isBracket (c : Char) : Bool := c == '[' || c == ']'

/-- Cuts a text into host and port, whatever these contain. -/
def cutHost : Text → Option (Text × Text)
  | '[' :: rest =>
    match cut ']' rest with
    | some (host, ':' :: port) => some (host, port)
    | _ => none
  | t => cut ':' t

/-- The host and the port of a text. Neither may contain a bracket, and the port
no colon. -/
def split? (t : Text) : Option (Text × Text) :=
  match cutHost t with
  | some (host, port) =>
    if host.any isBracket || port.any isBracket || port.contains ':' then none
    else some (host, port)
  | none => none

def join (host : Text) (port : UInt16) : Text :=
  if host.contains ':' then '[' :: host ++ ']' :: ':' :: portText port
  else host ++ ':' :: portText port

end SocksProxy.HostPort
