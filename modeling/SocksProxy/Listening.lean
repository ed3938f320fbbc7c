import SocksProxy.Resolution

/-!
# Listening on a configured address

The text is a socket address, or a host and a port separated by the last colon.
A host is looked up, even one that is written as an IP address, and the addresses
found are tried in order until one can be bound.
-/

namespace SocksProxy.Listening

inductive Request where
  | lookup (name : Text)
  | bind (address : SocketAddress)

@[reducible] def Answer : Request → Type
  | .lookup _ => Except IoError (List IpAddress)
  | .bind _ => Except IoError Unit

abbrev interface : Interface := ⟨Request, Answer⟩

def ofResolution : Resolution.Request → Request
  | .lookup name => .lookup name

def lookup (host : Text) : Action interface (List IpAddress) :=
  Action.embed (I := Resolution.interface) (J := interface) ofResolution
    (fun | .lookup _, answer => answer) (Resolution.lookup host)

def cutLast (t : Text) : Option (Text × Text) :=
  (cut ':' t.reverse).map fun (port, host) => (host.reverse, port.reverse)

/-- Reads a port, which may have a plus sign before it. -/
def parsePort? : Text → Option UInt16
  | '+' :: digits => SocksProxy.parsePort? digits
  | t => SocksProxy.parsePort? t

def invalidInput : Error := .io (.raised .invalidInput)

/-- Binds the first address that can be bound. The failure is that of the last one. -/
def bindFirst (failure : Error) : List SocketAddress → Action interface Unit
  | [] => throw failure
  | a :: rest => do
    match ← (Action.attempt (I := interface) (.bind a) id).outcome with
    | .ok () => return
    | .error e => bindFirst e rest

def listen (t : Text) : Action interface Unit :=
  match SocketAddress.parse? t with
  | some a => bindFirst invalidInput [a]
  | none =>
    match cutLast t with
    | none => throw invalidInput
    | some (host, port) =>
      match parsePort? port with
      | none => throw invalidInput
      | some port => do
        let ips ← lookup host
        bindFirst invalidInput (ips.map fun ip => .ofIp ip port)

end SocksProxy.Listening
