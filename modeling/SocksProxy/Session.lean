import SocksProxy.Configuration
import SocksProxy.Resolution

/-!
# The session of a client

A session takes a client through its connection and serves its command. It
opens at most two sockets besides that of the client: the target, to which a
connection is made or which is accepted, and the listener. Each socket is closed
once, whatever happens in between. A listener that cannot tell its address when
it is opened, as a log may ask it to, counts as one that has not been opened.
-/

namespace SocksProxy

namespace Session

inductive Role where
  | client
  | target
  | listener
  deriving DecidableEq, Repr

inductive Request where
  | client (request : Connection.Request)
  | clientPeer
  | clientLocal
  | lookup (name : Text)
  | connect (address : SocketAddress)
  | listen (address : SocketAddress)
  | accept
  | targetLocal
  | listenerLocal
  | setOption (option : SocketOption)
  | close (role : Role)
  deriving DecidableEq

@[reducible] def Answer : Request → Type
  | .client request => Connection.Answer request
  | .clientPeer | .clientLocal | .accept | .targetLocal | .listenerLocal =>
    Except IoError SocketAddress
  | .lookup _ => Except IoError (List IpAddress)
  | .connect _ | .listen _ | .setOption _ => Except IoError Unit
  | .close _ => Unit

abbrev interface : Interface := ⟨Request, Answer⟩

def clientPeer : Action interface SocketAddress :=
  Action.attempt (I := interface) .clientPeer id

def clientLocal : Action interface SocketAddress :=
  Action.attempt (I := interface) .clientLocal id

def connect (a : SocketAddress) : Action interface Unit :=
  Action.attempt (I := interface) (.connect a) id

def listen (a : SocketAddress) : Action interface Unit :=
  Action.attempt (I := interface) (.listen a) id

def accept : Action interface SocketAddress := Action.attempt (I := interface) .accept id

def targetLocal : Action interface SocketAddress :=
  Action.attempt (I := interface) .targetLocal id

def listenerLocal : Action interface SocketAddress :=
  Action.attempt (I := interface) .listenerLocal id

def close (role : Role) : Action interface Unit := Action.ask (I := interface) (.close role)

variable {α : Type}

def onClient (action : Action Connection.interface α) : Action interface α :=
  action.embed .client fun _ answer => answer

def ofResolution : Resolution.Request → Request
  | .lookup name => .lookup name

def resolve (a : Address) : Action interface SocketAddress :=
  Action.embed (I := Resolution.interface) (J := interface) ofResolution
    (fun | .lookup _, answer => answer) (Resolution.resolve a)

def ofKeepalive : Keepalive.Request → Request
  | .set option => .setOption option

def keepAlive (interval : Nat) : Action interface Unit :=
  Action.embed (I := Keepalive.interface) (J := interface) ofKeepalive
    (fun | .set _, answer => answer) (Keepalive.apply interval)

/-- Closes a socket when an action has ended, in whatever way. -/
def closing (role : Role) (action : Action interface α) : Action interface α := do
  let outcome ← action.outcome
  close role
  ExceptT.mk (.done outcome)

def dial (config : Configuration) (target : Address) : Action interface Unit := do
  connect (← resolve target)
  match ← (keepAlive config.keepalive).outcome with
  | .ok () => return
  | .error e =>
    close .target
    throw e

/-- Tells the client that its command has failed. The cause is not sent. -/
def refuse (status : ReplyStatus) (_cause : Error) : Action interface Unit :=
  onClient (Connection.refuse status)

def respond (bound : Address) : Action interface Unit :=
  onClient (Connection.respond .succeeded bound)

def serveConnect (config : Configuration) (target : Address) : Action interface Unit := do
  match ← (dial config target).outcome with
  | .error e => refuse .hostUnreachable e
  | .ok () =>
    closing .target do
      match ← targetLocal.outcome with
      | .error e => refuse .generalFailure e
      | .ok bound =>
        respond (config.boundAddress bound)
        onClient Connection.relay

/-- Announces the listener to the client and accepts one connection on it. There is no
peer if the client has been told of a failure. -/
def awaitPeer (config : Configuration) : Action interface (Option SocketAddress) := do
  match ← listenerLocal.outcome with
  | .error e =>
    refuse .generalFailure e
    return none
  | .ok bound =>
    respond (config.boundAddress bound)
    match ← accept.outcome with
    | .error e =>
      refuse .generalFailure e
      return none
    | .ok peer => return some peer

def serveBind (config : Configuration) (requested : Address) : Action interface Unit := do
  match ← (do listen (← resolve requested) : Action interface Unit).outcome with
  | .error e => refuse .generalFailure e
  | .ok () =>
    match ← closing .listener (awaitPeer config) with
    | none => return
    | some peer =>
      closing .target do
        keepAlive config.keepalive
        respond (.ofSocketAddress peer)
        onClient Connection.relay

def malformedStatus : Error → Option ReplyStatus
  | .addressTypeNotSupported _ => some .addressTypeNotSupported
  | .invalidAddress _ => some .hostUnreachable
  | _ => none

def readCommand : Action interface CommandRequest := do
  match ← (onClient Connection.readCommand).outcome with
  | .ok request => return request
  | .error e =>
    match malformedStatus e with
    | some status => refuse status e
    | none => pure ()
    throw e

def serveCommand (config : Configuration) (request : CommandRequest) : Action interface Unit :=
  match request.command, config.allows request.command with
  | .connect, true => serveConnect config request.target
  | .bind, true => serveBind config request.target
  | command, _ => refuse .commandNotSupported (.commandNotSupported command)

def handle (config : Configuration) : Action interface Unit := do
  onClient (Connection.negotiate config.authenticator.method)
  onClient (Connection.authenticate config.authenticator.subnegotiation)
  serveCommand config (← readCommand)

end Session

def session (config : Configuration) : Action Session.interface Unit :=
  Session.closing .client do
    let _ ← Session.clientPeer
    let _ ← Session.clientLocal
    Session.handle config

end SocksProxy
