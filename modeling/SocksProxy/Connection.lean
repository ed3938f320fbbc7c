import SocksProxy.Requests
import SocksProxy.Replies

/-!
# The connection of a client

A connection runs through stages. Its operations announce themselves and the
stages that they reach, so that a run shows which operation began at which
stage. Nothing is checked when an operation begins: that it begins at a stage
at which it may is a property of the program that uses it.
-/

namespace SocksProxy

inductive Stage where
  | idle
  | negotiated
  | authenticated
  | commandParsed
  | active
  | rejected
  | closed
  deriving DecidableEq, Repr

def Stage.name : Stage → Text
  | .idle => "Idle".toList
  | .negotiated => "Negotiated".toList
  | .authenticated => "Authenticated".toList
  | .commandParsed => "CommandParsed".toList
  | .active => "Active".toList
  | .rejected => "Rejected".toList
  | .closed => "Closed".toList

namespace Connection

inductive Operation where
  | negotiate
  | authenticate
  | readCommand
  | respond
  | refuse
  | relay
  deriving DecidableEq, Repr

def Operation.mayBegin : Operation → Stage → Bool
  | .negotiate, s => s == .idle
  | .authenticate, s => s == .negotiated
  | .readCommand, s => s == .authenticated
  | .respond, s => s == .commandParsed || s == .active
  | .refuse, _ => true
  | .relay, s => s == .active

inductive Request where
  | stream (request : OctetStream.Request)
  | started (operation : Operation)
  | entered (stage : Stage)
  | relay
  deriving DecidableEq

@[reducible] def Answer : Request → Type
  | .stream request => OctetStream.Answer request
  | .started _ | .entered _ => Unit
  | .relay => Except IoError (Nat × Nat)

abbrev interface : Interface := ⟨Request, Answer⟩

def started (operation : Operation) : Action interface Unit :=
  Action.ask (I := interface) (.started operation)

def entered (stage : Stage) : Action interface Unit :=
  Action.ask (I := interface) (.entered stage)

def onStream {α : Type} (action : Action OctetStream.interface α) : Action interface α :=
  action.embed .stream fun _ answer => answer

def send (reply : Reply) : Action interface Unit := onStream reply.send

/-- Goes on with the result of an action. If it failed the connection is closed. -/
def orClosed {α : Type} (action : Action interface α) : Action interface α := do
  match ← action.outcome with
  | .ok a => return a
  | .error e =>
    entered .closed
    throw e

def negotiate (method : AuthMethod) : Action interface Unit := do
  started .negotiate
  let greeting ← orClosed (onStream (Greeting.receive scratchSize))
  if greeting.offers method then
    send (.method method)
    entered .negotiated
  else
    send (.method .unacceptable)
    entered .closed
    throw .noAcceptableMethod

def authenticate (subnegotiation : Action interface Unit) : Action interface Unit := do
  started .authenticate
  orClosed subnegotiation
  entered .authenticated

def readCommand : Action interface CommandRequest := do
  started .readCommand
  let request ← orClosed (onStream (CommandRequest.receive scratchSize))
  entered .commandParsed
  return request

def respond (status : ReplyStatus) (bound : Address) : Action interface Unit := do
  started .respond
  send (.command status bound)
  entered (if status = .succeeded then .active else .rejected)

def refuse (status : ReplyStatus) : Action interface Unit := do
  started .refuse
  send (.failure status)
  entered .rejected

/-- Relays between the client and the target until one direction is over. How it ended
is not a failure of the connection. -/
def relay : Action interface Unit := do
  started .relay
  let _ ← Action.ask (I := interface) .relay
  entered .closed

end Connection

end SocksProxy
