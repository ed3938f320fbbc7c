import SocksProxy.Failure

/-!
# Relaying between two streams

A pipe carries octets one way. It receives a chunk, sends the chunk until all
of it has been taken, and counts it then; at the end of the input it closes the
stream that it sends to. A relay is two pipes in opposite directions, and is
over as soon as one of them is, whatever the other one is doing. Counts are
natural numbers, taken to stay below the bound of a word of 64 bits.
-/

namespace SocksProxy

namespace Pipe

inductive Phase where
  | receiving
  | sending (size : Nat) (rest : Bytes)
  | closing
  | finished
  | failed (error : IoError)
  deriving DecidableEq, Repr

/-- The answers to what a pipe does. No octets are received at the end of the input. -/
inductive Event where
  | received (octets : Bytes)
  | taken (count : Nat)
  | closed
  | failed (error : IoError)
  deriving DecidableEq, Repr

end Pipe

/-- One direction of a relay, with the number of octets in the chunks that have been sent
to their end. -/
structure Pipe where
  phase : Pipe.Phase
  count : Nat
  deriving DecidableEq, Repr

namespace Pipe

def start : Pipe := ⟨.receiving, 0⟩

def chunkSize : Nat := 8192

/-- What an event makes of a pipe. One that the phase does not wait for changes nothing. -/
def step (pipe : Pipe) (event : Event) : Pipe :=
  match pipe.phase, event with
  | .receiving, .received octets =>
    if octets.isEmpty then { pipe with phase := .closing }
    else { pipe with phase := .sending octets.length octets }
  | .sending size rest, .taken count =>
    if count = 0 then { pipe with phase := .failed (.raised .writeZero) }
    else match rest.drop count with
      | [] => ⟨.receiving, pipe.count + size⟩
      | left => { pipe with phase := .sending size left }
  | .closing, .closed => { pipe with phase := .finished }
  | .receiving, .failed e | .sending .., .failed e | .closing, .failed e =>
    { pipe with phase := .failed e }
  | _, _ => pipe

def ending? (pipe : Pipe) : Option (Except IoError Unit) :=
  match pipe.phase with
  | .finished => some (.ok ())
  | .failed e => some (.error e)
  | _ => none

end Pipe

inductive Direction where
  | outward
  | inward
  deriving DecidableEq, Repr

structure Relay where
  outward : Pipe
  inward : Pipe
  deriving DecidableEq, Repr

namespace Relay

def start : Relay := ⟨.start, .start⟩

def pipe (relay : Relay) : Direction → Pipe
  | .outward => relay.outward
  | .inward => relay.inward

/-- The numbers of octets carried in each direction, or the failure that ended the
relay, if it is over. -/
def result? (relay : Relay) : Option (Except IoError (Nat × Nat)) :=
  match relay.outward.ending?, relay.inward.ending? with
  | none, none => none
  | some (.error e), _ | none, some (.error e) => some (.error e)
  | _, _ => some (.ok (relay.outward.count, relay.inward.count))

def step (relay : Relay) (direction : Direction) (event : Pipe.Event) : Relay :=
  if relay.result?.isSome then relay
  else match direction with
    | .outward => { relay with outward := relay.outward.step event }
    | .inward => { relay with inward := relay.inward.step event }

end Relay

/-- How a relay reaches a stream that is part of a state. A request may be left open. -/
structure Endpoint (σ : Type) where
  receive : (limit : Nat) → σ → Option (Except IoError Bytes) × σ
  send : (octets : Bytes) → σ → Option (Except IoError Nat) × σ
  close : σ → Option (Except IoError Unit) × σ

namespace Pipe

variable {σ : Type}

def receivedEvent : Except IoError Bytes → Event
  | .error e => .failed e
  | .ok octets => .received octets

def takenEvent : Except IoError Nat → Event
  | .error e => .failed e
  | .ok count => .taken count

def closedEvent : Except IoError Unit → Event
  | .error e => .failed e
  | .ok () => .closed

def await (reader writer : Endpoint σ) (pipe : Pipe) (s : σ) : Option Event × σ :=
  match pipe.phase with
  | .receiving => (reader.receive chunkSize s).map (·.map receivedEvent) id
  | .sending _ rest => (writer.send rest s).map (·.map takenEvent) id
  | .closing => (writer.close s).map (·.map closedEvent) id
  | .finished | .failed _ => (none, s)

end Pipe

namespace Relay

variable {σ : Type}

/-- Lets a relay between a client and a target go on for at most so many events, until
it is over or both directions wait. -/
def settle (client target : Endpoint σ) : (events : Nat) → Relay → σ → Relay × σ
  | 0, relay, s => (relay, s)
  | events + 1, relay, s =>
    if relay.result?.isSome then (relay, s)
    else match relay.outward.await client target s with
      | (some event, s) => settle client target events (relay.step .outward event) s
      | (none, s) =>
        match relay.inward.await target client s with
        | (some event, s) => settle client target events (relay.step .inward event) s
        | (none, s) => (relay, s)

end Relay

end SocksProxy
