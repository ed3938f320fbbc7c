import SocksProxy.Failure

/-!
# The accept loop

The loop hands on every connection that it accepts. After an error that passes
it waits before it accepts again, longer after each such error in a row. Any
other error ends it, and so does a cancellation, which is seen before anything
else that is there at the same time.
-/

namespace SocksProxy

/-- Whether a failure to accept leaves the listener usable: the connection was lost, as a test
tells, or the call has to be repeated, or the system lacks resources for now. -/
def IoError.isTransient (isLost : IoError → Bool) (e : IoError) : Bool :=
  isLost e || match e with
    | .reported .emfile | .reported .enfile | .reported .enobufs | .reported .enomem => true
    | _ =>
      match e.kind with
      | .interrupted | .wouldBlock | .timedOut | .outOfMemory => true
      | _ => false

def IoError.isLost (e : IoError) : Bool :=
  match e.kind with
  | .connectionAborted | .connectionReset | .connectionRefused => true
  | _ => false

namespace AcceptLoop

/-- The shortest and the longest wait, in milliseconds. -/
def shortestWait : Nat := 5
def longestWait : Nat := 1000

def nextWait (wait : Nat) : Nat := min longestWait (max shortestWait (2 * wait))

/-- What the loop is doing. The wait is the last one since a connection was accepted, or
zero. -/
inductive State where
  | accepting (wait : Nat)
  | waiting (wait : Nat)
  | ended (reason : Error)
  deriving DecidableEq, Repr

def State.isEnded : State → Bool
  | .ended _ => true
  | _ => false

inductive Event (κ : Type) where
  | accepted (connection : κ)
  | failed (error : IoError)
  | waited
  | cancelled
  deriving DecidableEq, Repr

def start : State := .accepting 0

variable {κ : Type} (isLost : IoError → Bool)

def step (state : State) (event : Event κ) : State × Option κ :=
  match state, event with
  | .ended reason, _ => (.ended reason, none)
  | _, .cancelled => (.ended .serverClosed, none)
  | .accepting _, .accepted connection => (.accepting 0, some connection)
  | .accepting wait, .failed e =>
    (if e.isTransient isLost then .waiting (nextWait wait) else .ended (.io e), none)
  | .waiting wait, .waited => (.accepting wait, none)
  | state, _ => (state, none)

/-- How the loop reaches its listener, its clock and the signal that cancels it, which are
part of a state. -/
structure Surroundings (σ κ : Type) where
  isCancelled : σ → Bool
  accept : σ → Option (Except IoError κ) × σ
  hasWaited : σ → Bool

variable {σ : Type}

def acceptedEvent : Except IoError κ → Event κ
  | .ok connection => .accepted connection
  | .error e => .failed e

def await (surroundings : Surroundings σ κ) (state : State) (s : σ) : Option (Event κ) × σ :=
  if surroundings.isCancelled s then (some .cancelled, s)
  else match state with
    | .accepting _ => (surroundings.accept s).map (·.map acceptedEvent) id
    | .waiting _ => (if surroundings.hasWaited s then some .waited else none, s)
    | .ended _ => (none, s)

end AcceptLoop

end SocksProxy
