import SocksProxy.SessionTask
import SocksProxy.ServeCycles
import SocksProxy.AcceptLoop
import SocksProxy.Listening

/-!
# A server under test

A server in a scripted network, with any number of tasks that serve and of
sessions, and a clock that only the test moves. After each step of the test
the accept loops and the sessions go on until all wait. A delay is over as soon
as the clock has reached its end.
-/

namespace SocksProxy

/-- A task that serves: its number, its cycle, its listener, what its loop takes for a lost
connection, and when its wait is over. -/
structure ServeTask where
  number : Nat
  cycle : Nat
  listener : Nat
  isLost : IoError → Bool
  loop : AcceptLoop.State
  deadline : Nat

structure ServerRun where
  config : Configuration
  network : Network
  clock : Nat
  cycles : ServeCycles
  started : Nat
  serving : List ServeTask
  sessions : List SessionTask

inductive ServerStep where
  | network (step : Network.Step)
  | advance (milliseconds : Nat)
  | serve (self : Reported)
  | listenAndServe
  | shutdown

namespace ServerRun

def start (config : Configuration) (script : Script) : ServerRun :=
  ⟨config, .start script, 0, .start, 0, [], []⟩

/-- Serves on a listener, which fails at once if it cannot tell its address. -/
def serveOn (listener : Nat) (run : ServerRun) : Except IoError ServerRun :=
  match run.network.listenerSelf listener with
  | .error e => .error e
  | .ok self =>
    let cycles := run.cycles.begin self
    let task : ServeTask :=
      ⟨run.started, cycles.latest, listener, IoError.isLost, AcceptLoop.start, 0⟩
    .ok { run with cycles, serving := run.serving ++ [task] }

def provideListening : Provider Listening.interface (Network × Option Nat)
  | .lookup name, (network, bound) =>
    let (answer, network) := network.lookup name
    (some answer, (network, bound))
  | .bind a, (network, bound) =>
    match network.listen a with
    | (.error e, network) => (some (.error e), (network, bound))
    | (.ok index, network) => (some (.ok ()), (network, some index))

def listenAndServe (run : ServerRun) : Except Error Unit × ServerRun :=
  let (program, network, bound) :=
    (Listening.listen run.config.listen).run.run provideListening (run.network, none)
  let run := { run with network }
  match program, bound with
  | .done (.ok ()), some listener =>
    match run.serveOn listener with
    | .error e => (.error (.io e), run)
    | .ok run => (.ok (), run)
  | .done (.error e), _ => (.error e, run)
  | _, _ => (.error (.io Network.noSocket), run)

/-- Hands an accepted connection on: sets its options, whatever comes of it, and starts
its session. -/
def handOn (index : Nat) (run : ServerRun) : ServerRun :=
  let network :=
    match run.network.sockets[index]? with
    | none => run.network
    | some s =>
      ((Keepalive.apply run.config.keepalive).run.run (Network.provideNamed s.name)
        run.network).2
  { run with network, sessions := run.sessions ++ [.start run.config index] }

def surroundings (task : ServeTask) : AcceptLoop.Surroundings ServerRun Nat where
  isCancelled run := run.cycles.isCancelled task.cycle
  accept run :=
    let (outcome, network) := run.network.accept task.listener
    (outcome.map (·.map Prod.snd), { run with network })
  hasWaited run := decide (task.deadline ≤ run.clock)

def deadline (loop : AcceptLoop.State) (run : ServerRun) : Nat :=
  match loop with
  | .waiting wait => run.clock + wait
  | _ => run.clock

/-- Lets an accept loop go on for at most so many events, until it is ended or waits. -/
def runLoop : (events : Nat) → ServeTask → ServerRun → ServeTask × ServerRun
  | 0, task, run => (task, run)
  | events + 1, task, run =>
    if task.loop.isEnded then (task, run)
    else match AcceptLoop.await (surroundings task) task.loop run with
      | (none, run) => (task, run)
      | (some event, run) =>
        let (loop, connection) := AcceptLoop.step task.isLost task.loop event
        let run := connection.elim run (handOn · run)
        runLoop events { task with loop, deadline := deadline loop run } run

def eventBound (task : ServeTask) (run : ServerRun) : Nat :=
  match run.network.listeners[task.listener]? with
  | none => 2
  | some l => 2 * l.arrivals.length + 2

/-- Lets one accept loop go on. If it ends, its listener is closed and its cycle finishes. -/
def runServe (task : ServeTask) (run : ServerRun) :
    List (Nat × Error) × ServerRun :=
  let (task, run) := runLoop (run.eventBound task) task run
  match task.loop with
  | .ended reason =>
    ([(task.number, reason)],
      { run with
        cycles := run.cycles.finish task.cycle
        network := run.network.closeListener task.listener })
  | _ => ([], { run with serving := run.serving ++ [task] })

def runServing (run : ServerRun) : List (Nat × Error) × ServerRun :=
  run.serving.foldl (fun (ended, run) task =>
    let (more, run) := run.runServe task
    (ended ++ more, run)) ([], { run with serving := [] })

def runSessions (run : ServerRun) : ServerRun :=
  run.sessions.foldl (fun run task =>
    let (task, network) := task.run run.network
    let sessions := if task.result?.isSome then run.sessions else run.sessions ++ [task]
    { run with network, sessions }) { run with sessions := [] }

def startServing (result : Except Error Unit × ServerRun) : List (Nat × Error) × ServerRun :=
  let (outcome, run) := result
  let ended := match outcome with
    | .ok () => []
    | .error e => [(run.started, e)]
  (ended, { run with started := run.started + 1 })

def serve (self : Reported) (run : ServerRun) : Except Error Unit × ServerRun :=
  let (listener, network) := run.network.addListener self []
  let run := { run with network }
  match run.serveOn listener with
  | .error e => (.error (.io e), { run with network := run.network.closeListener listener })
  | .ok run => (.ok (), run)

def apply (step : ServerStep) (run : ServerRun) : List (Nat × Error) × ServerRun :=
  match step with
  | .network step => ([], { run with network := step.apply run.network })
  | .advance milliseconds => ([], { run with clock := run.clock + milliseconds })
  | .serve self => startServing (run.serve self)
  | .listenAndServe => startServing run.listenAndServe
  | .shutdown => ([], { run with cycles := run.cycles.close })

def step (run : ServerRun) (step : ServerStep) :
    Network.News × List (Nat × Error) × ServerRun :=
  let (ended, run) := run.apply step
  let (more, run) := run.runServing
  let run := run.runSessions
  let (news, network) := run.network.report
  (news, ended ++ more, { run with network })

end ServerRun

end SocksProxy
