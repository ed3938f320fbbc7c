import Mathlib.Logic.Relation
import SocksProxy.Proofs.AcceptPolls
import SocksProxy.Proofs.SessionListeners

/-!
# The connections that an accept loop hands on

A task that serves is followed through its polls, between which anything may happen to its server:
time passes, connections arrive, sessions go on, and its cycle is cancelled, which nobody takes
back. Exactly the connections that the loop accepts get sessions. Errors that pass do not end the
loop, the first other error or the cancellation does, and a cancellation that can be seen is seen
before anything else.
-/

namespace SocksProxy

/-- An error after which accepting goes on: a connection was lost, or the call has to be repeated,
or resources are lacking. -/
def IoError.Passes (e : IoError) : Prop :=
  e.kind ∈ [IoKind.connectionAborted, .connectionReset, .connectionRefused, .interrupted,
      .wouldBlock, .timedOut, .outOfMemory] ∨
    e ∈ [IoError.reported .emfile, .reported .enfile, .reported .enobufs, .reported .enomem]

theorem IoError.isTransient_iff {isLost : IoError → Bool}
    (hl : ∀ e, isLost e ↔
      e.kind ∈ [IoKind.connectionAborted, .connectionReset, .connectionRefused]) (e : IoError) :
    e.isTransient isLost ↔ e.Passes := by
  unfold isTransient Passes
  rw [Bool.or_eq_true, hl]
  cases e with
  | raised kind => cases kind <;> decide
  | reported errno => cases errno <;> decide

theorem IoError.isLost_iff (e : IoError) :
    e.isLost ↔ e.kind ∈ [IoKind.connectionAborted, .connectionReset, .connectionRefused] := by
  unfold isLost
  cases e.kind <;> decide

namespace AcceptLoop

def Event.outcome? {κ : Type} : Event κ → Option (Except IoError κ)
  | .accepted connection => some (.ok connection)
  | .failed e => some (.error e)
  | .waited | .cancelled => none

theorem step_accepting_map {κ μ : Type} (isLost : IoError → Bool) (f : κ → μ) (wait : Nat)
    (outcome : Except IoError κ) :
    (step isLost (.accepting wait) (acceptedEvent (outcome.map f))).1 =
      (step isLost (.accepting wait) (acceptedEvent outcome)).1 := by
  cases outcome <;> rfl

end AcceptLoop

namespace ServerRun

open AcceptLoop

/-- A task that serves, its server, the outcomes of accepting that its loop has met, and the
sessions that it has started. -/
structure Moment where
  task : ServeTask
  run : ServerRun
  met : List (Except IoError Nat)
  started : List SessionTask

/-- The loop is polled, or anything happens elsewhere. The sessions that a poll has started are
those that have come to the server's. -/
inductive Move (accept : Accept) : Moment → Moment → Prop
  | polled {task run event next after met started} : Polled accept task run event (next, after) →
      Move accept ⟨task, run, met, started⟩ ⟨next, after, met ++ event.outcome?.toList,
        started ++ after.sessions.drop run.sessions.length⟩
  | elsewhere {task run after met started} : after.config = run.config →
      (run.cycles.isCancelled task.cycle → after.cycles.isCancelled task.cycle) →
      Move accept ⟨task, run, met, started⟩ ⟨task, after, met, started⟩

def Moment.first (isLost : IoError → Bool) (number cycle listener : Nat) (run : ServerRun) :
    Moment :=
  ⟨⟨number, cycle, listener, isLost, AcceptLoop.start, 0⟩, run, [], []⟩

def connections (met : List (Except IoError Nat)) : List Nat :=
  met.filterMap Except.toOption

/-- All errors among the outcomes let the loop go on. -/
def Passing (passes : IoError → Prop) (met : List (Except IoError Nat)) : Prop :=
  ∀ e, .error e ∈ met → passes e

/-- How a loop has ended with a reason: cancelled, having met no error but such that pass, or by
the first other error, which is the last outcome that it has met. -/
def Ended (passes : IoError → Prop) (isCancelled : Bool) (met : List (Except IoError Nat))
    (reason : Error) : Prop :=
  (reason = .serverClosed ∧ isCancelled ∧ Passing passes met) ∨
    ∃ before e, met = before ++ [.error e] ∧ reason = .io e ∧ ¬ passes e ∧ Passing passes before

/-- The state that a poll would bring the loop of a task to, if there is an event for it. -/
def next? (task : ServeTask) (run : ServerRun) : Option State :=
  (await (surroundings task) task.loop run).1.map fun event =>
    (AcceptLoop.step task.isLost task.loop event).1

/-- What the loop has met, handed on and come to. -/
structure Consistent (passes : IoError → Prop) (m : Moment) : Prop where
  handed : m.started = (connections m.met).map (SessionTask.start m.run.config)
  going : m.task.loop.isEnded = false → Passing passes m.met
  ended : ∀ reason, m.task.loop = .ended reason →
    Ended passes (m.run.cycles.isCancelled m.task.cycle) m.met reason

variable {accept : Accept} {passes : IoError → Prop} {m later : Moment} {task : ServeTask}
  {run : ServerRun} {event : Event Nat} {next : ServeTask × ServerRun}

theorem next?_congr {network : Network}
    (h : network.listeners[task.listener]? = run.network.listeners[task.listener]?) :
    next? task { run with network } = next? task run := by
  unfold next?
  cases hx : (surroundings task).isCancelled run with
  | true =>
    have hother : (surroundings task).isCancelled { run with network } := hx
    rw [await_of_cancelled hx, await_of_cancelled hother]
  | false =>
    have hother : (surroundings task).isCancelled { run with network } = false := hx
    cases task.loop with
    | accepting wait =>
      have hpeer := congrArg (Option.map fun outcome =>
        (AcceptLoop.step task.isLost (.accepting wait) (acceptedEvent outcome)).1)
        (Network.peer_accept_congr h)
      rw [await_accepting hx, await_accepting hother]
      simpa [surroundings, Function.comp_def, step_accepting_map] using hpeer
    | waiting wait =>
      rw [await_waiting hx, await_waiting hother]
      rfl
    | ended reason => rw [await_ended hx, await_ended hother]

theorem Ended.of_cancelled {isCancelled later : Bool} {met : List (Except IoError Nat)}
    {reason : Error} (h : Ended passes isCancelled met reason) (hx : isCancelled → later) :
    Ended passes later met reason :=
  h.imp_left fun ⟨hr, hc, hp⟩ => ⟨hr, hx hc, hp⟩

theorem passing_append {met more : List (Except IoError Nat)} :
    Passing passes (met ++ more) ↔ Passing passes met ∧ Passing passes more := by
  simp only [Passing, List.mem_append, or_imp, forall_and]

theorem passing_ok (connection : Nat) : Passing passes [.ok connection] := by
  simp [Passing]

theorem passing_error {e : IoError} (he : passes e) : Passing passes [.error e] := by
  simpa [Passing] using he

theorem Polled.started (h : Polled accept task run event next) :
    next.2.sessions.drop run.sessions.length =
      (connections event.outcome?.toList).map (SessionTask.start run.config) := by
  obtain ⟨-, ⟨-, rfl, rfl⟩ | ⟨-, ⟨_, _, _, -, -, rfl, rfl⟩ | ⟨_, _, _, -, -, rfl, rfl⟩ |
    ⟨_, -, -, rfl, rfl⟩⟩⟩ := polled_cases h
  · simp [Event.outcome?, connections]
  · simp [Event.outcome?, connections, handOn_sessions, Except.toOption]
  · simp [Event.outcome?, connections, Except.toOption]
  · simp [Event.outcome?, connections]

theorem Polled.outcome (h : Polled accept task run event next)
    (ht : ∀ e : IoError, e.isTransient task.isLost ↔ passes e) {met : List (Except IoError Nat)}
    (hm : Passing passes met) :
    (next.1.loop.isEnded = false → Passing passes (met ++ event.outcome?.toList)) ∧
      ∀ reason, next.1.loop = .ended reason →
        Ended passes (run.cycles.isCancelled task.cycle) (met ++ event.outcome?.toList) reason := by
  obtain ⟨-, ⟨hx, rfl, rfl⟩ |
    ⟨-, ⟨_, connection, _, -, -, rfl, rfl⟩ | ⟨wait, e, _, -, -, rfl, rfl⟩ |
    ⟨_, -, -, rfl, rfl⟩⟩⟩ := polled_cases h
  · refine ⟨nofun, fun reason hr => .inl ⟨(State.ended.inj hr).symm, hx, ?_⟩⟩
    simpa [Event.outcome?] using hm
  · exact ⟨fun _ => passing_append.2 ⟨hm, passing_ok connection⟩, nofun⟩
  · cases he : e.isTransient task.isLost with
    | true =>
      simp only [if_pos]
      exact ⟨fun _ => passing_append.2 ⟨hm, passing_error ((ht e).1 he)⟩, nofun⟩
    | false =>
      have hfatal : ¬ passes e := fun hp => by simp [(ht e).2 hp] at he
      simp only [Bool.false_eq_true, if_false]
      exact ⟨nofun, fun reason hr => .inr ⟨met, e, rfl, (State.ended.inj hr).symm, hfatal, hm⟩⟩
  · exact ⟨fun _ => by simpa [Event.outcome?] using hm, nofun⟩

theorem Consistent.move (h : Consistent passes m)
    (ht : ∀ e : IoError, e.isTransient m.task.isLost ↔ passes e) (hm : Move accept m later) :
    Consistent passes later := by
  cases hm with
  | @polled task run event next after met started hp =>
    obtain ⟨hconfig, hcycles, -, -, hcycle, -⟩ := hp.frame
    obtain ⟨hgoing, hended⟩ := hp.outcome ht (h.going (polled_cases hp).1)
    refine ⟨?_, hgoing, ?_⟩
    · change started ++ after.sessions.drop run.sessions.length =
        (connections (met ++ event.outcome?.toList)).map (SessionTask.start after.config)
      have hhanded : started = (connections met).map (SessionTask.start run.config) := h.handed
      have hstarted := hp.started
      simp only at hconfig hstarted
      rw [hstarted, hhanded, hconfig, connections, connections, connections,
        List.filterMap_append, List.map_append]
    · simp only at hcycles hcycle
      rw [hcycles, hcycle]
      exact hended
  | elsewhere hconfig hx =>
    refine ⟨?_, h.going, fun reason hr => (h.ended reason hr).of_cancelled hx⟩
    rw [hconfig]
    exact h.handed

/-- Nothing more is accepted once the loop has ended or its cancellation can be seen. -/
theorem Move.settled (h : Move accept m later)
    (hs : m.run.cycles.isCancelled m.task.cycle ∨ m.task.loop.isEnded) :
    (later.run.cycles.isCancelled later.task.cycle ∨ later.task.loop.isEnded) ∧
      later.met = m.met ∧ later.started = m.started ∧
        (later.task.loop = m.task.loop ∨
          m.task.loop.isEnded = false ∧ later.task.loop = .ended .serverClosed) := by
  cases h with
  | elsewhere hconfig hx => exact ⟨hs.imp_left hx, rfl, rfl, .inl rfl⟩
  | polled hp =>
    obtain ⟨ho, hcases⟩ := polled_cases hp
    have hc := hs.resolve_right (by simp [ho])
    rcases hcases with ⟨-, rfl, he⟩ | ⟨hn, -⟩
    · obtain ⟨rfl, rfl⟩ := Prod.mk.inj he
      exact ⟨.inr rfl, List.append_nil _, by simp, .inr ⟨ho, rfl⟩⟩
    · simp [hc] at hn

/-- A task that serves keeps its promises. Its sessions are those of the connections that it has
accepted, in order. It ends only for the reasons there are, and then, as once its cancellation can
be seen, it accepts nothing more. While it goes on it takes each outcome of accepting as it comes,
is done waiting when the time is over, and sees a cancellation first, be there an outcome or a wait.
Sessions that have nothing to do with its listener leave it alone. -/
structure Served (accept : Accept) (passes : IoError → Prop) (m : Moment) : Prop
    extends Consistent passes m where
  settled : m.run.cycles.isCancelled m.task.cycle ∨ m.task.loop.isEnded →
    ∀ later, Relation.ReflTransGen (Move accept) m later →
      later.met = m.met ∧ later.started = m.started ∧
        (later.task.loop = m.task.loop ∨
          m.task.loop.isEnded = false ∧ later.task.loop = .ended .serverClosed)
  cancelled : m.task.loop.isEnded = false → m.run.cycles.isCancelled m.task.cycle →
    ∃ closed : ServeTask, closed.loop = .ended .serverClosed ∧
      Polled accept m.task m.run .cancelled (closed, m.run) ∧
        ∀ event next, Polled accept m.task m.run event next → next = (closed, m.run)
  accepts : ∀ wait outcome, m.task.loop = .accepting wait →
    m.run.cycles.isCancelled m.task.cycle = false → (accept m.run.network).1 = some outcome →
      ∃ next, Polled accept m.task m.run (acceptedEvent outcome) next
  resumes : ∀ wait, m.task.loop = .waiting wait →
    m.run.cycles.isCancelled m.task.cycle = false → m.task.deadline ≤ m.run.clock →
      ∃ next, Polled accept m.task m.run .waited next ∧ next.1.loop = .accepting wait
  undisturbed : ∀ (session : SessionTask) l, session.listener ≠ some m.task.listener →
    m.run.network.listeners[m.task.listener]? = some l →
      (session.run m.run.network).1.listener ≠ some m.task.listener ∧
        (session.run m.run.network).2.listeners[m.task.listener]? = some l ∧
          next? m.task { m.run with network := (session.run m.run.network).2 } = next? m.task m.run

theorem moves_settled (h : Relation.ReflTransGen (Move accept) m later)
    (hs : m.run.cycles.isCancelled m.task.cycle ∨ m.task.loop.isEnded) :
    (later.run.cycles.isCancelled later.task.cycle ∨ later.task.loop.isEnded) ∧
      later.met = m.met ∧ later.started = m.started ∧
        (later.task.loop = m.task.loop ∨
          m.task.loop.isEnded = false ∧ later.task.loop = .ended .serverClosed) := by
  induction h with
  | refl => exact ⟨hs, rfl, rfl, .inl rfl⟩
  | @tail before later _ hm ih =>
    obtain ⟨hbefore, hmet, hstarted, hloop⟩ := ih
    obtain ⟨hlater, hmet', hstarted', hloop'⟩ := hm.settled hbefore
    refine ⟨hlater, hmet'.trans hmet, hstarted'.trans hstarted, ?_⟩
    rcases hloop' with he | ⟨ho, he⟩
    · rw [he]
      exact hloop
    · rcases hloop with hb | ⟨-, hb⟩
      · exact .inr ⟨hb ▸ ho, he⟩
      · simp [hb, State.isEnded] at ho

theorem moves_isLost (h : Relation.ReflTransGen (Move accept) m later) :
    later.task.isLost = m.task.isLost := by
  induction h with
  | refl => rfl
  | tail _ hm ih =>
    cases hm with
    | polled hp => exact hp.isLost_eq.trans ih
    | elsewhere _ _ => exact ih

/-- However a task that serves has come to a moment, it has kept its promises. The loop takes for
lost connections those that are. -/
theorem reached_served {isLost : IoError → Bool}
    (hl : ∀ e, isLost e ↔
      e.kind ∈ [IoKind.connectionAborted, .connectionReset, .connectionRefused])
    {number cycle listener : Nat}
    (h : Relation.ReflTransGen (Move accept) (.first isLost number cycle listener run) m) :
    Served accept IoError.Passes m := by
  have hfirst : Consistent IoError.Passes (.first isLost number cycle listener run) :=
    ⟨rfl, fun _ _ hm => absurd hm List.not_mem_nil, nofun⟩
  have hconsistent : Consistent IoError.Passes m := by
    induction h with
    | refl => exact hfirst
    | tail h hm ih => exact ih.move (moves_isLost h ▸ IoError.isTransient_iff hl) hm
  refine ⟨hconsistent, fun hs later hm => (moves_settled hm hs).2, fun ho hx => ?_,
    fun wait outcome hw hx ha => ?_, fun wait hw hx hd => ?_, fun session l hs hlistener => ?_⟩
  · exact ⟨_, rfl, polled_of_cancelled ho hx, fun _ _ hp => hp.eq_of_cancelled hx⟩
  · exact polled_of_accepting hw hx ha
  · exact polled_of_waiting hw hx hd
  · obtain ⟨hkept, hown⟩ := SessionTask.run_apart hlistener hs
    exact ⟨hown, hkept, next?_congr (hkept.trans hlistener.symm)⟩

/-- A server without a free descriptor for its first client, which sets options that no socket
takes. -/
def crowded : ServerRun :=
  { ServerRun.start (Settings.configuration { keepalive := 500 }) ⟨[], [], []⟩ with
    cycles := ServeCycles.start.begin (.v4 ⟨127, 0, 0, 1⟩ 1080)
    network := ((Network.start ⟨[], [], []⟩).addListener (.ok (.v4 ⟨127, 0, 0, 1⟩ 1080))
      [.error .emfile, .ok ⟨.v4 ⟨10, 0, 0, 1⟩ 4242, .ok (.v4 ⟨10, 0, 0, 1⟩ 4242),
        .ok (.v4 ⟨127, 0, 0, 1⟩ 1080), .client⟩]).2 }

def firstTask (loop : State) (deadline : Nat) : ServeTask :=
  ⟨0, 1, 0, IoError.isLost, loop, deadline⟩

/-- It waits, accepts the client nevertheless, and is closed. -/
theorem served_crowded :
    ∃ m, Relation.ReflTransGen (Move (acceptOf 0)) (.first IoError.isLost 0 1 0 crowded) m ∧
      m.met = [.error (.reported .emfile), .ok 0] ∧
        m.started = [.start crowded.config 0] ∧ m.task.loop = .ended .serverClosed ∧
          Served (acceptOf 0) IoError.Passes m := by
  let refused : ServerRun := { crowded with network := (crowded.network.accept 0).2 }
  let later : ServerRun := { refused with clock := 5 }
  let accepted := handOn 0 { later with network := (later.network.accept 0).2 }
  let closed : ServerRun := { accepted with cycles := accepted.cycles.close }
  have hrefused : Polled (acceptOf 0) (firstTask (.accepting 0) 0) crowded
      (.failed (.reported .emfile)) (firstTask (.waiting 5) 5, refused) :=
    show Polled _ _ _ _ (meet _ _ refused) from .intro rfl rfl
  have hwaited : Polled (acceptOf 0) (firstTask (.waiting 5) 5) later .waited
      (firstTask (.accepting 5) 5, later) :=
    show Polled _ _ _ _ (meet _ _ later) from .intro rfl rfl
  have haccepted : Polled (acceptOf 0) (firstTask (.accepting 5) 5) later (.accepted 0)
      (firstTask (.accepting 0) 5, accepted) :=
    show Polled _ _ _ _ (meet _ _ { later with network := (later.network.accept 0).2 }) from
      .intro rfl rfl
  have hclosed : Polled (acceptOf 0) (firstTask (.accepting 0) 5) closed .cancelled
      (firstTask (.ended .serverClosed) 5, closed) := polled_of_cancelled rfl rfl
  have hmet : Move (acceptOf 0) (.first IoError.isLost 0 1 0 crowded)
      ⟨firstTask (.waiting 5) 5, refused, [.error (.reported .emfile)], []⟩ := .polled hrefused
  have hlater : Relation.ReflTransGen (Move (acceptOf 0)) (.first IoError.isLost 0 1 0 crowded)
      ⟨firstTask (.waiting 5) 5, later, [.error (.reported .emfile)], []⟩ :=
    (Relation.ReflTransGen.single hmet).tail (.elsewhere rfl id)
  have hmoves : Relation.ReflTransGen (Move (acceptOf 0)) (.first IoError.isLost 0 1 0 crowded)
      ⟨firstTask (.accepting 0) 5, closed, [.error (.reported .emfile), .ok 0],
        [.start crowded.config 0]⟩ :=
    ((hlater.tail (.polled hwaited)).tail (.polled haccepted)).tail (.elsewhere rfl fun _ => rfl)
  exact ⟨_, hmoves.tail (.polled hclosed), rfl, rfl, rfl,
    reached_served IoError.isLost_iff (hmoves.tail (.polled hclosed))⟩

theorem moves_runLoop (events : Nat) (m : Moment) :
    ∃ met started, Relation.ReflTransGen (Move (acceptOf m.task.listener)) m
      ⟨(runLoop events m.task m.run).1, (runLoop events m.task m.run).2, met, started⟩ := by
  have hmoves := runLoop_induction
    (motive := fun task run => task.listener = m.task.listener ∧ ∃ met started,
      Relation.ReflTransGen (Move (acceptOf m.task.listener)) m ⟨task, run, met, started⟩)
    (fun ⟨hl, _, _, h⟩ hp => ⟨hp.frame.2.2.2.2.2.trans hl, _, _, h.tail (.polled (hl ▸ hp))⟩)
    (fun ⟨hl, _, _, h⟩ => ⟨hl, _, _, h.tail (.elsewhere rfl id)⟩)
    events m.task m.run ⟨rfl, m.met, m.started, .refl⟩
  exact hmoves.2

end ServerRun

end SocksProxy
