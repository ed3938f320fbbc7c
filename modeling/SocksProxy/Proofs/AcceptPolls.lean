import SocksProxy.ServerRun

/-!
# Polls of an accept loop

An accept loop goes on by polls: it looks for an event, first whether its cycle is cancelled, takes
the event into its state, and hands on the connection if there is one. A poll does one of four
things, which are told here once, for a listener that answers in any way. A server lets its loops
go on by such polls of its own listeners.
-/

namespace SocksProxy

namespace AcceptLoop

variable {σ κ : Type} {surroundings : Surroundings σ κ} {state : State} {s s' : σ}
  {event : Event κ}

theorem await_of_cancelled (hx : surroundings.isCancelled s) :
    await surroundings state s = (some .cancelled, s) := by
  unfold await
  rw [if_pos hx]

theorem await_accepting (hx : surroundings.isCancelled s = false) (wait : Nat) :
    await surroundings (.accepting wait) s =
      ((surroundings.accept s).1.map acceptedEvent, (surroundings.accept s).2) := by
  unfold await
  rw [if_neg (by simp [hx])]
  rfl

theorem await_waiting (hx : surroundings.isCancelled s = false) (wait : Nat) :
    await surroundings (.waiting wait) s =
      (if surroundings.hasWaited s then some .waited else none, s) := by
  unfold await
  rw [if_neg (by simp [hx])]

theorem await_ended (hx : surroundings.isCancelled s = false) (reason : Error) :
    await surroundings (.ended reason) s = (none, s) := by
  unfold await
  rw [if_neg (by simp [hx])]

theorem await_eq_some (h : await surroundings state s = (some event, s'))
    (hx : surroundings.isCancelled s = false) :
    (∃ wait outcome, state = .accepting wait ∧ surroundings.accept s = (some outcome, s') ∧
        event = acceptedEvent outcome) ∨
      ∃ wait, state = .waiting wait ∧ surroundings.hasWaited s ∧ event = .waited ∧ s' = s := by
  cases state with
  | accepting wait =>
    rw [await_accepting hx] at h
    obtain ⟨he, hs⟩ := Prod.mk.inj h
    obtain ⟨outcome, ho, rfl⟩ := Option.map_eq_some_iff.1 he
    exact .inl ⟨wait, outcome, rfl, Prod.ext ho hs, rfl⟩
  | waiting wait =>
    rw [await_waiting hx] at h
    obtain ⟨he, rfl⟩ := Prod.mk.inj h
    split at he
    · next hw => exact .inr ⟨wait, rfl, hw, (Option.some.inj he).symm, rfl⟩
    · cases he
  | ended reason =>
    rw [await_ended hx] at h
    cases (Prod.mk.inj h).1

theorem await_eq_none (h : await surroundings state s = (none, s')) :
    s' = s ∨ s' = (surroundings.accept s).2 := by
  cases hx : surroundings.isCancelled s with
  | true =>
    rw [await_of_cancelled hx] at h
    cases (Prod.mk.inj h).1
  | false =>
    cases state with
    | accepting wait => exact .inr (Prod.mk.inj (await_accepting hx wait ▸ h)).2.symm
    | waiting wait => exact .inl (Prod.mk.inj (await_waiting hx wait ▸ h)).2.symm
    | ended reason => exact .inl (Prod.mk.inj (await_ended hx reason ▸ h)).2.symm

end AcceptLoop

namespace ServerRun

open AcceptLoop

/-- The answers of a listener in a network. Connections are the indices of their sockets. -/
abbrev Accept := Network → Option (Except IoError Nat) × Network

def acceptOf (listener : Nat) : Accept := fun network =>
  ((network.accept listener).1.map (·.map Prod.snd), (network.accept listener).2)

/-- The surroundings of an accept loop whose listener gives the answers. -/
def around (accept : Accept) (task : ServeTask) : Surroundings ServerRun Nat :=
  { surroundings task with
    accept := fun run => ((accept run.network).1, { run with network := (accept run.network).2 }) }

/-- What an event makes of a task and of its server. -/
def meet (task : ServeTask) (event : Event Nat) (run : ServerRun) : ServeTask × ServerRun :=
  let run := (AcceptLoop.step task.isLost task.loop event).2.elim run (handOn · run)
  let loop := (AcceptLoop.step task.isLost task.loop event).1
  ({ task with loop, deadline := deadline loop run }, run)

/-- The loop of a task finds an event and takes it. -/
inductive Polled (accept : Accept) (task : ServeTask) (run : ServerRun) :
    Event Nat → ServeTask × ServerRun → Prop
  | intro {event run'} : task.loop.isEnded = false →
      await (around accept task) task.loop run = (some event, run') →
      Polled accept task run event (meet task event run')

variable {accept : Accept} {task : ServeTask} {run : ServerRun} {event : Event Nat}
  {next : ServeTask × ServerRun}

theorem handOn_sessions (index : Nat) (run : ServerRun) :
    (handOn index run).sessions = run.sessions ++ [.start run.config index] := rfl

@[simp] theorem handOn_config (index : Nat) (run : ServerRun) :
    (handOn index run).config = run.config := rfl

@[simp] theorem handOn_cycles (index : Nat) (run : ServerRun) :
    (handOn index run).cycles = run.cycles := rfl

@[simp] theorem handOn_serving (index : Nat) (run : ServerRun) :
    (handOn index run).serving = run.serving := rfl

@[simp] theorem handOn_clock (index : Nat) (run : ServerRun) :
    (handOn index run).clock = run.clock := rfl

/-- A poll sees the cancellation, accepts a connection and hands it on, fails to accept, or has
waited long enough. It accepts only if its cycle is not cancelled. -/
theorem polled_cases (h : Polled accept task run event next) :
    task.loop.isEnded = false ∧
      ((run.cycles.isCancelled task.cycle ∧ event = .cancelled ∧
          next = ({ task with loop := .ended .serverClosed, deadline := run.clock }, run)) ∨
        run.cycles.isCancelled task.cycle = false ∧
          ((∃ wait connection network, task.loop = .accepting wait ∧
              accept run.network = (some (.ok connection), network) ∧
              event = .accepted connection ∧
              next = ({ task with loop := .accepting 0, deadline := run.clock },
                handOn connection { run with network })) ∨
            (∃ wait e network, task.loop = .accepting wait ∧
              accept run.network = (some (.error e), network) ∧ event = .failed e ∧
              next = ({ task with
                loop :=
                  if e.isTransient task.isLost then .waiting (nextWait wait) else .ended (.io e)
                deadline := run.clock + if e.isTransient task.isLost then nextWait wait else 0 },
                { run with network })) ∨
            ∃ wait, task.loop = .waiting wait ∧ task.deadline ≤ run.clock ∧ event = .waited ∧
              next = ({ task with loop := .accepting wait, deadline := run.clock }, run))) := by
  obtain ⟨ho, he⟩ := h
  refine ⟨ho, ?_⟩
  cases hx : run.cycles.isCancelled task.cycle with
  | true =>
    have hlook : await (around accept task) task.loop run = (some .cancelled, run) :=
      await_of_cancelled hx
    rw [hlook] at he
    obtain ⟨hc, rfl⟩ := Prod.mk.inj he
    cases hc
    refine .inl ⟨rfl, rfl, ?_⟩
    cases hl : task.loop with
    | accepting wait => simp [meet, hl, AcceptLoop.step, deadline]
    | waiting wait => simp [meet, hl, AcceptLoop.step, deadline]
    | ended reason => simp [hl, State.isEnded] at ho
  | false =>
    refine .inr ⟨rfl, ?_⟩
    rcases await_eq_some he hx with ⟨wait, outcome, hl, ha, rfl⟩ | ⟨wait, hl, hw, rfl, rfl⟩
    · obtain ⟨hn, rfl⟩ := Prod.mk.inj ha
      have hnet : accept run.network = (some outcome, (accept run.network).2) := Prod.ext hn rfl
      cases outcome with
      | ok connection =>
        refine .inl ⟨wait, connection, _, hl, hnet, rfl, ?_⟩
        simp [meet, hl, AcceptLoop.step, acceptedEvent, deadline]
      | error e =>
        refine .inr (.inl ⟨wait, e, _, hl, hnet, rfl, ?_⟩)
        cases ht : e.isTransient task.isLost <;>
          simp [meet, hl, AcceptLoop.step, acceptedEvent, deadline, ht]
    · refine .inr (.inr ⟨wait, hl, of_decide_eq_true hw, rfl, ?_⟩)
      simp [meet, hl, AcceptLoop.step, deadline]

theorem Polled.frame (h : Polled accept task run event next) :
    next.2.config = run.config ∧ next.2.cycles = run.cycles ∧ next.2.serving = run.serving ∧
      next.2.clock = run.clock ∧ next.1.cycle = task.cycle ∧ next.1.listener = task.listener := by
  obtain ⟨-, ⟨-, -, rfl⟩ | ⟨-, ⟨_, _, _, -, -, -, rfl⟩ | ⟨_, _, _, -, -, -, rfl⟩ |
    ⟨_, -, -, -, rfl⟩⟩⟩ := polled_cases h <;> exact ⟨rfl, rfl, rfl, rfl, rfl, rfl⟩

theorem Polled.loop_eq (h : Polled accept task run event next) :
    next.1.loop = (AcceptLoop.step task.isLost task.loop event).1 := by
  cases h
  rfl

theorem Polled.isLost_eq (h : Polled accept task run event next) :
    next.1.isLost = task.isLost := by
  cases h
  rfl

theorem Polled.isCancelled (h : Polled accept task run event next) (he : event = .cancelled) :
    run.cycles.isCancelled task.cycle := by
  subst he
  obtain ⟨-, ⟨hx, -⟩ | ⟨-, ⟨_, _, _, -, -, h, -⟩ | ⟨_, _, _, -, -, h, -⟩ | ⟨_, -, -, h, -⟩⟩⟩ :=
    polled_cases h
  · exact hx
  all_goals cases h

theorem Polled.eq_of_cancelled (h : Polled accept task run event next)
    (hx : run.cycles.isCancelled task.cycle) :
    next = ({ task with loop := .ended .serverClosed, deadline := run.clock }, run) := by
  obtain ⟨-, ⟨-, -, he⟩ | ⟨hn, -⟩⟩ := polled_cases h
  · exact he
  · simp [hx] at hn

theorem polled_of_cancelled (ho : task.loop.isEnded = false)
    (hx : run.cycles.isCancelled task.cycle) : Polled accept task run .cancelled
      ({ task with loop := .ended .serverClosed, deadline := run.clock }, run) := by
  have hp : Polled accept task run .cancelled (meet task .cancelled run) :=
    .intro ho (await_of_cancelled hx)
  exact hp.eq_of_cancelled hx ▸ hp

theorem polled_of_accepting {wait : Nat} {outcome : Except IoError Nat}
    (hw : task.loop = .accepting wait) (hx : run.cycles.isCancelled task.cycle = false)
    (ha : (accept run.network).1 = some outcome) :
    ∃ next, Polled accept task run (acceptedEvent outcome) next := by
  have hlook : await (around accept task) task.loop run =
      (some (acceptedEvent outcome), { run with network := (accept run.network).2 }) := by
    rw [hw, await_accepting hx]
    exact Prod.ext (congrArg (Option.map acceptedEvent) ha) rfl
  exact ⟨_, .intro (by rw [hw]; rfl) hlook⟩

theorem polled_of_waiting {wait : Nat} (hw : task.loop = .waiting wait)
    (hx : run.cycles.isCancelled task.cycle = false) (hd : task.deadline ≤ run.clock) :
    ∃ next, Polled accept task run .waited next ∧ next.1.loop = .accepting wait := by
  have hlook : await (around accept task) task.loop run = (some .waited, run) := by
    rw [hw, await_waiting hx]
    exact Prod.ext (if_pos (decide_eq_true hd)) rfl
  have hp := Polled.intro (by rw [hw]; rfl) hlook
  exact ⟨_, hp, by rw [hp.loop_eq, hw]; rfl⟩

/-- A server lets a loop go on poll by poll: what each poll keeps, and a look that finds nothing
keeps, is kept. -/
theorem runLoop_induction {motive : ServeTask → ServerRun → Prop}
    (poll : ∀ {task run event next}, motive task run →
      Polled (acceptOf task.listener) task run event next → motive next.1 next.2)
    (look : ∀ {task run}, motive task run →
      motive task { run with network := (run.network.accept task.listener).2 })
    (events : Nat) (task : ServeTask) (run : ServerRun) (h : motive task run) :
    motive (runLoop events task run).1 (runLoop events task run).2 := by
  induction events generalizing task run with
  | zero => exact h
  | succ events ih =>
    rw [runLoop]
    split
    · exact h
    · next ho =>
      split
      · next run' hn =>
        rcases await_eq_none hn with rfl | rfl
        · exact h
        · exact look h
      · next event run' he =>
        exact ih _ _ (poll h (.intro (by simpa using ho) he))

end ServerRun

end SocksProxy
