import Mathlib.Algebra.Group.Nat.Defs
import SocksProxy.Proofs.AcceptedConnections

/-!
# The waits of an accept loop

After an error that passes, a loop waits before it accepts again: five milliseconds after the first
error in a row, twice as long after each further one, and never longer than a second. With a
connection that is accepted the errors begin to be counted anew.

The wait that a loop remembers is that after the errors in a row that it has met, which every poll
keeps. A wait is over when the clock has come to its end, and before that only with a cancellation.
-/

namespace SocksProxy

namespace AcceptLoop

/-- The wait after so many errors in a row, in milliseconds. -/
def waitAfter : Nat → Nat
  | 0 => 0
  | k + 1 => min (5 * 2 ^ k) 1000

theorem waitAfter_le (k : Nat) : waitAfter k ≤ 1000 := by
  cases k with
  | zero => exact Nat.zero_le _
  | succ k => exact Nat.min_le_right ..

theorem le_waitAfter_succ (k : Nat) : 5 ≤ waitAfter (k + 1) := by
  have hpos : 0 < 2 ^ k := Nat.two_pow_pos k
  rw [waitAfter]
  omega

theorem nextWait_waitAfter (k : Nat) : nextWait (waitAfter k) = waitAfter (k + 1) := by
  cases k with
  | zero => rfl
  | succ k =>
    have hpos : 0 < 2 ^ k := Nat.two_pow_pos k
    simp only [nextWait, waitAfter, shortestWait, longestWait, Nat.pow_succ]
    omega

theorem waitAfter_le_succ (k : Nat) : waitAfter k ≤ waitAfter (k + 1) := by
  have hle := waitAfter_le k
  rw [← nextWait_waitAfter, nextWait, longestWait]
  omega

def State.wait? : State → Option Nat
  | .accepting wait | .waiting wait => some wait
  | .ended _ => none

/-- How many errors have been met in a row, since the last connection or the beginning. -/
def errorsInARow {κ : Type} (met : List (Except IoError κ)) : Nat :=
  (met.reverse.takeWhile fun outcome => !outcome.isOk).length

theorem errorsInARow_ok {κ : Type} (met : List (Except IoError κ)) (connection : κ) :
    errorsInARow (met ++ [.ok connection]) = 0 := by
  simp [errorsInARow, Except.isOk, Except.toBool]

theorem errorsInARow_error {κ : Type} (met : List (Except IoError κ)) (e : IoError) :
    errorsInARow (met ++ [.error e]) = errorsInARow met + 1 := by
  simp [errorsInARow, Except.isOk, Except.toBool]

/-- The wait that a loop remembers is that after the errors in a row that it has met. -/
structure Paced {κ : Type} (loop : State) (met : List (Except IoError κ)) : Prop where
  remembers : ∀ wait, loop.wait? = some wait → wait = waitAfter (errorsInARow met)
  waits : ∀ wait, loop = .waiting wait → 0 < errorsInARow met

theorem paced_ended {κ : Type} (met : List (Except IoError κ)) (reason : Error) :
    Paced (.ended reason) met := ⟨nofun, nofun⟩

theorem paced_accepting {κ : Type} {met : List (Except IoError κ)} {wait : Nat}
    (h : wait = waitAfter (errorsInARow met)) : Paced (.accepting wait) met :=
  ⟨fun _ hw => Option.some.inj hw ▸ h, nofun⟩

theorem paced_waiting {κ : Type} {met : List (Except IoError κ)} {wait : Nat}
    (h : wait = waitAfter (errorsInARow met)) (hk : 0 < errorsInARow met) :
    Paced (.waiting wait) met :=
  ⟨fun _ hw => Option.some.inj hw ▸ h, fun _ _ => hk⟩

theorem Paced.nextWait_eq {κ : Type} {loop : State} {met : List (Except IoError κ)} {last : Nat}
    (h : Paced loop met) (hl : loop = .accepting last) :
    nextWait last = waitAfter (errorsInARow met + 1) := by
  have hlast : last = waitAfter (errorsInARow met) := h.remembers last (by rw [hl]; rfl)
  rw [hlast, nextWait_waitAfter]

end AcceptLoop

namespace ServerRun

open AcceptLoop

variable {accept : Accept} {m : Moment} {task : ServeTask} {run : ServerRun}
  {event : Event Nat} {next : ServeTask × ServerRun} {met : List (Except IoError Nat)}
  {since wait : Nat}

theorem Polled.paced (h : Polled accept task run event next) (hm : Paced task.loop met) :
    Paced next.1.loop (met ++ event.outcome?.toList) := by
  obtain ⟨-, ⟨-, rfl, rfl⟩ | ⟨-, ⟨_, connection, _, -, -, rfl, rfl⟩ |
    ⟨last, e, _, hl, -, rfl, rfl⟩ | ⟨last, hl, -, rfl, rfl⟩⟩⟩ := polled_cases h
  · exact paced_ended _ _
  · exact paced_accepting (congrArg waitAfter (errorsInARow_ok met connection)).symm
  · have hmore : errorsInARow (met ++ [.error e]) = errorsInARow met + 1 := errorsInARow_error met e
    cases he : e.isTransient task.isLost with
    | false => exact paced_ended _ _
    | true =>
      apply paced_waiting
      · exact (hm.nextWait_eq hl).trans (congrArg waitAfter hmore.symm)
      · exact hmore ▸ Nat.succ_pos _
  · have hlast : last = waitAfter (errorsInARow met) := hm.remembers last (by rw [hl]; rfl)
    apply paced_accepting
    simpa [Event.outcome?] using hlast

theorem moves_paced {isLost : IoError → Bool} {number cycle listener : Nat}
    (h : Relation.ReflTransGen (Move accept) (.first isLost number cycle listener run) m) :
    Paced m.task.loop m.met := by
  induction h with
  | refl => exact paced_accepting rfl
  | tail _ hm ih =>
    cases hm with
    | polled hp => exact hp.paced ih
    | elsewhere _ _ => exact ih

/-- A task that has to wait from some time on. Whatever becomes of its server, it does nothing
before the wait is over, unless it is cancelled, and accepts again afterwards. -/
structure Resting (accept : Accept) (task : ServeTask) (since wait : Nat) : Prop where
  waiting : task.loop = .waiting wait
  rests : ∀ later event next, Polled accept task later event next →
    (later.cycles.isCancelled task.cycle ∧ event = .cancelled ∧
        next.1.loop = .ended .serverClosed) ∨
      (since + wait ≤ later.clock ∧ event = .waited ∧ next.1.loop = .accepting wait ∧
        next.2 = later)
  resumes : ∀ later, later.cycles.isCancelled task.cycle = false → since + wait ≤ later.clock →
    ∃ next, Polled accept task later .waited next

theorem resting_of_deadline (hw : task.loop = .waiting wait) (hd : task.deadline = since + wait) :
    Resting accept task since wait := by
  refine ⟨hw, fun later event next hp => ?_, fun later hx hl => ?_⟩
  · obtain ⟨-, ⟨hx, rfl, rfl⟩ | ⟨-, ⟨_, _, _, hl, -⟩ | ⟨_, _, _, hl, -⟩ |
      ⟨last, hl, ht, rfl, rfl⟩⟩⟩ := polled_cases hp
    · exact .inl ⟨hx, rfl, rfl⟩
    · rw [hw] at hl
      cases hl
    · rw [hw] at hl
      cases hl
    · rw [hw] at hl
      cases hl
      exact .inr ⟨hd ▸ ht, rfl, rfl, rfl⟩
  · obtain ⟨next, hp, -⟩ := polled_of_waiting hw hx (hd ▸ hl)
    exact ⟨next, hp⟩

theorem Polled.resting {e : IoError} (h : Polled accept task run (.failed e) next)
    (he : e.isTransient task.isLost) (hm : Paced task.loop met) :
    Resting accept next.1 run.clock (waitAfter (errorsInARow met + 1)) := by
  obtain ⟨-, ⟨-, hf, -⟩ | ⟨-, ⟨_, _, _, -, -, hf, -⟩ | ⟨last, e', _, hl, -, hf, rfl⟩ |
    ⟨_, -, -, hf, -⟩⟩⟩ := polled_cases h
  · cases hf
  · cases hf
  · cases hf
    apply resting_of_deadline
    · simp only [he, if_true, hm.nextWait_eq hl]
    · simp only [he, if_true, hm.nextWait_eq hl]
  · cases hf

/-- How a task that serves backs off: by the number of errors in a row that it has met before the
next one. -/
structure BacksOff (accept : Accept) (m : Moment) : Prop
    extends Paced m.task.loop m.met where
  bounded : ∀ last, m.task.loop.wait? = some last → 2 * last ≤ 2000
  rests : ∀ e next, e.isTransient m.task.isLost → Polled accept m.task m.run (.failed e) next →
    ∃ wait, wait = min (5 * 2 ^ errorsInARow m.met) 1000 ∧ 5 ≤ wait ∧ wait ≤ 1000 ∧
      (∀ last, m.task.loop.wait? = some last → last ≤ wait) ∧
      (errorsInARow m.met = 0 → wait = 5) ∧ Resting accept next.1 m.run.clock wait

/-- However a task that serves has come to a moment, it backs off. -/
theorem reached_backsOff {isLost : IoError → Bool} {number cycle listener : Nat}
    (h : Relation.ReflTransGen (Move accept) (.first isLost number cycle listener run) m) :
    BacksOff accept m := by
  have hpaced := moves_paced h
  refine ⟨hpaced, fun last hl => ?_, fun e next he hp => ⟨waitAfter (errorsInARow m.met + 1), rfl,
    le_waitAfter_succ _, waitAfter_le _, fun last hl => ?_, fun hk => ?_, hp.resting he hpaced⟩⟩
  · have hle := waitAfter_le (errorsInARow m.met)
    rw [hpaced.remembers last hl]
    omega
  · rw [hpaced.remembers last hl]
    exact waitAfter_le_succ _
  · rw [hk]
    rfl

theorem Polled.moves {task' : ServeTask} {after : ServerRun}
    (h : Polled accept task run event (task', after)) (clock : Nat)
    (met : List (Except IoError Nat)) (started : List SessionTask) :
    Relation.ReflTransGen (Move accept) ⟨task, run, met, started⟩
      ⟨task', { after with clock }, met ++ event.outcome?.toList,
        started ++ after.sessions.drop run.sessions.length⟩ := by
  have hpolled : Move accept ⟨task, run, met, started⟩
      ⟨task', after, met ++ event.outcome?.toList,
        started ++ after.sessions.drop run.sessions.length⟩ := .polled h
  exact (Relation.ReflTransGen.single hpolled).tail (.elsewhere rfl id)

/-- A server that has no free descriptor twice, then one for a client, and then none again. -/
def cramped : ServerRun :=
  { ServerRun.start (Settings.configuration {}) ⟨[], [], []⟩ with
    cycles := ServeCycles.start.begin (.v4 ⟨127, 0, 0, 1⟩ 1080)
    network := ((Network.start ⟨[], [], []⟩).addListener (.ok (.v4 ⟨127, 0, 0, 1⟩ 1080))
      [.error .emfile, .error .enfile, .ok ⟨.v4 ⟨10, 0, 0, 1⟩ 4242, .ok (.v4 ⟨10, 0, 0, 1⟩ 4242),
        .ok (.v4 ⟨127, 0, 0, 1⟩ 1080), .client⟩, .error .emfile]).2 }

/-- A wait of ten milliseconds follows the second error in a row, and one of five the first error
after the client. -/
theorem backsOff_cramped :
    ∃ first second,
      Relation.ReflTransGen (Move (acceptOf 0)) (.first IoError.isLost 0 1 0 cramped) first ∧
      first.met = [.error (.reported .emfile)] ∧ BacksOff (acceptOf 0) first ∧
      (∃ next, Polled (acceptOf 0) first.task first.run (.failed (.reported .enfile)) next ∧
        Resting (acceptOf 0) next.1 5 10) ∧
      Relation.ReflTransGen (Move (acceptOf 0)) first second ∧
      second.met = [.error (.reported .emfile), .error (.reported .enfile), .ok 0] ∧
      BacksOff (acceptOf 0) second ∧
      ∃ next, Polled (acceptOf 0) second.task second.run (.failed (.reported .emfile)) next ∧
        Resting (acceptOf 0) next.1 15 5 := by
  let later (clock : Nat) (run : ServerRun) : ServerRun := { run with clock }
  let asked (run : ServerRun) : ServerRun :=
    { run with network := (run.network.accept 0).2 }
  let run₁ := later 5 (asked cramped)
  let run₂ := later 15 (asked run₁)
  let run₃ := handOn 0 (asked run₂)
  have hfailed : Polled (acceptOf 0) (firstTask (.accepting 0) 0) cramped
      (.failed (.reported .emfile)) (firstTask (.waiting 5) 5, asked cramped) :=
    show Polled _ _ _ _ (meet _ _ (asked cramped)) from .intro rfl rfl
  have hwaited : Polled (acceptOf 0) (firstTask (.waiting 5) 5) run₁ .waited
      (firstTask (.accepting 5) 5, run₁) :=
    show Polled _ _ _ _ (meet _ _ run₁) from .intro rfl rfl
  have hagain : Polled (acceptOf 0) (firstTask (.accepting 5) 5) run₁
      (.failed (.reported .enfile)) (firstTask (.waiting 10) 15, asked run₁) :=
    show Polled _ _ _ _ (meet _ _ (asked run₁)) from .intro rfl rfl
  have hlonger : Polled (acceptOf 0) (firstTask (.waiting 10) 15) run₂ .waited
      (firstTask (.accepting 10) 15, run₂) :=
    show Polled _ _ _ _ (meet _ _ run₂) from .intro rfl rfl
  have haccepted : Polled (acceptOf 0) (firstTask (.accepting 10) 15) run₂ (.accepted 0)
      (firstTask (.accepting 0) 15, run₃) :=
    show Polled _ _ _ _ (meet _ _ (asked run₂)) from .intro rfl rfl
  have hanew : Polled (acceptOf 0) (firstTask (.accepting 0) 15) run₃
      (.failed (.reported .emfile)) (firstTask (.waiting 5) 20, asked run₃) :=
    show Polled _ _ _ _ (meet _ _ (asked run₃)) from .intro rfl rfl
  have hfirst : Relation.ReflTransGen (Move (acceptOf 0)) (.first IoError.isLost 0 1 0 cramped)
      ⟨firstTask (.accepting 5) 5, run₁, [.error (.reported .emfile)], []⟩ :=
    (hfailed.moves 5 [] []).trans (hwaited.moves 5 _ _)
  have hsecond : Relation.ReflTransGen (Move (acceptOf 0))
      ⟨firstTask (.accepting 5) 5, run₁, [.error (.reported .emfile)], []⟩
      ⟨firstTask (.accepting 0) 15, run₃,
        [.error (.reported .emfile), .error (.reported .enfile), .ok 0],
        [.start cramped.config 0]⟩ :=
    ((hagain.moves 15 _ _).trans (hlonger.moves 15 _ _)).trans (haccepted.moves 15 _ _)
  have hbefore := reached_backsOff hfirst
  have hafter := reached_backsOff (hfirst.trans hsecond)
  obtain ⟨ten, rfl, -, -, -, -, hten⟩ := hbefore.rests _ _ rfl hagain
  obtain ⟨five, rfl, -, -, -, -, hfive⟩ := hafter.rests _ _ rfl hanew
  exact ⟨_, _, hfirst, rfl, hbefore, ⟨_, hagain, hten⟩, hsecond, rfl, hafter, _, hanew, hfive⟩

end ServerRun

end SocksProxy
