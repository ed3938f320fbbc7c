import SocksProxy.Proofs.AcceptPolls

/-!
# Serve cycles in any order

Calls that serve, and closes, take their steps on one register in any order: a call begins a cycle,
meets the events of its accept loop, and finishes when the loop has ended, however late. The cycle
that nobody has cancelled is the latest one as long as it lasts, and it is the one that the
register would cancel next, so that every cycle can be closed.
-/

namespace SocksProxy

namespace ServeCycles

/-- A call that serves. The cycle of a call is its position among all calls, counted from one. -/
structure Call where
  address : SocketAddress
  loop : AcceptLoop.State
  finished : Bool

def Call.start (address : SocketAddress) : Call := ⟨address, AcceptLoop.start, false⟩

/-- The register and the calls so far, after steps in some order. A loop sees a cancellation only
once its cycle is cancelled, but may be slow to see it. -/
inductive Reached : ServeCycles → List Call → Prop
  | start : Reached ServeCycles.start []
  | began {cycles calls} (address : SocketAddress) : Reached cycles calls →
      Reached (cycles.begin address) (calls ++ [.start address])
  | met {cycles calls i call} {κ : Type} (isLost : IoError → Bool) (event : AcceptLoop.Event κ) :
      Reached cycles calls → calls[i]? = some call →
      (event = .cancelled → cycles.isCancelled (i + 1)) →
      Reached cycles (calls.set i { call with loop := (AcceptLoop.step isLost call.loop event).1 })
  | finished {cycles calls i call} : Reached cycles calls → calls[i]? = some call →
      call.loop.isEnded → call.finished = false →
      Reached (cycles.finish (i + 1)) (calls.set i { call with finished := true })
  | closed {cycles calls} : Reached cycles calls → Reached cycles.close calls

/-- A cycle has started, has not finished and is not cancelled. -/
def Live (cycles : ServeCycles) (calls : List Call) (cycle : Nat) : Prop :=
  cycles.isCancelled cycle = false ∧
    ∃ i call, cycle = i + 1 ∧ calls[i]? = some call ∧ call.finished = false

/-- The address of the latest call, unless that has finished. -/
def latestAddress (calls : List Call) : Option SocketAddress :=
  calls.getLast?.bind fun call => if call.finished then none else some call.address

variable {cycles : ServeCycles} {calls : List Call} {call changed : Call} {i cycle : Nat}
  {address : SocketAddress}

theorem isCancelled_close (cycles : ServeCycles) (cycle : Nat) :
    cycles.close.isCancelled cycle =
      (decide (cycles.running = some cycle) || cycles.isCancelled cycle) := by
  cases hr : cycles.running with
  | none => simp [isCancelled, close, hr]
  | some running => simp [isCancelled, close, hr, eq_comm]

theorem isCancelled_begin (cycles : ServeCycles) (address : SocketAddress) (cycle : Nat) :
    (cycles.begin address).isCancelled cycle = cycles.close.isCancelled cycle := rfl

theorem isCancelled_finish (cycles : ServeCycles) (finished cycle : Nat) :
    (cycles.finish finished).isCancelled cycle = cycles.isCancelled cycle := by
  unfold finish
  split <;> rfl

theorem Live.le_length (h : Live cycles calls cycle) : cycle ≤ calls.length := by
  obtain ⟨-, i, call, rfl, hc, -⟩ := h
  exact (List.getElem?_eq_some_iff.1 hc).1

theorem live_set (hc : calls[i]? = some call) (hf : changed.finished = call.finished) :
    Live cycles (calls.set i changed) cycle ↔ Live cycles calls cycle := by
  refine and_congr_right fun _ => exists_congr fun j => ?_
  rw [List.getElem?_set]
  split
  · next he =>
    subst he
    have hlt : i < calls.length := (List.getElem?_eq_some_iff.1 hc).1
    have hget : calls[i] = call := by simpa [hlt] using hc
    simp [hlt, hget, hf]
  · rfl

theorem live_set_finished (hf : changed.finished) :
    Live cycles (calls.set i changed) cycle ↔ Live cycles calls cycle ∧ cycle ≠ i + 1 := by
  constructor
  · rintro ⟨hn, j, other, rfl, hc, ho⟩
    rw [List.getElem?_set] at hc
    split at hc
    · split at hc
      · cases hc
        simp [hf] at ho
      · cases hc
    · next hne => exact ⟨⟨hn, j, other, rfl, hc, ho⟩, by omega⟩
  · rintro ⟨⟨hn, j, other, rfl, hc, ho⟩, hne⟩
    exact ⟨hn, j, other, rfl, by rw [List.getElem?_set_ne (by omega), hc], ho⟩

theorem live_append_iff (hle : cycle ≤ calls.length) (rest : List Call) :
    Live cycles (calls ++ rest) cycle ↔ Live cycles calls cycle := by
  refine and_congr_right fun _ => exists_congr fun j => exists_congr fun other =>
    and_congr_right fun he => ?_
  rw [List.getElem?_append_left (by omega)]

theorem latestAddress_append (calls : List Call) (call : Call) :
    latestAddress (calls ++ [call]) = if call.finished then none else some call.address := by
  simp [latestAddress]

/-- The latest call has the address, whatever call is changed, as long as it is as finished. -/
theorem latestAddress_set (hc : calls[i]? = some call) (hf : changed.finished = call.finished)
    (ha : changed.address = call.address) :
    latestAddress (calls.set i changed) = latestAddress calls := by
  rw [latestAddress, latestAddress, List.getLast?_eq_getElem?, List.getLast?_eq_getElem?,
    List.length_set, List.getElem?_set]
  split
  · next he =>
    have hlt : i < calls.length := (List.getElem?_eq_some_iff.1 hc).1
    rw [← he, hc, if_pos hlt]
    simp [hf, ha]
  · rfl

theorem latestAddress_set_of_ne (hne : i + 1 ≠ calls.length) :
    latestAddress (calls.set i changed) = latestAddress calls := by
  rw [latestAddress, latestAddress, List.getLast?_eq_getElem?, List.getLast?_eq_getElem?,
    List.length_set]
  cases calls with
  | nil => rfl
  | cons first rest => rw [List.getElem?_set_ne (by simp at hne ⊢; omega)]

/-- The register is up to date with the calls. -/
structure Current (cycles : ServeCycles) (calls : List Call) : Prop where
  latest : cycles.latest = calls.length
  running {cycle : Nat} : cycles.running = some cycle ↔ Live cycles calls cycle
  newest {cycle : Nat} : Live cycles calls cycle → cycle = calls.length
  cancelled {cycle : Nat} : cycles.isCancelled cycle → cycle ≤ calls.length
  address : cycles.address = latestAddress calls

theorem current_start : Current start [] where
  latest := rfl
  running := by simp [Live, start]
  newest h := Nat.le_zero.1 h.le_length
  cancelled h := by simp [isCancelled, start] at h
  address := rfl

theorem Current.not_isCancelled (h : Current cycles calls) (hlt : calls.length < cycle) :
    cycles.isCancelled cycle = false :=
  Bool.eq_false_iff.2 fun hc => Nat.not_lt.2 (h.cancelled hc) hlt

theorem Current.not_live_close (h : Current cycles calls) : ¬ Live cycles.close calls cycle := by
  rintro ⟨hn, hs⟩
  rw [isCancelled_close, Bool.or_eq_false_iff, decide_eq_false_iff_not] at hn
  exact hn.1 (h.running.2 ⟨hn.2, hs⟩)

theorem Current.cancelled_close (h : Current cycles calls)
    (hc : cycles.close.isCancelled cycle) : cycle ≤ calls.length := by
  rw [isCancelled_close, Bool.or_eq_true, decide_eq_true_eq] at hc
  exact hc.elim (fun hr => (h.running.1 hr).le_length) h.cancelled

theorem Current.close (h : Current cycles calls) : Current cycles.close calls where
  latest := h.latest
  running {_} := ⟨fun hr => (nomatch hr), fun hl => absurd hl h.not_live_close⟩
  newest hl := absurd hl h.not_live_close
  cancelled := h.cancelled_close
  address := h.address

/-- A cycle that has just begun is the only one that is live. -/
theorem Current.live_begin (h : Current cycles calls) :
    Live (cycles.begin address) (calls ++ [.start address]) cycle ↔ cycle = calls.length + 1 := by
  constructor
  · intro hl
    have hle : cycle ≤ calls.length + 1 := by simpa using hl.le_length
    rcases Nat.le_succ_iff.1 hle with hold | hnew
    · rw [live_append_iff hold] at hl
      exact absurd hl h.not_live_close
    · exact hnew
  · rintro rfl
    refine ⟨?_, calls.length, .start address, rfl, by simp, rfl⟩
    rw [isCancelled_begin]
    exact h.close.not_isCancelled (Nat.lt_succ_self _)

theorem Current.began (h : Current cycles calls) (address : SocketAddress) :
    Current (cycles.begin address) (calls ++ [.start address]) where
  latest := by simp [ServeCycles.begin, h.latest]
  running {_} := by
    rw [h.live_begin]
    simp [ServeCycles.begin, h.latest, eq_comm]
  newest hl := by simp [h.live_begin.1 hl]
  cancelled hc := by
    have hle := h.cancelled_close hc
    simp
    omega
  address := by simp [latestAddress_append, ServeCycles.begin, Call.start]

theorem Current.met (h : Current cycles calls) (hc : calls[i]? = some call)
    (hf : changed.finished = call.finished) (ha : changed.address = call.address) :
    Current cycles (calls.set i changed) where
  latest := by rw [List.length_set, h.latest]
  running := h.running.trans (live_set hc hf).symm
  newest hl := by rw [List.length_set, h.newest ((live_set hc hf).1 hl)]
  cancelled hc := by simpa using h.cancelled hc
  address := by rw [latestAddress_set hc hf ha, h.address]

theorem Current.finished (h : Current cycles calls) (hc : calls[i]? = some call)
    (hf : changed.finished) : Current (cycles.finish (i + 1)) (calls.set i changed) := by
  have hlt : i < calls.length := (List.getElem?_eq_some_iff.1 hc).1
  have hlive (cycle : Nat) : Live (cycles.finish (i + 1)) (calls.set i changed) cycle ↔
      Live cycles calls cycle ∧ cycle ≠ i + 1 := by
    rw [live_set_finished hf, Live, isCancelled_finish]
    rfl
  refine ⟨?_, ?_, ?_, ?_, ?_⟩
  · rw [List.length_set, ← h.latest, finish]
    split <;> rfl
  · intro cycle
    rw [hlive, ← h.running, finish]
    split
    · next he =>
      have hne : cycles.running = some cycle → cycle = i + 1 := fun hr =>
        (h.newest (h.running.1 hr)).trans (h.latest.symm.trans he)
      simpa using hne
    · next hn =>
      refine (and_iff_left_of_imp fun hr he => hn ?_).symm
      rw [h.latest, ← h.newest (h.running.1 hr), he]
  · intro cycle hl
    rw [List.length_set, h.newest ((hlive cycle).1 hl).1]
  · intro cycle hx
    rw [List.length_set]
    exact h.cancelled (by rwa [isCancelled_finish] at hx)
  · rw [finish]
    split
    · next he =>
      have hlast : calls.length - 1 = i := by rw [← h.latest, he, Nat.add_sub_cancel]
      simp [latestAddress, List.getLast?_eq_getElem?, hlast, hlt, hf]
    · next hn => rw [latestAddress_set_of_ne (by rwa [← h.latest, ne_comm]), h.address]

theorem Reached.current (h : Reached cycles calls) : Current cycles calls := by
  induction h with
  | start => exact current_start
  | began address _ ih => exact ih.began address
  | met _ event _ hc _ ih => exact ih.met hc rfl rfl
  | finished _ hc _ _ ih => exact ih.finished hc rfl
  | closed _ ih => exact ih.close

/-- No cycle is orphaned: a live cycle is the latest, and the next close or cycle cancels it and no
other. A close without one changes nothing, no close reaches a cycle that begins after it, the
register has the address of the latest cycle while that lasts, and an older cycle that finishes
leaves the register as it is. -/
structure Owned (cycles : ServeCycles) (calls : List Call) : Prop where
  newest {cycle : Nat} :
    Live cycles calls cycle → cycle = calls.length ∧ cycles.running = some cycle
  single {cycle other : Nat} : Live cycles calls cycle → Live cycles calls other → cycle = other
  closed {cycle : Nat} : Live cycles calls cycle → ∀ other,
    cycles.close.isCancelled other ↔ other = cycle ∨ cycles.isCancelled other
  replaced {cycle : Nat} : Live cycles calls cycle → ∀ address other,
    (cycles.begin address).isCancelled other ↔ other = cycle ∨ cycles.isCancelled other
  idle : (∀ cycle, ¬ Live cycles calls cycle) → cycles.close = cycles
  later : ∀ address, Live (cycles.close.begin address) (calls ++ [.start address])
    (calls.length + 1)
  address : cycles.address = latestAddress calls
  stale {cycle : Nat} : cycle ≠ calls.length → cycles.finish cycle = cycles

/-- Whatever calls serve, finish and close, in whatever order, none of their cycles is orphaned. -/
theorem reached_owned (h : Reached cycles calls) : Owned cycles calls := by
  have hcur := h.current
  have hclose {cycle : Nat} (hl : Live cycles calls cycle) (other : Nat) :
      cycles.close.isCancelled other ↔ other = cycle ∨ cycles.isCancelled other := by
    rw [isCancelled_close, hcur.running.2 hl, Bool.or_eq_true, decide_eq_true_eq,
      Option.some.injEq, eq_comm]
  refine ⟨fun hl => ⟨hcur.newest hl, hcur.running.2 hl⟩, fun hl ho => ?_, hclose,
    fun hl _ => hclose hl, fun hidle => ?_, fun address => ?_, hcur.address, fun hne => ?_⟩
  · rw [hcur.newest hl, hcur.newest ho]
  · have hnone : cycles.running = none :=
      Option.eq_none_iff_forall_ne_some.2 fun cycle hr => hidle cycle (hcur.running.1 hr)
    rw [close, hnone, Option.toList_none, List.nil_append, ← hnone]
  · exact hcur.close.live_begin.2 rfl
  · rw [finish, if_neg (by rw [hcur.latest]; exact hne.symm)]

/-- Two calls on one host, of which the second has taken over. The first has seen that and has not
finished. -/
def superseding : ServeCycles :=
  (start.begin (.v4 ⟨127, 0, 0, 1⟩ 1080)).begin (.v4 ⟨127, 0, 0, 1⟩ 1081)

def supersedingCalls : List Call :=
  [⟨.v4 ⟨127, 0, 0, 1⟩ 1080, .ended .serverClosed, false⟩, .start (.v4 ⟨127, 0, 0, 1⟩ 1081)]

theorem reached_superseding : Reached superseding supersedingCalls := by
  have hbegun : Reached superseding
      [.start (.v4 ⟨127, 0, 0, 1⟩ 1080), .start (.v4 ⟨127, 0, 0, 1⟩ 1081)] :=
    .began _ (.began _ .start)
  exact hbegun.met (κ := Nat) (i := 0) IoError.isLost .cancelled rfl fun _ => rfl

theorem owned_superseding :
    Reached superseding supersedingCalls ∧ Live superseding supersedingCalls 2 ∧
      superseding.finish 1 = superseding ∧ Owned superseding supersedingCalls :=
  ⟨reached_superseding, ⟨rfl, 1, _, rfl, rfl, rfl⟩, rfl, reached_owned reached_superseding⟩

end ServeCycles

namespace ServerRun

/-- A server after some steps of a test. -/
inductive Reached : ServerRun → Prop
  | start (config : Configuration) (script : Script) : Reached (.start config script)
  | step {run} (step : ServerStep) : Reached run → Reached (run.step step).2.2

/-- Tasks that serve, each as a call that has not finished. -/
structure Tracked (cycles : ServeCycles) (tasks : List ServeTask)
    (calls : List ServeCycles.Call) : Prop where
  reached : cycles.Reached calls
  serving : ∀ task ∈ tasks, ∃ i address, task.cycle = i + 1 ∧
    calls[i]? = some ⟨address, task.loop, false⟩
  distinct : (tasks.map ServeTask.cycle).Nodup

variable {cycles : ServeCycles} {task : ServeTask} {tasks : List ServeTask} {run : ServerRun}
  {calls : List ServeCycles.Call} {call : ServeCycles.Call} {i : Nat}

theorem Tracked.perm {others : List ServeTask} (h : Tracked cycles tasks calls)
    (hp : tasks.Perm others) : Tracked cycles others calls :=
  ⟨h.reached, fun task hm => h.serving task (hp.mem_iff.2 hm), (hp.map _).nodup_iff.1 h.distinct⟩

theorem Tracked.others_set (h : Tracked cycles (task :: tasks) calls) (hi : task.cycle = i + 1) :
    ∀ other ∈ tasks, ∃ j address, other.cycle = j + 1 ∧
      (calls.set i call)[j]? = some ⟨address, other.loop, false⟩ := by
  intro other hm
  obtain ⟨j, address, hj, hc⟩ := h.serving other (List.mem_cons_of_mem _ hm)
  have hne : i ≠ j := by
    rintro rfl
    refine (List.nodup_cons.1 h.distinct).1 ?_
    exact List.mem_map.2 ⟨other, hm, hj.trans hi.symm⟩
  exact ⟨j, address, hj, by rw [List.getElem?_set_ne hne, hc]⟩

theorem Tracked.polled {accept : Accept} {event : AcceptLoop.Event Nat}
    {next : ServeTask × ServerRun} (h : Tracked run.cycles (task :: tasks) calls)
    (hp : Polled accept task run event next) :
    ∃ calls, Tracked next.2.cycles (next.1 :: tasks) calls := by
  obtain ⟨i, address, hi, hc⟩ := h.serving task (List.mem_cons_self ..)
  obtain ⟨-, hcycles, -, -, hcycle, -⟩ := hp.frame
  have hx : event = .cancelled → run.cycles.isCancelled (i + 1) := fun he =>
    hi ▸ hp.isCancelled he
  rw [hcycles]
  refine ⟨_, h.reached.met task.isLost event hc hx, ?_, ?_⟩
  · intro other hm
    rcases List.mem_cons.1 hm with rfl | hm
    · have hlt : i < calls.length := (List.getElem?_eq_some_iff.1 hc).1
      exact ⟨i, address, hcycle.trans hi, by rw [List.getElem?_set_self hlt, hp.loop_eq]⟩
    · exact h.others_set hi other hm
  · have hd := h.distinct
    rwa [List.map_cons, ← hcycle] at hd

theorem Tracked.runLoop (events : Nat) (h : Tracked run.cycles (task :: tasks) calls) :
    ∃ calls, Tracked (runLoop events task run).2.cycles
      ((runLoop events task run).1 :: tasks) calls :=
  runLoop_induction (motive := fun task run => ∃ calls, Tracked run.cycles (task :: tasks) calls)
    (fun ⟨_, h⟩ hp => h.polled hp) id events task run ⟨calls, h⟩

theorem runLoop_serving (events : Nat) (task : ServeTask) (run : ServerRun) :
    (runLoop events task run).2.serving = run.serving :=
  runLoop_induction (motive := fun _ after => after.serving = run.serving)
    (fun h hp => hp.frame.2.2.1.trans h) id events task run rfl

/-- A task that ends finishes its cycle, and the others go on as before. -/
theorem Tracked.runServe (h : Tracked run.cycles (run.serving ++ task :: tasks) calls) :
    ∃ calls,
      Tracked (runServe task run).2.cycles ((runServe task run).2.serving ++ tasks) calls := by
  obtain ⟨calls, h⟩ := (h.perm List.perm_middle).runLoop (run.eventBound task)
  have hs := runLoop_serving (run.eventBound task) task run
  simp only [ServerRun.runServe]
  split
  · next reason hl =>
    obtain ⟨i, address, hi, hc⟩ := h.serving _ (List.mem_cons_self ..)
    have hended : (ServerRun.runLoop (run.eventBound task) task run).1.loop.isEnded := by
      rw [hl]
      rfl
    dsimp only
    rw [hi, hs]
    exact ⟨_, h.reached.finished hc hended rfl, h.others_set hi,
      (List.nodup_cons.1 h.distinct).2⟩
  · refine ⟨calls, h.perm ?_⟩
    dsimp only
    rw [hs, List.append_assoc]
    exact List.perm_middle.symm

theorem Tracked.runServing (h : Tracked run.cycles run.serving calls) :
    ∃ calls, Tracked run.runServing.2.cycles run.runServing.2.serving calls := by
  -- Some tasks have gone on already and are kept in the server; the rest follow.
  have hrest (tasks : List ServeTask) (x : List (Nat × Error) × ServerRun)
      (calls : List ServeCycles.Call) (h : Tracked x.2.cycles (x.2.serving ++ tasks) calls) :
      let after := tasks.foldl (fun x task =>
        (x.1 ++ (ServerRun.runServe task x.2).1, (ServerRun.runServe task x.2).2)) x
      ∃ calls, Tracked after.2.cycles after.2.serving calls := by
    induction tasks generalizing x calls with
    | nil => exact ⟨calls, by rwa [List.append_nil] at h⟩
    | cons task tasks ih =>
      obtain ⟨calls, h⟩ := h.runServe
      exact ih _ _ h
  exact hrest run.serving ([], { run with serving := [] }) calls h

theorem runSessions_frame (run : ServerRun) :
    run.runSessions.cycles = run.cycles ∧ run.runSessions.serving = run.serving := by
  have hrest (sessions : List SessionTask) (run : ServerRun) :
      let after := sessions.foldl (fun run session =>
        let after := session.run run.network
        { run with
          network := after.2
          sessions := if after.1.result?.isSome then run.sessions else run.sessions ++ [after.1] })
        run
      after.cycles = run.cycles ∧ after.serving = run.serving := by
    induction sessions generalizing run with
    | nil => exact ⟨rfl, rfl⟩
    | cons session sessions ih => exact ih _
  exact hrest run.sessions { run with sessions := [] }

theorem tracked_of_serveOn {listener : Nat} {after : ServerRun}
    (ho : serveOn listener run = .ok after) (h : Tracked run.cycles run.serving calls) :
    ∃ calls, Tracked after.cycles after.serving calls := by
  unfold serveOn at ho
  split at ho
  · cases ho
  · next self hself =>
    cases ho
    have hlatest := h.reached.current.latest
    refine ⟨_, h.reached.began self, ?_, ?_⟩
    · intro task hm
      rcases List.mem_append.1 hm with hm | hm
      · obtain ⟨i, address, hi, hc⟩ := h.serving task hm
        exact ⟨i, address, hi, List.getElem?_append_left
          (List.getElem?_eq_some_iff.1 hc).1 ▸ hc⟩
      · rw [List.mem_singleton] at hm
        subst hm
        refine ⟨calls.length, self, ?_, by simp [ServeCycles.Call.start]⟩
        simp [ServeCycles.begin, hlatest]
    · rw [List.map_append, List.nodup_append]
      refine ⟨h.distinct, by simp, ?_⟩
      rintro cycle hold _ hnew rfl
      obtain ⟨task, hm, rfl⟩ := List.mem_map.1 hold
      obtain ⟨i, address, hi, hc⟩ := h.serving task hm
      have hlt : i < calls.length := (List.getElem?_eq_some_iff.1 hc).1
      simp [ServeCycles.begin, hlatest] at hnew
      omega

theorem Tracked.apply (step : ServerStep) (h : Tracked run.cycles run.serving calls) :
    ∃ calls, Tracked (run.apply step).2.cycles (run.apply step).2.serving calls := by
  cases step with
  | network step => exact ⟨calls, h⟩
  | advance milliseconds => exact ⟨calls, h⟩
  | shutdown => exact ⟨calls, h.reached.closed, h.serving, h.distinct⟩
  | serve self =>
    simp only [ServerRun.apply, ServerRun.serve]
    split
    · exact ⟨calls, h⟩
    · next after ho =>
      have hafter := tracked_of_serveOn ho h
      exact hafter
  | listenAndServe =>
    simp only [ServerRun.apply, ServerRun.listenAndServe]
    split
    · split
      · exact ⟨calls, h⟩
      · next after ho =>
        have hafter := tracked_of_serveOn ho h
        exact hafter
    · exact ⟨calls, h⟩
    · exact ⟨calls, h⟩

/-- The register of a server is one that calls and closes reach, and each task that serves is a call
that has not finished. -/
theorem Reached.tracked (h : Reached run) : ∃ calls, Tracked run.cycles run.serving calls := by
  induction h with
  | start config script => exact ⟨[], .start, by simp [ServerRun.start], List.nodup_nil⟩
  | @step run step _ ih =>
    obtain ⟨calls, h⟩ := ih
    obtain ⟨calls, h⟩ := h.apply step
    obtain ⟨calls, h⟩ := h.runServing
    obtain ⟨hc, hs⟩ := runSessions_frame (run.apply step).2.runServing.2
    refine ⟨calls, ?_⟩
    rwa [← hc, ← hs] at h

end ServerRun

end SocksProxy
