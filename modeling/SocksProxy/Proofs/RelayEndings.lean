import SocksProxy.Proofs.RelayIntegrity

/-!
# How a relay ends

A direction ends with its last act: the shutdown that follows the end of its input, or a failure.
The relay is over with the first direction that ends, and nothing is read or written after that.
Until then each direction depends on the answers to its own requests alone, of which there are no
more than its input has octets twice over, so that a direction without input holds up nothing.
-/

namespace SocksProxy

namespace Pipe

/-- The failure that an act is, if it is one. A stream that takes nothing of what it is given has
failed as well. -/
def Act.failure? : Act → Option IoError
  | .failed e => some e
  | .wrote [] => some (.raised .writeZero)
  | _ => none

def Act.ending? : Act → Option (Except IoError Unit)
  | .closed => some (.ok ())
  | act => act.failure?.map .error

/-- Those of the chunks, from the first on, that so many octets cover. -/
def covered : List Bytes → Nat → List Bytes
  | [], _ => []
  | chunk :: rest, count =>
    if chunk.length ≤ count then chunk :: covered rest (count - chunk.length) else []

/-- The chunks that have been read and written to their last octet. -/
def completed (acts : List Act) : List Bytes := covered (chunks acts) (written acts).length

variable {pipe : Pipe} {acts : List Act} {act : Act} {whole : List Bytes} {sent rest : Bytes}

theorem covered_flatten (whole : List Bytes) : covered whole whole.flatten.length = whole := by
  induction whole with
  | nil => rfl
  | cons chunk whole ih =>
    rw [covered, List.flatten_cons, List.length_append, if_pos (Nat.le_add_right _ _),
      Nat.add_sub_cancel_left, ih]

theorem covered_flatten_append (whole : List Bytes) (hn : rest ≠ []) :
    covered (whole ++ [sent ++ rest]) (whole.flatten ++ sent).length = whole := by
  induction whole with
  | nil =>
    have hpos := List.length_pos_iff.2 hn
    have hlong : ¬ (sent ++ rest).length ≤ sent.length := by
      rw [List.length_append]
      omega
    simp only [List.nil_append, List.flatten_nil, covered, if_neg hlong]
  | cons chunk whole ih =>
    have hle : chunk.length ≤ (chunk ++ (whole.flatten ++ sent)).length := by simp
    rw [List.cons_append, List.flatten_cons, List.append_assoc, covered, if_pos hle,
      List.length_append, Nat.add_sub_cancel_left, ih]

theorem Carried.completed_eq (h : Carried pipe acts whole sent rest) : completed acts = whole := by
  rw [completed, h.written]
  rcases h.read with ⟨-, rfl, hr⟩ | ⟨hn, hr⟩
  · rw [hr, List.append_nil, covered_flatten]
  · rw [hr, covered_flatten_append whole hn]

theorem ending?_eq_none_of_fits (hf : pipe.Fits act) : pipe.ending? = none := by
  cases act with
  | read chunk => simp [ending?, hf.1]
  | ended => simp [ending?, show pipe.phase = .receiving from hf]
  | wrote octets =>
    obtain ⟨size, left, hp, -⟩ := hf
    simp [ending?, hp]
  | closed => simp [ending?, show pipe.phase = .closing from hf]
  | failed e => exact hf

theorem ending?_step (hf : pipe.Fits act) : (pipe.step act.event).ending? = act.ending? := by
  cases act with
  | read chunk =>
    obtain ⟨hp, hn, -⟩ := hf
    simp [step, Act.event, hp, hn, ending?, Act.ending?, Act.failure?]
  | ended =>
    have hp : pipe.phase = .receiving := hf
    simp [step, Act.event, hp, ending?, Act.ending?, Act.failure?]
  | wrote octets =>
    obtain ⟨size, left, hp, -⟩ := hf
    cases octets with
    | nil => simp [step, Act.event, hp, ending?, Act.ending?, Act.failure?]
    | cons octet octets =>
      simp only [step, Act.event, hp, List.length_cons, Nat.succ_ne_zero, if_false]
      split <;> rfl
  | closed =>
    have hp : pipe.phase = .closing := hf
    simp [step, Act.event, hp, ending?, Act.ending?]
  | failed e =>
    have hopen : pipe.ending? = none := hf
    cases hp : pipe.phase <;>
      simp_all [step, Act.event, ending?, Act.ending?, Act.failure?]

theorem eq_ended_of_closing (hf : pipe.Fits act) (hp : (pipe.step act.event).phase = .closing) :
    act = .ended := by
  cases act with
  | ended => rfl
  | read chunk =>
    obtain ⟨hr, hn, -⟩ := hf
    simp [step, Act.event, hr, hn] at hp
  | wrote octets =>
    obtain ⟨size, left, hs, -⟩ := hf
    simp only [step, Act.event, hs] at hp
    split at hp
    · cases hp
    · split at hp <;> cases hp
  | closed =>
    have hc : pipe.phase = .closing := hf
    simp [step, Act.event, hc] at hp
  | failed e =>
    have he := ending?_step hf
    simp [ending?, hp, Act.ending?, Act.failure?] at he

/-- The input of a direction that closes its writer has just ended. -/
theorem Reached.of_closing (h : Reached pipe acts) (hp : pipe.phase = .closing) :
    ∃ before, acts = before ++ [.ended] := by
  cases h with
  | start => cases hp
  | step _ hf => exact ⟨_, by rw [eq_ended_of_closing hf hp]⟩

theorem Reached.closing_of_ended (h : Reached pipe acts) (hm : .ended ∈ acts)
    (ho : pipe.ending? = none) : pipe.phase = .closing := by
  induction h with
  | start => cases hm
  | @step pipe acts act h hf ih =>
    rcases List.mem_append.1 hm with hm | hm
    · have hp := ih hm (ending?_eq_none_of_fits hf)
      rw [ending?_step hf] at ho
      cases act with
      | read chunk => exact absurd (hp.symm.trans hf.1) nofun
      | ended => exact absurd (hp.symm.trans hf) nofun
      | wrote octets =>
        obtain ⟨size, left, hs, -⟩ := hf
        exact absurd (hp.symm.trans hs) nofun
      | closed => cases ho
      | failed e => cases ho
    · obtain rfl := (List.mem_singleton.1 hm).symm
      simp [Pipe.step, Act.event, show pipe.phase = .receiving from hf]

theorem Reached.length_le (h : Reached pipe acts) (ho : pipe.ending? = none) :
    acts.length ≤ (chunks acts).flatten.length + (written acts).length +
      if pipe.phase = .closing then 1 else 0 := by
  induction h with
  | start => simp
  | @step pipe acts act h hf ih =>
    have hle := ih (ending?_eq_none_of_fits hf)
    rw [ending?_step hf] at ho
    rw [chunks_concat, written_concat]
    simp only [List.length_append, List.length_singleton, List.flatten_append]
    cases act with
    | read chunk =>
      obtain ⟨hp, hn, -⟩ := hf
      have hpos := List.length_pos_iff.2 hn
      simp only [hp, reduceCtorEq, if_false] at hle
      simp only [Act.chunk?, Option.toList_some, List.flatten_singleton]
      omega
    | ended =>
      have hp : pipe.phase = .receiving := hf
      simp only [hp, reduceCtorEq, if_false] at hle
      simp only [Pipe.step, Act.event, hp, List.isEmpty_nil, if_true]
      omega
    | wrote octets =>
      obtain ⟨size, left, hp, -⟩ := hf
      have hn : octets ≠ [] := by
        rintro rfl
        cases ho
      have hpos := List.length_pos_iff.2 hn
      simp only [hp, reduceCtorEq, if_false] at hle
      simp only [Act.octetsWritten]
      omega
    | closed => cases ho
    | failed e => cases ho

end Pipe

def Direction.opposite : Direction → Direction
  | .outward => .inward
  | .inward => .outward

def Direction.part (counts : Nat × Nat) : Direction → Nat
  | .outward => counts.1
  | .inward => counts.2

namespace Relay

open Pipe

variable {relay relay' : Relay} {log before : List (Direction × Act)} {direction : Direction}
  {act : Act}

def counts (relay : Relay) : Nat × Nat := (relay.outward.count, relay.inward.count)

@[simp] theorem part_counts (relay : Relay) (direction : Direction) :
    direction.part relay.counts = (relay.pipe direction).count := by
  cases direction <;> rfl

theorem result?_eq_none_iff :
    relay.result? = none ↔ ∀ direction, (relay.pipe direction).ending? = none := by
  obtain ⟨outward, inward⟩ := relay
  constructor
  · intro h direction
    simp only [result?] at h
    cases ho : outward.ending? <;> cases hi : inward.ending? <;> simp only [ho, hi] at h
    · cases direction
      · exact ho
      · exact hi
    all_goals split at h <;> simp_all
  · intro h
    have ho : outward.ending? = none := h .outward
    have hi : inward.ending? = none := h .inward
    simp only [result?, ho, hi]

/-- The result is that of the one direction that has ended, with the numbers of both. -/
theorem result?_of_ending {outcome : Except IoError Unit}
    (he : (relay.pipe direction).ending? = some outcome)
    (ho : (relay.pipe direction.opposite).ending? = none) :
    relay.result? = some (outcome.map fun _ => relay.counts) := by
  cases direction <;> cases outcome <;>
    simp_all [result?, pipe, Direction.opposite, counts, Except.map]

theorem ending?_opposite_step (ho : relay.result? = none) (event : Event) :
    ((relay.step direction event).pipe direction.opposite).ending? = none := by
  have hn : direction ≠ direction.opposite := by cases direction <;> exact nofun
  rw [pipe_step_other hn]
  exact result?_eq_none_iff.1 ho _

theorem result?_step (ho : relay.result? = none) (hf : (relay.pipe direction).Fits act) :
    (relay.step direction act.event).result? =
      act.ending?.map (·.map fun _ => (relay.step direction act.event).counts) := by
  have he : ((relay.step direction act.event).pipe direction).ending? = act.ending? := by
    rw [pipe_step_self ho, ending?_step hf]
  have ho' := @ending?_opposite_step relay direction ho act.event
  cases hc : act.ending? with
  | some outcome => exact result?_of_ending (he.trans hc) ho'
  | none =>
    refine result?_eq_none_iff.2 fun other => ?_
    cases direction <;> cases other <;> first | exact he.trans hc | exact ho'

theorem Reached.exists_last {result : Except IoError (Nat × Nat)} (h : Reached relay log)
    (hr : relay.result? = some result) : ∃ earlier before direction act outcome,
      log = before ++ [(direction, act)] ∧ Reached earlier before ∧ earlier.result? = none ∧
        (earlier.pipe direction).Fits act ∧ relay = earlier.step direction act.event ∧
        act.ending? = some outcome ∧ result = outcome.map fun _ => relay.counts := by
  cases h with
  | start => cases hr
  | @step earlier before direction act h ho hf =>
    rw [result?_step ho hf] at hr
    obtain ⟨outcome, hc, hm⟩ := Option.map_eq_some_iff.1 hr
    exact ⟨earlier, before, direction, act, outcome, rfl, h, ho, hf, rfl, hc, hm.symm⟩

theorem Reached.eq_foldl (h : Reached relay log) :
    relay = log.foldl (fun relay entry => relay.step entry.1 entry.2.event) Relay.start := by
  induction h with
  | start => rfl
  | step _ _ _ ih => rw [List.foldl_append, ← ih]; rfl

theorem Reached.eq_of_prefix (h : Reached relay log) (hr : relay.result?.isSome)
    {log' : List (Direction × Act)} (h' : Reached relay' log') (hp : log <+: log') :
    log' = log := by
  induction h' with
  | start => exact (List.prefix_nil.1 hp).symm
  | step h' ho _ ih =>
    rcases List.prefix_concat_iff.1 hp with he | hp
    · exact he.symm
    · have he := ih hp
      rw [h'.eq_foldl, he, ← h.eq_foldl] at ho
      rw [ho] at hr
      cases hr

theorem exists_last_of_actsOf {acts : List Act} (h : actsOf direction log = acts ++ [act]) :
    ∃ before between, log = before ++ (direction, act) :: between ∧
      actsOf direction between = [] := by
  obtain ⟨first, last, hf, -, hl⟩ := List.map_eq_append_iff.1 h
  obtain ⟨entry, rfl, rfl⟩ := List.map_eq_singleton_iff.1 hl
  obtain ⟨before, after, rfl, -, ha⟩ := List.filter_eq_append_iff.1 hf
  obtain ⟨between, rest, rfl, -, hd, hr⟩ := List.filter_eq_cons_iff.1 ha
  obtain rfl : entry.1 = direction := by simpa using hd
  exact ⟨before ++ between, rest, by simp, by simp [actsOf, hr]⟩

/-- A direction that has closed its writer has written all that it has read, and counts it. -/
theorem Reached.given_eq_of_finished (h : Reached relay log)
    (hp : (relay.pipe direction).phase = .finished) :
    given direction log = taken direction log ∧
      (relay.pipe direction).count = (given direction log).length := by
  obtain ⟨whole, sent, rest, hc⟩ := (h.pipe direction).carried
  have hrest : rest = [] := by
    have hpending := hc.pending
    rwa [hp] at hpending
  have hsent : sent = [] := by
    rcases hc.read with ⟨-, hs, -⟩ | ⟨hn, -⟩
    · exact hs
    · exact absurd hrest hn
  have htaken := hc.flatten_chunks
  rw [hrest, List.append_nil] at htaken
  have hwritten := hc.written
  rw [hsent, List.append_nil] at hwritten
  exact ⟨htaken.symm, hc.count.trans (congrArg List.length hwritten).symm⟩

theorem Reached.count_eq (h : Reached relay log) (direction : Direction) :
    (relay.pipe direction).count = (completed (actsOf direction log)).flatten.length := by
  obtain ⟨whole, sent, rest, hc⟩ := (h.pipe direction).carried
  rw [hc.completed_eq, hc.count]

/-- How acts in both directions have led to a result: one direction has carried all of its input
and closed its writer at the last, or its last request has failed. -/
inductive Concluded (log : List (Direction × Act)) : Except IoError (Nat × Nat) → Prop where
  | carried {counts : Nat × Nat} {before between : List (Direction × Act)} {direction : Direction}
      (order : log = before ++ (direction, .ended) :: between ++ [(direction, .closed)])
      (last : actsOf direction between = [])
      (all : given direction log = taken direction log)
      (exact : direction.part counts = (given direction log).length)
      (other : direction.opposite.part counts =
        (completed (actsOf direction.opposite log)).flatten.length) :
      Concluded log (.ok counts)
  | failed {before : List (Direction × Act)} {direction : Direction} {act : Act} {e : IoError}
      {earlier : Relay} (order : log = before ++ [(direction, act)])
      (reached : Reached earlier before) (goesOn : earlier.result? = none)
      (asked : (earlier.pipe direction).Fits act) (failure : act.failure? = some e) :
      Concluded log (.error e)

theorem concluded_of_result {result : Except IoError (Nat × Nat)} (h : Reached relay log)
    (hr : relay.result? = some result) : Concluded log result := by
  obtain ⟨earlier, before, direction, act, outcome, rfl, he, ho, hf, rfl, hc, rfl⟩ :=
    h.exists_last hr
  cases outcome with
  | error e =>
    have hfailure : act.failure? = some e := by
      cases act <;> simp_all [Act.ending?]
    exact .failed rfl he ho hf hfailure
  | ok u =>
    obtain rfl : act = .closed := by
      cases act with
      | closed => rfl
      | wrote octets => cases octets <;> cases hc
      | _ => cases hc
    obtain ⟨acts, hacts⟩ := (he.pipe direction).of_closing hf
    obtain ⟨before, between, rfl, hlast⟩ := exists_last_of_actsOf hacts
    have hphase : ((earlier.step direction Act.closed.event).pipe direction).phase = .finished := by
      rw [pipe_step_self ho]
      simp [Pipe.step, Act.event, show (earlier.pipe direction).phase = .closing from hf]
    obtain ⟨hall, hcount⟩ := h.given_eq_of_finished hphase
    refine .carried rfl hlast hall ?_ ?_
    · rw [part_counts, hcount]
    · rw [part_counts, h.count_eq]

end Relay

/-- An endpoint that gives no more octets: its input has ended, or it does not answer. -/
def Endpoint.Spent {σ : Type} (endpoint : Endpoint σ) : Prop :=
  ∀ limit s octets s', endpoint.receive limit s = (some (.ok octets), s') → octets = []

namespace Pipe

variable {σ : Type} {reader writer : Endpoint σ} {pipe : Pipe} {event : Event} {s s' : σ}

/-- Every request of a direction is answered. -/
structure Served (reader writer : Endpoint σ) : Prop where
  receive : ∀ limit s, (reader.receive limit s).1.isSome
  send : ∀ octets s, (writer.send octets s).1.isSome
  close : ∀ s, (writer.close s).1.isSome

theorem Served.isSome_await (h : Served reader writer) (ho : pipe.ending? = none) (s : σ) :
    (pipe.await reader writer s).1.isSome := by
  unfold await
  split
  case h_1 => simpa using h.receive chunkSize s
  case h_2 size rest _ => simpa using h.send rest s
  case h_3 => simpa using h.close s
  case h_4 hp => simp [ending?, hp] at ho
  case h_5 e hp => simp [ending?, hp] at ho

def load (pipe : Pipe) : Nat :=
  match pipe.phase with
  | .receiving => 2
  | .sending _ rest => rest.length + 3
  | .closing => 1
  | .finished | .failed _ => 0

theorem load_pos (ho : pipe.ending? = none) : 0 < pipe.load := by
  cases hp : pipe.phase <;> simp_all [load, ending?]

theorem load_step_lt (hr : reader.Spent) (h : pipe.await reader writer s = (some event, s')) :
    (pipe.step event).load < pipe.load := by
  unfold await at h
  split at h
  case h_1 hp =>
    cases ho : reader.receive chunkSize s with
    | mk answer t =>
      rw [ho] at h
      rcases answer with _ | e | octets
      · cases h
      · cases h
        simp [receivedEvent, step, load, hp]
      · cases h
        obtain rfl := hr _ _ _ _ ho
        simp [receivedEvent, step, load, hp]
  case h_2 size rest hp =>
    cases ho : writer.send rest s with
    | mk answer t =>
      rw [ho] at h
      rcases answer with _ | e | count
      · cases h
      · cases h
        simp [takenEvent, step, load, hp]
      · cases h
        by_cases h0 : count = 0
        · simp [takenEvent, step, load, hp, h0]
        · simp only [takenEvent, step, load, hp, if_neg h0]
          cases hd : rest.drop count with
          | nil => simp
          | cons octet left =>
            have hl := congrArg List.length hd
            simp only [List.length_drop, List.length_cons] at hl ⊢
            omega
  case h_3 hp =>
    cases ho : writer.close s with
    | mk answer t =>
      rw [ho] at h
      rcases answer with _ | e | u
      · cases h
      · cases h
        simp [closedEvent, step, load, hp]
      · cases h
        simp [closedEvent, step, load, hp]
  case h_4 => cases h
  case h_5 => cases h

end Pipe

/-- The endpoint that a direction reads from; it writes to that of the opposite direction. -/
def Direction.reader {σ : Type} (client target : Endpoint σ) : Direction → Endpoint σ
  | .outward => client
  | .inward => target

namespace Relay

open Pipe

variable {relay : Relay} {log : List (Direction × Act)} {direction : Direction}

def load (relay : Relay) : Nat := relay.outward.load + relay.inward.load

theorem load_step_lt {event : Event} (ho : relay.result? = none)
    (hl : ((relay.pipe direction).step event).load < (relay.pipe direction).load) :
    (relay.step direction event).load < relay.load := by
  cases direction
  · simpa [load, Relay.step, ho, pipe] using hl
  · simpa [load, Relay.step, ho, pipe] using hl

/-- A direction whose requests are answered ends the relay, although the opposite direction may
wait for ever. -/
theorem isSome_result?_settle {σ : Type} {client target : Endpoint σ} (hc : client.Spent)
    (ht : target.Spent)
    (hd : Served (direction.reader client target) (direction.opposite.reader client target))
    {events : Nat} (hl : relay.load ≤ events) (s : σ) :
    (settle client target events relay s).1.result?.isSome := by
  induction events generalizing relay s with
  | zero =>
    cases hr : relay.result? with
    | some result => simp [settle, hr]
    | none =>
      have hpos := load_pos (result?_eq_none_iff.1 hr .outward)
      have hle : relay.outward.load + relay.inward.load ≤ 0 := hl
      simp only [pipe] at hpos
      omega
  | succ events ih =>
    unfold settle
    split
    case isTrue hr => exact hr
    case isFalse hr =>
      have ho : relay.result? = none := by simpa using hr
      have hopen := result?_eq_none_iff.1 ho
      split
      case h_1 event t hw =>
        have hlt : (relay.step .outward event).load < relay.load :=
          load_step_lt ho (Pipe.load_step_lt hc hw)
        exact ih (by omega) t
      case h_2 t hw =>
        split
        case h_1 event t' hw' =>
          have hlt : (relay.step .inward event).load < relay.load :=
            load_step_lt ho (Pipe.load_step_lt ht hw')
          exact ih (by omega) t'
        case h_2 t' hw' =>
          cases direction with
          | outward =>
            have hsome := hd.isSome_await (hopen .outward) s
            change (relay.outward.await client target s).1.isSome at hsome
            rw [hw] at hsome
            cases hsome
          | inward =>
            have hsome := hd.isSome_await (hopen .inward) t
            change (relay.inward.await target client t).1.isSome at hsome
            rw [hw'] at hsome
            cases hsome

/-- What the acts that have led to a relay tell of its end. -/
structure Resolved (relay : Relay) (log : List (Direction × Act)) : Prop where
  concluded : ∀ result, relay.result? = some result → Concluded log result
  /-- Once it is over no act follows, and no request is made. -/
  final : relay.result?.isSome →
    (∀ relay' log', Reached relay' log' → log <+: log' → log' = log) ∧
      ∀ (σ : Type) (client target : Endpoint σ) events s,
        settle client target events relay s = (relay, s)
  /-- Until then a direction has not had more acts than its input allows. After the end of its
  input it waits for the shutdown alone, the answer to which ends the relay. -/
  bounded : relay.result? = none → ∀ direction,
    (actsOf direction log).length ≤ 2 * (taken direction log).length + 1
  closing : relay.result? = none → ∀ direction, (direction, .ended) ∈ log →
    (relay.pipe direction).phase = .closing ∧
      ∀ answer, (relay.step direction (closedEvent answer)).result?.isSome
  /-- A relay to which neither side gives more octets ends if one direction is served, even if
  nothing is heard from the side that this direction writes to. -/
  ends : ∀ (σ : Type) (client target : Endpoint σ) (direction : Direction), client.Spent →
    target.Spent →
    Served (direction.reader client target) (direction.opposite.reader client target) →
      ∀ events s, relay.load ≤ events → (settle client target events relay s).1.result?.isSome

theorem settle_eq_self {σ : Type} (hr : relay.result?.isSome) (client target : Endpoint σ)
    (events : Nat) (s : σ) : settle client target events relay s = (relay, s) := by
  cases events with
  | zero => rfl
  | succ events => rw [settle, if_pos hr]

theorem mem_actsOf {act : Act} (h : (direction, act) ∈ log) : act ∈ actsOf direction log :=
  List.mem_map.2 ⟨_, List.mem_filter.2 ⟨h, by simp⟩, rfl⟩

theorem Reached.length_actsOf_le (h : Reached relay log) (ho : relay.result? = none)
    (direction : Direction) :
    (actsOf direction log).length ≤ 2 * (taken direction log).length + 1 := by
  have hle := (h.pipe direction).length_le (result?_eq_none_iff.1 ho direction)
  have hgiven : (given direction log).length ≤ (taken direction log).length :=
    (h.given_prefix direction).length_le
  change _ ≤ (taken direction log).length + (given direction log).length + _ at hle
  split at hle <;> omega

theorem Reached.closing_of_ended (h : Reached relay log) (ho : relay.result? = none)
    (hm : (direction, .ended) ∈ log) : (relay.pipe direction).phase = .closing :=
  (h.pipe direction).closing_of_ended (mem_actsOf hm) (result?_eq_none_iff.1 ho direction)

/-- However the acts of both directions follow each other, a relay ends with the first direction
that does, of which everything is known, and with nothing done after it. -/
theorem reached_resolved (h : Reached relay log) : Resolved relay log := by
  refine ⟨fun _ hr => concluded_of_result h hr, fun hr => ⟨fun _ _ h' hp => ?_, fun _ => ?_⟩,
    h.length_actsOf_le, fun ho direction hm => ⟨h.closing_of_ended ho hm, fun answer => ?_⟩,
    fun _ _ _ _ hc ht hd _ s hl => isSome_result?_settle hc ht hd hl s⟩
  · exact h.eq_of_prefix hr h' hp
  · exact settle_eq_self hr
  · have hp := h.closing_of_ended ho hm
    cases answer with
    | ok u =>
      have hr := @result?_step relay direction .closed ho hp
      exact Option.isSome_of_eq_some hr
    | error e =>
      have hr := @result?_step relay direction (.failed e) ho (result?_eq_none_iff.1 ho direction)
      exact Option.isSome_of_eq_some hr

theorem resolved_interleaved :
    Reached ⟨⟨.sending 3 [99], 0⟩, ⟨.finished, 2⟩⟩ interleaved ∧
      result? ⟨⟨.sending 3 [99], 0⟩, ⟨.finished, 2⟩⟩ = some (.ok (0, 2)) ∧
        Resolved ⟨⟨.sending 3 [99], 0⟩, ⟨.finished, 2⟩⟩ interleaved :=
  ⟨reached_interleaved, rfl, reached_resolved reached_interleaved⟩

end Relay

end SocksProxy
