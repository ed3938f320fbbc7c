import SocksProxy.NetworkRelay

/-!
# What a relay carries

Each direction of a relay is observed through its acts: the chunks that it has read, the octets
that have been written, the end of the input, the shutdown and failures. The acts of both
directions come in any order, with chunks and writes of any size, and stop when one direction is
over. `Carried` is the invariant of one direction, kept by every act: of the chunks read all but
the last have been written whole and are counted, and of the last one a part has been written.
-/

namespace SocksProxy

namespace Pipe

/-- What a direction does in one step, with the octets that it moves. -/
inductive Act where
  | read (chunk : Bytes)
  | ended
  | wrote (octets : Bytes)
  | closed
  | failed (error : IoError)
  deriving DecidableEq, Repr

namespace Act

def event : Act → Event
  | .read chunk => .received chunk
  | .ended => .received []
  | .wrote octets => .taken octets.length
  | .closed => .closed
  | .failed e => .failed e

def chunk? : Act → Option Bytes
  | .read chunk => some chunk
  | _ => none

def octetsWritten : Act → Bytes
  | .wrote octets => octets
  | _ => []

end Act

def Fits (pipe : Pipe) : Act → Prop
  | .read chunk => pipe.phase = .receiving ∧ chunk ≠ [] ∧ chunk.length ≤ chunkSize
  | .ended => pipe.phase = .receiving
  | .wrote octets => ∃ size rest, pipe.phase = .sending size rest ∧ octets <+: rest
  | .closed => pipe.phase = .closing
  | .failed _ => pipe.ending? = none

inductive Reached : Pipe → List Act → Prop where
  | start : Reached start []
  | step {pipe : Pipe} {acts : List Act} {act : Act} (h : Reached pipe acts)
      (hf : pipe.Fits act) : Reached (pipe.step act.event) (acts ++ [act])

def chunks (acts : List Act) : List Bytes := acts.filterMap Act.chunk?

def written (acts : List Act) : Bytes := acts.flatMap Act.octetsWritten

theorem chunks_concat (acts : List Act) (act : Act) :
    chunks (acts ++ [act]) = chunks acts ++ act.chunk?.toList := by
  cases act <;> simp [chunks, Act.chunk?]

theorem written_concat (acts : List Act) (act : Act) :
    written (acts ++ [act]) = written acts ++ act.octetsWritten := by
  simp [written]

/-- What a phase says of the parts of the chunk that is being written. -/
def Pending (sent rest : Bytes) : Phase → Prop
  | .sending size left => left = rest ∧ rest ≠ [] ∧ size = (sent ++ rest).length
  | .receiving | .closing | .finished => rest = []
  | .failed _ => True

theorem Pending.eq_nil {sent rest : Bytes} {phase : Phase} (h : Pending sent rest phase)
    (hs : ∀ size left, phase ≠ .sending size left) (hf : ∀ e, phase ≠ .failed e) : rest = [] := by
  cases phase with
  | sending size left => exact absurd rfl (hs size left)
  | failed e => exact absurd rfl (hf e)
  | _ => exact h

/-- What has been carried: the chunks written whole, and the written and unwritten parts of the
one that is being written. -/
structure Carried (pipe : Pipe) (acts : List Act) (whole : List Bytes) (sent rest : Bytes) :
    Prop where
  read : rest = [] ∧ sent = [] ∧ chunks acts = whole ∨
    rest ≠ [] ∧ chunks acts = whole ++ [sent ++ rest]
  written : written acts = whole.flatten ++ sent
  count : pipe.count = whole.flatten.length
  bounded : (sent ++ rest).length ≤ chunkSize
  pending : Pending sent rest pipe.phase
  shut : .closed ∈ acts → pipe.phase = .finished

variable {pipe next : Pipe} {acts : List Act} {act : Act} {whole : List Bytes} {sent rest : Bytes}

theorem not_fits_of_finished (h : pipe.phase = .finished) : ¬ pipe.Fits act := by
  cases act <;> simp [Fits, ending?, h]

theorem Carried.closed_not_mem (h : Carried pipe acts whole sent rest) (hf : pipe.Fits act) :
    .closed ∉ acts := fun hc => not_fits_of_finished (h.shut hc) hf

theorem Carried.unmoved (h : Carried pipe acts whole sent rest) (hf : pipe.Fits act)
    (hr : act.chunk? = none) (hw : act.octetsWritten = []) (hc : next.count = pipe.count)
    (hp : Pending sent rest next.phase) (hs : act = .closed → next.phase = .finished) :
    Carried next (acts ++ [act]) whole sent rest := by
  refine ⟨?_, ?_, hc.trans h.count, h.bounded, hp, ?_⟩
  · rw [chunks_concat, hr]
    simpa using h.read
  · rw [written_concat, hw, List.append_nil, h.written]
  · intro hm
    rcases List.mem_append.1 hm with hm | hm
    · exact absurd hm (h.closed_not_mem hf)
    · exact hs (List.mem_singleton.1 hm).symm

theorem Carried.read_chunk {chunk : Bytes} (h : Carried pipe acts whole sent rest)
    (hf : pipe.Fits (.read chunk)) :
    Carried (pipe.step (.received chunk)) (acts ++ [.read chunk]) whole [] chunk := by
  have hc := h.closed_not_mem hf
  obtain ⟨hp, hn, hl⟩ := hf
  have hstep : pipe.step (.received chunk) = ⟨.sending chunk.length chunk, pipe.count⟩ := by
    simp [step, hp, hn]
  have hpending := h.pending
  rw [hp] at hpending
  rcases h.read with ⟨-, hs, hr⟩ | ⟨hn', -⟩
  · subst hs
    refine ⟨.inr ⟨hn, ?_⟩, ?_, ?_, hl, ?_, by simp [hc]⟩
    · rw [chunks_concat, hr]
      rfl
    · rw [written_concat, h.written]
      simp [Act.octetsWritten]
    · rw [hstep, h.count]
    · rw [hstep]
      exact ⟨rfl, hn, rfl⟩
  · exact absurd hpending hn'

theorem Carried.chunks_eq (h : Carried pipe acts whole sent rest) (hn : rest ≠ []) :
    chunks acts = whole ++ [sent ++ rest] := by
  rcases h.read with ⟨hr, -⟩ | ⟨-, hr⟩
  · exact absurd hr hn
  · exact hr

theorem Carried.write_last {octets : Bytes} (h : Carried pipe acts whole sent octets)
    (hf : pipe.Fits (.wrote octets)) (hn : octets ≠ [])
    (hp : pipe.phase = .sending (sent ++ octets).length octets) :
    Carried (pipe.step (.taken octets.length)) (acts ++ [.wrote octets])
      (whole ++ [sent ++ octets]) [] [] := by
  have hstep : pipe.step (.taken octets.length) =
      ⟨.receiving, pipe.count + (sent ++ octets).length⟩ := by
    simp [step, hp, hn]
  refine ⟨.inl ⟨rfl, rfl, ?_⟩, ?_, ?_, Nat.zero_le _, ?_, ?_⟩
  · rw [chunks_concat, h.chunks_eq hn]
    simp [Act.chunk?]
  · rw [written_concat, h.written]
    simp [Act.octetsWritten]
  · rw [hstep]
    simp only [h.count, List.flatten_append, List.length_append, List.flatten_singleton]
  · rw [hstep]
    rfl
  · simp [h.closed_not_mem hf]

theorem Carried.write_part {octets more : Bytes}
    (h : Carried pipe acts whole sent (octets ++ more)) (hf : pipe.Fits (.wrote octets))
    (hn : octets ≠ []) (hm : more ≠ [])
    (hp : pipe.phase = .sending (sent ++ (octets ++ more)).length (octets ++ more)) :
    Carried (pipe.step (.taken octets.length)) (acts ++ [.wrote octets]) whole (sent ++ octets)
      more := by
  have hstep : pipe.step (.taken octets.length) =
      ⟨.sending (sent ++ (octets ++ more)).length more, pipe.count⟩ := by
    cases more with
    | nil => exact absurd rfl hm
    | cons o os => simp [step, hp, hn]
  have hrest : octets ++ more ≠ [] := List.append_ne_nil_of_left_ne_nil hn more
  refine ⟨.inr ⟨hm, ?_⟩, ?_, ?_, ?_, ?_, ?_⟩
  · rw [chunks_concat, h.chunks_eq hrest]
    simp [Act.chunk?]
  · rw [written_concat, h.written]
    simp [Act.octetsWritten]
  · rw [hstep, h.count]
  · simpa only [List.append_assoc] using h.bounded
  · rw [hstep]
    exact ⟨rfl, hm, by simp⟩
  · simp [h.closed_not_mem hf]

theorem Carried.write {octets : Bytes} (h : Carried pipe acts whole sent rest)
    (hf : pipe.Fits (.wrote octets)) : ∃ whole' sent' rest',
      Carried (pipe.step (.taken octets.length)) (acts ++ [.wrote octets]) whole' sent' rest' := by
  have hfits := hf
  obtain ⟨size, left, hp, more, rfl⟩ := hf
  have hpending := h.pending
  rw [hp] at hpending
  obtain ⟨rfl, -, rfl⟩ := hpending
  by_cases hn : octets = []
  · subst hn
    refine ⟨whole, sent, [] ++ more, h.unmoved hfits rfl rfl ?_ ?_ nofun⟩
    · simp [step, hp]
    · simp [step, hp, Pending]
  · by_cases hm : more = []
    · subst hm
      rw [List.append_nil] at h hp
      exact ⟨_, _, _, h.write_last hfits hn hp⟩
    · exact ⟨_, _, _, h.write_part hfits hn hm hp⟩

theorem Carried.step (h : Carried pipe acts whole sent rest) (hf : pipe.Fits act) :
    ∃ whole' sent' rest', Carried (pipe.step act.event) (acts ++ [act]) whole' sent' rest' := by
  cases act with
  | read chunk => exact ⟨whole, [], chunk, h.read_chunk hf⟩
  | wrote octets => exact h.write hf
  | ended =>
    have hp : pipe.phase = .receiving := hf
    have hrest : rest = [] := h.pending.eq_nil (by simp [hp]) (by simp [hp])
    refine ⟨whole, sent, rest, h.unmoved hf rfl rfl ?_ ?_ nofun⟩
    · simp [Pipe.step, Act.event, hp]
    · simpa [Pipe.step, Act.event, hp, Pending] using hrest
  | closed =>
    have hp : pipe.phase = .closing := hf
    have hrest : rest = [] := h.pending.eq_nil (by simp [hp]) (by simp [hp])
    refine ⟨whole, sent, rest, h.unmoved hf rfl rfl ?_ ?_ fun _ => ?_⟩
    · simp [Pipe.step, Act.event, hp]
    · simpa [Pipe.step, Act.event, hp, Pending] using hrest
    · simp [Pipe.step, Act.event, hp]
  | failed e =>
    have hp : (pipe.step (.failed e)).phase = .failed e ∧
        (pipe.step (.failed e)).count = pipe.count := by
      have hopen : pipe.ending? = none := hf
      cases hph : pipe.phase <;> simp_all [Pipe.step, ending?]
    refine ⟨whole, sent, rest, h.unmoved hf rfl rfl hp.2 ?_ nofun⟩
    rw [Act.event, hp.1]
    trivial

theorem Carried.flatten_chunks (h : Carried pipe acts whole sent rest) :
    (chunks acts).flatten = Pipe.written acts ++ rest := by
  rw [h.written]
  rcases h.read with ⟨rfl, rfl, hr⟩ | ⟨-, hr⟩
  · simp [hr]
  · simp [hr]

theorem Reached.carried (h : Reached pipe acts) :
    ∃ whole sent rest, Carried pipe acts whole sent rest := by
  induction h with
  | start =>
    exact ⟨[], [], [], .inl ⟨rfl, rfl, rfl⟩, rfl, rfl, Nat.zero_le _, rfl, fun h => nomatch h⟩
  | step _ hf ih =>
    obtain ⟨whole, sent, rest, h⟩ := ih
    exact h.step hf

theorem Reached.eq_nil_of_closed {before after : List Act}
    (h : Reached pipe (before ++ .closed :: after)) : after = [] := by
  rcases List.eq_nil_or_concat after with rfl | ⟨more, last, rfl⟩
  · rfl
  · rw [List.concat_eq_append] at h
    generalize hacts : before ++ Act.closed :: (more ++ [last]) = acts at h
    cases h with
    | start => simp at hacts
    | step h hf =>
      rw [← List.cons_append, ← List.append_assoc] at hacts
      obtain ⟨rfl, ha⟩ := List.append_inj' hacts rfl
      obtain ⟨whole, sent, rest, hc⟩ := h.carried
      exact absurd (by simp) (hc.closed_not_mem hf)

end Pipe

namespace Relay

open Pipe

def actsOf (direction : Direction) (log : List (Direction × Act)) : List Act :=
  (log.filter (·.1 = direction)).map Prod.snd

/-- The relays that acts of both directions lead to, in any order, until one is over. -/
inductive Reached : Relay → List (Direction × Act) → Prop where
  | start : Reached start []
  | step {relay : Relay} {log : List (Direction × Act)} {direction : Direction} {act : Act}
      (h : Reached relay log) (ho : relay.result? = none) (hf : (relay.pipe direction).Fits act) :
      Reached (relay.step direction act.event) (log ++ [(direction, act)])

def taken (direction : Direction) (log : List (Direction × Act)) : Bytes :=
  (chunks (actsOf direction log)).flatten

def given (direction : Direction) (log : List (Direction × Act)) : Bytes :=
  written (actsOf direction log)

theorem actsOf_append (direction : Direction) (before after : List (Direction × Act)) :
    actsOf direction (before ++ after) = actsOf direction before ++ actsOf direction after := by
  simp [actsOf]

@[simp] theorem actsOf_self (direction : Direction) (act : Act) :
    actsOf direction [(direction, act)] = [act] := by
  simp [actsOf]

@[simp] theorem actsOf_other {direction other : Direction} (h : other ≠ direction) (act : Act) :
    actsOf direction [(other, act)] = [] := by
  simp [actsOf, h]

theorem pipe_step_self {relay : Relay} (ho : relay.result? = none) (direction : Direction)
    (event : Event) : (relay.step direction event).pipe direction =
      (relay.pipe direction).step event := by
  cases direction <;> simp [Relay.step, ho, pipe]

theorem pipe_step_other {relay : Relay} {direction other : Direction} (h : other ≠ direction)
    (event : Event) : (relay.step other event).pipe direction = relay.pipe direction := by
  unfold Relay.step
  split
  case isTrue => rfl
  case isFalse => cases direction <;> cases other <;> first | exact absurd rfl h | rfl

theorem Reached.pipe {relay : Relay} {log : List (Direction × Act)} (h : Reached relay log)
    (direction : Direction) : Pipe.Reached (relay.pipe direction) (actsOf direction log) := by
  induction h with
  | start => cases direction <;> exact .start
  | @step relay log other act h ho hf ih =>
    rw [actsOf_append]
    by_cases hd : other = direction
    · subst hd
      rw [pipe_step_self ho, actsOf_self]
      exact .step ih hf
    · rw [pipe_step_other hd, actsOf_other hd, List.append_nil]
      exact ih

theorem Reached.given_prefix {relay : Relay} {log : List (Direction × Act)}
    (h : Reached relay log) (direction : Direction) :
    given direction log <+: taken direction log := by
  obtain ⟨whole, sent, rest, hc⟩ := (h.pipe direction).carried
  exact ⟨rest, hc.flatten_chunks.symm⟩

theorem Reached.given_eq_of_receiving {relay : Relay} {log : List (Direction × Act)}
    (h : Reached relay log) {direction : Direction}
    (hp : (relay.pipe direction).phase = .receiving) :
    given direction log = taken direction log := by
  obtain ⟨whole, sent, rest, hc⟩ := (h.pipe direction).carried
  have hrest : rest = [] := hc.pending.eq_nil (by simp [hp]) (by simp [hp])
  have hread := hc.flatten_chunks
  rw [hrest, List.append_nil] at hread
  exact hread.symm

/-- The octets written in a direction are those read, from the first on and in order, up to the
rest of the chunk that is being written, if one is or the direction has failed. The chunks written
whole are counted. -/
structure Intact (relay : Relay) (direction : Direction) (log : List (Direction × Act)) :
    Prop where
  carried : ∃ (whole : List Bytes) (sent rest : Bytes),
    (rest = [] ∧ sent = [] ∧ chunks (actsOf direction log) = whole ∨
      rest ≠ [] ∧ chunks (actsOf direction log) = whole ++ [sent ++ rest]) ∧
    given direction log = whole.flatten ++ sent ∧
    taken direction log = given direction log ++ rest ∧
    (relay.pipe direction).count = whole.flatten.length ∧
    (∀ size left, (relay.pipe direction).phase = .sending size left → left = rest) ∧
    ((∀ size left, (relay.pipe direction).phase ≠ .sending size left) →
      (∀ e, (relay.pipe direction).phase ≠ .failed e) → rest = [])
  count_le : (relay.pipe direction).count ≤ (given direction log).length
  lt_count : (given direction log).length < (relay.pipe direction).count + chunkSize
  shut : ∀ before after, log = before ++ (direction, .closed) :: after →
    actsOf direction after = []

/-- Whatever both directions have done, in whatever order, each has carried its octets intact. -/
theorem reached_intact {relay : Relay} {log : List (Direction × Act)} (h : Reached relay log)
    (direction : Direction) : relay.Intact direction log := by
  obtain ⟨whole, sent, rest, hc⟩ := (h.pipe direction).carried
  have hgiven : given direction log = whole.flatten ++ sent := hc.written
  have hlength : (given direction log).length = (relay.pipe direction).count + sent.length := by
    rw [hgiven, List.length_append, hc.count]
  have hsent : sent.length < chunkSize := by
    have hb := hc.bounded
    rw [List.length_append] at hb
    rcases hc.read with ⟨-, rfl, -⟩ | ⟨hn, -⟩
    · decide
    · have := List.length_pos_iff.2 hn
      omega
  refine ⟨⟨whole, sent, rest, hc.read, hgiven, hc.flatten_chunks, hc.count, ?_,
    hc.pending.eq_nil⟩, by omega, by omega, ?_⟩
  · intro size left hp
    have hpending := hc.pending
    rw [hp] at hpending
    exact hpending.1
  · rintro before after rfl
    have hr := h.pipe direction
    rw [actsOf_append, ← List.singleton_append, actsOf_append direction [_], actsOf_self] at hr
    exact hr.eq_nil_of_closed

def interleaved : List (Direction × Act) :=
  [(.outward, .read [97, 98, 99]), (.inward, .read [120, 121]), (.outward, .wrote [97]),
    (.inward, .wrote [120, 121]), (.inward, .ended), (.outward, .wrote [98]), (.inward, .closed)]

theorem reached_interleaved :
    Reached ⟨⟨.sending 3 [99], 0⟩, ⟨.finished, 2⟩⟩ interleaved := by
  have h₁ := @Reached.step _ _ .outward (.read [97, 98, 99]) .start rfl ⟨rfl, by decide, by decide⟩
  have h₂ := @Reached.step _ _ .inward (.read [120, 121]) h₁ rfl ⟨rfl, by decide, by decide⟩
  have h₃ := @Reached.step _ _ .outward (.wrote [97]) h₂ rfl ⟨_, _, rfl, [98, 99], rfl⟩
  have h₄ := @Reached.step _ _ .inward (.wrote [120, 121]) h₃ rfl ⟨_, _, rfl, [], rfl⟩
  have h₅ := @Reached.step _ _ .inward .ended h₄ rfl rfl
  have h₆ := @Reached.step _ _ .outward (.wrote [98]) h₅ rfl ⟨_, _, rfl, [99], rfl⟩
  exact @Reached.step _ _ .inward .closed h₆ rfl rfl

theorem intact_interleaved :
    Reached ⟨⟨.sending 3 [99], 0⟩, ⟨.finished, 2⟩⟩ interleaved ∧
      Intact ⟨⟨.sending 3 [99], 0⟩, ⟨.finished, 2⟩⟩ .outward interleaved :=
  ⟨reached_interleaved, reached_intact reached_interleaved .outward⟩

end Relay

/-- An endpoint that gives no more than it is asked for, and takes no more than it is given. -/
structure Endpoint.Bounded {σ : Type} (endpoint : Endpoint σ) : Prop where
  receive : ∀ limit s octets s', endpoint.receive limit s = (some (.ok octets), s') →
    octets.length ≤ limit
  send : ∀ octets s count s', endpoint.send octets s = (some (.ok count), s') →
    count ≤ octets.length

namespace Pipe

variable {σ : Type} {reader writer : Endpoint σ} {pipe : Pipe} {event : Event} {s s' : σ}

theorem exists_fits_of_await (hr : reader.Bounded) (hw : writer.Bounded)
    (h : pipe.await reader writer s = (some event, s')) :
    ∃ act : Act, act.event = event ∧ pipe.Fits act := by
  unfold await at h
  split at h
  case h_1 hp =>
    cases ho : reader.receive chunkSize s with
    | mk answer t =>
      rw [ho] at h
      rcases answer with _ | e | octets
      · cases h
      · cases h
        exact ⟨.failed e, rfl, by simp [Fits, ending?, hp]⟩
      · cases h
        by_cases hn : octets = []
        · subst hn
          exact ⟨.ended, rfl, hp⟩
        · exact ⟨.read octets, rfl, hp, hn, hr.receive _ _ _ _ ho⟩
  case h_2 size rest hp =>
    cases ho : writer.send rest s with
    | mk answer t =>
      rw [ho] at h
      rcases answer with _ | e | count
      · cases h
      · cases h
        exact ⟨.failed e, rfl, by simp [Fits, ending?, hp]⟩
      · cases h
        have hle := hw.send _ _ _ _ ho
        refine ⟨.wrote (rest.take count), ?_, size, rest, hp, List.take_prefix _ _⟩
        rw [Act.event, List.length_take, Nat.min_eq_left hle]
        rfl
  case h_3 hp =>
    cases ho : writer.close s with
    | mk answer t =>
      rw [ho] at h
      rcases answer with _ | e | u
      · cases h
      · cases h
        exact ⟨.failed e, rfl, by simp [Fits, ending?, hp]⟩
      · cases h
        exact ⟨.closed, rfl, hp⟩
  case h_4 => cases h
  case h_5 => cases h

end Pipe

namespace Relay

open Pipe

variable {σ : Type} {client target : Endpoint σ}

/-- A relay that is settled takes steps of its acts only. -/
theorem exists_reached_settle (hc : client.Bounded) (ht : target.Bounded) (events : Nat)
    {relay : Relay} {log : List (Direction × Act)} (h : Reached relay log) (s : σ) :
    ∃ more, Reached (settle client target events relay s).1 (log ++ more) := by
  induction events generalizing relay log s with
  | zero => exact ⟨[], by simpa [settle] using h⟩
  | succ events ih =>
    unfold settle
    split
    case isTrue => exact ⟨[], by simpa using h⟩
    case isFalse ho =>
      have hopen : relay.result? = none := by simpa using ho
      split
      case h_1 event t hw =>
        obtain ⟨act, rfl, hf⟩ := exists_fits_of_await hc ht hw
        obtain ⟨more, hm⟩ := ih (@Reached.step _ _ .outward act h hopen hf) t
        exact ⟨(.outward, act) :: more, by simpa using hm⟩
      case h_2 t hw =>
        split
        case h_1 event t hw =>
          obtain ⟨act, rfl, hf⟩ := exists_fits_of_await ht hc hw
          obtain ⟨more, hm⟩ := ih (@Reached.step _ _ .inward act h hopen hf) t
          exact ⟨(.inward, act) :: more, by simpa using hm⟩
        case h_2 => exact ⟨[], by simpa using h⟩

end Relay

theorem Network.endpoint_bounded (index : Nat) : (endpoint index).Bounded := by
  constructor
  · intro limit network octets network' h
    simp only [endpoint, Prod.mk.injEq] at h
    obtain ⟨answer, ha, hm⟩ := Option.map_eq_some_iff.1 h.1
    cases answer with
    | error e => cases hm
    | ok octets' =>
      cases hm
      exact octets'.property
  · intro octets network count network' h
    simp only [endpoint, Prod.mk.injEq] at h
    obtain ⟨answer, ha, hm⟩ := Option.map_eq_some_iff.1 h.1
    cases answer with
    | error e => cases hm
    | ok taken =>
      cases hm
      exact taken.property

theorem Network.exists_reached_settleRelay {relay : Relay} {log : List (Direction × Pipe.Act)}
    (h : Relay.Reached relay log) (network : Network) (client target : Nat) :
    ∃ more, Relay.Reached (network.settleRelay client target relay).1 (log ++ more) :=
  Relay.exists_reached_settle (endpoint_bounded client) (endpoint_bounded target) _ h network

end SocksProxy
