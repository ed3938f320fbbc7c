import SocksProxy.Proofs.RelayEndings

/-!
# What the far side learns of the end of a relay

A direction shuts down the stream that it writes to when its input has ended, and at no other time.
The side that it writes to therefore learns of the end of a relay if the direction that is over
first has come to the end of its input. After a failure to read or to write neither stream has been
shut down.
-/

namespace SocksProxy

namespace Pipe

theorem Act.ending?_eq_some {act : Act} {outcome : Except IoError Unit}
    (h : act.ending? = some outcome) :
    (act = .closed ∧ outcome = .ok ()) ∨ ∃ e, act.failure? = some e ∧ outcome = .error e := by
  by_cases hc : act = .closed
  · subst hc
    exact .inl ⟨rfl, (Option.some.inj h).symm⟩
  · have hfailure : act.failure?.map Except.error = some outcome := by
      cases act with
      | closed => exact absurd rfl hc
      | read chunk => exact h
      | ended => exact h
      | wrote octets => exact h
      | failed e => exact h
    obtain ⟨e, he, ho⟩ := Option.map_eq_some_iff.1 hfailure
    exact .inr ⟨e, he, ho.symm⟩

end Pipe

namespace Relay

open Pipe

variable {relay : Relay} {log : List (Direction × Act)} {direction : Direction}

def Shut (direction : Direction) (log : List (Direction × Act)) : Prop :=
  (direction, .closed) ∈ log

/-- How the direction that is over first parts from the stream that it writes to: it has shut the
stream down at the end of its input, or has failed to do so, or it has failed to read or to write
before its input has ended and leaves the stream as it is. -/
inductive Parts (direction : Direction) (log : List (Direction × Act)) :
    Except IoError (Nat × Nat) → Prop where
  | shut {before : List (Direction × Act)} {counts : Nat × Nat}
      (order : log = before ++ [(direction, .closed)]) (ended : (direction, .ended) ∈ before) :
      Parts direction log (.ok counts)
  | refused {before : List (Direction × Act)} {e : IoError}
      (order : log = before ++ [(direction, .failed e)]) (ended : (direction, .ended) ∈ before) :
      Parts direction log (.error e)
  | left {before : List (Direction × Act)} {act : Act} {e : IoError}
      (order : log = before ++ [(direction, act)]) (failure : act.failure? = some e)
      (goesOn : (direction, .ended) ∉ before) : Parts direction log (.error e)

/-- How a relay that is over leaves its two streams. -/
structure Parted (relay : Relay) (log : List (Direction × Act))
    (result : Except IoError (Nat × Nat)) : Prop where
  first : ∃ direction, (relay.pipe direction).ending?.isSome ∧ Parts direction log result
  shut_iff : ∀ direction, Shut direction log ↔
    (relay.pipe direction).ending?.isSome ∧ ∃ counts, result = .ok counts

theorem Reached.not_shut (h : Reached relay log) (ho : relay.result? = none)
    (direction : Direction) : ¬ Shut direction log := by
  intro hs
  obtain ⟨whole, sent, rest, hc⟩ := (h.pipe direction).carried
  have hp := hc.shut (mem_actsOf hs)
  have hopen := result?_eq_none_iff.1 ho direction
  simp [ending?, hp] at hopen

theorem Reached.ended_of_closing (h : Reached relay log)
    (hp : (relay.pipe direction).phase = .closing) : (direction, .ended) ∈ log := by
  obtain ⟨acts, hacts⟩ := (h.pipe direction).of_closing hp
  obtain ⟨before, between, rfl, -⟩ := exists_last_of_actsOf hacts
  simp

theorem eq_failed_of_closing {pipe : Pipe} {act : Act} {e : IoError} (hf : pipe.Fits act)
    (hp : pipe.phase = .closing) (he : act.failure? = some e) : act = .failed e := by
  cases act with
  | failed e' => rw [Option.some.inj he]
  | wrote octets =>
    obtain ⟨size, rest, hs, -⟩ := hf
    rw [hs] at hp
    cases hp
  | read chunk => cases he
  | ended => cases he
  | closed => cases he

/-- The last act of a relay that is over decides how its direction parts from the stream. -/
theorem Reached.parts (h : Reached relay log) (ho : relay.result? = none) {act : Act}
    (hf : (relay.pipe direction).Fits act) {outcome : Except IoError Unit}
    (he : act.ending? = some outcome) (counts : Nat × Nat) :
    Parts direction (log ++ [(direction, act)]) (outcome.map fun _ => counts) := by
  rcases Act.ending?_eq_some he with ⟨rfl, rfl⟩ | ⟨e, hfailure, rfl⟩
  · exact .shut rfl (h.ended_of_closing hf)
  · by_cases hp : (relay.pipe direction).phase = .closing
    · obtain rfl := eq_failed_of_closing hf hp hfailure
      exact .refused rfl (h.ended_of_closing hp)
    · have hgoes : (direction, .ended) ∉ log := fun hm => hp (h.closing_of_ended ho hm)
      exact .left rfl hfailure hgoes

/-- Just the stream that the first direction over writes to is shut down, and it is so just if the
relay ends well: after the end of an input, and not after a failure to read or to write. -/
theorem reached_parted {result : Except IoError (Nat × Nat)} (h : Reached relay log)
    (hr : relay.result? = some result) : Parted relay log result := by
  obtain ⟨earlier, before, direction, act, outcome, rfl, he, ho, hf, rfl, hc, rfl⟩ :=
    h.exists_last hr
  have hended : ((earlier.step direction act.event).pipe direction).ending? = some outcome := by
    rw [pipe_step_self ho, ending?_step hf, hc]
  constructor
  · exact ⟨direction, Option.isSome_of_eq_some hended, he.parts ho hf hc _⟩
  · intro other
    have hlast : Shut other (before ++ [(direction, act)]) ↔ other = direction ∧ act = .closed := by
      have hbefore : (other, Act.closed) ∉ before := he.not_shut ho other
      simp [Shut, hbefore, eq_comm]
    rw [hlast]
    by_cases hd : other = direction
    · subst hd
      rcases Act.ending?_eq_some hc with ⟨rfl, rfl⟩ | ⟨e, hfailure, rfl⟩
      · simp [hended, Except.map]
      · have hn : act ≠ .closed := by
          rintro rfl
          cases hfailure
        simp [hn, Except.map]
    · have hopen : ((earlier.step direction act.event).pipe other).ending? = none := by
        rw [pipe_step_other (Ne.symm hd)]
        exact result?_eq_none_iff.1 ho other
      simp [hd, hopen]

theorem parted_interleaved :
    Reached ⟨⟨.sending 3 [99], 0⟩, ⟨.finished, 2⟩⟩ interleaved ∧
      result? ⟨⟨.sending 3 [99], 0⟩, ⟨.finished, 2⟩⟩ = some (.ok (0, 2)) ∧
        Parted ⟨⟨.sending 3 [99], 0⟩, ⟨.finished, 2⟩⟩ interleaved (.ok (0, 2)) :=
  ⟨reached_interleaved, rfl, reached_parted reached_interleaved rfl⟩

/-- A client that resets its connection ends the relay, and the target is not told. -/
theorem reset_not_told : ¬ ∀ relay log result, Reached relay log → relay.result? = some result →
    ∃ direction, (relay.pipe direction).ending?.isSome ∧ Shut direction log := by
  intro h
  have hread := @Reached.step _ _ .outward (.read [97]) .start rfl ⟨rfl, by decide, by decide⟩
  have hwrote := @Reached.step _ _ .outward (.wrote [97]) hread rfl ⟨_, _, rfl, [], rfl⟩
  have hreset := @Reached.step _ _ .outward (.failed (.reported .econnreset)) hwrote rfl rfl
  obtain ⟨direction, -, hs⟩ := h _ _ _ hreset rfl
  simp [Shut] at hs

end Relay

end SocksProxy
