import SocksProxy.Proofs.Circumstances
import SocksProxy.Proofs.Readers

/-!
# How much of an input is taken

In given circumstances a reader comes to the result for which its input begins with the octets, and
takes just these, whatever the parts in which they come and whatever follows them. If the input
does not begin so, the reader takes all of it and ends as the input does.
-/

namespace SocksProxy

open SocksProxy.Action Circumstances

def Circumstances.Ending.failure? : Circumstances.Ending → Option Error
  | .ends => some (.io (.raised .unexpectedEof))
  | .fails failure => some (.io failure)
  | .silent => none

namespace OctetStream

variable {α : Type} {s : Circumstances interface} {x : Action interface α}
  {es : List (Exchange interface)} {taken : Except Error α → Bytes → Prop}

/-- A run takes all of the input, and ends as the input does: not at all if that is silent. -/
structure RunsDry (s : Circumstances interface) (x : Action interface α)
    (es : List (Exchange interface)) : Prop where
  received : received es = s.input
  ends_iff : ∀ r, x.Ends es r ↔ ∃ e, s.ending.failure? = some e ∧ r = .error e

theorem eq_input_of_after (hfits : s.Fits es) (h : (s.after es).input = []) :
    received es = s.input := by
  have hl : s.input.length ≤ (received es).length := List.drop_eq_nil_iff.1 h
  exact hfits.received_le.eq_of_length_le hl

theorem Breaks.exhausts {e : Error} (h : Breaks es e) (hn : others es = []) (hfits : s.Fits es) :
    received es = s.input ∧ s.ending.failure? = some e := by
  obtain ⟨before, ⟨q, answer⟩, rfl, -, hl⟩ := h
  obtain ⟨hbefore, hlast⟩ := fits_append_iff.1 hfits
  have hanswer := fits_singleton_iff.1 hlast
  rw [others_append] at hn
  rw [received_append]
  cases q with
  | send octets => cases (List.append_eq_nil_iff.1 hn).2
  | receive limit =>
    cases answer with
    | error failure =>
      obtain ⟨hi, he⟩ : (s.after before).input = [] ∧ s.ending = .fails failure := hanswer
      obtain rfl : e = .io failure := hl
      refine ⟨(List.append_nil _).trans (eq_input_of_after hbefore hi), ?_⟩
      rw [he, Ending.failure?]
    | ok octets =>
      obtain ⟨hnil, rfl⟩ : octets.val = [] ∧ e = _ := hl
      obtain ⟨hi, he⟩ : (s.after before).input = [] ∧ s.ending = .ends := hanswer.2 hnil
      have hlast : received [(⟨.receive limit, .ok octets⟩ : Exchange interface)] = [] :=
        (List.append_nil _).trans hnil
      rw [hlast, List.append_nil, he]
      exact ⟨eq_input_of_after hbefore hi, rfl⟩

theorem exhausted_of_stuck {limit : Nat} (hl : 0 < limit)
    (h : ∀ a, ¬ s.Answers ⟨.receive limit, a⟩) : s.input = [] ∧ s.ending.failure? = none := by
  cases hi : s.input with
  | cons octet more =>
    refine absurd ?_ (h (.ok ⟨[octet], hl⟩))
    change [octet] <+: s.input ∧ ([octet] = [] → _)
    rw [hi]
    exact ⟨List.prefix_append [octet] more, nofun⟩
  | nil =>
    refine ⟨rfl, ?_⟩
    cases he : s.ending with
    | silent => rfl
    | ends => exact absurd ⟨List.nil_prefix, fun _ => ⟨hi, he⟩⟩ (h (.ok ⟨[], Nat.zero_le _⟩))
    | fails failure => exact absurd ⟨hi, he⟩ (h (.error failure))

theorem Reads.others_eq_nil (h : Reads x taken) {p : Program interface (Except Error α)}
    (hp : x.run.Follows es p) : others es = [] := by
  have honly : x.Only fun q => ∃ limit, q = Request.receive limit := by
    intro before q hq
    obtain ⟨limit, -, rfl⟩ := (h.meets.1 before q hq).receives
    exact ⟨limit, rfl⟩
  apply List.filter_eq_nil_iff.2
  rintro ⟨q, a⟩ he
  obtain ⟨limit, rfl⟩ : ∃ limit, q = Request.receive limit := honly.mem hp _ he
  exact Bool.false_ne_true

/-- What a reader comes to: a result with its octets, or the end of an input that has none. -/
theorem Reads.concluded (h : Reads x taken) (hc : s.Concludes x es) :
    (∃ r, x.Ends es r ∧ taken r (received es)) ∨ Unsettled taken s.input ∧ RunsDry s x es := by
  obtain ⟨hfits, ⟨r, hr⟩ | ⟨q, hq, hstuck⟩⟩ := hc
  · cases h.meets.2 es r hr with
    | took _ _ ht => exact .inl ⟨r, hr, ht⟩
    | @broke e hb _ hu =>
      obtain ⟨hall, hfailure⟩ := hb.exhausts (h.others_eq_nil hr) hfits
      refine .inr ⟨hall ▸ hu, hall, fun r' => ⟨fun hr' => ⟨e, hfailure, ?_⟩, ?_⟩⟩
      · exact hr'.result_eq hr
      · rintro ⟨e', he', rfl⟩
        rw [hfailure] at he'
        cases he'
        exact hr
  · obtain ⟨-, -, hu, limit, hl, rfl⟩ := h.meets.1 es q hq
    obtain ⟨hempty, hsilent⟩ := exhausted_of_stuck hl hstuck
    have hall := eq_input_of_after hfits hempty
    refine .inr ⟨hall ▸ hu, hall, fun r => ⟨fun hr => absurd hr (hq.not_ends r), ?_⟩⟩
    rintro ⟨e, he, -⟩
    rw [show s.ending.failure? = none from hsilent] at he
    cases he

theorem Reads.whole (h : Reads x taken) (hc : s.Concludes x es) {r : Except Error α}
    {octets : Bytes} (ht : taken r octets) (hp : octets <+: s.input) :
    x.Ends es r ∧ received es = octets := by
  rcases h.concluded hc with ⟨r', hr, ht'⟩ | ⟨hu, -⟩
  · obtain ⟨rfl, hoctets⟩ := h.prefixFree.unique ht' ht hc.1.received_le hp
    exact ⟨hr, hoctets⟩
  · exact absurd hp (hu r octets ht)

theorem Reads.short (h : Reads x taken) (hc : s.Concludes x es) (hu : Unsettled taken s.input) :
    RunsDry s x es := by
  rcases h.concluded hc with ⟨r, -, ht⟩ | ⟨-, hdry⟩
  · exact absurd hc.1.received_le (hu r _ ht)
  · exact hdry

end OctetStream

end SocksProxy
