import SocksProxy.Proofs.WrittenAddresses

/-!
# How a text is divided into a host and a port

A text is divided if it is a host, a colon and what stands for a port, with the host in brackets or
without a colon. There is one way at most to see a text so, and a text that cannot be seen so is
refused as it stands.

Joining keeps any two hosts and any two ports apart. A joined text is divided into what it has been
joined from if the host holds no bracket. A host that holds one is never found again: the text is
refused, or, if the host is nothing else than another one in brackets, divided into that one.
-/

namespace SocksProxy

namespace HostPort

variable {t host host' digits digits' : Text} {port port' : UInt16}

def Bare (t : Text) : Prop := '[' ∉ t ∧ ']' ∉ t ∧ ':' ∉ t

/-- The texts of a host and of what stands for a port. -/
inductive Grammar (host digits : Text) : Text → Prop where
  | bracketed (ho : '[' ∉ host) (hc : ']' ∉ host) (hd : Bare digits) :
      Grammar host digits ('[' :: host ++ ']' :: ':' :: digits)
  | plain (hh : Bare host) (hd : Bare digits) : Grammar host digits (host ++ ':' :: digits)

theorem open_iff : Open t ↔ '[' ∉ t ∧ ']' ∉ t := by
  constructor
  · intro h
    exact ⟨fun hm => absurd (h _ hm) (by decide), fun hm => absurd (h _ hm) (by decide)⟩
  · rintro ⟨ho, hc⟩ c hm
    have hopening : c ≠ '[' := fun h => ho (h ▸ hm)
    have hclosing : c ≠ ']' := fun h => hc (h ▸ hm)
    simp [isBracket, hopening, hclosing]

theorem bare_iff : Bare t ↔ Open t ∧ ':' ∉ t := by
  rw [open_iff, Bare, and_assoc]

theorem enclosed_append (host rest : Text) :
    enclosed host ++ rest = '[' :: host ++ ']' :: rest := by
  simp [enclosed]

theorem grammar_iff : Grammar host digits t ↔ Forms t host digits := by
  constructor
  · intro h
    cases h with
    | bracketed ho hc hd =>
      obtain ⟨hopen, hcolon⟩ := bare_iff.1 hd
      exact ⟨open_iff.2 ⟨ho, hc⟩, hopen, hcolon, .inl (enclosed_append _ _).symm⟩
    | plain hh hd =>
      obtain ⟨hopen, hcolon⟩ := bare_iff.1 hd
      exact ⟨(bare_iff.1 hh).1, hopen, hcolon, .inr ⟨(bare_iff.1 hh).2, rfl⟩⟩
  · rintro ⟨hh, hopen, hcolon, rfl | ⟨hn, rfl⟩⟩
    · rw [enclosed_append]
      exact .bracketed (open_iff.1 hh).1 (open_iff.1 hh).2 (bare_iff.2 ⟨hopen, hcolon⟩)
    · exact .plain (bare_iff.2 ⟨hh, hn⟩) (bare_iff.2 ⟨hopen, hcolon⟩)

theorem Grammar.unique (h : Grammar host digits t) (h' : Grammar host' digits' t) :
    host = host' ∧ digits = digits' := by
  have hs := split?_eq_some_iff.2 (grammar_iff.1 h)
  have hs' := split?_eq_some_iff.2 (grammar_iff.1 h')
  rw [hs] at hs'
  simpa using hs'

theorem portText_injective (h : portText port = portText port') : port = port' := by
  have hp := congrArg parsePort? h
  rw [parsePort?_portText, parsePort?_portText] at hp
  exact Option.some.inj hp

/-- Whether a joined text has the host in brackets can be seen from the text, since a host without
colons is never given any. -/
theorem join_injective (h : join host port = join host' port') : host = host' ∧ port = port' := by
  rw [join_eq, join_eq] at h
  obtain ⟨hfront, hdigits⟩ :=
    append_colon_inj (colon_not_mem_portText port) (colon_not_mem_portText port') h
  refine ⟨?_, portText_injective hdigits⟩
  have hin (t : Text) (hc : ':' ∈ t) : ':' ∈ enclosed t := by simp [enclosed, hc]
  by_cases hc : ':' ∈ host
  · by_cases hc' : ':' ∈ host'
    · rw [if_pos hc, if_pos hc'] at hfront
      exact enclosed_injective hfront
    · rw [if_pos hc, if_neg hc'] at hfront
      exact absurd (hfront ▸ hin host hc) hc'
  · by_cases hc' : ':' ∈ host'
    · rw [if_neg hc, if_pos hc'] at hfront
      exact absurd (hfront ▸ hin host' hc') hc
    · rwa [if_neg hc, if_neg hc'] at hfront

end HostPort

namespace Address

open HostPort

variable {a : Address} {type : AddressType} {host found digits : Text} {port : UInt16} {e : Error}

theorem parts_eq_ok_iff_grammar : a.parts = .ok (host, digits) ↔ Grammar host digits a.text :=
  parts_eq_ok_iff.trans grammar_iff.symm

theorem parts_eq_error_iff :
    a.parts = .error e ↔ (∀ found, a.parts ≠ .ok found) ∧ e = .invalidAddress a.text := by
  unfold parts
  cases split? a.text with
  | none => simp [eq_comm]
  | some found => simp

/-- What dividing a text gives: the host and the port that it is the text of, if there are any. -/
structure Divided (t : Text) (result : Except Error (Text × Text)) : Prop where
  accepted_iff : ∀ host digits, result = .ok (host, digits) ↔ Grammar host digits t
  unique : ∀ host digits host' digits', Grammar host digits t → Grammar host' digits' t →
    host = host' ∧ digits = digits'
  refused_iff : ∀ e, result = .error e ↔
    (∀ host digits, ¬ Grammar host digits t) ∧ e = .invalidAddress t

/-- Whatever an address is declared to be, its text is divided in the one way there is. -/
theorem parts_divided (type : AddressType) (t : Text) :
    Divided t (Address.mk type t).parts where
  accepted_iff _ _ := parts_eq_ok_iff_grammar
  unique _ _ _ _ h h' := h.unique h'
  refused_iff e := by
    simp only [parts_eq_error_iff, Prod.forall, ne_eq, parts_eq_ok_iff_grammar]

theorem parts_join_eq_ok_iff :
    (Address.mk type (join host port)).parts = .ok (found, digits) ↔ digits = portText port ∧
      Open found ∧ (found = host ∨ Bare found ∧ host = enclosed found) := by
  rw [parts_eq_ok_iff, Forms, ← split?_eq_some_iff, split?_join_eq_some_iff, bare_iff]
  constructor
  · rintro ⟨hd, ho, h | ⟨hc, h⟩⟩
    · exact ⟨hd, ho, .inl h⟩
    · exact ⟨hd, ho, .inr ⟨⟨ho, hc⟩, h⟩⟩
  · rintro ⟨hd, ho, h | ⟨⟨-, hc⟩, h⟩⟩
    · exact ⟨hd, ho, .inl h⟩
    · exact ⟨hd, ho, .inr ⟨hc, h⟩⟩

/-- What becomes of a host and a port that are joined and divided again. -/
structure Rejoined (type : AddressType) (host : Text) (port : UInt16) : Prop where
  injective : ∀ host' port', join host' port' = join host port → host' = host ∧ port' = port
  returned_iff : (Address.mk type (join host port)).parts = .ok (host, Decimal.text port.toNat) ↔
    '[' ∉ host ∧ ']' ∉ host
  mistaken : ∀ inner, Bare inner → host = '[' :: inner ++ [']'] →
    (Address.mk type (join host port)).parts = .ok (inner, Decimal.text port.toNat)
  refused_iff : ∀ e, (Address.mk type (join host port)).parts = .error e ↔
    ('[' ∈ host ∨ ']' ∈ host) ∧ (∀ inner, Bare inner → host ≠ '[' :: inner ++ [']']) ∧
      e = .invalidAddress (join host port)

/-- What has been joined is divided into the same parts again, unless the host has brackets. -/
theorem rejoined (type : AddressType) (host : Text) (port : UInt16) : Rejoined type host port where
  injective _ _ := join_injective
  returned_iff := by
    rw [← open_iff]
    constructor
    · exact fun h => (parts_join_eq_ok_iff.1 h).2.1
    · exact fun h => parts_join_eq_ok_iff.2 ⟨rfl, h, .inl rfl⟩
  mistaken inner hb h := parts_join_eq_ok_iff.2 ⟨rfl, (bare_iff.1 hb).1, .inr ⟨hb, h⟩⟩
  refused_iff e := by
    have hbrackets : ('[' ∈ host ∨ ']' ∈ host) ↔ ¬ Open host := by
      rw [open_iff, Decidable.not_and_iff_not_or_not, Decidable.not_not, Decidable.not_not]
    rw [parts_eq_error_iff, hbrackets, ← and_assoc]
    refine and_congr_left fun _ => ?_
    constructor
    · intro h
      refine ⟨fun ho => h _ (parts_join_eq_ok_iff.2 ⟨rfl, ho, .inl rfl⟩), fun inner hb he => ?_⟩
      exact h _ (parts_join_eq_ok_iff.2 ⟨rfl, (bare_iff.1 hb).1, .inr ⟨hb, he⟩⟩)
    · rintro ⟨ho, hn⟩ ⟨found, digits⟩ h
      obtain ⟨-, hfound, rfl | ⟨hb, he⟩⟩ := parts_join_eq_ok_iff.1 h
      · exact ho hfound
      · exact hn found hb he

end Address

end SocksProxy
