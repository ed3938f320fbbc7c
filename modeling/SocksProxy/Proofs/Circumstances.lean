import SocksProxy.Proofs.ExactTransfers

/-!
# Runs in given circumstances

The circumstances of a run are a client, which sends some octets in any parts and then ends, fails
or is silent, and a world that answers all else, each time by what it has been asked before. A run
fits them if its answers are such, and comes to its conclusion when it has ended or waits for an
answer that it does not get. Two runs are alike if they differ only in the parts in which octets
are received.
-/

namespace SocksProxy

open SocksProxy.Action

/-- What a client does after its last octet. -/
inductive Circumstances.Ending where
  | ends
  | fails (failure : IoError)
  | silent
  deriving DecidableEq

/-- The octets that a client sends with their end, and the answers to what is asked besides, by
the exchanges, other than receipts, that have been made before. -/
structure Circumstances (I : Interface) where
  input : Bytes
  ending : Circumstances.Ending
  world : List (Exchange I) → (q : I.Request) → Option (I.Answer q)

namespace Circumstances

variable {I : Interface} {s t : Circumstances I}

def goingOn (s : Circumstances I) (more : Bytes) (ending : Ending) : Circumstances I :=
  { s with input := s.input ++ more, ending := ending }

/-- The same circumstances, or those of a client that goes on where this one falls silent. -/
def Precedes (s t : Circumstances I) : Prop :=
  s = t ∨ s.ending = .silent ∧ ∃ more ending, t = s.goingOn more ending

theorem Precedes.refl (s : Circumstances I) : s.Precedes s := .inl rfl

theorem Precedes.world_eq (h : s.Precedes t) : s.world = t.world := by
  rcases h with rfl | ⟨-, more, ending, rfl⟩
  · rfl
  · rfl

theorem Precedes.input_le (h : s.Precedes t) : s.input <+: t.input := by
  rcases h with rfl | ⟨-, more, ending, rfl⟩
  · exact List.prefix_rfl
  · exact List.prefix_append _ _

end Circumstances

def OctetStream.receipt? : Exchange OctetStream.interface → Option (Except IoError Bytes)
  | ⟨.receive _, answer⟩ => some (answer.map Subtype.val)
  | ⟨.send _, _⟩ => none

section

open Interface.Streamed

variable {I : Interface} [I.Streamed] {α β : Type}

def receipt? (e : Exchange I) : Option (Except IoError Bytes) :=
  (stream? e).bind OctetStream.receipt?

/-- A request that is not one to receive. -/
def Outward (q : I.Request) : Prop := ∀ a, receipt? (⟨q, a⟩ : Exchange I) = none

/-- The exchanges without those in which octets are received. -/
def others (es : List (Exchange I)) : List (Exchange I) := es.filter fun e => (receipt? e).isNone

@[simp] theorem others_append (before after : List (Exchange I)) :
    others (before ++ after) = others before ++ others after := List.filter_append ..

theorem received_singleton (e : Exchange I) :
    received [e] = match receipt? e with
      | some (.ok octets) => octets
      | _ => [] := by
  unfold receipt?
  cases hd : stream? e with
  | none => simp [received, hd]
  | some d =>
    obtain ⟨q, answer⟩ := d
    cases q with
    | send octets => simp [received, hd, OctetStream.octetsIn, OctetStream.receipt?]
    | receive limit =>
      cases answer with
      | error e => simp [received, hd, OctetStream.octetsIn, OctetStream.receipt?, Except.map]
      | ok answer => simp [received, hd, OctetStream.octetsIn, OctetStream.receipt?, Except.map]

/-- Exchanges that differ only in the parts in which octets are received. -/
structure Alike (es fs : List (Exchange I)) : Prop where
  others_eq : others es = others fs
  received_eq : received es = received fs

theorem Alike.refl (es : List (Exchange I)) : Alike es es := ⟨rfl, rfl⟩

theorem Alike.append {es es' fs fs' : List (Exchange I)} (h : Alike es fs) (h' : Alike es' fs') :
    Alike (es ++ es') (fs ++ fs') := by
  constructor
  · rw [others_append, others_append, h.others_eq, h'.others_eq]
  · rw [received_append, received_append, h.received_eq, h'.received_eq]

/-- Exchanges that are alike the first of the others, but for a receipt that may be cut off. -/
structure Behind (es fs : List (Exchange I)) : Prop where
  others_le : others es <+: others fs
  received_le : received es <+: received fs

theorem Behind.nil (fs : List (Exchange I)) : Behind [] fs := ⟨List.nil_prefix, List.nil_prefix⟩

theorem Alike.behind {es fs : List (Exchange I)} (h : Alike es fs) : Behind es fs :=
  ⟨h.others_eq ▸ List.prefix_rfl, h.received_eq ▸ List.prefix_rfl⟩

theorem Behind.append_right {es fs : List (Exchange I)} (h : Behind es fs)
    (more : List (Exchange I)) : Behind es (fs ++ more) := by
  constructor
  · rw [others_append]
    exact h.others_le.trans (List.prefix_append _ _)
  · rw [received_append]
    exact h.received_le.trans (List.prefix_append _ _)

theorem Behind.append_left {es es' fs fs' : List (Exchange I)} (h : Alike es fs)
    (h' : Behind es' fs') : Behind (es ++ es') (fs ++ fs') := by
  constructor
  · rw [others_append, others_append, h.others_eq]
    exact (List.prefix_append_right_inj _).2 h'.others_le
  · rw [received_append, received_append, h.received_eq]
    exact (List.prefix_append_right_inj _).2 h'.received_le

theorem sent_others (es : List (Exchange I)) : sent (others es) = sent es := by
  induction es with
  | nil => rfl
  | cons e es ih =>
    rw [← List.singleton_append, others_append, sent_append, sent_append, ih]
    cases he : receipt? e with
    | none => simp [others, he]
    | some answer =>
      have hothers : others [e] = [] := by simp [others, he]
      obtain ⟨⟨q, a⟩, hd, hr⟩ := Option.bind_eq_some_iff.1 he
      cases q with
      | send octets => cases hr
      | receive limit => simp [hothers, sent, hd, OctetStream.octetsOut]

theorem Alike.sent_eq {es fs : List (Exchange I)} (h : Alike es fs) : sent es = sent fs := by
  rw [← sent_others es, h.others_eq, sent_others]

theorem Behind.sent_le {es fs : List (Exchange I)} (h : Behind es fs) :
    sent es <+: sent fs := by
  obtain ⟨more, hmore⟩ := h.others_le
  rw [← sent_others fs, ← hmore, sent_append, sent_others]
  exact List.prefix_append _ _

namespace Circumstances

/-- What a request to receive can get: some of the octets that come next, or the end. -/
def Delivers (s : Circumstances I) : Except IoError Bytes → Prop
  | .ok octets => octets <+: s.input ∧ (octets = [] → s.input = [] ∧ s.ending = .ends)
  | .error failure => s.input = [] ∧ s.ending = .fails failure

def Answers (s : Circumstances I) (e : Exchange I) : Prop :=
  match receipt? e with
  | some answer => s.Delivers answer
  | none => s.world [] e.request = some e.answer

/-- What is left of the circumstances after some exchanges. -/
def after (s : Circumstances I) (es : List (Exchange I)) : Circumstances I where
  input := s.input.drop (received es).length
  ending := s.ending
  world := fun before => s.world (others es ++ before)

/-- The circumstances answer as they do in these exchanges. -/
def Fits : Circumstances I → List (Exchange I) → Prop
  | _, [] => True
  | s, e :: es => s.Answers e ∧ (s.after [e]).Fits es

/-- The run fits the circumstances, and has ended or waits for an answer that they do not give. -/
def Concludes (s : Circumstances I) (x : Action I α) (es : List (Exchange I)) : Prop :=
  s.Fits es ∧ ((∃ r, x.Ends es r) ∨ ∃ q, x.Asks es q ∧ ∀ a, ¬ (s.after es).Answers ⟨q, a⟩)

variable {s t : Circumstances I} {x : Action I α} {f : α → Action I β}
  {es fs before rest : List (Exchange I)}

@[simp] theorem after_nil (s : Circumstances I) : s.after [] = s := rfl

theorem after_append (s : Circumstances I) (before rest : List (Exchange I)) :
    s.after (before ++ rest) = (s.after before).after rest := by
  simp [after]

theorem fits_append_iff : s.Fits (before ++ rest) ↔ s.Fits before ∧ (s.after before).Fits rest := by
  induction before generalizing s with
  | nil => simp [Fits]
  | cons e before ih =>
    rw [List.cons_append, Fits, Fits, ih, and_assoc, ← after_append, List.singleton_append]

theorem Fits.of_le (h : s.Fits es) (hp : before <+: es) : s.Fits before := by
  obtain ⟨rest, rfl⟩ := hp
  exact (fits_append_iff.1 h).1

theorem answers_outward_iff {q : I.Request} (hq : Outward q) {a : I.Answer q} :
    s.Answers ⟨q, a⟩ ↔ s.world [] q = some a := by
  rw [Answers, hq a]

theorem fits_singleton_iff {e : Exchange I} : s.Fits [e] ↔ s.Answers e := by
  simp [Fits]

theorem Fits.received_le (h : s.Fits es) : received es <+: s.input := by
  induction es generalizing s with
  | nil => exact List.nil_prefix
  | cons e es ih =>
    obtain ⟨he, hes⟩ := h
    have hrest := ih hes
    have hfirst : received [e] <+: s.input := by
      rw [received_singleton]
      rw [Answers] at he
      cases hr : receipt? e with
      | none => exact List.nil_prefix
      | some answer =>
        rw [hr] at he
        cases answer with
        | error failure => exact List.nil_prefix
        | ok octets => exact he.1
    obtain ⟨left, hleft⟩ := hfirst
    rw [← List.singleton_append, received_append, ← hleft, List.prefix_append_right_inj]
    rw [after, ← hleft, List.drop_left] at hrest
    exact hrest

theorem Precedes.after (h : s.Precedes t) (hes : s.Fits es) (ha : Alike es fs) :
    (s.after es).Precedes (t.after fs) := by
  have hsame : t.after fs = t.after es := by
    rw [Circumstances.after, Circumstances.after, ha.others_eq, ha.received_eq]
  rw [hsame]
  rcases h with rfl | ⟨hs, more, ending, rfl⟩
  · exact .refl _
  · refine .inr ⟨hs, more, ending, ?_⟩
    simp [Circumstances.after, goingOn, List.drop_append_of_le_length hes.received_le.length_le]

theorem Concludes.of_ends (h : s.Fits es) {r : Except Error α} (hr : x.Ends es r) :
    s.Concludes x es := ⟨h, .inl ⟨r, hr⟩⟩

theorem Concludes.exists_follows (h : s.Concludes x es) : ∃ p, x.run.Follows es p := by
  obtain ⟨-, ⟨r, hr⟩ | ⟨q, ⟨next, hq⟩, -⟩⟩ := h
  · exact ⟨_, hr⟩
  · exact ⟨_, hq⟩

theorem exists_concludes {p : Program I (Except Error α)} (h : x.run.Follows es p)
    (hfits : s.Fits es) : ∃ more, s.Concludes x (es ++ more) := by
  induction p generalizing es with
  | done r => exact ⟨[], by rw [List.append_nil]; exact .of_ends hfits h⟩
  | ask q next ih =>
    by_cases hanswer : ∃ a, (s.after es).Answers ⟨q, a⟩
    · obtain ⟨a, ha⟩ := hanswer
      have hnext : x.run.Follows (es ++ [⟨q, a⟩]) (next a) := h.append (.step (.refl _))
      obtain ⟨more, hmore⟩ := ih a hnext (fits_append_iff.2 ⟨hfits, fits_singleton_iff.2 ha⟩)
      exact ⟨⟨q, a⟩ :: more, by rwa [List.append_assoc] at hmore⟩
    · exact ⟨[], by rw [List.append_nil]; exact ⟨hfits, .inr ⟨q, ⟨next, h⟩, not_exists.1 hanswer⟩⟩⟩

/-- A run of a sequence comes to its conclusion in the first action, or goes on after it. -/
theorem Concludes.bind_cases (h : s.Concludes (x >>= f) es) :
    (s.Concludes x es ∧ ∀ a, ¬ x.Ends es (.ok a)) ∨
      ∃ first second a, es = first ++ second ∧ s.Fits first ∧ x.Ends first (.ok a) ∧
        (s.after first).Concludes (f a) second := by
  obtain ⟨hfits, ⟨r, hr⟩ | ⟨q, hq, hstuck⟩⟩ := h
  · rcases ends_bind_iff.1 hr with ⟨e, he, rfl⟩ | ⟨first, second, a, rfl, ha, hr⟩
    · refine .inl ⟨.of_ends hfits he, fun a ha => ?_⟩
      cases he.result_eq ha
    · obtain ⟨hfirst, hsecond⟩ := fits_append_iff.1 hfits
      exact .inr ⟨first, second, a, rfl, hfirst, ha, .of_ends hsecond hr⟩
  · rcases asks_bind_iff.1 hq with hq | ⟨first, second, a, rfl, ha, hq⟩
    · exact .inl ⟨⟨hfits, .inr ⟨q, hq, hstuck⟩⟩, fun a => hq.not_ends _⟩
    · obtain ⟨hfirst, hsecond⟩ := fits_append_iff.1 hfits
      rw [after_append] at hstuck
      exact .inr ⟨first, second, a, rfl, hfirst, ha, hsecond, .inr ⟨q, hq, hstuck⟩⟩

/-- What the first action of a sequence has come to decides whether the second one follows. -/
theorem Concludes.split (h : s.Concludes (x >>= f) es) :
    ∃ first second, es = first ++ second ∧ s.Concludes x first ∧
      (∀ a, x.Ends first (.ok a) → (s.after first).Concludes (f a) second) ∧
        ∀ e, x.Ends first (.error e) → second = [] := by
  rcases h.bind_cases with ⟨hx, hnot⟩ | ⟨first, second, a, rfl, hfirst, ha, hsecond⟩
  · exact ⟨es, [], (List.append_nil es).symm, hx, fun a ha => absurd ha (hnot a), fun _ _ => rfl⟩
  · refine ⟨first, second, rfl, .of_ends hfirst ha, fun b hb => ?_, fun e he => ?_⟩
    · cases ha.result_eq hb
      exact hsecond
    · cases ha.result_eq he

end Circumstances

end

end SocksProxy
