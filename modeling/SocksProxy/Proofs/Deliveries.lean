import SocksProxy.Proofs.TakenInput

/-!
# Independence of the parts in which octets come

An action is steady if, in given circumstances, it makes the same requests and comes to the same
end in whatever parts the client's octets come, and if, where the client falls silent, it stops on
its way to what it does when the client goes on. Receiving exactly is steady, whatever does not
receive is so, and what is put together from steady actions is.
-/

namespace SocksProxy

open SocksProxy.Action Circumstances

section

variable {I : Interface} [I.Streamed] {α β : Type}

/-- In the course of a run the same request is made after exchanges that are alike. -/
def Repeats (x : Action I α) (fs es : List (Exchange I)) (q : I.Request) : Prop :=
  ∃ before, before <+: fs ∧ x.Asks before q ∧ Alike es before

/-- A run that fits the circumstances is behind each one that has come to its conclusion in them,
and if it has ended it is alike. The second run may be one with a client that goes on where the
first one falls silent. -/
structure Steady (x : Action I α) : Prop where
  asks : ∀ {s t : Circumstances I} {es fs q}, s.Precedes t → x.Asks es q → s.Fits es →
    t.Concludes x fs → Behind es fs ∧ (Outward q → Repeats x fs es q)
  ends : ∀ {s t : Circumstances I} {es fs r}, s.Precedes t → x.Ends es r → s.Fits es →
    t.Concludes x fs → x.Ends fs r ∧ Alike es fs

variable {x : Action I α} {f : α → Action I β}

theorem Steady.behind {s t : Circumstances I} {es fs : List (Exchange I)}
    {p : Program I (Except Error α)} (hx : Steady x) (hst : s.Precedes t)
    (h : x.run.Follows es p) (hes : s.Fits es) (hfs : t.Concludes x fs) : Behind es fs := by
  cases p with
  | done r => exact (hx.ends hst h hes hfs).2.behind
  | ask q next => exact (hx.asks hst ⟨next, h⟩ hes hfs).1

theorem steady_result (r : Except Error α) : Steady (ExceptT.mk (.done r) : Action I α) := by
  constructor
  · intro s t es fs q _ hq
    exact absurd hq (Program.not_asks_done _ _ _)
  · intro s t es fs r' _ hr _ hfs
    obtain ⟨rfl, rfl⟩ := Program.ends_done_iff.1 hr
    obtain ⟨-, ⟨r, hr⟩ | ⟨q, hq, -⟩⟩ := hfs
    · obtain ⟨rfl, rfl⟩ := Program.ends_done_iff.1 hr
      exact ⟨hr, .refl []⟩
    · exact absurd hq (Program.not_asks_done _ _ _)

theorem steady_pure (a : α) : Steady (pure a : Action I α) := steady_result _

theorem steady_throw (e : Error) : Steady (throw e : Action I α) := steady_result _

theorem steady_ask {q : I.Request} (hq : Outward q) : Steady (ask q) := by
  have hmeets : (ask q).Meets (fun es r => es = [] ∧ r = q)
      fun es r => ∃ a, es = [⟨q, a⟩] ∧ r = .ok a :=
    meets_ask ⟨rfl, rfl⟩ fun a => ⟨a, rfl, rfl⟩
  constructor
  · intro s t es fs r _ hr _ _
    obtain ⟨rfl, -⟩ := hmeets.1 es r hr
    exact ⟨.nil fs, fun _ => ⟨[], List.nil_prefix, hr, .refl []⟩⟩
  · intro s t es fs r hst hr hes hfs
    obtain ⟨a, rfl, rfl⟩ := hmeets.2 es r hr
    have ha : t.world [] q = some a := by
      rw [← hst.world_eq]
      exact (answers_outward_iff hq).1 (fits_singleton_iff.1 hes)
    obtain ⟨hfits, ⟨r, hr'⟩ | ⟨q', hq', hstuck⟩⟩ := hfs
    · obtain ⟨b, rfl, rfl⟩ := hmeets.2 fs r hr'
      have hb := (answers_outward_iff hq).1 (fits_singleton_iff.1 hfits)
      rw [ha] at hb
      cases hb
      exact ⟨hr, .refl _⟩
    · obtain ⟨rfl, rfl⟩ := hmeets.1 fs q' hq'
      exact absurd ((answers_outward_iff hq).2 ha) (hstuck a)

theorem Repeats.of_bind {es fs : List (Exchange I)} {q : I.Request} (h : Repeats x fs es q)
    (more : List (Exchange I)) : Repeats (x >>= f) (fs ++ more) es q := by
  obtain ⟨before, hp, hq, ha⟩ := h
  exact ⟨before, hp.trans (List.prefix_append _ _), asks_bind_iff.2 (.inl hq), ha⟩

theorem Repeats.bind {es es' fs fs' : List (Exchange I)} {q : I.Request} {a : α}
    (hx : x.Ends fs (.ok a)) (ha : Alike es fs) (h : Repeats (f a) fs' es' q) :
    Repeats (x >>= f) (fs ++ fs') (es ++ es') q := by
  obtain ⟨before, hp, hq, hb⟩ := h
  exact ⟨fs ++ before, (List.prefix_append_right_inj fs).2 hp,
    asks_bind_iff.2 (.inr ⟨fs, before, a, rfl, hx, hq⟩), ha.append hb⟩

theorem Steady.bind (hx : Steady x) (hf : ∀ a, Steady (f a)) : Steady (x >>= f) := by
  constructor
  · intro s t es fs q hst hq hes hfs
    -- The first part of the second run has come to its conclusion, so that all of the first part
    -- of the first run is compared with it, and what follows in what is left of the circumstances.
    obtain ⟨first, second, rfl, hfirst, hsecond, -⟩ := hfs.split
    rcases asks_bind_iff.1 hq with hq | ⟨before, rest, a, rfl, ha, hq⟩
    · obtain ⟨hbehind, hrepeats⟩ := hx.asks hst hq hes hfirst
      exact ⟨hbehind.append_right second, fun ho => (hrepeats ho).of_bind second⟩
    · obtain ⟨hbefore, hrest⟩ := fits_append_iff.1 hes
      obtain ⟨hends, halike⟩ := hx.ends hst ha hbefore hfirst
      obtain ⟨hbehind, hrepeats⟩ :=
        (hf a).asks (hst.after hbefore halike) hq hrest (hsecond a hends)
      exact ⟨.append_left halike hbehind, fun ho => .bind hends halike (hrepeats ho)⟩
  · intro s t es fs r hst hr hes hfs
    obtain ⟨first, second, rfl, hfirst, hsecond, hfailed⟩ := hfs.split
    rcases ends_bind_iff.1 hr with ⟨e, he, rfl⟩ | ⟨before, rest, a, rfl, ha, hr⟩
    · obtain ⟨hends, halike⟩ := hx.ends hst he hes hfirst
      obtain rfl := hfailed e hends
      rw [List.append_nil]
      exact ⟨ends_bind_iff.2 (.inl ⟨e, hends, rfl⟩), halike⟩
    · obtain ⟨hbefore, hrest⟩ := fits_append_iff.1 hes
      obtain ⟨hends, halike⟩ := hx.ends hst ha hbefore hfirst
      obtain ⟨hends', halike'⟩ := (hf a).ends (hst.after hbefore halike) hr hrest (hsecond a hends)
      exact ⟨ends_bind_iff.2 (.inr ⟨first, second, a, rfl, hends, hends'⟩), halike.append halike'⟩

/-- What never receives is answered by the world alone. -/
theorem steady_of_outward (hx : x.Only Outward) : Steady x := by
  suffices h : ∀ p : Program I (Except Error α), (∀ es q, p.Asks es q → Outward q) →
      Steady (ExceptT.mk p) from h x.run hx
  intro p hp
  induction p with
  | done r => exact steady_result r
  | ask q next ih =>
    have hnext (a : I.Answer q) : Steady (ExceptT.mk (next a)) := by
      refine ih a fun es r hr => hp (⟨q, a⟩ :: es) r ?_
      exact Program.asks_ask_iff.2 (.inr ⟨a, es, rfl, hr⟩)
    have hfirst : Outward q := hp [] q ⟨next, .refl _⟩
    exact (steady_ask hfirst).bind hnext

theorem concludes_outcome_iff {s : Circumstances I} {es : List (Exchange I)} :
    s.Concludes x.outcome es ↔ s.Concludes x es := by
  apply and_congr_right
  intro _
  constructor
  · rintro (⟨o, ho⟩ | ⟨q, hq, hstuck⟩)
    · obtain ⟨r, -, hr⟩ := ends_outcome_iff.1 ho
      exact .inl ⟨r, hr⟩
    · exact .inr ⟨q, asks_outcome_iff.1 hq, hstuck⟩
  · rintro (⟨r, hr⟩ | ⟨q, hq, hstuck⟩)
    · exact .inl ⟨.ok r, ends_outcome_iff.2 ⟨r, rfl, hr⟩⟩
    · exact .inr ⟨q, asks_outcome_iff.2 hq, hstuck⟩

theorem Steady.outcome (hx : Steady x) : Steady x.outcome := by
  constructor
  · intro s t es fs q hst hq hes hfs
    obtain ⟨hbehind, hrepeats⟩ :=
      hx.asks hst (asks_outcome_iff.1 hq) hes (concludes_outcome_iff.1 hfs)
    refine ⟨hbehind, fun ho => ?_⟩
    obtain ⟨before, hp, hb, ha⟩ := hrepeats ho
    exact ⟨before, hp, asks_outcome_iff.2 hb, ha⟩
  · intro s t es fs o hst ho hes hfs
    obtain ⟨r, rfl, hr⟩ := ends_outcome_iff.1 ho
    obtain ⟨hends, halike⟩ := hx.ends hst hr hes (concludes_outcome_iff.1 hfs)
    exact ⟨ends_outcome_iff.2 ⟨r, rfl, hends⟩, halike⟩

theorem steady_ite {c : Prop} [Decidable c] {y : Action I α} (hx : Steady x) (hy : Steady y) :
    Steady (if c then x else y) := by
  by_cases hc : c
  · rwa [if_pos hc]
  · rwa [if_neg hc]

end

section

open Interface.Streamed

variable {I J : Interface} {α : Type} {request : I.Request → J.Request}
  {answer : ∀ q, J.Answer (request q) → I.Answer q}
  {back : ∀ q, I.Answer q → J.Answer (request q)} {es fs : List (Exchange I)}

def Circumstances.within (s : Circumstances J) (request : I.Request → J.Request)
    (answer : ∀ q, J.Answer (request q) → I.Answer q)
    (back : ∀ q, I.Answer q → J.Answer (request q)) : Circumstances I where
  input := s.input
  ending := s.ending
  world := fun before q =>
    (s.world (before.map (Exchange.embed request back)) (request q)).map (answer q)

theorem Circumstances.Precedes.within {s t : Circumstances J} (h : s.Precedes t) :
    (s.within request answer back).Precedes (t.within request answer back) := by
  rcases h with rfl | ⟨hs, more, ending, rfl⟩
  · exact .refl _
  · exact .inr ⟨hs, more, ending, rfl⟩

section

variable [I.Streamed] [J.Streamed]
  (hs : ∀ e : Exchange I, stream? (e.embed request back) = stream? e)

include hs

theorem receipt?_embed (e : Exchange I) : receipt? (e.embed request back) = receipt? e := by
  rw [receipt?, hs, receipt?]

theorem others_embed (es : List (Exchange I)) :
    others (es.map (Exchange.embed request back)) =
      (others es).map (Exchange.embed request back) := by
  rw [others, List.filter_map, others]
  congr 1
  exact List.filter_congr fun e _ => congrArg Option.isNone (receipt?_embed hs e)

theorem outward_of_embed {q : I.Request} (h : Outward (request q)) : Outward q := by
  intro a
  rw [← receipt?_embed hs]
  exact h (back q a)

theorem Alike.embed (h : Alike es fs) :
    Alike (es.map (Exchange.embed request back)) (fs.map (Exchange.embed request back)) := by
  constructor
  · rw [others_embed hs, others_embed hs, h.others_eq]
  · rw [received_embed hs, received_embed hs, h.received_eq]

theorem Behind.embed (h : Behind es fs) :
    Behind (es.map (Exchange.embed request back)) (fs.map (Exchange.embed request back)) := by
  constructor
  · rw [others_embed hs, others_embed hs]
    exact h.others_le.map _
  · rw [received_embed hs, received_embed hs]
    exact h.received_le

theorem within_after (s : Circumstances J) (es : List (Exchange I)) :
    (s.after (es.map (Exchange.embed request back))).within request answer back =
      (s.within request answer back).after es := by
  simp only [Circumstances.within, Circumstances.after, received_embed hs, others_embed hs,
    List.map_append]

variable (hb : ∀ q a, back q (answer q a) = a) (ha : ∀ q a, answer q (back q a) = a)

include hb ha

theorem answers_embed_iff {s : Circumstances J} {e : Exchange I} :
    s.Answers (e.embed request back) ↔ (s.within request answer back).Answers e := by
  rw [Answers, Answers, receipt?_embed hs]
  cases receipt? e with
  | some received => cases received <;> exact Iff.rfl
  | none =>
    change s.world [] (request e.request) = some (back e.request e.answer) ↔
      (s.world [] (request e.request)).map (answer e.request) = some e.answer
    constructor
    · intro h
      rw [h, Option.map_some, ha]
    · intro h
      obtain ⟨a, hw, he⟩ := Option.map_eq_some_iff.1 h
      rw [hw, ← he, hb]

theorem fits_embed_iff {s : Circumstances J} :
    s.Fits (es.map (Exchange.embed request back)) ↔ (s.within request answer back).Fits es := by
  induction es generalizing s with
  | nil => exact Iff.rfl
  | cons e es ih =>
    rw [List.map_cons, Fits, Fits, answers_embed_iff hs hb ha, ih, ← List.map_singleton,
      within_after hs]

theorem Circumstances.Concludes.of_embed {s : Circumstances J} {x : Action I α}
    {es : List (Exchange J)} (h : s.Concludes (x.embed request answer) es) :
    ∃ inner, es = inner.map (Exchange.embed request back) ∧
      (s.within request answer back).Concludes x inner := by
  obtain ⟨hfits, ⟨r, hr⟩ | ⟨q, hq, hstuck⟩⟩ := h
  · obtain ⟨inner, rfl, hi⟩ := (Program.ends_embed_iff hb ha).1 hr
    exact ⟨inner, rfl, .of_ends ((fits_embed_iff hs hb ha).1 hfits) hi⟩
  · obtain ⟨inner, q, rfl, rfl, hi⟩ := (Program.asks_embed_iff hb ha).1 hq
    refine ⟨inner, rfl, (fits_embed_iff hs hb ha).1 hfits, .inr ⟨q, hi, fun a hanswer => ?_⟩⟩
    rw [← within_after hs] at hanswer
    exact hstuck _ ((answers_embed_iff hs hb ha).2 hanswer)

theorem Steady.embed {x : Action I α} (hx : Steady x) : Steady (x.embed request answer) := by
  constructor
  · intro s t es fs q hst hq hes hfs
    obtain ⟨inner, r, rfl, rfl, hr⟩ := (Program.asks_embed_iff hb ha).1 hq
    obtain ⟨other, rfl, hother⟩ := hfs.of_embed hs hb ha
    obtain ⟨hbehind, hrepeats⟩ :=
      hx.asks hst.within hr ((fits_embed_iff hs hb ha).1 hes) hother
    refine ⟨hbehind.embed hs, fun ho => ?_⟩
    obtain ⟨before, hp, hbefore, halike⟩ := hrepeats (outward_of_embed hs ho)
    exact ⟨before.map _, hp.map _,
      (Program.asks_embed_iff hb ha).2 ⟨before, r, rfl, rfl, hbefore⟩, halike.embed hs⟩
  · intro s t es fs r hst hr hes hfs
    obtain ⟨inner, rfl, hi⟩ := (Program.ends_embed_iff hb ha).1 hr
    obtain ⟨other, rfl, hother⟩ := hfs.of_embed hs hb ha
    obtain ⟨hends, halike⟩ := hx.ends hst.within hi ((fits_embed_iff hs hb ha).1 hes) hother
    exact ⟨(Program.ends_embed_iff hb ha).2 ⟨other, rfl, hends⟩, halike.embed hs⟩

end

end

namespace OctetStream

theorem not_outward_receive (limit : Nat) : ¬ Outward (I := interface) (.receive limit) := by
  intro h
  cases h (.error (.raised .unexpectedEof))

/-- A reader comes to what it takes in whatever parts that comes. -/
theorem Reads.steady {α : Type} {x : Action interface α} {taken : Except Error α → Bytes → Prop}
    (h : Reads x taken) : Steady x := by
  constructor
  · intro s t es fs q hst hq hes hfs
    obtain ⟨-, -, hu, limit, -, rfl⟩ := h.meets.1 es q hq
    obtain ⟨next, hnext⟩ := hq
    refine ⟨⟨?_, ?_⟩, fun ho => absurd ho (not_outward_receive limit)⟩
    · rw [h.others_eq_nil hnext]
      exact List.nil_prefix
    · have hinput := hes.received_le.trans hst.input_le
      rcases h.concluded hfs with ⟨r, -, ht⟩ | ⟨-, hdry⟩
      · exact (List.prefix_or_prefix_of_prefix hinput hfs.1.received_le).resolve_right (hu r _ ht)
      · rwa [hdry.received]
  · intro s t es fs r hst hr hes hfs
    obtain ⟨p, hp⟩ := hfs.exists_follows
    have hothers : others es = others fs :=
      (h.others_eq_nil hr).trans (h.others_eq_nil hp).symm
    cases h.meets.2 es r hr with
    | took _ _ ht =>
      obtain ⟨hends, hreceived⟩ := h.whole hfs ht (hes.received_le.trans hst.input_le)
      exact ⟨hends, hothers, hreceived.symm⟩
    | @broke e hb _ hu =>
      obtain ⟨hall, hfailure⟩ := hb.exhausts (h.others_eq_nil hr) hes
      -- A client that is silent does not end a reader, so that the circumstances are the same.
      rcases hst with rfl | ⟨hsilent, -⟩
      · have hdry := h.short hfs (hall ▸ hu)
        exact ⟨(hdry.ends_iff _).2 ⟨e, hfailure, rfl⟩, hothers, hall.trans hdry.received.symm⟩
      · rw [hsilent] at hfailure
        cases hfailure

end OctetStream

end SocksProxy
