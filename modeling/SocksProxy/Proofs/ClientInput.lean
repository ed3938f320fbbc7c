import SocksProxy.Proofs.Dialogues

/-!
# Runs on the input of a client

A client that sends some octets, in whatever parts, and then ends, fails or is silent, decides what
becomes of a run. `Course` tells it: where the run waits for octets that do not come, and what its
result is, what has been sent by then, and what is left of the input.
-/

namespace SocksProxy

open SocksProxy.Action

/-- A request to receive that gets nothing, since the input has ended or failed. -/
def OctetStream.Dry : Exchange OctetStream.interface → Prop
  | ⟨.receive _, .ok octets⟩ => octets.val = []
  | ⟨.receive _, .error _⟩ => True
  | ⟨.send _, _⟩ => False

section

open Interface.Streamed

variable {I : Interface} [I.Streamed] {α β : Type}

/-- The client sends `input` in any parts, which ends or fails only when there is none left, and
takes what it is sent. -/
structure Fed (input : Bytes) (es : List (Exchange I)) : Prop where
  accepting : Accepting es
  order : received es <+: input
  whole : ∀ before e after s, es = before ++ e :: after → stream? e = some s →
    OctetStream.Dry s → received before = input

variable {x : Action I α} {f : α → Action I β} {input left : Bytes}
  {es before after : List (Exchange I)} {waiting waiting' : Bytes → Prop}
  {ended ended' : Except Error α → Bytes → Bytes → Prop}

theorem Fed.of_append (h : Fed input (before ++ after)) : Fed input before := by
  refine ⟨h.accepting.of_append.1, ?_, ?_⟩
  · have hp := h.order
    rw [received_append] at hp
    exact (List.prefix_append _ _).trans hp
  · rintro first e more s rfl hs hd
    exact h.whole first e (more ++ after) s (by simp) hs hd

theorem fed_of_flowing (h : Flowing es) (hr : received es <+: input) : Fed input es := by
  have hdry (s : Exchange OctetStream.interface) (hs : OctetStream.Flows s) :
      OctetStream.Accepted s ∧ ¬ OctetStream.Dry s := by
    obtain ⟨q, answer⟩ := s
    cases q <;> cases answer
    all_goals simp_all [OctetStream.Flows, OctetStream.Accepted, OctetStream.Dry]
  refine ⟨fun s hs => (hdry s (h s hs)).1, hr, ?_⟩
  rintro before e after s rfl hs hd
  exact absurd hd (hdry s (h s (List.mem_filterMap.2 ⟨e, by simp, hs⟩))).2

theorem Fed.rest (h : Fed input (before ++ after)) (hr : received before ++ left = input) :
    Fed left after := by
  refine ⟨h.accepting.of_append.2, ?_, ?_⟩
  · have hp := h.order
    rwa [received_append, ← hr, List.prefix_append_right_inj] at hp
  · rintro first e more s rfl hs hd
    have hw := h.whole (before ++ first) e more s (by simp) hs hd
    rw [received_append, ← hr] at hw
    exact List.append_cancel_left hw

/-- What becomes of a run on an input: `waiting` holds of the octets sent if it waits for more
input than there is, and `ended` of its result, the octets sent and the rest of the input. -/
structure Course (x : Action I α) (input : Bytes) (waiting : Bytes → Prop)
    (ended : Except Error α → Bytes → Bytes → Prop) : Prop where
  waits : ∀ es q, x.Asks es q → Fed input es → AwaitsInput q → received es = input →
    waiting (sent es)
  ends : ∀ es r, x.Ends es r → Fed input es →
    ∃ rest, received es ++ rest = input ∧ ended r (sent es) rest

theorem Course.mono (h : Course x input waiting ended) (hw : ∀ s, waiting s → waiting' s)
    (he : ∀ r s rest, ended r s rest → ended' r s rest) : Course x input waiting' ended' := by
  refine ⟨fun es q hq hf hi hr => hw _ (h.waits es q hq hf hi hr), fun es r hr hf => ?_⟩
  obtain ⟨rest, hrest, hended⟩ := h.ends es r hr hf
  exact ⟨rest, hrest, he r _ rest hended⟩

theorem course_result {r : Except Error α} (h : ended r [] input) :
    Course (ExceptT.mk (.done r) : Action I α) input waiting ended := by
  refine ⟨fun es q hq => absurd hq (Program.not_asks_done _ _ _), fun es r' hr _ => ?_⟩
  obtain ⟨rfl, rfl⟩ := Program.ends_done_iff.1 hr
  exact ⟨input, rfl, h⟩

def Course.Continues (f : α → Action I β) (waiting : Bytes → Prop)
    (ended : Except Error β → Bytes → Bytes → Prop) : Except Error α → Bytes → Bytes → Prop
  | .error e, said, rest => ended (.error e) said rest
  | .ok a, said, rest => Course (f a) rest (fun more => waiting (said ++ more))
      fun r more => ended r (said ++ more)

theorem course_bind {ended : Except Error β → Bytes → Bytes → Prop}
    (h : Course x input waiting (Course.Continues f waiting ended)) :
    Course (x >>= f) input waiting ended := by
  constructor
  · intro es q hq hf hi hr
    rcases asks_bind_iff.1 hq with hq | ⟨before, after, a, rfl, ha, hq⟩
    · exact h.waits es q hq hf hi hr
    · obtain ⟨rest, hrest, hnext⟩ := h.ends before _ ha hf.of_append
      rw [received_append, ← hrest] at hr
      rw [sent_append]
      exact hnext.waits after q hq (hf.rest hrest) hi (List.append_cancel_left hr)
  · intro es r hr hf
    rcases ends_bind_iff.1 hr with ⟨e, he, rfl⟩ | ⟨before, after, a, rfl, ha, hr⟩
    · exact h.ends es _ he hf
    · obtain ⟨rest, hrest, hnext⟩ := h.ends before _ ha hf.of_append
      obtain ⟨left, hleft, hended⟩ := hnext.ends after r hr (hf.rest hrest)
      refine ⟨left, ?_, by rwa [sent_append]⟩
      rw [received_append, List.append_assoc, hleft, hrest]

theorem course_outcome {ended : Except Error (Except Error α) → Bytes → Bytes → Prop}
    (h : Course x input waiting fun r => ended (.ok r)) :
    Course x.outcome input waiting ended := by
  refine ⟨fun es q hq => h.waits es q (asks_outcome_iff.1 hq), fun es o ho hf => ?_⟩
  obtain ⟨r, rfl, hr⟩ := ends_outcome_iff.1 ho
  exact h.ends es r hr hf

theorem course_ask {q : I.Request} (hw : ¬ AwaitsInput q)
    (hs : ∀ a, stream? (⟨q, a⟩ : Exchange I) = none)
    {ended : Except Error (I.Answer q) → Bytes → Bytes → Prop} (h : ∀ a, ended (.ok a) [] input) :
    Course (ask q) input waiting ended := by
  have hx : (ask q).Meets (fun _ r => r = q) fun es r => ∃ a, es = [⟨q, a⟩] ∧ r = .ok a :=
    meets_ask rfl fun a => ⟨a, rfl, rfl⟩
  refine ⟨fun es r hr _ hi => absurd (hx.1 es r hr ▸ hi) hw, fun es r hr _ => ?_⟩
  obtain ⟨a, rfl, rfl⟩ := hx.2 es r hr
  have hn : ∀ e ∈ [(⟨q, a⟩ : Exchange I)], stream? e = none := by simpa using hs a
  obtain ⟨hreceived, hsent⟩ := received_eq_nil_of_stream? hn
  refine ⟨input, by rw [hreceived, List.nil_append], ?_⟩
  rw [hsent]
  exact h a

theorem Course.embed {J : Interface} [J.Streamed] {request : I.Request → J.Request}
    {answer : ∀ q, J.Answer (request q) → I.Answer q}
    {back : ∀ q, I.Answer q → J.Answer (request q)} (h : Course x input waiting ended)
    (hb : ∀ q a, back q (answer q a) = a) (ha : ∀ q a, answer q (back q a) = a)
    (hs : ∀ e : Exchange I, stream? (e.embed request back) = stream? e)
    (hw : ∀ q, AwaitsInput (request q) → AwaitsInput q) :
    Course (x.embed request answer) input waiting ended := by
  have hfed (es : List (Exchange I)) (hes : Fed input (es.map (Exchange.embed request back))) :
      Fed input es := by
    refine ⟨(accepting_embed hs).1 hes.accepting, ?_, ?_⟩
    · rw [← received_embed hs]
      exact hes.order
    · rintro before e after s rfl hse hd
      rw [← received_embed hs]
      exact hes.whole _ (e.embed request back) (after.map (Exchange.embed request back)) s
        (by simp) ((hs e).trans hse) hd
  constructor
  · intro es q hq hfes hi hr
    obtain ⟨inner, r, rfl, rfl, hask⟩ := (Program.asks_embed_iff hb ha).1 hq
    rw [received_embed hs] at hr
    rw [sent_embed hs]
    exact h.waits inner r hask (hfed inner hfes) (hw r hi) hr
  · intro es r hr hfes
    obtain ⟨inner, rfl, hend⟩ := (Program.ends_embed_iff hb ha).1 hr
    rw [received_embed hs, sent_embed hs]
    exact h.ends inner r hend (hfed inner hfes)

end

end SocksProxy
