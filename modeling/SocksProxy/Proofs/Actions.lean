import SocksProxy.Session
import SocksProxy.Proofs.Runs

/-!
# Runs of actions

An action ends with a value or a failure. `Meets` states what holds at each request of an action
and at its end, for whatever answers, and has one rule for each way of making actions. In a
sequence the second action is judged on the exchanges of both, so that a statement about a whole
session is reached from its first request on.
-/

namespace SocksProxy

namespace Action

variable {I J : Interface} {α β : Type}

def Asks (x : Action I α) (exchanges : List (Exchange I)) (q : I.Request) : Prop :=
  x.run.Asks exchanges q

def Ends (x : Action I α) (exchanges : List (Exchange I)) (r : Except Error α) : Prop :=
  x.run.Ends exchanges r

instance [DecidableEq I.Request] {x : Action I α} {exchanges : List (Exchange I)}
    {q : I.Request} : Decidable (x.Asks exchanges q) :=
  inferInstanceAs (Decidable (x.run.Asks exchanges q))

instance [DecidableEq α] : DecidableEq (Except Error α) := fun
  | .ok a, .ok b => decidable_of_iff (a = b) (iff_of_eq (Except.ok.injEq a b).symm)
  | .error d, .error e => decidable_of_iff (d = e) (iff_of_eq (Except.error.injEq d e).symm)
  | .ok _, .error _ => isFalse nofun
  | .error _, .ok _ => isFalse nofun

instance [DecidableEq I.Request] [DecidableEq α] {x : Action I α} {exchanges : List (Exchange I)}
    {r : Except Error α} : Decidable (x.Ends exchanges r) :=
  inferInstanceAs (Decidable (x.run.Ends exchanges r))

/-- What holds of the exchanges made at each request of an action, and when it has ended. -/
def Meets (x : Action I α) (during : List (Exchange I) → I.Request → Prop)
    (after : List (Exchange I) → Except Error α → Prop) : Prop :=
  (∀ exchanges q, x.Asks exchanges q → during exchanges q) ∧
    ∀ exchanges r, x.Ends exchanges r → after exchanges r

variable {x : Action I α} {f : α → Action I β}
  {during during' : List (Exchange I) → I.Request → Prop}
  {after after' : List (Exchange I) → Except Error α → Prop}

theorem Meets.mono (h : x.Meets during after) (hd : ∀ es q, during es q → during' es q)
    (ha : ∀ es r, after es r → after' es r) : x.Meets during' after' :=
  ⟨fun es q hq => hd es q (h.1 es q hq), fun es r hr => ha es r (h.2 es r hr)⟩

/-- What holds of a run both at its next request and at its end. -/
theorem Meets.of_follows {P : List (Exchange I) → Prop} {es : List (Exchange I)}
    {rest : Program I (Except Error α)} (hx : x.Meets (fun es _ => P es) fun es _ => P es)
    (h : x.run.Follows es rest) : P es := by
  cases rest with
  | done r => exact hx.2 es r h
  | ask q next => exact hx.1 es q ⟨next, h⟩

theorem meets_result {r : Except Error α} (h : after [] r) :
    Meets (ExceptT.mk (.done r) : Action I α) during after := by
  refine ⟨fun es q hq => absurd hq (Program.not_asks_done _ _ _), fun es r' hr => ?_⟩
  obtain ⟨rfl, rfl⟩ := Program.ends_done_iff.1 hr
  exact h

theorem meets_pure {a : α} (h : after [] (.ok a)) :
    Meets (pure a : Action I α) during after := meets_result h

theorem meets_throw {e : Error} (h : after [] (.error e)) :
    Meets (throw e : Action I α) during after := meets_result h

theorem meets_attempt {q : I.Request} {result : I.Answer q → Except IoError α}
    (hd : during [] q) (ha : ∀ a, after [⟨q, a⟩] ((result a).mapError .io)) :
    (attempt q result).Meets during after := by
  constructor
  · intro es r hr
    rcases Program.asks_ask_iff.1 hr with ⟨rfl, rfl⟩ | ⟨a, rest, rfl, h⟩
    · exact hd
    · exact absurd h (Program.not_asks_done _ _ _)
  · intro es r hr
    obtain ⟨a, rest, rfl, h⟩ := Program.ends_ask_iff.1 hr
    obtain ⟨rfl, rfl⟩ := Program.ends_done_iff.1 h
    exact ha a

theorem meets_ask {q : I.Request} {after : List (Exchange I) → Except Error (I.Answer q) → Prop}
    (hd : during [] q) (ha : ∀ a, after [⟨q, a⟩] (.ok a)) : (ask q).Meets during after := by
  constructor
  · intro es r hr
    rcases Program.asks_ask_iff.1 hr with ⟨rfl, rfl⟩ | ⟨a, rest, rfl, h⟩
    · exact hd
    · exact absurd h (Program.not_asks_done _ _ _)
  · intro es r hr
    obtain ⟨a, rest, rfl, h⟩ := Program.ends_ask_iff.1 hr
    obtain ⟨rfl, rfl⟩ := Program.ends_done_iff.1 h
    exact ha a

theorem asks_bind_iff {es : List (Exchange I)} {q : I.Request} :
    (x >>= f).Asks es q ↔ x.Asks es q ∨
      ∃ before after a, es = before ++ after ∧ x.Ends before (.ok a) ∧ (f a).Asks after q := by
  refine Program.asks_bind_iff.trans (or_congr_right ?_)
  constructor
  · rintro ⟨before, after, r, rfl, hr, h⟩
    cases r with
    | ok a => exact ⟨before, after, a, rfl, hr, h⟩
    | error e => exact absurd h (Program.not_asks_done _ _ _)
  · rintro ⟨before, after, a, rfl, hr, h⟩
    exact ⟨before, after, .ok a, rfl, hr, h⟩

theorem ends_bind_iff {es : List (Exchange I)} {r : Except Error β} :
    (x >>= f).Ends es r ↔ (∃ e, x.Ends es (.error e) ∧ r = .error e) ∨
      ∃ before after a, es = before ++ after ∧ x.Ends before (.ok a) ∧ (f a).Ends after r := by
  refine Program.ends_bind_iff.trans ⟨?_, ?_⟩
  · rintro ⟨before, after, o, rfl, ho, h⟩
    cases o with
    | ok a => exact .inr ⟨before, after, a, rfl, ho, h⟩
    | error e =>
      obtain ⟨rfl, rfl⟩ := Program.ends_done_iff.1 h
      exact .inl ⟨e, by rwa [List.append_nil], rfl⟩
  · rintro (⟨e, he, rfl⟩ | ⟨before, after, a, rfl, ha, h⟩)
    · exact ⟨es, [], .error e, (List.append_nil es).symm, he, .refl _⟩
    · exact ⟨before, after, .ok a, rfl, ha, h⟩

theorem bind_congr_of_ends {g : α → Action I β}
    (h : ∀ es a, x.Ends es (.ok a) → f a = g a) : x >>= f = x >>= g := by
  apply Program.bind_congr_of_ends
  intro es r hr
  cases r with
  | ok a => exact h es a hr
  | error e => rfl

theorem Ends.follows_bind {before after : List (Exchange I)} {a : α}
    {rest : Program I (Except Error β)} (hx : x.Ends before (.ok a))
    (h : (x >>= f).run.Follows (before ++ after) rest) : (f a).run.Follows after rest := by
  have hb : (x >>= f).run.Follows before (f a).run :=
    Program.follows_bind_iff.2 (.inr ⟨before, [], _, (List.append_nil _).symm, hx, .refl _⟩)
  exact hb.of_append h

theorem follows_bind_of_ends {before after : List (Exchange I)} {a : α}
    {rest : Program I (Except Error β)} (hx : x.Ends before (.ok a))
    (h : (f a).run.Follows after rest) : (x >>= f).run.Follows (before ++ after) rest :=
  Program.follows_bind_iff.2 (.inr ⟨before, after, .ok a, rfl, hx, h⟩)

/-- What is to hold of a sequence once its first action has ended. -/
def Continues (f : α → Action I β) (during : List (Exchange I) → I.Request → Prop)
    (after : List (Exchange I) → Except Error β → Prop) (es : List (Exchange I)) :
    Except Error α → Prop
  | .error e => after es (.error e)
  | .ok a => (f a).Meets (fun rest => during (es ++ rest)) fun rest => after (es ++ rest)

theorem meets_bind {after : List (Exchange I) → Except Error β → Prop}
    (h : x.Meets during (Continues f during after)) : (x >>= f).Meets during after := by
  constructor
  · intro es q hq
    rcases asks_bind_iff.1 hq with hq | ⟨first, rest, a, rfl, ha, hq⟩
    · exact h.1 es q hq
    · exact (h.2 first _ ha).1 rest q hq
  · intro es r hr
    rcases ends_bind_iff.1 hr with ⟨e, he, rfl⟩ | ⟨first, rest, a, rfl, ha, hr⟩
    · exact h.2 es _ he
    · exact (h.2 first _ ha).2 rest r hr

theorem asks_outcome_iff {es : List (Exchange I)} {q : I.Request} :
    x.outcome.Asks es q ↔ x.Asks es q := by
  refine Program.asks_bind_iff.trans ⟨?_, .inl⟩
  rintro (h | ⟨_, _, _, _, _, h⟩)
  · exact h
  · exact absurd h (Program.not_asks_done _ _ _)

theorem ends_outcome_iff {es : List (Exchange I)} {o : Except Error (Except Error α)} :
    x.outcome.Ends es o ↔ ∃ r, o = .ok r ∧ x.Ends es r := by
  refine Program.ends_bind_iff.trans ⟨?_, ?_⟩
  · rintro ⟨before, after, r, rfl, hr, h⟩
    obtain ⟨rfl, rfl⟩ := Program.ends_done_iff.1 h
    exact ⟨r, rfl, by rwa [List.append_nil]⟩
  · rintro ⟨r, rfl, hr⟩
    exact ⟨es, [], r, (List.append_nil es).symm, hr, .refl _⟩

theorem meets_outcome {after : List (Exchange I) → Except Error (Except Error α) → Prop}
    (h : x.Meets during fun es r => after es (.ok r)) : x.outcome.Meets during after := by
  refine ⟨fun es q hq => h.1 es q (asks_outcome_iff.1 hq), fun es o ho => ?_⟩
  obtain ⟨r, rfl, hr⟩ := ends_outcome_iff.1 ho
  exact h.2 es r hr

theorem meets_embed {request : I.Request → J.Request}
    {answer : ∀ q, J.Answer (request q) → I.Answer q}
    {back : ∀ q, I.Answer q → J.Answer (request q)}
    {during : List (Exchange J) → J.Request → Prop}
    {after : List (Exchange J) → Except Error α → Prop}
    (hb : ∀ q a, back q (answer q a) = a) (ha : ∀ q a, answer q (back q a) = a)
    (h : x.Meets (fun es q => during (es.map (Exchange.embed request back)) (request q))
      fun es => after (es.map (Exchange.embed request back))) :
    (x.embed request answer).Meets during after := by
  constructor
  · intro es r hr
    obtain ⟨inner, q, rfl, rfl, hq⟩ := (Program.asks_embed_iff hb ha).1 hr
    exact h.1 inner q hq
  · intro es r hr
    obtain ⟨inner, rfl, hi⟩ := (Program.ends_embed_iff hb ha).1 hr
    exact h.2 inner r hi

def Only (P : I.Request → Prop) (x : Action I α) : Prop := ∀ es q, x.Asks es q → P q

theorem Meets.only {P : I.Request → Prop} (h : x.Meets (fun _ => P) after) : x.Only P := h.1

theorem Only.mono {P Q : I.Request → Prop} (h : x.Only P) (hq : ∀ q, P q → Q q) : x.Only Q :=
  fun es q hx => hq q (h es q hx)

theorem only_result {P : I.Request → Prop} (r : Except Error α) :
    Only P (ExceptT.mk (.done r) : Action I α) :=
  fun _ _ hq => absurd hq (Program.not_asks_done _ _ _)

theorem only_pure {P : I.Request → Prop} (a : α) : (pure a : Action I α).Only P := only_result _

theorem only_throw {P : I.Request → Prop} (e : Error) : (throw e : Action I α).Only P :=
  only_result _

theorem only_attempt {P : I.Request → Prop} {q : I.Request}
    {result : I.Answer q → Except IoError α} (h : P q) : (attempt q result).Only P :=
  (meets_attempt h fun _ => trivial : Meets _ (fun _ => P) fun _ _ => True).only

theorem only_ask {P : I.Request → Prop} {q : I.Request} (h : P q) : (ask q).Only P :=
  (meets_ask h fun _ => trivial : Meets _ (fun _ => P) fun _ _ => True).only

theorem only_bind {P : I.Request → Prop} (hx : x.Only P) (hf : ∀ a, (f a).Only P) :
    (x >>= f).Only P := by
  intro es q hq
  rcases asks_bind_iff.1 hq with hq | ⟨before, after, a, -, -, hq⟩
  · exact hx es q hq
  · exact hf a after q hq

theorem only_outcome {P : I.Request → Prop} (h : x.Only P) : x.outcome.Only P :=
  fun es q hq => h es q (asks_outcome_iff.1 hq)

theorem Only.mem {P : I.Request → Prop} (h : x.Only P) {es : List (Exchange I)}
    {rest : Program I (Except Error α)} (hr : x.run.Follows es rest) :
    ∀ e ∈ es, P e.request := by
  intro e he
  obtain ⟨before, after, rfl⟩ := List.append_of_mem he
  exact h before _ hr.asks

end Action

end SocksProxy
