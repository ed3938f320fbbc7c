import SocksProxy.Program

/-!
# Runs of programs

After a sequence of exchanges a program either makes another request or is done. `Asks` and
`Ends` tell the two cases apart, for all answers at once, and what is said of a sequence of
actions is put together from what is said of its parts: a request of `x >>= f` is one of `x`, or
one that `f` makes after `x` has ended well.

`Meets` states what holds of a run at each request and at the end. `Only` restricts the requests
alone.
-/

namespace SocksProxy

namespace Program

variable {I J : Interface} {α β σ : Type}

/-- The program has made the exchanges and makes the request next. -/
def Asks (p : Program I α) (exchanges : List (Exchange I)) (q : I.Request) : Prop :=
  ∃ next, Follows p exchanges (ask q next)

def Ends (p : Program I α) (exchanges : List (Exchange I)) (a : α) : Prop :=
  Follows p exchanges (done a)

theorem not_asks_done (a : α) (exchanges : List (Exchange I)) (q : I.Request) :
    ¬ Asks (done a : Program I α) exchanges q := by
  rintro ⟨next, h⟩
  cases (follows_done_iff.1 h).2

theorem ends_done_iff {a b : α} {exchanges : List (Exchange I)} :
    Ends (done a : Program I α) exchanges b ↔ exchanges = [] ∧ b = a := by
  constructor
  · intro h
    obtain ⟨he, hb⟩ := follows_done_iff.1 h
    injection hb with hb
    exact ⟨he, hb⟩
  · rintro ⟨rfl, rfl⟩
    exact .refl _

theorem asks_ask_iff {q r : I.Request} {next : I.Answer q → Program I α}
    {exchanges : List (Exchange I)} :
    Asks (ask q next) exchanges r ↔ (exchanges = [] ∧ r = q) ∨
      ∃ answer rest, exchanges = ⟨q, answer⟩ :: rest ∧ Asks (next answer) rest r := by
  constructor
  · rintro ⟨next', h⟩
    cases h with
    | refl => exact .inl ⟨rfl, rfl⟩
    | step h => exact .inr ⟨_, _, rfl, _, h⟩
  · rintro (⟨rfl, rfl⟩ | ⟨answer, rest, rfl, next', h⟩)
    · exact ⟨next, .refl _⟩
    · exact ⟨next', .step h⟩

theorem ends_ask_iff {q : I.Request} {next : I.Answer q → Program I α} {a : α}
    {exchanges : List (Exchange I)} :
    Ends (ask q next) exchanges a ↔
      ∃ answer rest, exchanges = ⟨q, answer⟩ :: rest ∧ Ends (next answer) rest a := by
  constructor
  · intro h
    cases h with
    | step h => exact ⟨_, _, rfl, h⟩
  · rintro ⟨answer, rest, rfl, h⟩
    exact .step h

theorem asks_bind_iff {p : Program I α} {f : α → Program I β} {exchanges : List (Exchange I)}
    {q : I.Request} :
    Asks (p >>= f) exchanges q ↔ Asks p exchanges q ∨
      ∃ before after a, exchanges = before ++ after ∧ Ends p before a ∧ Asks (f a) after q := by
  induction p generalizing exchanges with
  | done a =>
    rw [done_bind]
    constructor
    · exact fun h => .inr ⟨[], exchanges, a, rfl, .refl _, h⟩
    · rintro (h | ⟨before, after, b, rfl, hb, h⟩)
      · exact absurd h (not_asks_done _ _ _)
      · obtain ⟨rfl, rfl⟩ := ends_done_iff.1 hb
        exact h
  | ask r next ih =>
    rw [ask_bind, asks_ask_iff, asks_ask_iff]
    constructor
    · rintro (h | ⟨answer, rest, rfl, h⟩)
      · exact .inl (.inl h)
      · rcases (ih answer).1 h with h | ⟨before, after, a, rfl, hb, h⟩
        · exact .inl (.inr ⟨answer, rest, rfl, h⟩)
        · exact .inr ⟨⟨r, answer⟩ :: before, after, a, rfl, .step hb, h⟩
    · rintro ((h | ⟨answer, rest, rfl, h⟩) | ⟨before, after, a, rfl, hb, h⟩)
      · exact .inl h
      · exact .inr ⟨answer, rest, rfl, (ih answer).2 (.inl h)⟩
      · obtain ⟨answer, rest, rfl, hr⟩ := ends_ask_iff.1 hb
        exact .inr ⟨answer, rest ++ after, rfl, (ih answer).2 (.inr ⟨rest, after, a, rfl, hr, h⟩)⟩

theorem ends_bind_iff {p : Program I α} {f : α → Program I β} {exchanges : List (Exchange I)}
    {b : β} :
    Ends (p >>= f) exchanges b ↔
      ∃ before after a, exchanges = before ++ after ∧ Ends p before a ∧ Ends (f a) after b := by
  induction p generalizing exchanges with
  | done a =>
    rw [done_bind]
    constructor
    · exact fun h => ⟨[], exchanges, a, rfl, .refl _, h⟩
    · rintro ⟨before, after, c, rfl, hc, h⟩
      obtain ⟨rfl, rfl⟩ := ends_done_iff.1 hc
      exact h
  | ask r next ih =>
    rw [ask_bind, ends_ask_iff]
    constructor
    · rintro ⟨answer, rest, rfl, h⟩
      obtain ⟨before, after, a, rfl, hb, h⟩ := (ih answer).1 h
      exact ⟨⟨r, answer⟩ :: before, after, a, rfl, .step hb, h⟩
    · rintro ⟨before, after, a, rfl, hb, h⟩
      obtain ⟨answer, rest, rfl, hr⟩ := ends_ask_iff.1 hb
      exact ⟨answer, rest ++ after, rfl, (ih answer).2 ⟨rest, after, a, rfl, hr, h⟩⟩

/-- What follows a program matters only for the results that it can have. -/
theorem bind_congr_of_ends {p : Program I α} {f g : α → Program I β}
    (h : ∀ exchanges a, Ends p exchanges a → f a = g a) : p >>= f = p >>= g := by
  induction p with
  | done a => exact h [] a (.refl _)
  | ask q next ih =>
    rw [ask_bind, ask_bind]
    congr 1
    funext answer
    apply ih answer
    intro exchanges a ha
    exact h (⟨q, answer⟩ :: exchanges) a (.step ha)

theorem Follows.asks {p rest : Program I α} {before after : List (Exchange I)} {e : Exchange I}
    (h : Follows p (before ++ e :: after) rest) : Asks p before e.request := by
  induction before generalizing p with
  | nil =>
    cases h with
    | step h => exact ⟨_, .refl _⟩
  | cons d before ih =>
    cases h with
    | step h =>
      obtain ⟨next, hn⟩ := ih h
      exact ⟨next, .step hn⟩

theorem Follows.of_append {p q rest : Program I α} {before after : List (Exchange I)}
    (hb : Follows p before q) (h : Follows p (before ++ after) rest) : Follows q after rest := by
  induction hb with
  | refl => exact h
  | step _ ih =>
    cases h with
    | step h => exact ih h

theorem Asks.not_ends {p : Program I α} {exchanges : List (Exchange I)} {q : I.Request}
    (h : p.Asks exchanges q) (a : α) : ¬ p.Ends exchanges a := by
  obtain ⟨next, hq⟩ := h
  intro ha
  have hnil : Follows p (exchanges ++ []) (done a) := by rwa [List.append_nil]
  cases hq.of_append hnil

theorem Ends.unique {p : Program I α} {before after before' after' : List (Exchange I)} {a b : α}
    (h : Ends p before a) (h' : Ends p before' b) (he : before ++ after = before' ++ after') :
    before = before' ∧ after = after' ∧ a = b := by
  induction p generalizing before before' with
  | done c =>
    obtain ⟨rfl, rfl⟩ := ends_done_iff.1 h
    obtain ⟨rfl, rfl⟩ := ends_done_iff.1 h'
    exact ⟨rfl, he, rfl⟩
  | ask q next ih =>
    obtain ⟨answer, rest, rfl, hr⟩ := ends_ask_iff.1 h
    obtain ⟨answer', rest', rfl, hr'⟩ := ends_ask_iff.1 h'
    obtain ⟨hq, hrest⟩ := List.cons.inj he
    cases hq
    obtain ⟨rfl, rfl, rfl⟩ := ih answer hr hr' hrest
    exact ⟨rfl, rfl, rfl⟩

theorem Ends.result_eq {p : Program I α} {exchanges : List (Exchange I)} {a b : α}
    (h : Ends p exchanges a) (h' : Ends p exchanges b) : a = b := by
  have he : exchanges ++ [] = exchanges ++ [] := rfl
  exact (h.unique h' he).2.2

theorem follows_run (provide : Provider I σ) (p : Program I α) (s : σ) :
    ∃ exchanges, Follows p exchanges (p.run provide s).1 := by
  induction p generalizing s with
  | done a => exact ⟨[], .refl _⟩
  | ask q next ih =>
    cases h : provide q s with
    | mk answer s =>
      cases answer with
      | none => exact ⟨[], by simpa [run, h] using Follows.refl (ask q next)⟩
      | some answer =>
        obtain ⟨exchanges, he⟩ := ih answer s
        exact ⟨⟨q, answer⟩ :: exchanges, by simpa [run, h] using Follows.step he⟩

def eval (answers : ∀ q, I.Answer q) : Program I α → α
  | done a => a
  | ask q next => eval answers (next (answers q))

theorem eq_eval_of_ends {answers : ∀ q, I.Answer q} {p : Program I α}
    {exchanges : List (Exchange I)} {a : α} (h : Ends p exchanges a)
    (ha : ∀ e ∈ exchanges, e.answer = answers e.request) : a = eval answers p := by
  induction p generalizing exchanges with
  | done b => exact (ends_done_iff.1 h).2
  | ask q next ih =>
    obtain ⟨answer, rest, rfl, hr⟩ := ends_ask_iff.1 h
    have hq : answer = answers q := ha ⟨q, answer⟩ (List.mem_cons_self ..)
    subst hq
    exact ih _ hr fun e he => ha e (List.mem_cons_of_mem _ he)

section

variable [DecidableEq I.Request]

def after? : List (Exchange I) → Program I α → Option (Program I α)
  | [], p => some p
  | _ :: _, done _ => none
  | e :: rest, ask q next =>
    if h : e.request = q then after? rest (next (h ▸ e.answer)) else none

theorem after?_eq_some_iff {p rest : Program I α} {exchanges : List (Exchange I)} :
    after? exchanges p = some rest ↔ Follows p exchanges rest := by
  induction exchanges generalizing p with
  | nil =>
    constructor
    · intro h
      injection h with h
      exact h ▸ .refl p
    · intro h
      cases h
      rfl
  | cons e exchanges ih =>
    cases p with
    | done a => exact ⟨nofun, nofun⟩
    | ask q next =>
      obtain ⟨r, answer⟩ := e
      constructor
      · intro h
        by_cases hr : r = q
        · subst hr
          rw [after?, dif_pos rfl] at h
          exact .step (ih.1 h)
        · rw [after?, dif_neg hr] at h
          cases h
      · intro h
        cases h with
        | step h =>
          rw [after?, dif_pos rfl]
          exact ih.2 h

def next? : Program I α → Option I.Request
  | done _ => none
  | ask q _ => some q

theorem asks_iff {p : Program I α} {exchanges : List (Exchange I)} {q : I.Request} :
    Asks p exchanges q ↔ (after? exchanges p).bind next? = some q := by
  constructor
  · rintro ⟨next, h⟩
    rw [after?_eq_some_iff.2 h]
    rfl
  · intro h
    obtain ⟨rest, hr, hq⟩ := Option.bind_eq_some_iff.1 h
    cases rest with
    | done a => cases hq
    | ask r next =>
      cases hq
      exact ⟨next, after?_eq_some_iff.1 hr⟩

instance {p : Program I α} {exchanges : List (Exchange I)} {q : I.Request} :
    Decidable (Asks p exchanges q) := decidable_of_iff _ asks_iff.symm

def result? : Program I α → Option α
  | done a => some a
  | ask _ _ => none

theorem ends_iff {p : Program I α} {exchanges : List (Exchange I)} {a : α} :
    Ends p exchanges a ↔ (after? exchanges p).bind result? = some a := by
  constructor
  · intro h
    rw [after?_eq_some_iff.2 h]
    rfl
  · intro h
    obtain ⟨rest, hr, ha⟩ := Option.bind_eq_some_iff.1 h
    cases rest with
    | done b =>
      cases ha
      exact after?_eq_some_iff.1 hr
    | ask r next => cases ha

instance [DecidableEq α] {p : Program I α} {exchanges : List (Exchange I)} {a : α} :
    Decidable (Ends p exchanges a) := decidable_of_iff _ ends_iff.symm

end

end Program

def Exchange.embed {I J : Interface} (request : I.Request → J.Request)
    (back : ∀ q, I.Answer q → J.Answer (request q)) (e : Exchange I) : Exchange J :=
  ⟨request e.request, back e.request e.answer⟩

namespace Program

variable {I J : Interface} {α : Type} {request : I.Request → J.Request}
  {answer : ∀ q, J.Answer (request q) → I.Answer q}
  {back : ∀ q, I.Answer q → J.Answer (request q)}

theorem asks_embed_iff (hb : ∀ q a, back q (answer q a) = a) (ha : ∀ q a, answer q (back q a) = a)
    {p : Program I α} {exchanges : List (Exchange J)} {r : J.Request} :
    Asks (p.embed request answer) exchanges r ↔ ∃ inner q,
      exchanges = inner.map (Exchange.embed request back) ∧ r = request q ∧ Asks p inner q := by
  induction p generalizing exchanges with
  | done a =>
    constructor
    · exact fun h => absurd h (not_asks_done _ _ _)
    · rintro ⟨inner, q, -, -, h⟩
      exact absurd h (not_asks_done _ _ _)
  | ask s next ih =>
    rw [embed, asks_ask_iff]
    constructor
    · rintro (⟨rfl, rfl⟩ | ⟨a, rest, rfl, h⟩)
      · exact ⟨[], s, rfl, rfl, next, .refl _⟩
      · obtain ⟨inner, q, rfl, rfl, hq⟩ := (ih _).1 h
        refine ⟨⟨s, answer s a⟩ :: inner, q, ?_, rfl, asks_ask_iff.2 (.inr ⟨_, _, rfl, hq⟩)⟩
        simp [Exchange.embed, hb]
    · rintro ⟨inner, q, rfl, rfl, h⟩
      rcases asks_ask_iff.1 h with ⟨rfl, rfl⟩ | ⟨a, rest, rfl, hq⟩
      · exact .inl ⟨rfl, rfl⟩
      · refine .inr ⟨back s a, rest.map (Exchange.embed request back), rfl, ?_⟩
        rw [ha]
        exact (ih _).2 ⟨rest, q, rfl, rfl, hq⟩

theorem asks_embed {p : Program I α} {exchanges : List (Exchange J)} {r : J.Request}
    (h : Asks (p.embed request answer) exchanges r) : ∃ q, r = request q := by
  induction p generalizing exchanges with
  | done a => exact absurd h (not_asks_done _ _ _)
  | ask s next ih =>
    rcases asks_ask_iff.1 h with ⟨-, rfl⟩ | ⟨a, rest, -, h⟩
    · exact ⟨s, rfl⟩
    · exact ih _ h

theorem exists_ends_of_embed {p : Program I α} {exchanges : List (Exchange J)} {b : α}
    (h : Ends (p.embed request answer) exchanges b) : ∃ inner, Ends p inner b := by
  induction p generalizing exchanges with
  | done a =>
    obtain ⟨-, rfl⟩ := ends_done_iff.1 h
    exact ⟨[], .refl _⟩
  | ask s next ih =>
    obtain ⟨a, rest, -, h⟩ := ends_ask_iff.1 h
    obtain ⟨inner, hi⟩ := ih _ h
    exact ⟨⟨s, answer s a⟩ :: inner, .step hi⟩

theorem ends_embed_iff (hb : ∀ q a, back q (answer q a) = a) (ha : ∀ q a, answer q (back q a) = a)
    {p : Program I α} {exchanges : List (Exchange J)} {b : α} :
    Ends (p.embed request answer) exchanges b ↔ ∃ inner,
      exchanges = inner.map (Exchange.embed request back) ∧ Ends p inner b := by
  induction p generalizing exchanges with
  | done a =>
    rw [embed_done, ends_done_iff]
    constructor
    · rintro ⟨rfl, rfl⟩
      exact ⟨[], rfl, .refl _⟩
    · rintro ⟨inner, rfl, h⟩
      obtain ⟨rfl, rfl⟩ := ends_done_iff.1 h
      exact ⟨rfl, rfl⟩
  | ask s next ih =>
    rw [embed, ends_ask_iff]
    constructor
    · rintro ⟨a, rest, rfl, h⟩
      obtain ⟨inner, rfl, hi⟩ := (ih _).1 h
      refine ⟨⟨s, answer s a⟩ :: inner, ?_, .step hi⟩
      simp [Exchange.embed, hb]
    · rintro ⟨inner, rfl, h⟩
      obtain ⟨a, rest, rfl, hi⟩ := ends_ask_iff.1 h
      refine ⟨back s a, rest.map (Exchange.embed request back), rfl, ?_⟩
      rw [ha]
      exact (ih _).2 ⟨rest, rfl, hi⟩

end Program

end SocksProxy
