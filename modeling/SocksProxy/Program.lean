import SocksProxy.Failure

/-!
# Programs over an interface

A program either is done or makes a request and goes on with the answer. It is
finite: every sequence of answers leads to a result. What a program does is the
sequence of its exchanges, for whatever answers; when it is run, the answers
come out of a state, and a request that is left open leaves a program that can
go on later.
-/

namespace SocksProxy

structure Interface where
  Request : Type
  Answer : Request → Type

inductive Program (I : Interface) (α : Type) where
  | done (result : α)
  | ask (request : I.Request) (next : I.Answer request → Program I α)

/-- A request with the answer that it has got. -/
structure Exchange (I : Interface) where
  request : I.Request
  answer : I.Answer request

/-- Answers a request out of a state, or leaves it open. -/
abbrev Provider (I : Interface) (σ : Type) :=
  (request : I.Request) → σ → Option (I.Answer request) × σ

namespace Program

variable {I J : Interface} {α β γ σ : Type}

protected def bind : Program I α → (α → Program I β) → Program I β
  | done a, f => f a
  | ask q next, f => ask q fun answer => (next answer).bind f

instance : Monad (Program I) where
  pure := done
  bind := Program.bind

@[simp] theorem pure_eq (a : α) : (pure a : Program I α) = done a := rfl

@[simp] theorem done_bind (a : α) (f : α → Program I β) : done a >>= f = f a := rfl

@[simp] theorem ask_bind (q : I.Request) (next : I.Answer q → Program I α)
    (f : α → Program I β) : ask q next >>= f = ask q fun answer => next answer >>= f := rfl

theorem bind_done (p : Program I α) : p >>= done = p := by
  induction p with
  | done a => rfl
  | ask q next ih => simp [ih]

theorem bind_bind (p : Program I α) (f : α → Program I β) (g : β → Program I γ) :
    p >>= f >>= g = p >>= fun a => f a >>= g := by
  induction p with
  | done a => rfl
  | ask q next ih => simp [ih]

instance : LawfulMonad (Program I) := LawfulMonad.mk' _ bind_done (fun _ _ => rfl) bind_bind

def embed (request : I.Request → J.Request)
    (answer : ∀ q, J.Answer (request q) → I.Answer q) : Program I α → Program J α
  | done a => done a
  | ask q next => ask (request q) fun a => embed request answer (next (answer q a))

@[simp] theorem embed_done (request : I.Request → J.Request)
    (answer : ∀ q, J.Answer (request q) → I.Answer q) (a : α) :
    embed request answer (done a) = done a := rfl

theorem embed_bind (request : I.Request → J.Request)
    (answer : ∀ q, J.Answer (request q) → I.Answer q) (p : Program I α) (f : α → Program I β) :
    embed request answer (p >>= f) =
      embed request answer p >>= fun a => embed request answer (f a) := by
  induction p with
  | done a => rfl
  | ask q next ih => simp [embed, ih]

/-- What remains of a program after a sequence of exchanges. -/
inductive Follows : Program I α → List (Exchange I) → Program I α → Prop where
  | refl (p : Program I α) : Follows p [] p
  | step {q : I.Request} {next : I.Answer q → Program I α} {answer : I.Answer q}
      {exchanges : List (Exchange I)} {rest : Program I α} :
      Follows (next answer) exchanges rest →
        Follows (ask q next) (⟨q, answer⟩ :: exchanges) rest

theorem Follows.append {p q r : Program I α} {before after : List (Exchange I)}
    (hp : Follows p before q) (hq : Follows q after r) : Follows p (before ++ after) r := by
  induction hp with
  | refl => exact hq
  | step _ ih => exact .step (ih hq)

theorem follows_done_iff {a : α} {exchanges : List (Exchange I)} {rest : Program I α} :
    Follows (done a) exchanges rest ↔ exchanges = [] ∧ rest = done a := by
  constructor
  · intro h
    cases h
    exact ⟨rfl, rfl⟩
  · rintro ⟨rfl, rfl⟩
    exact .refl _

theorem follows_bind_iff {p : Program I α} {f : α → Program I β}
    {exchanges : List (Exchange I)} {rest : Program I β} :
    Follows (p >>= f) exchanges rest ↔
      (∃ p', Follows p exchanges p' ∧ rest = p' >>= f) ∨
        ∃ before after a, exchanges = before ++ after ∧ Follows p before (done a) ∧
          Follows (f a) after rest := by
  induction p generalizing exchanges with
  | done a =>
    constructor
    · intro h
      exact .inr ⟨[], exchanges, a, rfl, .refl _, h⟩
    · rintro (⟨p', hp, rfl⟩ | ⟨before, after, b, rfl, hb, ha⟩)
      · obtain ⟨rfl, rfl⟩ := follows_done_iff.1 hp
        exact .refl _
      · obtain ⟨rfl, hb⟩ := follows_done_iff.1 hb
        cases hb
        exact ha
  | ask q next ih =>
    constructor
    · intro h
      cases h with
      | refl => exact .inl ⟨_, .refl _, rfl⟩
      | step h =>
        rcases (ih _).1 h with ⟨p', hp, rfl⟩ | ⟨before, after, a, rfl, hb, ha⟩
        · exact .inl ⟨p', .step hp, rfl⟩
        · exact .inr ⟨_ :: before, after, a, rfl, .step hb, ha⟩
    · rintro (⟨p', hp, rfl⟩ | ⟨before, after, a, rfl, hb, ha⟩)
      · cases hp with
        | refl => exact .refl _
        | step h => exact .step ((ih _).2 (.inl ⟨p', h, rfl⟩))
      · cases hb with
        | step h => exact .step ((ih _).2 (.inr ⟨_, after, a, rfl, h, ha⟩))

/-- Runs a program until it is done or a request is left open, and gives what remains
of it with the state reached. -/
def run (provide : Provider I σ) : Program I α → σ → Program I α × σ
  | done a, s => (done a, s)
  | ask q next, s =>
    match provide q s with
    | (none, s) => (ask q next, s)
    | (some answer, s) => run provide (next answer) s

@[simp] theorem run_done (provide : Provider I σ) (a : α) (s : σ) :
    run provide (done a) s = (done a, s) := rfl

theorem run_bind (provide : Provider I σ) (p : Program I α) (f : α → Program I β) (s : σ) :
    run provide (p >>= f) s =
      match run provide p s with
      | (done a, s) => run provide (f a) s
      | (rest, s) => (rest >>= f, s) := by
  induction p generalizing s with
  | done a => rfl
  | ask q next ih =>
    simp only [ask_bind, run]
    cases h : provide q s with
    | mk answer s =>
      cases answer with
      | none => simp
      | some answer => simpa using ih answer s

end Program

abbrev Action (I : Interface) := ExceptT Error (Program I)

namespace Action

variable {I J : Interface} {α : Type}

def ask (q : I.Request) : Action I (I.Answer q) := ExceptT.lift (.ask q .done)

def attempt (q : I.Request) (result : I.Answer q → Except IoError α) : Action I α :=
  ExceptT.mk (.ask q fun answer => .done (result answer |>.mapError .io))

def embed (request : I.Request → J.Request) (answer : ∀ q, J.Answer (request q) → I.Answer q)
    (action : Action I α) : Action J α :=
  ExceptT.mk (Program.embed request answer action.run)

/-- The result of an action as a value, so that what follows can depend on a failure. -/
def outcome (action : Action I α) : Action I (Except Error α) := ExceptT.lift action.run

end Action

end SocksProxy
