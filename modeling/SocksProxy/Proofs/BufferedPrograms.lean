import SocksProxy.Proofs.Sessions

/-!
# Programs that hold a buffer

All messages of a connection are read and written with the help of one buffer, which has
`scratchSize` places. Here a program holds this buffer. Each part of the buffer that it uses it
names by its places, and if the buffer does not have them the program stops for good. If it finds
that a message is too long for the buffer, it says so before it fails. Both are requests of their
own, so that they show in a run.

`Carries` compares such a program with one that holds no buffer: they make the same requests with
the same results, which includes that the buffer always has the places and never is too short.
-/

namespace SocksProxy

open SocksProxy.Action

def Error.IsShort (e : Error) : Prop := ∃ required available, e = .shortBuffer required available

/-- No run of the action ends for a lack of room. -/
def Action.Roomy {I : Interface} {α : Type} (x : Action I α) : Prop :=
  ∀ es e, x.Ends es (.error e) → ¬ e.IsShort

namespace Action

variable {I J : Interface} {α β : Type} {x : Action I α}

theorem not_isShort_io (failure : IoError) : ¬ (Error.io failure).IsShort := by
  rintro ⟨_, _, h⟩
  cases h

theorem roomy_result {r : Except Error α} (h : ∀ e, r = .error e → ¬ e.IsShort) :
    Roomy (ExceptT.mk (.done r) : Action I α) := by
  intro es e he
  exact h e (Program.ends_done_iff.1 he).2.symm

theorem roomy_pure (a : α) : Roomy (pure a : Action I α) := roomy_result nofun

theorem roomy_throw {e : Error} (h : ¬ e.IsShort) : Roomy (throw e : Action I α) := by
  apply roomy_result
  rintro _ ⟨⟩
  exact h

theorem roomy_ask (q : I.Request) : Roomy (ask q : Action I (I.Answer q)) := by
  intro es e he
  obtain ⟨answer, rest, -, h⟩ := Program.ends_ask_iff.1 he
  cases (Program.ends_done_iff.1 h).2

theorem roomy_attempt {q : I.Request} {result : I.Answer q → Except IoError α} :
    Roomy (attempt q result) := by
  intro es e he
  obtain ⟨answer, rest, -, h⟩ := Program.ends_ask_iff.1 he
  have hr := (Program.ends_done_iff.1 h).2
  cases hanswer : result answer with
  | ok a =>
    rw [hanswer] at hr
    cases hr
  | error failure =>
    rw [hanswer] at hr
    cases hr
    exact not_isShort_io failure

theorem Roomy.bind {f : α → Action I β} (hx : x.Roomy) (hf : ∀ a, (f a).Roomy) :
    (x >>= f).Roomy := by
  intro es e he
  rcases ends_bind_iff.1 he with ⟨e', he', h⟩ | ⟨before, after, a, -, -, h⟩
  · cases h
    exact hx es e he'
  · exact hf a after e h

theorem Roomy.outcome_bind {f : Except Error α → Action I β} (hx : x.Roomy)
    (hf : ∀ r, (∀ e, r = .error e → ¬ e.IsShort) → (f r).Roomy) : (x.outcome >>= f).Roomy := by
  intro es e he
  rcases ends_bind_iff.1 he with ⟨e', he', -⟩ | ⟨before, after, r, -, hr, h⟩
  · obtain ⟨r, hr, -⟩ := ends_outcome_iff.1 he'
    cases hr
  · obtain ⟨r', hr', hx'⟩ := ends_outcome_iff.1 hr
    cases hr'
    refine hf r ?_ after e h
    rintro e' rfl
    exact hx before e' hx'

theorem Roomy.embed {request : I.Request → J.Request}
    {answer : ∀ q, J.Answer (request q) → I.Answer q} (hx : x.Roomy) :
    (x.embed request answer).Roomy := by
  intro es e he
  obtain ⟨inner, h⟩ := Program.exists_ends_of_embed he
  exact hx inner e h

end Action

/-- The buffer for messages, with whatever it holds. -/
abbrev Scratch := { octets : Bytes // octets.length = scratchSize }

namespace Scratch

variable {octets : Bytes} {start : Nat}

def put (buffer : Scratch) (start : Nat) (octets : Bytes)
    (h : start + octets.length ≤ scratchSize) : Scratch :=
  ⟨buffer.val.take start ++ octets ++ buffer.val.drop (start + octets.length), by
    have hl := buffer.property
    simp only [List.length_append, List.length_take, List.length_drop]
    omega⟩

theorem append_prefix_put {buffer : Scratch} {before : Bytes} (h : before <+: buffer.val)
    (hl : before.length + octets.length ≤ scratchSize) :
    before ++ octets <+: (buffer.put before.length octets hl).val := by
  change before ++ octets <+:
    buffer.val.take before.length ++ octets ++ buffer.val.drop (before.length + octets.length)
  rw [← List.prefix_iff_eq_take.1 h]
  exact List.prefix_append _ _

theorem prefix_length_le {buffer : Scratch} (h : octets <+: buffer.val) :
    octets.length ≤ scratchSize := buffer.property ▸ h.length_le

end Scratch

namespace Buffered

inductive Request (I : Interface) where
  | inner (q : I.Request)
  /-- The buffer does not have the places from `start` up to `stop`. -/
  | outOfRange (start stop : Nat)
  | tooShort (required available : Nat)

/-- There is no answer with which a program could go on from places that it does not have. -/
@[reducible] def Answer (I : Interface) : Request I → Type
  | .inner q => I.Answer q
  | .outOfRange .. => Empty
  | .tooShort .. => Unit

abbrev interface (I : Interface) : Interface := ⟨Request I, Answer I⟩

end Buffered

/-- A program that holds the buffer and may fail. -/
abbrev Buffered (I : Interface) := ExceptT Error (StateT Scratch (Program (Buffered.interface I)))

namespace Buffered

variable {I J : Interface} {α β γ δ : Type}

/-- The run on a buffer, with what the buffer holds in the end. -/
def on (x : Buffered I α) (buffer : Scratch) :
    Program (interface I) (Except Error α × Scratch) := x.run buffer

def lift (p : Program I α) : Program (interface I) α := p.embed .inner fun _ answer => answer

/-- A result, of which a lack of room is told. -/
def told (r : Except Error α) : Program (interface I) (Except Error α) :=
  match r with
  | .error (.shortBuffer required available) => .ask (.tooShort required available) fun _ => .done r
  | r => .done r

/-- An action that leaves the buffer alone. -/
def plain (x : Action I α) : Buffered I α :=
  ExceptT.mk fun buffer => do return (← told (← lift x.run), buffer)

def slice (start stop : Nat) : Buffered I Bytes := ExceptT.mk fun buffer =>
  if start ≤ stop ∧ stop ≤ buffer.val.length then
    .done (.ok ((buffer.val.take stop).drop start), buffer)
  else .ask (.outOfRange start stop) nofun

def octetAt (place : Nat) : Buffered I UInt8 := do return (← slice place (place + 1)).headD 0

def overwrite (start : Nat) (octets : Bytes) : Buffered I Unit := ExceptT.mk fun buffer =>
  if h : start + octets.length ≤ scratchSize then .done (.ok (), buffer.put start octets h)
  else .ask (.outOfRange start (start + octets.length)) nofun

def require (required available : Nat) : Buffered I Unit :=
  if available < required then plain (throw (.shortBuffer required available)) else pure ()

def outcome (x : Buffered I α) : Buffered I (Except Error α) := ExceptT.lift x.run

def ofInner (request : I.Request → J.Request) : Request I → Request J
  | .inner q => .inner (request q)
  | .outOfRange start stop => .outOfRange start stop
  | .tooShort required available => .tooShort required available

def toInner {request : I.Request → J.Request} (answer : ∀ q, J.Answer (request q) → I.Answer q) :
    ∀ q, Answer J (ofInner request q) → Answer I q
  | .inner q, a => answer q a
  | .outOfRange .., a => a
  | .tooShort .., a => a

/-- A program over one interface as a program over a larger one, on the same buffer. -/
def embed (request : I.Request → J.Request) (answer : ∀ q, J.Answer (request q) → I.Answer q)
    (x : Buffered I α) : Buffered J α := ExceptT.mk fun buffer =>
  Program.embed (I := interface I) (J := interface J) (ofInner request) (toInner answer)
    (x.on buffer)

/-- Two programs that make the same requests, the first one on a buffer that always serves, and
whose results are related. -/
inductive Parallel (R : α → β → Prop) : Program (interface I) α → Program I β → Prop where
  | done {a : α} {b : β} (h : R a b) : Parallel R (.done a) (.done b)
  | ask {q : I.Request} {next : I.Answer q → Program (interface I) α}
      {next' : I.Answer q → Program I β} (h : ∀ answer, Parallel R (next answer) (next' answer)) :
      Parallel R (.ask (.inner q) next) (.ask q next')

section

variable {R : α → β → Prop} {p : Program (interface I) α} {p' : Program I β}

theorem Parallel.bind {S : γ → δ → Prop} {f : α → Program (interface I) γ} {g : β → Program I δ}
    (h : Parallel R p p') (hf : ∀ a b, R a b → Parallel S (f a) (g b)) :
    Parallel S (p >>= f) (p' >>= g) := by
  induction h with
  | done h => exact hf _ _ h
  | ask _ ih => exact .ask ih

theorem Parallel.embed {request : I.Request → J.Request}
    {answer : ∀ q, J.Answer (request q) → I.Answer q} (h : Parallel R p p') :
    Parallel R (Program.embed (I := interface I) (J := interface J) (ofInner request)
      (toInner answer) p) (p'.embed request answer) := by
  induction h with
  | done h => exact .done h
  | ask _ ih => exact .ask fun a => ih _

theorem Parallel.asks (h : Parallel R p p') {es : List (Exchange (interface I))}
    {q : Request I} (hq : p.Asks es q) : ∃ q', q = .inner q' := by
  induction h generalizing es with
  | done _ => exact absurd hq (Program.not_asks_done _ _ _)
  | @ask r next next' _ ih =>
    rcases Program.asks_ask_iff.1 hq with ⟨-, rfl⟩ | ⟨answer, rest, -, h⟩
    · exact ⟨r, rfl⟩
    · exact ih answer h

theorem Parallel.ends (h : Parallel R p p') {es : List (Exchange I)} {b : β} (hb : p'.Ends es b) :
    ∃ a, R a b := by
  induction h generalizing es with
  | done h =>
    obtain ⟨-, rfl⟩ := Program.ends_done_iff.1 hb
    exact ⟨_, h⟩
  | ask _ ih =>
    obtain ⟨answer, rest, -, hr⟩ := Program.ends_ask_iff.1 hb
    exact ih answer hr

theorem Parallel.map_eq {f : α → β} (h : Parallel R p p') (hf : ∀ a b, R a b → f a = b) :
    f <$> p = lift p' := by
  induction h with
  | done h => exact congrArg Program.done (hf _ _ h)
  | ask _ ih => exact congrArg (Program.ask _) (funext ih)

end

/-- What the results of two actions have to do with each other: the values are related, or the
failures are the same and do not tell of a lack of room. -/
inductive Outcome (R : α → Scratch → β → Prop) :
    Except Error α × Scratch → Except Error β → Prop where
  | ok {a : α} {buffer : Scratch} {b : β} (h : R a buffer b) : Outcome R (.ok a, buffer) (.ok b)
  | error {e : Error} {buffer : Scratch} (h : ¬ e.IsShort) :
      Outcome R (.error e, buffer) (.error e)

/-- On the buffer an action does what one without a buffer does. -/
def Carries (x : Buffered I α) (buffer : Scratch) (y : Action I β) (R : α → Scratch → β → Prop) :
    Prop :=
  Parallel (Outcome R) (x.on buffer) y.run

/-- On every buffer an action does what one without a buffer does, with the same result. -/
def Matches (x : Buffered I α) (y : Action I α) : Prop :=
  ∀ buffer, Carries x buffer y fun a _ b => a = b

section

variable {x : Buffered I α} {y : Action I β} {f : α → Buffered I γ} {g : β → Action I δ}
  {buffer : Scratch} {R : α → Scratch → β → Prop} {S : γ → Scratch → δ → Prop}

theorem carries_pure {a : α} {b : β} (h : R a buffer b) :
    Carries (pure a : Buffered I α) buffer (pure b) R := .done (.ok h)

theorem carries_throw {e : Error} (h : ¬ e.IsShort) :
    Carries (throw e : Buffered I α) buffer (throw e) R := .done (.error h)

theorem carries_ite {x' : Buffered I α} {y' : Action I β} {c : Prop} [Decidable c]
    (ht : c → Carries x buffer y R) (hf : ¬ c → Carries x' buffer y' R) :
    Carries (if c then x else x') buffer (if c then y else y') R := by
  by_cases hc : c
  · rw [if_pos hc, if_pos hc]
    exact ht hc
  · rw [if_neg hc, if_neg hc]
    exact hf hc

theorem Carries.bind (h : Carries x buffer y R)
    (hf : ∀ a buffer' b, R a buffer' b → Carries (f a) buffer' (g b) S) :
    Carries (x >>= f) buffer (y >>= g) S := by
  refine Parallel.bind h fun r r' hr => ?_
  cases hr with
  | ok hr => exact hf _ _ _ hr
  | error he => exact .done (.error he)

theorem Carries.roomy (h : Carries x buffer y R) : y.Roomy := by
  intro es e he
  obtain ⟨r, hr⟩ := Parallel.ends h he
  cases hr with
  | error hshort => exact hshort

theorem carries_slice {start stop : Nat} {f : Bytes → Buffered I γ} {y : Action I δ}
    (hl : start ≤ stop) (hr : stop ≤ scratchSize)
    (h : Carries (f ((buffer.val.take stop).drop start)) buffer y S) :
    Carries (slice start stop >>= f) buffer y S := by
  have hon : (slice start stop : Buffered I Bytes).on buffer =
      .done (.ok ((buffer.val.take stop).drop start), buffer) :=
    if_pos ⟨hl, buffer.property.symm ▸ hr⟩
  change Parallel _ ((slice start stop : Buffered I Bytes).on buffer >>= _) _
  rw [hon]
  exact h

theorem carries_slice_of_prefix {octets : Bytes} {count : Nat} {f : Bytes → Buffered I γ}
    {y : Action I δ} (ho : octets <+: buffer.val) (hl : octets.length = count)
    (h : Carries (f octets) buffer y S) : Carries (slice 0 count >>= f) buffer y S := by
  subst hl
  apply carries_slice (Nat.zero_le _) (Scratch.prefix_length_le ho)
  rw [List.drop_zero, ← List.prefix_iff_eq_take.1 ho]
  exact h

theorem carries_octetAt {octets : Bytes} {place : Nat} {f : UInt8 → Buffered I γ} {y : Action I δ}
    (ho : octets <+: buffer.val) (hp : place < octets.length)
    (h : Carries (f (octets.getD place 0)) buffer y S) :
    Carries (octetAt place >>= f) buffer y S := by
  have hl := Scratch.prefix_length_le ho
  have hoctet : ((buffer.val.take (place + 1)).drop place).headD 0 = octets.getD place 0 := by
    obtain ⟨rest, hrest⟩ := ho
    rw [← hrest, List.headD_eq_head?_getD, List.head?_drop,
      List.getElem?_take_of_lt (Nat.lt_succ_self _), List.getElem?_append_left hp,
      List.getD_eq_getElem?_getD]
  rw [octetAt, bind_assoc]
  apply carries_slice (Nat.le_succ place) (by omega)
  rw [pure_bind, hoctet]
  exact h

theorem carries_overwrite {before octets : Bytes} {f : Unit → Buffered I γ} {y : Action I δ}
    (hb : before <+: buffer.val) (hl : before.length + octets.length ≤ scratchSize)
    (h : ∀ buffer' : Scratch, before ++ octets <+: buffer'.val → Carries (f ()) buffer' y S) :
    Carries (overwrite before.length octets >>= f) buffer y S := by
  have hon : (overwrite before.length octets : Buffered I Unit).on buffer =
      .done (.ok (), buffer.put before.length octets hl) := dif_pos hl
  change Parallel _ ((overwrite before.length octets : Buffered I Unit).on buffer >>= _) _
  rw [hon]
  exact h _ (Scratch.append_prefix_put hb hl)

theorem carries_require {required available : Nat} {f : Unit → Buffered I γ} {y : Action I δ}
    (hl : required ≤ available) (h : Carries (f ()) buffer y S) :
    Carries (require required available >>= f) buffer y S := by
  rw [require, if_neg (Nat.not_lt.2 hl), pure_bind]
  exact h

theorem told_eq {r : Except Error α} (h : ∀ e, r = .error e → ¬ e.IsShort) :
    (told r : Program (interface I) _) = .done r := by
  unfold told
  split
  case h_1 required available => exact absurd ⟨required, available, rfl⟩ (h _ rfl)
  case h_2 => rfl

theorem parallel_lift {p : Program I α} {k : α → Program (interface I) γ} {T : γ → α → Prop}
    (h : ∀ es a, p.Ends es a → Parallel T (k a) (.done a)) : Parallel T (lift p >>= k) p := by
  induction p with
  | done a => exact h [] a (.refl _)
  | ask q next ih => exact .ask fun answer => ih answer fun es a ha => h _ a (.step ha)

/-- What follows an action that leaves the buffer alone may rely on how that action can end. -/
theorem carries_plain {y : Action I α} {f : α → Buffered I γ} {g : α → Action I δ}
    (hy : y.Roomy) (h : ∀ es a, y.Ends es (.ok a) → Carries (f a) buffer (g a) S) :
    Carries (plain y >>= f) buffer (y >>= g) S := by
  have hp : Carries (plain y) buffer y fun a buffer' b =>
      a = b ∧ buffer' = buffer ∧ ∃ es, y.Ends es (.ok a) := by
    refine parallel_lift fun es r hr => ?_
    cases r with
    | ok a => exact .done (.ok ⟨rfl, rfl, es, hr⟩)
    | error e =>
      rw [told_eq fun e' he => by cases he; exact hy es e hr]
      exact .done (.error (hy es e hr))
  apply hp.bind
  rintro a _ _ ⟨rfl, rfl, es, ha⟩
  exact h es a ha

theorem carries_result {r : Except Error α} {f : α → Buffered I γ} {g : α → Action I δ}
    (he : ∀ e, r = .error e → ¬ e.IsShort) (h : ∀ a, r = .ok a → Carries (f a) buffer (g a) S) :
    Carries (plain (ExceptT.mk (.done r)) >>= f) buffer (ExceptT.mk (.done r) >>= g) S :=
  carries_plain (roomy_result he) fun _ a hr => h a (Program.ends_done_iff.1 hr).2.symm

end

section

variable {x : Buffered I α} {y : Action I α}

theorem matches_plain (h : y.Roomy) : Matches (plain y) y := by
  intro buffer
  have hc : Carries (plain y >>= pure) buffer (y >>= pure) fun a _ b => a = b := by
    apply carries_plain h
    intro es a _
    exact carries_pure rfl
  rwa [bind_pure, bind_pure] at hc

theorem matches_pure (a : α) : Matches (pure a : Buffered I α) (pure a) :=
  fun _ => carries_pure rfl

theorem matches_throw {e : Error} (h : ¬ e.IsShort) :
    Matches (throw e : Buffered I α) (throw e) :=
  fun _ => carries_throw h

theorem matches_ite {x' : Buffered I α} {y' : Action I α} {c : Prop} [Decidable c]
    (ht : Matches x y) (hf : Matches x' y') :
    Matches (if c then x else x') (if c then y else y') :=
  fun buffer => carries_ite (fun _ => ht buffer) fun _ => hf buffer

theorem Matches.bind {f : α → Buffered I β} {g : α → Action I β} (h : Matches x y)
    (hf : ∀ a, Matches (f a) (g a)) : Matches (x >>= f) (y >>= g) := by
  intro buffer
  apply Carries.bind (h buffer)
  rintro a buffer' _ rfl
  exact hf a buffer'

/-- What follows an action that may have failed knows that this was for no lack of room. -/
theorem Matches.outcome_bind {f : Except Error α → Buffered I β} {g : Except Error α → Action I β}
    (h : Matches x y) (hok : ∀ a, Matches (f (.ok a)) (g (.ok a)))
    (herror : ∀ e, ¬ e.IsShort → Matches (f (.error e)) (g (.error e))) :
    Matches (outcome x >>= f) (y.outcome >>= g) := by
  intro buffer
  have houtcome : Carries (outcome x) buffer y.outcome fun r buffer' r' =>
      Outcome (fun a _ b => a = b) (r, buffer') r' :=
    Parallel.bind (h buffer) fun r r' hr => .done (.ok hr)
  apply houtcome.bind
  intro r buffer' r' hr
  cases hr with
  | ok hr =>
    cases hr
    exact hok _ buffer'
  | error he => exact herror _ he buffer'

theorem Matches.embed {request : I.Request → J.Request}
    {answer : ∀ q, J.Answer (request q) → I.Answer q} (h : Matches x y) :
    Matches (embed request answer x) (y.embed request answer) := by
  intro buffer
  exact (h buffer).embed

theorem Matches.lift_eq (h : Matches x y) (buffer : Scratch) :
    Prod.fst <$> x.on buffer = lift y.run := by
  apply (h buffer).map_eq
  intro r r' hr
  cases hr with
  | ok hr => exact congrArg Except.ok hr
  | error he => rfl

theorem Matches.not_asks_outOfRange (h : Matches x y) {buffer : Scratch}
    {es : List (Exchange (interface I))} {start stop : Nat} :
    ¬ (x.on buffer).Asks es (.outOfRange start stop) := by
  intro hq
  obtain ⟨q, hinner⟩ := (h buffer).asks hq
  cases hinner

theorem Matches.not_asks_tooShort (h : Matches x y) {buffer : Scratch}
    {es : List (Exchange (interface I))} {required available : Nat} :
    ¬ (x.on buffer).Asks es (.tooShort required available) := by
  intro hq
  obtain ⟨q, hinner⟩ := (h buffer).asks hq
  cases hinner

end

end Buffered

end SocksProxy
