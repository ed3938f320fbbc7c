import SocksProxy.Proofs.Sessions

/-!
# The conduct of an action after what has come before

Whether a request is in order depends on all exchanges that have been made. `Heeds` judges an
action on these exchanges and on its own, and has one rule for each way of making actions, so that
a session is followed from its first request on with what is known of it so far.

A reply is followed octet by octet: while it is being sent some of its octets are missing, and the
stage that it leads to is entered when none is.
-/

namespace SocksProxy

namespace Action

variable {I : Interface} {α β : Type}

/-- An action that begins after the exchanges `es` makes each request when it is permitted, and
leads to `Q`. -/
def Heeds (permits : List (Exchange I) → I.Request → Prop) (es : List (Exchange I))
    (x : Action I α) (Q : Except Error α → List (Exchange I) → Prop) : Prop :=
  x.Meets (fun rest => permits (es ++ rest)) fun rest r => Q r (es ++ rest)

variable {permits : List (Exchange I) → I.Request → Prop} {es : List (Exchange I)}
  {x : Action I α} {f : α → Action I β} {P P' : Except Error α → List (Exchange I) → Prop}
  {Q : Except Error β → List (Exchange I) → Prop}

theorem Heeds.mono (h : Heeds permits es x P) (hp : ∀ r es', P r es' → P' r es') :
    Heeds permits es x P' :=
  Meets.mono h (fun _ _ hd => hd) fun _ r hr => hp r _ hr

theorem heeds_result {r : Except Error α} (h : P r es) :
    Heeds permits es (ExceptT.mk (.done r)) P :=
  meets_result (by rwa [List.append_nil])

theorem heeds_pure {a : α} (h : P (.ok a) es) : Heeds permits es (pure a) P := heeds_result h

theorem heeds_throw {e : Error} (h : P (.error e) es) : Heeds permits es (throw e) P :=
  heeds_result h

theorem heeds_ask {q : I.Request} {P : Except Error (I.Answer q) → List (Exchange I) → Prop}
    (hq : permits es q) (h : ∀ a, P (.ok a) (es ++ [⟨q, a⟩])) : Heeds permits es (ask q) P :=
  meets_ask (by rwa [List.append_nil]) h

theorem heeds_attempt {q : I.Request} {result : I.Answer q → Except IoError α}
    (hq : permits es q) (h : ∀ a, P ((result a).mapError .io) (es ++ [⟨q, a⟩])) :
    Heeds permits es (attempt q result) P :=
  meets_attempt (by rwa [List.append_nil]) h

theorem heeds_bind
    (h : Heeds permits es x fun r es' =>
      match r with
      | .ok a => Heeds permits es' (f a) Q
      | .error e => Q (.error e) es') : Heeds permits es (x >>= f) Q := by
  apply meets_bind
  refine Meets.mono h (fun _ _ hd => hd) fun rest r hr => ?_
  cases r with
  | error e => exact hr
  | ok a =>
    simp only [Heeds, List.append_assoc] at hr
    exact hr

theorem Heeds.bind (P : Except Error α → List (Exchange I) → Prop) (hx : Heeds permits es x P)
    (he : ∀ e es', P (.error e) es' → Q (.error e) es')
    (hf : ∀ a es', P (.ok a) es' → Heeds permits es' (f a) Q) :
    Heeds permits es (x >>= f) Q := by
  apply heeds_bind
  apply hx.mono
  intro r es' h
  cases r with
  | error e => exact he e es' h
  | ok a => exact hf a es' h

theorem heeds_outcome_bind {g : Except Error α → Action I β}
    (h : Heeds permits es x fun r es' => Heeds permits es' (g r) Q) :
    Heeds permits es (x.outcome >>= g) Q := by
  apply heeds_bind
  exact meets_outcome h

theorem Heeds.outcome_bind {g : Except Error α → Action I β}
    (P : Except Error α → List (Exchange I) → Prop) (hx : Heeds permits es x P)
    (hg : ∀ r es', P r es' → Heeds permits es' (g r) Q) :
    Heeds permits es (x.outcome >>= g) Q :=
  heeds_outcome_bind (hx.mono hg)

theorem heeds_of_only {R : I.Request → Prop} (hx : x.Only R)
    (hq : ∀ rest q, (∀ e ∈ rest, R e.request) → R q → permits (es ++ rest) q)
    (hp : ∀ rest r, (∀ e ∈ rest, R e.request) → P r (es ++ rest)) : Heeds permits es x P := by
  constructor
  · intro rest q h
    obtain ⟨next, hn⟩ := h
    exact hq rest q (hx.mem hn) (hx rest q ⟨next, hn⟩)
  · intro rest r h
    exact hp rest r (hx.mem h)

end Action

open SocksProxy.Action

namespace Connection

def announced (operation : Operation) (stream : List (Exchange OctetStream.interface)) :
    List (Exchange interface) := ⟨.started operation, ()⟩ :: stream.map ofStream

@[simp] theorem sent_announced (operation : Operation)
    (stream : List (Exchange OctetStream.interface)) :
    sent (announced operation stream) = sent stream := by
  rw [announced, sent_started, sent_ofStream]

theorem mem_announced {operation : Operation} {stream : List (Exchange OctetStream.interface)}
    {e : Exchange interface} (he : e ∈ announced operation stream) :
    e = ⟨.started operation, ()⟩ ∨ ∃ s, e.request = .stream s := by
  rcases List.mem_cons.1 he with rfl | he
  · exact .inl rfl
  · obtain ⟨d, -, rfl⟩ := List.mem_map.1 he
    exact .inr ⟨d.request, rfl⟩

/-- A reply on its way, by what is asked for next. -/
inductive Replying (operation : Operation) (octets : Bytes) (stage : Stage) :
    List (Exchange interface) → Request → Prop where
  | started : Replying operation octets stage [] (.started operation)
  | send {stream : List (Exchange OctetStream.interface)} {rest : Bytes} (hn : rest ≠ [])
      (hs : sent stream ++ rest = octets) :
      Replying operation octets stage (announced operation stream) (.stream (.send rest))
  | entered {stream : List (Exchange OctetStream.interface)} (hs : sent stream = octets) :
      Replying operation octets stage (announced operation stream) (.entered stage)

/-- A reply that has been sent whole, or not. -/
inductive Ended (operation : Operation) (octets : Bytes) (stage : Stage) :
    List (Exchange interface) → Except Error Unit → Prop where
  | whole {stream : List (Exchange OctetStream.interface)} {u : Unit} (hs : sent stream = octets) :
      Ended operation octets stage (announced operation stream ++ [⟨.entered stage, ()⟩]) (.ok u)
  | broken {stream : List (Exchange OctetStream.interface)} {rest : Bytes} {e : Error}
      (hn : rest ≠ []) (hs : sent stream ++ rest = octets) :
      Ended operation octets stage (announced operation stream) (.error e)

theorem meets_reply {operation : Operation} {reply : Reply} {octets : Bytes} {stage : Stage}
    (ho : reply.octets = .ok octets) :
    (do started operation; send reply; entered stage).Meets (Replying operation octets stage)
      (Ended operation octets stage) := by
  refine meets_bind (meets_ask .started fun _ => meets_bind (meets_onStream ?_))
  rw [Reply.send_eq, ho]
  refine (OctetStream.sendAll_meets octets).mono ?_ ?_
  · rintro stream q ⟨-, -, rest, hn, hs, rfl⟩
    exact .send hn hs
  · intro stream r h
    cases r with
    | error e =>
      obtain ⟨-, -, -, rest, hn, hs⟩ := h
      exact .broken hn hs
    | ok u =>
      obtain ⟨-, -, hs⟩ := h
      refine meets_ask ?_ fun _ => .whole hs
      rw [List.append_nil]
      exact .entered hs

theorem respond_replying {bound : Address} {record : Bytes} (h : bound.record = .ok record) :
    (respond .succeeded bound).Meets
      (Replying .respond (Reply.commandHeader .succeeded ++ record) .active)
      (Ended .respond (Reply.commandHeader .succeeded ++ record) .active) :=
  meets_reply (Reply.octets_command h)

theorem refuse_replying (status : ReplyStatus) :
    (refuse status).Meets (Replying .refuse (failureOctets status) .rejected)
      (Ended .refuse (failureOctets status) .rejected) :=
  meets_reply (Reply.octets_failure status)

/-- An address that has no record is not replied with: the operation is announced and fails. -/
theorem respond_failing {status : ReplyStatus} {bound : Address} {e : Error}
    (h : bound.record = .error e) :
    (respond status bound).Meets (fun es q => es = [] ∧ q = .started .respond)
      fun es r => es = announced .respond [] ∧ r = .error e := by
  have ho : (Reply.command status bound).octets = .error e := by
    simp [Reply.octets, h, Except.map]
  refine meets_bind (meets_ask ⟨rfl, rfl⟩ fun _ => meets_bind (meets_onStream ?_))
  rw [Reply.send_eq, ho]
  exact meets_throw ⟨rfl, rfl⟩

theorem relay_conduct :
    relay.Meets (fun es q => (es = [] ∧ q = .started .relay) ∨
      (es = announced .relay [] ∧ q = .relay) ∨ q = .entered .closed) fun _ _ => True := by
  refine meets_bind (meets_ask (.inl ⟨rfl, rfl⟩) fun _ => ?_)
  refine meets_bind (meets_ask (.inr (.inl ⟨rfl, rfl⟩)) fun answer => ?_)
  exact meets_ask (.inr (.inr rfl)) fun _ => trivial

end Connection

namespace Session

variable {α : Type} {permits : List (Exchange interface) → Request → Prop}
  {es : List (Exchange interface)} {P : Except Error α → List (Exchange interface) → Prop}

theorem heeds_onClient {x : Action Connection.interface α}
    {during : List (Exchange Connection.interface) → Connection.Request → Prop}
    {after : List (Exchange Connection.interface) → Except Error α → Prop}
    (hx : x.Meets during after)
    (hq : ∀ inner q, during inner q → permits (es ++ inner.map ofConnection) (.client q))
    (hp : ∀ inner r, after inner r → P r (es ++ inner.map ofConnection)) :
    Heeds permits es (onClient x) P :=
  meets_onClient (hx.mono hq hp)

theorem heeds_closing {role : Role} {x : Action interface α}
    (h : Heeds permits es x fun r es' => permits es' (.close role) ∧
      P r (es' ++ [⟨.close role, ()⟩])) : Heeds permits es (closing role x) P := by
  apply meets_closing
  refine Meets.mono h (fun _ _ hd => hd) fun rest r hr => ⟨hr.1, ?_⟩
  rw [← List.append_assoc]
  exact hr.2

end Session

end SocksProxy
