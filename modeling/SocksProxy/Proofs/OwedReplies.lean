import SocksProxy.Proofs.AddressTexts
import SocksProxy.Proofs.Sessions

/-!
# The replies that a request is owed

A request is owed one reply, and one more for each connection that is accepted or fails to be.
They are sent unless an address with a scope would have to be reported, or an accepted connection
refuses its options. These are the only ways to end a session without them as long as the client
takes what it is sent.
-/

namespace SocksProxy

open SocksProxy.Action Connection

namespace Session

/-- The requests at which a session waits when it owes the client nothing. -/
def Rests (q : Request) : Prop := q = .accept ∨ q = .client .relay

/-- The octets that a reply may have, by its place: the first one is about the address bound and
the second one about the peer accepted, unless they report failures. -/
inductive Tells (config : Configuration) (es : List (Exchange interface)) : Nat → Bytes → Prop where
  | failure {place : Nat} {status : ReplyStatus} (h : status ≠ .succeeded) :
      Tells config es place (failureOctets status)
  | bound {a : SocketAddress} {record : Bytes}
      (h : ⟨.targetLocal, .ok a⟩ ∈ es ∨ ⟨.listenerLocal, .ok a⟩ ∈ es)
      (hr : (config.boundAddress a).record = .ok record) :
      Tells config es 0 (Reply.commandHeader .succeeded ++ record)
  | peer {a : SocketAddress} {record : Bytes} (h : ⟨.accept, .ok a⟩ ∈ es)
      (hr : (Address.ofSocketAddress a).record = .ok record) :
      Tells config es 1 (Reply.commandHeader .succeeded ++ record)

def Told (config : Configuration) (es : List (Exchange interface)) (count : Nat) : Prop :=
  ∃ replies : List Bytes, replies.length = count ∧
    (∀ place octets, replies[place]? = some octets → Tells config es place octets) ∧
      sent es = replies.flatten

def accepts (es : List (Exchange interface)) : Nat := es.countP (·.request = .accept)

/-- An answer of the network after which no reply is sent: an address that cannot be reported, or
options that an accepted connection refuses. -/
def Unreported (config : Configuration) (command : Command) : Exchange interface → Prop
  | ⟨.targetLocal, .ok a⟩ | ⟨.listenerLocal, .ok a⟩ => ¬ config.Reports a
  | ⟨.accept, .ok peer⟩ => peer.Scoped
  | ⟨.setOption _, .error _⟩ => command = .bind
  | _ => False

/-- One reply for the request and one for each accept have been sent, but for one of them if there
was nothing to report. -/
def Settled (config : Configuration) (command : Command) (es : List (Exchange interface)) : Prop :=
  ((∀ e ∈ es, ¬ Unreported config command e) → Told config es (accepts es + 1)) ∧
    ((∃ e ∈ es, Unreported config command e) → Told config es (accepts es))

theorem Tells.mono {config : Configuration} {es es' : List (Exchange interface)} {place : Nat}
    {octets : Bytes} (h : Tells config es place octets) (hes : ∀ e ∈ es, e ∈ es') :
    Tells config es' place octets := by
  cases h with
  | failure h => exact .failure h
  | bound h hr => exact .bound (h.imp (hes _) (hes _)) hr
  | peer h hr => exact .peer (hes _ h) hr

section

variable {config : Configuration} {command : Command} {es rest : List (Exchange interface)}
  {count accepted : Nat} {bound : Address} {d : Exchange interface}

@[simp] theorem accepts_append (es rest : List (Exchange interface)) :
    accepts (es ++ rest) = accepts es + accepts rest := by
  simp [accepts]

structure Quiet (config : Configuration) (command : Command) (rest : List (Exchange interface)) :
    Prop where
  sent_eq : sent rest = []
  accepts_eq : accepts rest = 0
  reported : ∀ e ∈ rest, ¬ Unreported config command e

theorem Told.append (h : Told config es count) (hs : sent rest = []) :
    Told config (es ++ rest) count := by
  obtain ⟨replies, hl, ht, he⟩ := h
  have hmono : ∀ e ∈ es, e ∈ es ++ rest := fun e he => List.mem_append_left _ he
  refine ⟨replies, hl, fun place octets ho => (ht place octets ho).mono hmono, ?_⟩
  rw [sent_append, he, hs, List.append_nil]

theorem Told.reply {octets : Bytes} (h : Told config es count) (hs : sent rest = octets)
    (ho : Tells config es count octets) : Told config (es ++ rest) (count + 1) := by
  obtain ⟨replies, hl, ht, he⟩ := h
  have hmono : ∀ e ∈ es, e ∈ es ++ rest := fun e he => List.mem_append_left _ he
  refine ⟨replies ++ [octets], by simp [hl], fun place octets' hp => ?_, ?_⟩
  · by_cases hlt : place < replies.length
    · rw [List.getElem?_append_left hlt] at hp
      exact (ht place octets' hp).mono hmono
    · rw [List.getElem?_append_right (by omega), List.getElem?_singleton] at hp
      split at hp
      case isFalse => cases hp
      case isTrue h0 =>
        cases hp
        obtain rfl : place = count := by omega
        exact ho.mono hmono
  · rw [sent_append, he, hs]
    simp

theorem reported_append (h : ∀ e ∈ es, ¬ Unreported config command e)
    (hr : ∀ e ∈ rest, ¬ Unreported config command e) :
    ∀ e ∈ es ++ rest, ¬ Unreported config command e := by
  intro e he
  rcases List.mem_append.1 he with he | he
  · exact h e he
  · exact hr e he

/-- What has been sent and accepted so far, everything having been reported. -/
structure Progress (config : Configuration) (command : Command) (es : List (Exchange interface))
    (count accepted : Nat) : Prop where
  told : Told config es count
  accepts_eq : accepts es = accepted
  reported : ∀ e ∈ es, ¬ Unreported config command e

/-- An address is to be reported next, which can be done if nothing is left unreported. -/
structure Due (config : Configuration) (command : Command) (es : List (Exchange interface))
    (bound : Address) : Prop where
  told : Told config es (accepts es)
  tells : ∀ record, bound.record = .ok record →
    Tells config es (accepts es) (Reply.commandHeader .succeeded ++ record)
  reported : (∃ record, bound.record = .ok record) → ∀ e ∈ es, ¬ Unreported config command e
  unreported : (¬ ∃ record, bound.record = .ok record) → ∃ e ∈ es, Unreported config command e

theorem progress_nil : Progress config command [] 0 0 :=
  ⟨⟨[], rfl, by simp, rfl⟩, rfl, by simp⟩

theorem Progress.settled (h : Progress config command es (accepted + 1) accepted) :
    Settled config command es := by
  refine ⟨fun _ => ?_, fun ⟨e, he, hu⟩ => absurd hu (h.reported e he)⟩
  rw [h.accepts_eq]
  exact h.told

theorem settled_of_unreported (h : Told config es (accepts es)) (hd : d ∈ es)
    (hu : Unreported config command d) : Settled config command es :=
  ⟨fun hn => absurd hu (hn d hd), fun _ => h⟩

theorem Progress.append (h : Progress config command es count accepted)
    (hq : Quiet config command rest) : Progress config command (es ++ rest) count accepted := by
  refine ⟨h.told.append hq.sent_eq, ?_, reported_append h.reported hq.reported⟩
  rw [accepts_append, h.accepts_eq, hq.accepts_eq, Nat.add_zero]

theorem Progress.reply {octets : Bytes} (h : Progress config command es count accepted)
    (ha : accepts rest = 0) (hr : ∀ e ∈ rest, ¬ Unreported config command e)
    (hs : sent rest = octets) (ho : Tells config es count octets) :
    Progress config command (es ++ rest) (count + 1) accepted := by
  refine ⟨h.told.reply hs ho, ?_, reported_append h.reported hr⟩
  rw [accepts_append, h.accepts_eq, ha, Nat.add_zero]

theorem Settled.append (h : Settled config command es) (hq : Quiet config command rest) :
    Settled config command (es ++ rest) := by
  have ha : accepts (es ++ rest) = accepts es := by
    rw [accepts_append, hq.accepts_eq, Nat.add_zero]
  rw [Settled, ha]
  refine ⟨fun hc => (h.1 fun e he => hc e (List.mem_append_left _ he)).append hq.sent_eq, ?_⟩
  rintro ⟨e, he, hu⟩
  rcases List.mem_append.1 he with he | he
  · exact (h.2 ⟨e, he, hu⟩).append hq.sent_eq
  · exact absurd hu (hq.reported e he)

theorem Due.append (h : Due config command es bound) (hq : Quiet config command rest) :
    Due config command (es ++ rest) bound := by
  refine ⟨?_, fun record hr => ?_, fun hr => reported_append (h.reported hr) hq.reported,
    fun hr => ?_⟩
  · rw [accepts_append, hq.accepts_eq, Nat.add_zero]
    exact h.told.append hq.sent_eq
  · rw [accepts_append, hq.accepts_eq, Nat.add_zero]
    exact (h.tells record hr).mono fun e he => List.mem_append_left _ he
  · obtain ⟨e, he, hu⟩ := h.unreported hr
    exact ⟨e, List.mem_append_left _ he, hu⟩

theorem Progress.due (h : Progress config command es count accepted) (hs : sent [d] = [])
    (hc : accepted + accepts [d] = count)
    (ht : ∀ record, bound.record = .ok record →
      Tells config (es ++ [d]) count (Reply.commandHeader .succeeded ++ record))
    (hu : Unreported config command d ↔ ¬ ∃ record, bound.record = .ok record) :
    Due config command (es ++ [d]) bound := by
  have ha : accepts (es ++ [d]) = count := by rw [accepts_append, h.accepts_eq, hc]
  refine ⟨?_, ?_, fun hr => reported_append h.reported ?_, fun hr => ?_⟩
  · rw [ha]
    exact h.told.append hs
  · rwa [ha]
  · intro e he
    rw [List.mem_singleton.1 he, hu]
    exact fun hn => hn hr
  · exact ⟨d, by simp, hu.2 hr⟩

end

section

variable {α β : Type} {config : Configuration} {command : Command}
  {es rest : List (Exchange interface)} {count accepted : Nat} {bound : Address}
  {x : Action interface α} {f : α → Action interface β}
  {Q Q' : Except Error α → List (Exchange interface) → Prop}
  {R : Except Error β → List (Exchange interface) → Prop}

/-- An action that begins after the exchanges `es` leads to `Q`, if the client accepts what it is
sent, and all is settled wherever it rests. -/
def Leads (config : Configuration) (command : Command) (es : List (Exchange interface))
    (x : Action interface α) (Q : Except Error α → List (Exchange interface) → Prop) : Prop :=
  x.Meets (fun rest q => Rests q → Accepting (es ++ rest) → Settled config command (es ++ rest))
    fun rest r => Accepting (es ++ rest) → Q r (es ++ rest)

theorem Leads.mono (h : Leads config command es x Q) (hq : ∀ r es', Q r es' → Q' r es') :
    Leads config command es x Q' :=
  Meets.mono h (fun _ _ hd => hd) fun _ r hr ha => hq r _ (hr ha)

theorem leads_pure {a : α} (h : Q (.ok a) es) : Leads config command es (pure a) Q :=
  meets_pure fun _ => by rwa [List.append_nil]

theorem Leads.bind (Q : Except Error α → List (Exchange interface) → Prop)
    (hx : Leads config command es x Q) (he : ∀ e es', Q (.error e) es' → R (.error e) es')
    (hf : ∀ a es', Q (.ok a) es' → Leads config command es' (f a) R) :
    Leads config command es (x >>= f) R := by
  refine meets_bind (Meets.mono hx (fun _ _ hd => hd) fun first r h => ?_)
  cases r with
  | error e => exact fun ha => he e _ (h ha)
  | ok a =>
    by_cases ha : Accepting (es ++ first)
    · refine Meets.mono (hf a _ (h ha)) ?_ ?_
      · intro more q hq
        rwa [List.append_assoc] at hq
      · intro more r hr
        rwa [List.append_assoc] at hr
    · have hn : ∀ more, ¬ Accepting (es ++ (first ++ more)) := by
        intro more hm
        rw [← List.append_assoc] at hm
        exact ha hm.of_append.1
      exact ⟨fun more q _ _ hm => absurd hm (hn more), fun more r _ hm => absurd hm (hn more)⟩

theorem Leads.outcome_bind {g : Except Error α → Action interface β}
    (Q : Except Error α → List (Exchange interface) → Prop) (hx : Leads config command es x Q)
    (hg : ∀ r es', Q r es' → Leads config command es' (g r) R) :
    Leads config command es (x.outcome >>= g) R := by
  refine Leads.bind (fun o es' => ∃ r, o = .ok r ∧ Q r es') (meets_outcome ?_) ?_ ?_
  · exact Meets.mono hx (fun _ _ hd => hd) fun _ r h ha => ⟨r, rfl, h ha⟩
  · rintro e es' ⟨r, hr, -⟩
    cases hr
  · rintro o es' ⟨r, hr, hq⟩
    cases hr
    exact hg o es' hq

theorem quiet_close (role : Role) : Quiet config command [⟨.close role, ()⟩] :=
  ⟨rfl, rfl, by simp [Unreported]⟩

theorem Leads.closing {role : Role} (h : Leads config command es x Q)
    (hq : ∀ r es' rest, Quiet config command rest → Q r es' → Q r (es' ++ rest)) :
    Leads config command es (closing role x) Q := by
  refine meets_closing (Meets.mono h (fun _ _ hd => hd) fun rest r hr => ⟨?_, fun ha => ?_⟩)
  · rintro (hrest | hrest) <;> cases hrest
  · rw [← List.append_assoc] at ha ⊢
    exact hq r _ _ (quiet_close role) (hr ha.of_append.1)

def Neutral (config : Configuration) (command : Command) (q : Request) : Prop :=
  q ≠ .accept ∧ ∀ answer, ¬ Unreported config command ⟨q, answer⟩

theorem accepts_of_neutral (h : ∀ e ∈ rest, Neutral config command e.request) :
    accepts rest = 0 := by
  refine List.countP_eq_zero.2 fun e he => ?_
  simpa using (h e he).1

theorem quiet_of_neutral (h : ∀ e ∈ rest, Neutral config command e.request ∧
    ∀ s, e.request ≠ .client (.stream s)) : Quiet config command rest :=
  ⟨sent_eq_nil fun e he => (h e he).2, accepts_of_neutral fun e he => (h e he).1,
    fun e he => (h e he).1.2 e.answer⟩

theorem leads_quiet {P : List (Exchange interface) → Prop}
    (hx : x.Only fun q => ¬ Rests q ∧ Neutral config command q ∧
      ∀ s, q ≠ Request.client (.stream s))
    (hp : ∀ rest, Quiet config command rest → P (es ++ rest)) :
    Leads config command es x fun _ => P := by
  refine ⟨fun rest q hq hr => absurd hr (hx rest q hq).1, fun rest r hr _ => hp rest ?_⟩
  exact quiet_of_neutral fun e he => (hx.mem hr e he).2

theorem neutral_client (q : Connection.Request) : Neutral config command (.client q) :=
  ⟨nofun, fun _ h => h⟩

/-- What an operation that sends at most one reply leads to, by what it leaves sent. -/
theorem leads_onClient {y : Action Connection.interface Unit} {operation : Operation}
    {replies : List Bytes} {stages : List Stage}
    {after : List (Exchange Connection.interface) → Except Error Unit → Prop}
    {Q : Except Error Unit → List (Exchange interface) → Prop}
    (hy : y.Meets (fun _ => Makes operation replies stages) after)
    (hq : ∀ inner r, after inner r → Accepting inner → accepts (inner.map ofConnection) = 0 →
      (∀ e ∈ inner.map ofConnection, ¬ Unreported config command e) →
        Q r (es ++ inner.map ofConnection)) :
    Leads config command es (onClient y) Q := by
  have hn : ∀ inner : List (Exchange Connection.interface),
      ∀ e ∈ inner.map ofConnection, Neutral config command e.request := by
    intro inner e he
    obtain ⟨d, -, rfl⟩ := List.mem_map.1 he
    exact neutral_client d.request
  refine meets_onClient (hy.mono ?_ fun inner r h ha => ?_)
  · rintro inner q hm (hrest | hrest)
    · cases hrest
    · cases hrest
      cases hm
  · exact hq inner r h (accepting_ofConnection.1 ha.of_append.2) (accepts_of_neutral (hn inner))
      fun e he => (hn inner e he).2 e.answer

theorem leads_refuse {status : ReplyStatus} (hs : status ≠ .succeeded) (e : Error)
    (hp : Progress config command es count accepted) :
    Leads config command es (refuse status e) fun r es' =>
      r = .ok () ∧ Progress config command es' (count + 1) accepted := by
  refine leads_onClient (refuse_meets status) fun inner r h ha h0 hr => ?_
  cases r with
  | error e => exact absurd ha h.2.1
  | ok u => exact ⟨rfl, hp.reply h0 hr (by simpa using h.2) (.failure hs)⟩

theorem settles_refuse {status : ReplyStatus} (hs : status ≠ .succeeded) (e : Error)
    (hp : Progress config command es accepted accepted) :
    Leads config command es (refuse status e) fun _ => Settled config command :=
  (leads_refuse hs e hp).mono fun _ _ h => h.2.settled

theorem leads_respond (h : Due config command es bound) :
    Leads config command es (respond bound) fun r es' => Settled config command es' ∧
      ∀ u, r = .ok u → Progress config command es' (accepts es + 1) (accepts es) := by
  cases hb : bound.record with
  | ok record =>
    refine leads_onClient (respond_meets hb) fun inner r h' ha h0 hr => ?_
    have hp : Progress config command es (accepts es) (accepts es) :=
      ⟨h.told, rfl, h.reported ⟨record, hb⟩⟩
    cases r with
    | error e => exact absurd ha h'.2.1
    | ok u =>
      have hp' := hp.reply h0 hr (by simpa using h'.2) (h.tells record hb)
      exact ⟨hp'.settled, fun _ _ => hp'⟩
  | error e =>
    refine leads_onClient (@respond_meets_of_error .succeeded bound e hb)
      fun inner r ⟨_, hs, hre⟩ _ h0 hr => ⟨?_, fun u hu => ?_⟩
    · obtain ⟨d, hd, hu⟩ := h.unreported (by simp [hb])
      exact (settled_of_unreported h.told hd hu).append ⟨by simpa using hs, h0, hr⟩
    · rw [hre] at hu
      cases hu

theorem settles_relay (h : Settled config command es) :
    Leads config command es (onClient relay) fun _ => Settled config command := by
  have hx : (onClient relay).Only fun q => Neutral config command q ∧
      ∀ s, q ≠ Request.client (.stream s) := by
    refine only_onClient (relay_meets.only.mono fun q hq => ⟨neutral_client q, fun s hs => ?_⟩)
    cases hs
    rcases hq with hq | hq | hq <;> cases hq
  have happend : ∀ {rest : List (Exchange interface)} {p : Program interface (Except Error Unit)},
      (onClient relay).run.Follows rest p → Settled config command (es ++ rest) :=
    fun hp => h.append (quiet_of_neutral (hx.mem hp))
  exact ⟨fun rest q ⟨_, hq⟩ _ _ => happend hq, fun rest r hr _ => happend hr⟩

end

section

variable {config : Configuration} {command : Command} {es : List (Exchange interface)}

theorem quiet_request {q : Request} (h : ∀ r, q ≠ .client r) (ha : q ≠ .accept)
    (hu : ∀ answer, ¬ Unreported config command ⟨q, answer⟩) :
    ¬ Rests q ∧ Neutral config command q ∧ ∀ s, q ≠ Request.client (.stream s) :=
  ⟨fun hr => hr.elim ha (h _), ⟨ha, hu⟩, fun _ => h _⟩

theorem quiet_resolve (a : Address) : (resolve a).Only fun q => ¬ Rests q ∧
    Neutral config command q ∧ ∀ s, q ≠ Request.client (.stream s) := by
  refine (only_resolve a).mono ?_
  rintro q ⟨name, rfl⟩
  exact quiet_request nofun nofun fun _ h => h

/-- What dialing comes to is told by one reply, whatever is answered meanwhile. -/
theorem quiet_dial (target : Address) : (dial config target).Only fun q => ¬ Rests q ∧
    Neutral config .connect q ∧ ∀ s, q ≠ Request.client (.stream s) := by
  refine only_dial config target ?_ ?_ ?_ ?_
  · exact fun name => quiet_request nofun nofun fun _ h => h
  · exact fun a => quiet_request nofun nofun fun _ h => h
  · intro option
    refine quiet_request nofun nofun fun answer h => ?_
    cases answer <;> cases h
  · exact quiet_request nofun nofun fun _ h => h

theorem Progress.due_bound {a : SocketAddress} {d : Exchange interface}
    (hp : Progress config command es 0 0)
    (hd : d = ⟨.targetLocal, .ok a⟩ ∨ d = ⟨.listenerLocal, .ok a⟩) :
    Due config command (es ++ [d]) (config.boundAddress a) ∧ accepts (es ++ [d]) = 0 := by
  have hs : sent [d] = [] := by rcases hd with rfl | rfl <;> rfl
  have hc : accepts [d] = 0 := by rcases hd with rfl | rfl <;> rfl
  have hu : Unreported config command d ↔ ¬ config.Reports a := by
    rcases hd with rfl | rfl <;> exact Iff.rfl
  have hmem : d ∈ es ++ [d] := List.mem_append_right _ (List.mem_singleton_self d)
  refine ⟨hp.due hs (by rw [hc]) (fun record hr => .bound ?_ hr) ?_, ?_⟩
  · rcases hd with rfl | rfl
    · exact .inl hmem
    · exact .inr hmem
  · rw [hu, Configuration.exists_record_boundAddress_iff]
  · rw [accepts_append, hp.accepts_eq, hc]

theorem leads_targetLocal (hp : Progress config command es 0 0) :
    Leads config command es targetLocal fun r es' =>
      match r with
      | .error _ => Progress config command es' 0 0
      | .ok a => Due config command es' (config.boundAddress a) := by
  refine meets_attempt (fun hr => ?_) fun answer _ => ?_
  · rcases hr with hr | hr <;> cases hr
  cases answer with
  | error e => exact hp.append ⟨rfl, rfl, by simp [Unreported]⟩
  | ok a => exact (hp.due_bound (.inl rfl)).1

theorem leads_listenerLocal (hp : Progress config command es 0 0) :
    Leads config command es listenerLocal fun r es' =>
      match r with
      | .error _ => Progress config command es' 0 0
      | .ok a => Due config command es' (config.boundAddress a) ∧ accepts es' = 0 := by
  refine meets_attempt (fun hr => ?_) fun answer _ => ?_
  · rcases hr with hr | hr <;> cases hr
  cases answer with
  | error e => exact hp.append ⟨rfl, rfl, by simp [Unreported]⟩
  | ok a => exact hp.due_bound (.inr rfl)

theorem leads_accept (hp : Progress config command es 1 0) :
    Leads config command es accept fun r es' =>
      match r with
      | .error _ => Progress config command es' 1 1
      | .ok peer => Due config command es' (.ofSocketAddress peer) := by
  refine meets_attempt (fun _ _ => by simpa using hp.settled) fun answer _ => ?_
  cases answer with
  | error e =>
    refine ⟨hp.told.append rfl, ?_, reported_append hp.reported (by simp [Unreported])⟩
    rw [accepts_append, hp.accepts_eq]
    rfl
  | ok peer =>
    refine hp.due rfl rfl (fun record hr => .peer (by simp) hr) ?_
    rw [Address.exists_record_ofSocketAddress_iff, Classical.not_not]
    rfl

theorem serveConnect_leads (config : Configuration) (target : Address) :
    Leads config .connect [] (serveConnect config target) fun _ => Settled config .connect := by
  refine Leads.outcome_bind (fun _ es => Progress config .connect es 0 0)
    (leads_quiet (quiet_dial target) fun rest hq => progress_nil.append hq) fun r es hp => ?_
  cases r with
  | error e => exact settles_refuse (by decide) e hp
  | ok u =>
    refine Leads.closing ?_ fun _ _ _ hq h => h.append hq
    refine Leads.outcome_bind _ (leads_targetLocal hp) fun r es hr => ?_
    cases r with
    | error e => exact settles_refuse (by decide) e hr
    | ok bound =>
      refine Leads.bind _ (leads_respond hr) (fun _ _ h => h.1) fun _ es h => ?_
      exact settles_relay h.1

def probeAnswer : ∀ q, Keepalive.Answer q → Answer (ofKeepalive q)
  | .set _, answer => answer

def ofProbe : Exchange Keepalive.interface → Exchange interface :=
  Exchange.embed ofKeepalive probeAnswer

theorem meets_setAll (config : Configuration) (options : List SocketOption) :
    (Keepalive.setAll options).Meets (fun _ _ => True) fun es r =>
      (∃ u, r = .ok u) ∧ (∀ e ∈ es, ¬ Unreported config .bind (ofProbe e)) ∨
        (∃ f, r = .error f) ∧ ∃ e ∈ es, Unreported config .bind (ofProbe e) := by
  induction options with
  | nil => exact meets_pure (.inl ⟨⟨_, rfl⟩, by simp⟩)
  | cons option options ih =>
    refine meets_bind (meets_attempt trivial fun answer => ?_)
    cases answer with
    | error f => exact .inr ⟨⟨_, rfl⟩, _, List.mem_singleton_self _, rfl⟩
    | ok u =>
      refine ih.mono (fun _ _ h => h) fun es r h => ?_
      rcases h with ⟨hr, hn⟩ | ⟨hr, e, he, hu⟩
      · refine .inl ⟨hr, fun e he => ?_⟩
        rcases List.mem_cons.1 he with rfl | he
        · exact fun h => h
        · exact hn e he
      · exact .inr ⟨hr, e, List.mem_append_right _ he, hu⟩

theorem leads_keepAlive {bound : Address} (interval : Nat) (h : Due config .bind es bound) :
    Leads config .bind es (keepAlive interval) fun r es' =>
      match r with
      | .error _ => Settled config .bind es'
      | .ok _ => Due config .bind es' bound := by
  have ho := only_keepAlive interval
  have hm : (keepAlive interval).Meets (fun _ _ => True) fun rest r =>
      (∃ u, r = .ok u) ∧ (∀ e ∈ rest, ¬ Unreported config .bind e) ∨
        (∃ f, r = .error f) ∧ ∃ e ∈ rest, Unreported config .bind e := by
    have hb : ∀ (q : Keepalive.Request) (a : Answer (ofKeepalive q)),
        probeAnswer q (match q, a with | .set _, answer => answer) = a := by
      rintro ⟨option⟩ answer
      rfl
    refine meets_embed hb (by rintro ⟨option⟩ answer; rfl)
      ((meets_setAll config _).mono (fun _ _ h => h) fun es r h => ?_)
    rcases h with ⟨hr, hn⟩ | ⟨hr, e, he, hu⟩
    · exact .inl ⟨hr, List.forall_mem_map.2 hn⟩
    · exact .inr ⟨hr, ofProbe e, List.mem_map_of_mem he, hu⟩
  refine ⟨fun rest q hq hr => ?_, fun rest r hr _ => ?_⟩
  · obtain ⟨option, rfl⟩ := ho rest q hq
    rcases hr with hr | hr <;> cases hr
  have hs : sent rest = [] := sent_eq_nil fun e he s hq => by
    obtain ⟨option, ho⟩ := ho.mem hr e he
    rw [ho] at hq
    cases hq
  have h0 : accepts rest = 0 := List.countP_eq_zero.2 fun e he => by
    obtain ⟨option, ho⟩ := ho.mem hr e he
    simp [ho]
  obtain ⟨⟨u, rfl⟩, hreported⟩ | ⟨⟨f, rfl⟩, d, hd, hu⟩ := hm.2 rest r hr
  · exact h.append ⟨hs, h0, hreported⟩
  · refine settled_of_unreported ?_ (List.mem_append_right _ hd) hu
    rw [accepts_append, h0, Nat.add_zero]
    exact h.told.append hs

theorem leads_awaitPeer (hp : Progress config .bind es 0 0) :
    Leads config .bind es (awaitPeer config) fun r es' =>
      match r with
      | .ok (some peer) => Due config .bind es' (.ofSocketAddress peer)
      | _ => Settled config .bind es' := by
  refine Leads.outcome_bind _ (leads_listenerLocal hp) fun r es hr => ?_
  cases r with
  | error e =>
    refine Leads.bind _ (leads_refuse (by decide) e hr) (fun _ _ h => h.2.settled) fun _ es h => ?_
    exact leads_pure h.2.settled
  | ok bound =>
    obtain ⟨hd, h0⟩ := hr
    refine Leads.bind _ (leads_respond hd) (fun _ _ h => h.1) fun u es h => ?_
    have hp' := h.2 u rfl
    rw [h0] at hp'
    refine Leads.outcome_bind _ (leads_accept hp') fun r es hr => ?_
    cases r with
    | error e =>
      refine Leads.bind _ (leads_refuse (by decide) e hr) (fun _ _ h => h.2.settled)
        fun _ es h => ?_
      exact leads_pure h.2.settled
    | ok peer => exact leads_pure hr

theorem serveBind_leads (config : Configuration) (requested : Address) :
    Leads config .bind [] (serveBind config requested) fun _ => Settled config .bind := by
  refine Leads.outcome_bind (fun _ es => Progress config .bind es 0 0)
    (leads_quiet ?_ fun rest hq => progress_nil.append hq) fun r es hp => ?_
  · refine only_bind (quiet_resolve requested) fun a => ?_
    exact only_attempt (quiet_request nofun nofun fun _ h => h)
  cases r with
  | error e => exact settles_refuse (by decide) e hp
  | ok u =>
    refine Leads.bind _ (Leads.closing (leads_awaitPeer hp) ?_) (fun _ _ h => h) fun peer es h => ?_
    · intro r es' rest hq h
      split at h
      case h_1 peer => exact Due.append h hq
      case h_2 => exact Settled.append h hq
    cases peer with
    | none => exact leads_pure h
    | some peer =>
      refine Leads.closing ?_ fun _ _ _ hq h => h.append hq
      refine Leads.bind _ (leads_keepAlive config.keepalive h) (fun _ _ h => h) fun _ es h => ?_
      refine Leads.bind _ (leads_respond h) (fun _ _ h => h.1) fun _ es h => ?_
      exact settles_relay h.1

theorem serveCommand_leads (config : Configuration) (request : CommandRequest) :
    Leads config request.command [] (serveCommand config request) fun _ =>
      Settled config request.command := by
  obtain ⟨command, target⟩ := request
  unfold serveCommand
  split
  case h_1 hc ha =>
    dsimp only at hc ha ⊢
    subst hc
    exact serveConnect_leads config target
  case h_2 hc ha =>
    dsimp only at hc ha ⊢
    subst hc
    exact serveBind_leads config target
  case h_3 => exact settles_refuse (by decide) _ progress_nil

end

/-- Whether a session has ended, or waits at a point at which it owes nothing. -/
def AtRest (x : Action interface Unit) (es : List (Exchange interface)) : Prop :=
  (∃ r, x.Ends es r) ∨ ∃ q, Rests q ∧ x.Asks es q

/-- After its request a client that accepts what it is sent has got one reply, and one for each
accept, whenever the session has ended or waits; one of them is missing just if an answer of the
network is one of those that are not reported. -/
theorem settled_after_request {config : Configuration} {request : CommandRequest}
    {before after : List (Exchange interface)}
    (hb : (readRequest config).Ends before (.ok request))
    (hr : AtRest (handle config) (before ++ after)) (ha : Accepting after) :
    Settled config request.command after := by
  have h := serveCommand_leads config request
  simp only [AtRest, handle_eq] at hr
  rcases hr with ⟨r, he⟩ | ⟨q, hq, next, hn⟩
  · simpa using h.2 after r (hb.follows_bind he) (by simpa using ha)
  · simpa using h.1 after q ⟨next, hb.follows_bind hn⟩ hq (by simpa using ha)

def listenOpening : List (Exchange interface) :=
  [starts .negotiate, gives 2 [5, 1], gives 1 [0], takes 2 [5, 0], enters .negotiated,
    starts .authenticate, enters .authenticated, starts .readCommand, gives 4 [5, 2, 0, 1],
    gives 6 [127, 0, 0, 1, 0, 80], enters .commandParsed]

def listenRequest : CommandRequest := ⟨.bind, ⟨.ipv4, "127.0.0.1:80".toList⟩⟩

def acceptedPeer : List (Exchange interface) :=
  [⟨.listen (.v4 ⟨127, 0, 0, 1⟩ 80), .ok ()⟩, ⟨.listenerLocal, .ok (.v4 ⟨127, 0, 0, 1⟩ 1080)⟩,
    starts .respond, takes 10 [5, 0, 0, 1, 127, 0, 0, 1, 4, 56], enters .active,
    ⟨.accept, .ok (.v4 ⟨10, 0, 0, 1⟩ 4242)⟩, ⟨.close .listener, ()⟩,
    ⟨.setOption .keepalive, .ok ()⟩]

def probing (interval : Nat) : Configuration :=
  Settings.configuration { keepalive := interval, allowed := [.bind] }

def toldOfPeer : List (Exchange interface) :=
  acceptedPeer ++ [⟨.setOption (.idle 30), .ok ()⟩, ⟨.setOption (.interval 30), .ok ()⟩,
    starts .respond, takes 10 [5, 0, 0, 1, 10, 0, 0, 1, 16, 146], enters .active, starts .relay]

theorem settled_toldOfPeer :
    (readRequest (probing 30000)).Ends listenOpening (.ok listenRequest) ∧
      AtRest (handle (probing 30000)) (listenOpening ++ toldOfPeer) ∧ Accepting toldOfPeer ∧
        Settled (probing 30000) .bind toldOfPeer := by
  have hb : (readRequest (probing 30000)).Ends listenOpening (.ok listenRequest) := by
    decide +kernel
  have hr : (handle (probing 30000)).Asks (listenOpening ++ toldOfPeer) (.client .relay) := by
    decide +kernel
  have ha : Accepting toldOfPeer := by decide
  have hrest : AtRest (handle (probing 30000)) (listenOpening ++ toldOfPeer) :=
    .inr ⟨_, .inr rfl, hr⟩
  exact ⟨hb, hrest, ha, settled_after_request hb hrest ha⟩

theorem Tells.six_le_length {config : Configuration} {es : List (Exchange interface)} {place : Nat}
    {octets : Bytes} (h : Tells config es place octets) : 6 ≤ octets.length := by
  have hrecord : ∀ {a : Address} {record : Bytes}, a.record = .ok record → 3 ≤ record.length := by
    intro a record hr
    obtain ⟨host, port, octets, number, -, -, -, rfl⟩ := Address.record_eq_ok_iff.1 hr
    simp only [List.cons_append, List.length_cons, List.length_append, Word.length_octets]
    omega
  cases h with
  | failure h => simp [failureOctets]
  | bound h hr =>
    have := hrecord hr
    simp only [List.length_append, Reply.length_commandHeader]
    omega
  | peer h hr =>
    have := hrecord hr
    simp only [List.length_append, Reply.length_commandHeader]
    omega

/-- Options in whole seconds from an interval below one second, the first of which is refused. -/
def optionRefused : List (Exchange interface) :=
  acceptedPeer ++ [⟨.setOption (.idle 0), .error (.reported .einval)⟩, ⟨.close .target, ()⟩]

/-- A client is not told that its listener has accepted a connection, and the session ends. -/
theorem accepted_but_not_told :
    (readRequest (probing 500)).Ends listenOpening (.ok listenRequest) ∧
      (handle (probing 500)).Ends (listenOpening ++ optionRefused)
        (.error (.io (.reported .einval))) ∧
      Accepting optionRefused ∧ accepts optionRefused = 1 ∧
        ¬ Told (probing 500) optionRefused 2 := by
  refine ⟨by decide +kernel, by decide +kernel, by decide, by decide, ?_⟩
  rintro ⟨replies, hl, ht, hs⟩
  match replies, hl with
  | [first, second], _ =>
    have hf := (ht 0 first rfl).six_le_length
    have hsecond := (ht 1 second rfl).six_le_length
    have hlength := congrArg List.length hs
    have h10 : (sent optionRefused).length = 10 := by decide
    simp only [h10, List.flatten_cons, List.flatten_nil, List.length_append, List.length_nil]
      at hlength
    omega

end Session

end SocksProxy
