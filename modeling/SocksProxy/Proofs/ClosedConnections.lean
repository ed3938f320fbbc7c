import SocksProxy.Proofs.RefusedClients
import SocksProxy.Proofs.StageOrder

/-!
# After a connection is closed

A session that has closed the connection of its client makes no more use of it, with one exception.
A request that cannot be read closes the connection, also where the client is told of the cause:
the refusal is sent on the closed connection, which is then rejected.

`Unclosed` is kept by all that does not close the connection, and `Spares` is what every request
of a session comes up to: it is made before the connection is closed, or it is not about the
connection, or the client is owed a refusal.
-/

namespace SocksProxy

open SocksProxy.Action

namespace Action

variable {I : Interface} {α : Type} {P : I.Request → Prop} {es rest : List (Exchange I)}

def Throughout (P : I.Request → Prop) (es : List (Exchange I)) : Prop := ∀ e ∈ es, P e.request

theorem throughout_nil : Throughout P [] := by
  simp [Throughout]

theorem throughout_append_iff :
    Throughout P (es ++ rest) ↔ Throughout P es ∧ Throughout P rest := by
  simp only [Throughout, List.mem_append, or_imp, forall_and]

theorem heeds_throughout {x : Action I α} {permits : List (Exchange I) → I.Request → Prop}
    (hx : x.Only P) (h : Throughout P es)
    (hp : ∀ es' q, Throughout P es' → permits es' q) :
    Heeds permits es x fun _ es' => Throughout P es' := by
  apply heeds_of_only hx
  · intro rest q hrest _
    exact hp _ q (throughout_append_iff.2 ⟨h, hrest⟩)
  · intro rest r hrest
    exact throughout_append_iff.2 ⟨h, hrest⟩

end Action

namespace Connection

variable {α : Type} {es rest : List (Exchange interface)} {x : Action interface α}

def Continues (q : Request) : Prop := q ≠ .entered .closed

abbrev Unclosed (es : List (Exchange interface)) : Prop := Throughout Continues es

/-- Every request is made before the connection is closed. -/
def Early (es : List (Exchange interface)) (_ : Request) : Prop := Unclosed es

theorem early_of_only (hx : x.Only Continues) (h : Unclosed es) :
    Heeds Early es x fun _ es' => Unclosed es' :=
  heeds_throughout hx h fun _ _ hu => hu

theorem early_closed {P : Except Error Unit → List (Exchange interface) → Prop} (h : Unclosed es)
    (hp : P (.ok ()) (es ++ [⟨.entered .closed, ()⟩])) : Heeds Early es (entered .closed) P :=
  heeds_ask h fun _ => hp

theorem early_orClosed {P : Except Error α → List (Exchange interface) → Prop}
    (hx : x.Only Continues) (h : Unclosed es)
    (hp : ∀ rest r, x.Ends rest r → Unclosed (es ++ rest) →
      match r with
      | .ok a => P (.ok a) (es ++ rest)
      | .error e => P (.error e) (es ++ rest ++ [⟨.entered .closed, ()⟩])) :
    Heeds Early es (orClosed x) P := by
  apply heeds_outcome_bind
  constructor
  · exact (early_of_only hx h).1
  · intro rest r hr
    have hu := (early_of_only hx h).2 rest r hr
    have hnext := hp rest r hr hu
    cases r with
    | ok a => exact heeds_pure hnext
    | error e =>
      apply heeds_bind
      apply early_closed hu
      exact heeds_throw hnext

theorem continues_of_stream (h : x.Only fun q => ∃ r, q = Request.stream r) :
    x.Only Continues := by
  intro es q hq
  obtain ⟨r, rfl⟩ := h es q hq
  exact nofun

theorem continues_onStream (x : Action OctetStream.interface α) : (onStream x).Only Continues :=
  continues_of_stream (stream_onStream x)

theorem continues_entered {stage : Stage} (h : stage ≠ .closed) :
    (entered stage).Only Continues := only_ask fun hq => h (Request.entered.inj hq)

theorem early_started {operation : Operation} {f : Unit → Action interface α}
    {P : Except Error α → List (Exchange interface) → Prop}
    (h : Unclosed [⟨.started operation, ()⟩] →
      Heeds Early [⟨.started operation, ()⟩] (f ()) P) :
    Heeds Early [] (started operation >>= f) P :=
  heeds_bind (heeds_ask throughout_nil fun _ => h (by simp [Throughout, Continues]))

theorem negotiate_early (method : AuthMethod) :
    Heeds Early [] (negotiate method) fun r es => ∀ u, r = .ok u → Unclosed es := by
  apply early_started
  intro h
  apply Heeds.bind fun r es => ∀ greeting, r = .ok greeting → Unclosed es
  · apply early_orClosed (continues_onStream _) h
    intro rest r _ hu
    cases r with
    | ok greeting => exact fun _ _ => hu
    | error e => exact nofun
  · exact fun _ _ _ => nofun
  intro greeting es h
  have hu := h greeting rfl
  by_cases ho : greeting.offers method = true
  · simp only [ho, if_true]
    have hx : (do send (.method method); entered .negotiated).Only Continues :=
      only_bind (continues_onStream _) fun _ => continues_entered (by decide)
    exact (early_of_only hx hu).mono fun _ _ hu' _ _ => hu'
  · simp only [ho]
    apply Heeds.bind _ (early_of_only (continues_onStream _) hu)
    · exact fun _ _ _ => nofun
    intro _ es hu
    apply heeds_bind
    apply early_closed hu
    exact heeds_throw nofun

theorem authenticate_early (authenticator : Authenticator) :
    Heeds Early [] (authenticate authenticator.subnegotiation)
      fun r es => ∀ u, r = .ok u → Unclosed es := by
  have hx := continues_of_stream (stream_subnegotiation authenticator)
  apply early_started
  intro h
  apply heeds_bind
  apply early_orClosed hx h
  intro rest r _ hu
  cases r with
  | error e => exact nofun
  | ok u => exact (early_of_only (continues_entered (by decide)) hu).mono fun _ _ hu' _ _ => hu'

theorem readCommand_early :
    Heeds Early [] readCommand fun r es =>
      match r with
      | .ok _ => Unclosed es
      | .error e => ∃ stream, (CommandRequest.receive scratchSize).Ends stream (.error e) ∧
          Unclosed (announced .readCommand stream) ∧
          es = announced .readCommand stream ++ [⟨.entered .closed, ()⟩] := by
  apply early_started
  intro h
  apply heeds_bind
  apply early_orClosed (continues_onStream _) h
  intro rest r hr hu
  obtain ⟨stream, rfl, hs⟩ := (Program.ends_embed_iff (fun _ _ => rfl) fun _ _ => rfl).1 hr
  cases r with
  | error e => exact ⟨stream, hs, hu, rfl⟩
  | ok request =>
    have hentered : Unclosed [(⟨.entered .commandParsed, ()⟩ : Exchange interface)] := by
      simp [Throughout, Continues]
    apply heeds_bind
    apply heeds_ask hu
    intro _
    exact heeds_pure (throughout_append_iff.2 ⟨hu, hentered⟩)

theorem readCommand_closed {stream : List (Exchange OctetStream.interface)} {e : Error}
    (h : (CommandRequest.receive scratchSize).Ends stream (.error e)) :
    readCommand.Ends (announced .readCommand stream ++ [⟨.entered .closed, ()⟩]) (.error e) := by
  have hclosed : (orClosed (onStream (CommandRequest.receive scratchSize))).Ends
      (stream.map ofStream ++ [⟨.entered .closed, ()⟩]) (.error e) :=
    ends_orClosed_error (ends_onStream h)
  have hstarted : (started .readCommand).Ends [⟨.started .readCommand, ()⟩] (.ok ()) :=
    .step (.refl _)
  apply follows_bind_of_ends hstarted
  exact ends_bind_iff.2 (.inl ⟨e, hclosed, rfl⟩)

theorem relay_early : Heeds Early [] relay fun _ _ => True := by
  apply early_started
  intro h
  have hu : Unclosed [⟨.started .relay, ()⟩] := h
  apply heeds_bind
  apply heeds_ask hu
  intro answer
  have hrelay : Unclosed [(⟨.relay, answer⟩ : Exchange interface)] := by
    simp [Throughout, Continues]
  exact early_closed (throughout_append_iff.2 ⟨hu, hrelay⟩) trivial

end Connection

namespace Session

variable {α : Type} {config : Configuration} {es rest before after : List (Exchange interface)}

def Continues (q : Request) : Prop := q ≠ .client (.entered .closed)

abbrev Unclosed (es : List (Exchange interface)) : Prop := Throughout Continues es

theorem unclosed_ofConnection {inner : List (Exchange Connection.interface)}
    (h : Connection.Unclosed inner) : Unclosed (inner.map ofConnection) := by
  intro e he
  obtain ⟨d, hd, rfl⟩ := List.mem_map.1 he
  exact fun hq => h d hd (Request.client.inj hq)

/-- A connection is closed once, between what is done before and what is done after that. -/
theorem eq_before_of_unclosed (h : Unclosed es) (hr : Unclosed rest)
    (he : es ++ enters .closed :: rest = before ++ enters .closed :: after) : before = es := by
  rcases List.append_eq_append_iff.1 he with ⟨more, rfl, hm⟩ | ⟨more, rfl, hm⟩
  · cases more with
    | nil => exact List.append_nil es
    | cons e more =>
      obtain ⟨rfl, rfl⟩ := List.cons.inj hm
      exact absurd rfl (hr (enters .closed) (by simp))
  · cases more with
    | nil => exact (List.append_nil before).symm
    | cons e more =>
      obtain ⟨rfl, -⟩ := List.cons.inj hm
      exact absurd rfl (h (enters .closed) (by simp))

def opening (config : Configuration) : Action interface Unit := do
  onClient (Connection.negotiate config.authenticator.method)
  onClient (Connection.authenticate config.authenticator.subnegotiation)

theorem handle_eq_opening (config : Configuration) :
    handle config = opening config >>= fun _ => readCommand >>= serveCommand config := by
  simp only [handle, opening, bind_assoc]

/-- The session has come to a request that cannot be read, for a cause that the client is told. -/
def Owes (config : Configuration) (before : List (Exchange interface)) (status : ReplyStatus)
    (e : Error) : Prop :=
  ∃ first stream, (opening config).Ends first (.ok ()) ∧
    (CommandRequest.receive scratchSize).Ends stream (.error e) ∧
      malformedStatus e = some status ∧
        before = first ++ (Connection.announced .readCommand stream).map ofConnection

/-- A request may be made if the connection is not closed, or if it is not about the connection, or
if the connection has been closed when the client was still owed a refusal. -/
def Spares (config : Configuration) (es : List (Exchange interface)) (q : Request) : Prop :=
  OfNetwork q ∨ ∀ before after, es = before ++ enters .closed :: after →
    ∃ status e, Owes config before status e

theorem spares_of_unclosed (h : Unclosed es) (q : Request) : Spares config es q := by
  right
  rintro before after rfl
  exact absurd rfl (h (enters .closed) (by simp))

theorem spares_of_only {x : Action interface α} (hx : x.Only Continues) (h : Unclosed es) :
    Heeds (Spares config) es x fun _ es' => Unclosed es' :=
  heeds_throughout hx h fun _ q hu => spares_of_unclosed hu q

theorem spares_operation {x : Action Connection.interface α}
    {after : Except Error α → List (Exchange Connection.interface) → Prop}
    {P : Except Error α → List (Exchange interface) → Prop}
    (hx : Heeds Connection.Early [] x after) (h : Unclosed es)
    (hp : ∀ inner r, after r inner → P r (es ++ inner.map ofConnection)) :
    Heeds (Spares config) es (onClient x) P := by
  apply heeds_onClient hx _ hp
  intro inner q hq
  exact spares_of_unclosed (throughout_append_iff.2 ⟨h, unclosed_ofConnection hq⟩) _

theorem spares_closing {role : Role} {x : Action interface α}
    (h : Heeds (Spares config) es x fun _ _ => True) :
    Heeds (Spares config) es (closing role x) fun _ _ => True := by
  apply heeds_closing
  exact h.mono fun _ _ _ => ⟨.inl nofun, trivial⟩

theorem continues_onClient {x : Action Connection.interface α}
    (h : x.Only Connection.Continues) : (onClient x).Only Continues :=
  only_onClient fun es q hq he => h es q hq (Request.client.inj he)

theorem continues_of_network {x : Action interface α} (h : x.Only OfNetwork) :
    x.Only Continues := fun es q hq => h es q hq _

theorem continues_refuse (status : ReplyStatus) (e : Error) : (refuse status e).Only Continues :=
  continues_onClient (only_bind (only_ask nofun) fun _ =>
    only_bind (Connection.continues_onStream _) fun _ =>
      Connection.continues_entered (by decide))

theorem continues_respond (bound : Address) : (respond bound).Only Continues :=
  continues_onClient (only_bind (only_ask nofun) fun _ =>
    only_bind (Connection.continues_onStream _) fun _ =>
      Connection.continues_entered (by decide))

theorem spares_refuse (status : ReplyStatus) (e : Error) (h : Unclosed es) :
    Heeds (Spares config) es (refuse status e) fun _ _ => True :=
  (spares_of_only (continues_refuse status e) h).mono fun _ _ _ => trivial

/-- A reply of success and the relay, with which the connection is closed. -/
theorem spares_respond_relay (bound : Address) (h : Unclosed es) :
    Heeds (Spares config) es (do respond bound; onClient Connection.relay) fun _ _ => True := by
  apply Heeds.bind _ (spares_of_only (continues_respond bound) h)
  · exact fun _ _ _ => trivial
  · intro _ es h
    exact spares_operation Connection.relay_early h fun _ _ _ => trivial

theorem spares_serveConnect (target : Address) (h : Unclosed es) :
    Heeds (Spares config) es (serveConnect config target) fun _ _ => True := by
  have hdial : (dial config target).Only Continues :=
    only_dial config target (fun _ => nofun) (fun _ => nofun) (fun _ => nofun) nofun
  apply (spares_of_only hdial h).outcome_bind
  intro r es h
  cases r with
  | error e => exact spares_refuse _ e h
  | ok u =>
    apply spares_closing
    apply (spares_of_only (continues_of_network network_targetLocal) h).outcome_bind
    intro r es h
    cases r with
    | error e => exact spares_refuse _ e h
    | ok bound => exact spares_respond_relay _ h

theorem continues_awaitPeer (config : Configuration) : (awaitPeer config).Only Continues := by
  apply only_bind (only_outcome (continues_of_network network_listenerLocal))
  intro r
  cases r with
  | error e => exact only_bind (continues_refuse _ e) fun _ => only_pure _
  | ok bound =>
    apply only_bind (continues_respond _)
    intro _
    apply only_bind (only_outcome (continues_of_network network_accept))
    intro r
    cases r with
    | error e => exact only_bind (continues_refuse _ e) fun _ => only_pure _
    | ok peer => exact only_pure _

theorem spares_serveBind (requested : Address) (h : Unclosed es) :
    Heeds (Spares config) es (serveBind config requested) fun _ _ => True := by
  have hlisten : (do listen (← resolve requested) : Action interface Unit).Only OfNetwork :=
    only_bind (network_resolve requested) fun _ => only_attempt nofun
  apply (spares_of_only (continues_of_network hlisten) h).outcome_bind
  intro r es h
  cases r with
  | error e => exact spares_refuse _ e h
  | ok u =>
    have hpeer : (closing .listener (awaitPeer config)).Only Continues :=
      only_closing (continues_awaitPeer config) nofun
    apply Heeds.bind _ (spares_of_only hpeer h)
    · exact fun _ _ _ => trivial
    intro peer es h
    cases peer with
    | none => exact heeds_pure trivial
    | some peer =>
      apply spares_closing
      apply Heeds.bind _ (spares_of_only (continues_of_network (network_keepAlive _)) h)
      · exact fun _ _ _ => trivial
      · intro _ es h
        exact spares_respond_relay _ h

theorem spares_serveCommand (request : CommandRequest) (h : Unclosed es) :
    Heeds (Spares config) es (serveCommand config request) fun _ _ => True := by
  unfold serveCommand
  split
  case h_1 => exact spares_serveConnect _ h
  case h_2 => exact spares_serveBind _ h
  case h_3 => exact spares_refuse _ _ h

theorem spares_readCommand (ho : (opening config).Ends es (.ok ())) (h : Unclosed es) :
    Heeds (Spares config) es readCommand fun r es' => ∀ request, r = .ok request →
      Unclosed es' := by
  apply heeds_outcome_bind
  apply spares_operation Connection.readCommand_early h
  intro inner r hr
  cases r with
  | ok request =>
    apply heeds_pure
    intro _ _
    exact throughout_append_iff.2 ⟨h, unclosed_ofConnection hr⟩
  | error e =>
    obtain ⟨stream, hs, hu, rfl⟩ := hr
    dsimp only
    split
    case h_1 status hstatus =>
      apply Heeds.bind _ _ (fun _ _ _ => nofun) fun _ _ _ => heeds_throw nofun
      · exact fun _ _ => True
      apply heeds_of_only (continues_refuse status e)
      · intro rest q hrest _
        right
        intro before after he
        -- There is one closing only, that of the request, so that what comes before it is known.
        rw [List.map_append, ← List.append_assoc, List.append_assoc] at he
        obtain rfl := eq_before_of_unclosed
          (throughout_append_iff.2 ⟨h, unclosed_ofConnection hu⟩) hrest he
        exact ⟨status, e, es, stream, ho, hs, hstatus, rfl⟩
      · exact fun _ _ _ => trivial
    case h_2 => exact heeds_bind (heeds_pure (heeds_throw nofun))

theorem opening_unclosed (config : Configuration) :
    Heeds (Spares config) [] (opening config) fun r es => ∀ u, r = .ok u → Unclosed es := by
  apply Heeds.bind fun r es => ∀ u, r = .ok u → Unclosed es
  · apply spares_operation (Connection.negotiate_early _) throughout_nil
    intro inner r h u hu
    exact unclosed_ofConnection (h u hu)
  · exact fun _ _ _ => nofun
  intro u es h
  apply spares_operation (Connection.authenticate_early _) (h u rfl)
  intro inner r hi u' hu
  exact throughout_append_iff.2 ⟨h u rfl, unclosed_ofConnection (hi u' hu)⟩

theorem spares_handle (config : Configuration) :
    Heeds (Spares config) [] (handle config) fun _ _ => True := by
  rw [handle_eq_opening]
  have hopening := opening_unclosed config
  apply Heeds.bind fun r es => (opening config).Ends es r ∧ ∀ u, r = .ok u → Unclosed es
  · exact ⟨hopening.1, fun es r hr => ⟨hr, hopening.2 es r hr⟩⟩
  · exact fun _ _ _ => trivial
  intro u es h
  apply Heeds.bind _ (spares_readCommand h.1 (h.2 u rfl))
  · exact fun _ _ _ => trivial
  intro request es h
  exact spares_serveCommand request (h request rfl)

theorem ends_onClient {x : Action Connection.interface α} {r : Except Error α}
    {inner : List (Exchange Connection.interface)} (h : x.Ends inner r) :
    (onClient x).Ends (inner.map ofConnection) r :=
  (Program.ends_embed_iff (fun _ _ => rfl) fun _ _ => rfl).2 ⟨inner, rfl, h⟩

/-- A session that owes a refusal goes on with it once the connection is closed. -/
theorem follows_of_owes {status : ReplyStatus} {e : Error} (h : Owes config before status e) :
    (handle config).run.Follows (before ++ [enters .closed])
      (do refuse status e; throw e : Action interface Unit).run := by
  obtain ⟨first, stream, ho, hs, hm, rfl⟩ := h
  have hread := ends_outcome_iff.2 ⟨_, rfl, ends_onClient (Connection.readCommand_closed hs)⟩
  have hlist : first ++ (Connection.announced .readCommand stream).map ofConnection ++
      [enters .closed] = first ++ ((Connection.announced .readCommand stream ++
        [(⟨.entered .closed, ()⟩ : Exchange Connection.interface)]).map ofConnection ++ []) := by
    simp only [List.map_append, List.append_assoc, List.append_nil]
    rfl
  have hthrow : (refuse status e >>= fun _ => throw e : Action interface CommandRequest) >>=
      serveCommand config = refuse status e >>= fun _ => throw e := by
    rw [bind_assoc]
    rfl
  rw [handle_eq_opening, hlist]
  apply follows_bind_of_ends ho
  rw [readCommand, bind_assoc]
  apply follows_bind_of_ends hread
  simp only [hm]
  rw [hthrow]
  exact Program.Follows.refl _

/-- What is sent of a refusal, and the stage of a closed connection on which it is sent. -/
inductive Refused (status : ReplyStatus) (after : List (Exchange interface)) : Stage → Prop where
  | underway (hs : sent after <+: refusal status) : Refused status after .closed
  | told (hs : sent after = refusal status) : Refused status after .rejected

theorem refused_replying {status : ReplyStatus} {inner : List (Exchange Connection.interface)}
    {q : Connection.Request}
    (h : Connection.Replying .refuse (refusal status) .rejected inner q) :
    Refused status (inner.map ofConnection) (Stage.closed.after inner) := by
  cases h with
  | started => exact .underway (List.nil_prefix ..)
  | @send stream rest hn hs =>
    rw [Stage.after_announced]
    apply Refused.underway
    rw [sent_ofConnection, Connection.sent_announced]
    exact ⟨rest, hs⟩
  | @entered stream hs =>
    rw [Stage.after_announced]
    apply Refused.underway
    rw [sent_ofConnection, Connection.sent_announced]
    exact hs.symm ▸ List.prefix_rfl

theorem refuse_refused (status : ReplyStatus) (e : Error) (hs : stage es = .closed) :
    (do refuse status e; throw e : Action interface Unit).Meets
      (fun after _ => Refused status after (stage (es ++ after))) fun after _ =>
        Refused status after (stage (es ++ after)) ∧
          (Accepting after → stage (es ++ after) = .rejected) := by
  apply meets_bind
  apply meets_onClient
  constructor
  · intro inner q hq
    rw [stage_append_ofConnection, hs]
    exact refused_replying ((Connection.refuse_replying status).1 inner q hq)
  · intro inner r hr
    have hreplied := (Connection.refuse_meets status).2 inner r hr
    cases (Connection.refuse_replying status).2 inner r hr with
    | @whole stream u hsent =>
      apply meets_throw
      dsimp only
      rw [List.append_nil, stage_append_ofConnection, Stage.after_append, Stage.after_entered]
      have htold : sent ((Connection.announced .refuse stream ++
          [(⟨.entered .rejected, ()⟩ : Exchange Connection.interface)]).map ofConnection) =
            refusal status := by
        rw [sent_ofConnection]
        exact hreplied.2
      exact ⟨.told htold, fun _ => rfl⟩
    | @broken stream rest e hn hsent =>
      dsimp only [Action.Continues]
      rw [stage_append_ofConnection, hs, Stage.after_announced, accepting_ofConnection]
      have hprefix : sent ((Connection.announced .refuse stream).map ofConnection) <+:
          refusal status := by
        rw [sent_ofConnection, Connection.sent_announced]
        exact ⟨rest, hsent⟩
      exact ⟨.underway hprefix, fun ha => absurd ha hreplied.2.1⟩

/-- After a connection is closed its client is sent nothing, and it stays closed. -/
def Final (before after : List (Exchange interface)) : Prop :=
  sent after = [] ∧ stage (before ++ enters .closed :: after) = .closed

/-- What is done after a connection is closed: nothing that concerns it, or the refusal that is
owed to the client. -/
structure AfterClosed (config : Configuration) (before after : List (Exchange interface)) :
    Prop where
  final : (∀ status e, ¬ Owes config before status e) → Final before after
  asked : ∀ status e, Owes config before status e →
    (handle config).Asks (before ++ [enters .closed]) (.client (.started .refuse))
  refused : ∀ status e, Owes config before status e →
    Refused status after (stage (before ++ enters .closed :: after))
  told : ∀ status e r, Owes config before status e →
    (handle config).Ends (before ++ enters .closed :: after) r → Accepting after →
      stage (before ++ enters .closed :: after) = .rejected

theorem stage_enters (es : List (Exchange interface)) (s : Stage) :
    stage (es ++ [enters s]) = s := stage_append_ofConnection es [⟨.entered s, ()⟩]

theorem final_of_network (h : ∀ e ∈ after, OfNetwork e.request) : Final before after := by
  have hs : stage (before ++ [enters .closed] ++ after) = .closed := by
    rw [stage_append_of_network h, stage_enters]
  rw [List.append_assoc] at hs
  exact ⟨sent_eq_nil fun e he _ => h e he _, hs⟩

/-- A session that has closed the connection of its client is done with it, except for the refusal
of a request that could not be read. -/
theorem afterClosed_of_follows {rest : Program interface (Except Error Unit)}
    (h : (handle config).run.Follows (before ++ enters .closed :: after) rest) :
    AfterClosed config before after := by
  have hlist : before ++ enters .closed :: after = before ++ [enters .closed] ++ after := by
    simp
  have hclosed : stage (before ++ [enters .closed]) = .closed := stage_enters before .closed
  constructor
  · intro hnone
    apply final_of_network
    intro e he
    obtain ⟨made, later, rfl⟩ := List.append_of_mem he
    rw [← List.cons_append, ← List.append_assoc] at h
    rcases (spares_handle config).1 _ _ h.asks with hn | howes
    · exact hn
    · obtain ⟨status, cause, ho⟩ := howes before made rfl
      exact absurd ho (hnone status cause)
  · intro status e ho
    exact ⟨_, follows_of_owes ho⟩
  · intro status e ho
    rw [hlist] at h ⊢
    have hrefused := (refuse_refused status e hclosed).mono (fun _ _ h => h) fun _ _ h => h.1
    exact hrefused.of_follows ((follows_of_owes ho).of_append h)
  · intro status e r ho hr ha
    rw [hlist] at hr ⊢
    exact ((refuse_refused status e hclosed).2 after r ((follows_of_owes ho).of_append hr)).2 ha

def unsupportedOpening : List (Exchange interface) :=
  [starts .negotiate, gives 2 [5, 1], gives 1 [0], takes 2 [5, 0], enters .negotiated,
    starts .authenticate, enters .authenticated, starts .readCommand, gives 4 [5, 1, 0, 2]]

def lateRefusal : List (Exchange interface) :=
  [starts .refuse, takes 10 [5, 8, 0, 1, 0, 0, 0, 0, 0, 0], enters .rejected]

theorem follows_lateRefusal :
    (handle (Settings.configuration {})).Ends (unsupportedOpening ++ enters .closed :: lateRefusal)
      (.error (.addressTypeNotSupported 2)) := by decide +kernel

theorem afterClosed_lateRefusal :
    (handle (Settings.configuration {})).Ends (unsupportedOpening ++ enters .closed :: lateRefusal)
        (.error (.addressTypeNotSupported 2)) ∧
      AfterClosed (Settings.configuration {}) unsupportedOpening lateRefusal :=
  ⟨follows_lateRefusal, afterClosed_of_follows follows_lateRefusal⟩

/-- A closed connection is not closed for good. -/
theorem rejected_after_closed : ¬ ∀ config before after rest,
    (handle config).run.Follows (before ++ enters .closed :: after) rest → Final before after := by
  intro h
  have hfinal := h _ _ _ _ follows_lateRefusal
  exact absurd hfinal.2 (by decide)

end Session

end SocksProxy
