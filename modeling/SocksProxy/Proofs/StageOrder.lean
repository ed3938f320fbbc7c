import Mathlib.Data.List.Induction
import SocksProxy.Proofs.Conduct

/-!
# Operations begin at their stages

Nothing checks the stage of a connection when an operation begins. A session still begins each of
them at a stage at which it may: an operation that fails ends the session, or is followed by
nothing but a refusal, and one that ends well reaches the stage of the next one. The connection is
active only when a reply of success has been sent to its last octet.
-/

namespace SocksProxy

open SocksProxy.Action

namespace Stage

def note (s : Stage) : Exchange Connection.interface → Stage
  | ⟨.entered next, _⟩ => next
  | _ => s

def after (s : Stage) (es : List (Exchange Connection.interface)) : Stage := es.foldl note s

@[simp] theorem after_append (s : Stage) (es rest : List (Exchange Connection.interface)) :
    s.after (es ++ rest) = (s.after es).after rest := List.foldl_append

@[simp] theorem after_entered (s next : Stage) :
    s.after [(⟨.entered next, ()⟩ : Exchange Connection.interface)] = next := rfl

theorem after_of_still {s : Stage} {es : List (Exchange Connection.interface)}
    (h : ∀ e ∈ es, ∀ next, e.request ≠ .entered next) : s.after es = s := by
  induction es with
  | nil => rfl
  | cons e es ih =>
    obtain ⟨q, answer⟩ := e
    have hes := ih fun e he => h e (List.mem_cons_of_mem _ he)
    cases q with
    | entered next => exact absurd rfl (h _ (List.mem_cons_self ..) next)
    | _ => exact hes

@[simp] theorem after_announced (s : Stage) (operation : Connection.Operation)
    (stream : List (Exchange OctetStream.interface)) :
    s.after (Connection.announced operation stream) = s := by
  apply after_of_still
  intro e he next hq
  rcases Connection.mem_announced he with rfl | ⟨r, hr⟩
  · cases hq
  · rw [hr] at hq
    cases hq

end Stage

namespace Connection

variable {α : Type} {operation : Operation} {es : List (Exchange interface)}

/-- An operation is announced before all else, and does not make the connection active. -/
structure Begins (operation : Operation) (es : List (Exchange interface)) (q : Request) :
    Prop where
  first : ∀ other, q = .started other → other = operation ∧ es = []
  inactive : q ≠ .entered .active

theorem begins_stream (q : OctetStream.Request) : Begins operation es (.stream q) := ⟨nofun, nofun⟩

theorem begins_entered {stage : Stage} (h : stage ≠ .active) :
    Begins operation es (.entered stage) := ⟨nofun, fun he => h (Request.entered.inj he)⟩

theorem begins_started : Begins operation [] (.started operation) :=
  ⟨fun _ h => ⟨(Request.started.inj h).symm, rfl⟩, nofun⟩

theorem heeds_stream {x : Action OctetStream.interface α}
    {P : Except Error α → List (Exchange interface) → Prop}
    (h : ∀ stream r, x.Ends stream r → P r (es ++ stream.map ofStream)) :
    Heeds (Begins operation) es (onStream x) P :=
  meets_onStream ⟨fun _ _ _ => begins_stream _, h⟩

theorem heeds_entered {stage : Stage} {P : Except Error Unit → List (Exchange interface) → Prop}
    (hs : stage ≠ .active) (h : P (.ok ()) (es ++ [⟨.entered stage, ()⟩])) :
    Heeds (Begins operation) es (entered stage) P :=
  heeds_ask (begins_entered hs) fun _ => h

theorem heeds_started {f : Unit → Action interface α}
    {P : Except Error α → List (Exchange interface) → Prop}
    (h : Heeds (Begins operation) [⟨.started operation, ()⟩] (f ()) P) :
    Heeds (Begins operation) [] (started operation >>= f) P :=
  heeds_bind (heeds_ask begins_started fun _ => h)

theorem heeds_orClosed {x : Action interface α}
    {P : Except Error α → List (Exchange interface) → Prop}
    (h : Heeds (Begins operation) es x fun r es' =>
      match r with
      | .ok a => P (.ok a) es'
      | .error e => P (.error e) (es' ++ [⟨.entered .closed, ()⟩])) :
    Heeds (Begins operation) es (orClosed x) P := by
  apply h.outcome_bind
  intro r es' hr
  cases r with
  | ok a => exact heeds_pure hr
  | error e =>
    apply heeds_bind
    apply heeds_entered (by decide)
    exact heeds_throw hr

/-- The ways in which a negotiation ends: the greeting is not read, or the reply to it is sent, or
some of the reply is missing. -/
inductive Negotiated (method : AuthMethod) :
    Except Error Unit → List (Exchange interface) → Prop where
  | unread {stream : List (Exchange OctetStream.interface)} {e : Error}
      (h : (Greeting.receive scratchSize).Ends stream (.error e)) :
      Negotiated method (.error e) (announced .negotiate stream ++ [⟨.entered .closed, ()⟩])
  | agreed {stream reply : List (Exchange OctetStream.interface)} {greeting : Greeting}
      (h : (Greeting.receive scratchSize).Ends stream (.ok greeting))
      (hs : sent reply = [protocolVersion, method.code]) :
      Negotiated method (.ok ())
        (announced .negotiate (stream ++ reply) ++ [⟨.entered .negotiated, ()⟩])
  | refused {stream reply : List (Exchange OctetStream.interface)} {greeting : Greeting}
      (h : (Greeting.receive scratchSize).Ends stream (.ok greeting))
      (hs : sent reply = [protocolVersion, AuthMethod.unacceptable.code]) :
      Negotiated method (.error .noAcceptableMethod)
        (announced .negotiate (stream ++ reply) ++ [⟨.entered .closed, ()⟩])
  | broken {stream reply : List (Exchange OctetStream.interface)} {greeting : Greeting}
      {code : UInt8} {rest : Bytes} {e : Error}
      (h : (Greeting.receive scratchSize).Ends stream (.ok greeting)) (hn : rest ≠ [])
      (hs : sent reply ++ rest = [protocolVersion, code]) :
      Negotiated method (.error e) (announced .negotiate (stream ++ reply))

theorem heeds_answer {method selected : AuthMethod}
    {stream : List (Exchange OctetStream.interface)} {greeting : Greeting}
    (h : (Greeting.receive scratchSize).Ends stream (.ok greeting)) :
    Heeds (Begins .negotiate) (announced .negotiate stream) (send (.method selected)) fun r es =>
      match r with
      | .ok _ => ∃ reply, sent reply = [protocolVersion, selected.code] ∧
          es = announced .negotiate (stream ++ reply)
      | .error e => Negotiated method (.error e) es := by
  apply heeds_stream
  rw [Reply.send_eq]
  intro reply r hr
  have hsent := (OctetStream.sendAll_meets [protocolVersion, selected.code]).2 reply r hr
  have hes : announced .negotiate stream ++ reply.map ofStream =
      announced .negotiate (stream ++ reply) := by simp [announced]
  cases r with
  | ok u => exact ⟨reply, hsent.2.2, hes⟩
  | error e =>
    obtain ⟨-, -, -, rest, hn, hs⟩ := hsent
    rw [hes]
    exact .broken h hn hs

theorem negotiate_heeds (method : AuthMethod) :
    Heeds (Begins .negotiate) [] (negotiate method) (Negotiated method) := by
  apply heeds_started
  apply Heeds.bind fun r es => match r with
    | .ok greeting => ∃ stream, (Greeting.receive scratchSize).Ends stream (.ok greeting) ∧
        es = announced .negotiate stream
    | .error e => Negotiated method (.error e) es
  · apply heeds_orClosed
    apply heeds_stream
    intro stream r h
    cases r with
    | ok greeting => exact ⟨stream, h, rfl⟩
    | error e => exact .unread h
  · intro e es h
    exact h
  rintro greeting es ⟨stream, hg, rfl⟩
  by_cases ho : greeting.offers method = true
  · simp only [ho, if_true]
    apply Heeds.bind _ (heeds_answer hg)
    · intro e es h
      exact h
    · rintro u es ⟨reply, hs, rfl⟩
      exact heeds_entered (by decide) (.agreed hg hs)
  · simp only [ho]
    apply Heeds.bind _ (heeds_answer hg)
    · intro e es h
      exact h
    · rintro u es ⟨reply, hs, rfl⟩
      apply heeds_bind
      apply heeds_entered (by decide)
      exact heeds_throw (.refused hg hs)

theorem ends_onStream {x : Action OctetStream.interface α} {r : Except Error α}
    {stream : List (Exchange OctetStream.interface)} (h : x.Ends stream r) :
    (onStream x).Ends (stream.map ofStream) r :=
  (Program.ends_embed_iff (fun _ _ => rfl) fun _ _ => rfl).2 ⟨stream, rfl, h⟩

theorem Negotiated.eq_of_unread {method : AuthMethod} {r : Except Error Unit} {e : Error}
    {stream : List (Exchange OctetStream.interface)} {rest : List (Exchange interface)}
    (h : Negotiated method r (announced .negotiate stream ++ rest))
    (he : (Greeting.receive scratchSize).Ends stream (.error e)) :
    r = .error e ∧ rest = [⟨.entered .closed, ()⟩] := by
  have hunread := ends_onStream he
  have hread : ∀ {stream' reply greeting} {more : List (Exchange interface)},
      (Greeting.receive scratchSize).Ends stream' (.ok greeting) →
        announced .negotiate stream ++ rest ≠ announced .negotiate (stream' ++ reply) ++ more := by
    intro stream' reply greeting more hg hes
    simp only [announced, List.map_append, List.cons_append, List.append_assoc,
      List.cons.injEq, true_and] at hes
    obtain ⟨-, -, hr⟩ := hunread.unique (ends_onStream hg) hes
    cases hr
  generalize hes : announced .negotiate stream ++ rest = es at h
  cases h with
  | unread h =>
    simp only [announced, List.cons_append, List.cons.injEq, true_and] at hes
    obtain ⟨-, hrest, hr⟩ := hunread.unique (ends_onStream h) hes
    injection hr with hr
    exact ⟨by rw [hr], hrest⟩
  | agreed hg hs => exact absurd hes (hread hg)
  | refused hg hs => exact absurd hes (hread hg)
  | broken hg hn hs => exact absurd (hes.trans (List.append_nil _).symm) (hread hg)

theorem Negotiated.after_of_ok {method : AuthMethod} {u : Unit} {es : List (Exchange interface)}
    (h : Negotiated method (.ok u) es) (s : Stage) : s.after es = .negotiated := by
  cases h with
  | agreed h hs => simp

theorem Negotiated.after_of_refusal {method : AuthMethod} {r : Except Error Unit}
    {es : List (Exchange interface)} (h : Negotiated method r es) (hm : method ≠ .unacceptable)
    (hs : sent es = [protocolVersion, AuthMethod.unacceptable.code]) (s : Stage) :
    s.after es = .closed := by
  have hread : ∀ {stream greeting}, (Greeting.receive scratchSize).Ends stream (.ok greeting) →
      sent stream = [] := by
    intro stream greeting hg
    exact Greeting.receive_reads.sent_of_follows hg
  cases h with
  | unread h => simp
  | refused h hs' => simp
  | agreed h hs' =>
    have hc : method.code = AuthMethod.unacceptable.code := by simpa [hread h, hs'] using hs
    cases method with
    | unacceptable => exact absurd rfl hm
    | _ => exact absurd hc (by decide)
  | broken h hn hs' =>
    simp only [sent_announced, sent_append, hread h, List.nil_append] at hs
    rw [hs] at hs'
    simp only [List.cons_append, List.nil_append, List.cons.injEq] at hs'
    exact absurd hs'.2.2 hn

theorem heeds_reading {x : Action interface α} (hx : x.Only fun q => ∃ r, q = Request.stream r) :
    Heeds (Begins operation) [⟨.started operation, ()⟩] x fun _ es =>
      ∀ s : Stage, s.after es = s := by
  apply heeds_of_only hx
  · rintro rest q - ⟨r, rfl⟩
    exact begins_stream r
  · intro rest r hrest s
    apply Stage.after_of_still
    intro e he next hq
    rcases List.mem_cons.1 he with rfl | he
    · cases hq
    · obtain ⟨r, hr⟩ := hrest e he
      rw [hr] at hq
      cases hq

theorem stream_onStream (x : Action OctetStream.interface α) :
    (onStream x).Only fun q => ∃ r, q = Request.stream r := by
  intro es q hq
  exact Program.asks_embed hq

theorem stream_subnegotiation (authenticator : Authenticator) :
    authenticator.subnegotiation.Only fun q => ∃ r, q = Request.stream r := by
  cases authenticator with
  | none => exact only_pure _
  | password user secret =>
    apply only_bind (stream_onStream _)
    intro credentials
    by_cases hv : Authenticator.verifies user secret credentials = true
    · simp only [hv, if_true]
      exact stream_onStream _
    · simp only [hv]
      exact only_bind (stream_onStream _) fun _ => only_throw _

/-- What an operation that reads leaves: the stage that it is for, or a closed connection. -/
def Leaves (stage : Stage) (r : Except Error α) (es : List (Exchange interface)) : Prop :=
  ∀ s : Stage, s.after es = match r with
    | .ok _ => stage
    | .error _ => .closed

theorem authenticate_heeds (authenticator : Authenticator) :
    Heeds (Begins .authenticate) [] (authenticate authenticator.subnegotiation)
      (Leaves .authenticated) := by
  apply heeds_started
  apply heeds_bind
  apply heeds_orClosed
  apply (heeds_reading (stream_subnegotiation authenticator)).mono
  intro r es h
  cases r with
  | ok u => exact heeds_entered (by decide) fun s => by simp
  | error e => exact fun s => by simp

theorem readCommand_heeds :
    Heeds (Begins .readCommand) [] readCommand (Leaves .commandParsed) := by
  apply heeds_started
  apply heeds_bind
  apply heeds_orClosed
  apply (heeds_reading (stream_onStream _)).mono
  intro r es h
  cases r with
  | ok request =>
    apply heeds_bind
    apply heeds_entered (by decide)
    exact heeds_pure fun s => by simp
  | error e => exact fun s => by simp

theorem relay_heeds : Heeds (Begins .relay) [] relay fun _ _ => True := by
  apply heeds_started
  apply heeds_bind
  apply heeds_ask ⟨nofun, nofun⟩
  intro answer
  exact heeds_entered (by decide) trivial

end Connection

namespace Session

open Connection

def connection? : Exchange interface → Option (Exchange Connection.interface)
  | ⟨.client q, answer⟩ => some ⟨q, answer⟩
  | _ => none

def OfNetwork (q : Request) : Prop := ∀ r, q ≠ .client r

def stage (es : List (Exchange interface)) : Stage := Stage.idle.after (es.filterMap connection?)

theorem stage_append_ofConnection (es : List (Exchange interface))
    (inner : List (Exchange Connection.interface)) :
    stage (es ++ inner.map ofConnection) = (stage es).after inner := by
  have hinner : (inner.map ofConnection).filterMap connection? = inner := by
    rw [List.filterMap_map]
    exact List.filterMap_some
  rw [stage, List.filterMap_append, Stage.after_append, hinner, stage]

theorem stage_append_of_network {es rest : List (Exchange interface)}
    (h : ∀ e ∈ rest, OfNetwork e.request) : stage (es ++ rest) = stage es := by
  have hrest : rest.filterMap connection? = [] := by
    apply List.filterMap_eq_nil_iff.2
    rintro ⟨q, answer⟩ he
    cases q with
    | client q => exact absurd rfl (h _ he q)
    | _ => rfl
  rw [stage, List.filterMap_append, hrest, List.append_nil, stage]

/-- A reply of success has just been sent, whole. -/
def Succeeded (es : List (Exchange interface)) : Prop :=
  ∃ before stream bound record, es = before ++ (announced .respond stream).map ofConnection ∧
    Address.record bound = .ok record ∧ sent stream = Reply.commandHeader .succeeded ++ record

/-- An operation may only be announced at its own stages, and the connection may only be made
active after a reply of success. -/
structure Ordered (es : List (Exchange interface)) (q : Request) : Prop where
  started : ∀ operation, q = .client (.started operation) → operation.mayBegin (stage es) = true
  active : q = .client (.entered .active) → Succeeded es

variable {α : Type} {es : List (Exchange interface)}

theorem ordered_network {q : Request} (h : OfNetwork q) : Ordered es q :=
  ⟨fun _ hq => absurd hq (h _), fun hq => absurd hq (h _)⟩

theorem ordered_started {operation : Operation} (hs : operation.mayBegin (stage es) = true) :
    Ordered es (.client (.started operation)) := by
  refine ⟨fun other ho => ?_, nofun⟩
  cases ho
  exact hs

theorem ordered_stream (q : OctetStream.Request) : Ordered es (.client (.stream q)) :=
  ⟨nofun, nofun⟩

theorem ordered_operation {operation : Operation} {x : Action Connection.interface α}
    {after : Except Error α → List (Exchange Connection.interface) → Prop}
    {P : Except Error α → List (Exchange interface) → Prop}
    (hx : Heeds (Begins operation) [] x after) (hs : operation.mayBegin (stage es) = true)
    (hp : ∀ inner r, after r inner → P r (es ++ inner.map ofConnection)) :
    Heeds Ordered es (onClient x) P := by
  apply heeds_onClient hx _ hp
  intro inner q hq
  refine ⟨fun other ho => ?_, fun ha => absurd (Request.client.inj ha) hq.inactive⟩
  obtain ⟨rfl, rfl⟩ := hq.first other (Request.client.inj ho)
  simpa using hs

theorem ordered_silent {x : Action interface α} (hx : x.Only OfNetwork) :
    Heeds Ordered es x fun _ es' => stage es' = stage es := by
  apply heeds_of_only hx
  · intro rest q _ hq
    exact ordered_network hq
  · intro rest r hrest
    exact stage_append_of_network hrest

theorem ordered_respond (bound : Address) (hs : Operation.respond.mayBegin (stage es) = true) :
    Heeds Ordered es (respond bound) fun r es' => ∀ u, r = .ok u → stage es' = .active := by
  cases hr : bound.record with
  | ok record =>
    apply heeds_onClient (respond_replying hr)
    · intro inner q hq
      cases hq with
      | started => exact ordered_started (by simpa using hs)
      | send hn hsent => exact ordered_stream _
      | @entered stream hsent =>
        exact ⟨nofun, fun _ => ⟨es, stream, bound, record, rfl, hr, hsent⟩⟩
    · intro inner r h u hu
      cases h with
      | whole hsent =>
        rw [stage_append_ofConnection]
        simp
      | broken hn hsent => cases hu
  | error e =>
    apply heeds_onClient (respond_failing hr)
    · rintro inner q ⟨rfl, rfl⟩
      exact ordered_started (by simpa using hs)
    · rintro inner r ⟨-, rfl⟩ u hu
      cases hu

theorem ordered_refuse (status : ReplyStatus) (e : Error) :
    Heeds Ordered es (refuse status e) fun _ _ => True := by
  apply heeds_onClient (refuse_replying status)
  · intro inner q hq
    cases hq with
    | started => exact ordered_started rfl
    | send hn hsent => exact ordered_stream _
    | entered hsent => exact ⟨nofun, nofun⟩
  · exact fun _ _ _ => trivial

theorem ordered_relay (hs : stage es = .active) :
    Heeds Ordered es (onClient relay) fun _ _ => True :=
  ordered_operation relay_heeds (by rw [hs]; rfl) fun _ _ _ => trivial

theorem ordered_closing {role : Role} {x : Action interface α}
    (h : Heeds Ordered es x fun _ _ => True) :
    Heeds Ordered es (closing role x) fun _ _ => True := by
  apply heeds_closing
  exact h.mono fun _ _ _ => ⟨ordered_network nofun, trivial⟩

theorem network_resolve (a : Address) : (resolve a).Only OfNetwork := by
  refine (only_resolve a).mono ?_
  rintro q ⟨name, rfl⟩
  exact nofun

theorem network_targetLocal : targetLocal.Only OfNetwork := only_attempt nofun

theorem network_listenerLocal : listenerLocal.Only OfNetwork := only_attempt nofun

theorem network_accept : accept.Only OfNetwork := only_attempt nofun

theorem network_keepAlive (interval : Nat) :
    (keepAlive interval).Only OfNetwork := by
  refine (only_keepAlive interval).mono ?_
  rintro q ⟨option, rfl⟩
  exact nofun

theorem ordered_respond_relay (bound : Address)
    (hs : Operation.respond.mayBegin (stage es) = true) :
    Heeds Ordered es (do respond bound; onClient relay) fun _ _ => True := by
  apply Heeds.bind _ (ordered_respond bound hs)
  · exact fun _ _ _ => trivial
  · intro u es' h
    exact ordered_relay (h u rfl)

theorem ordered_serveConnect (config : Configuration) (target : Address)
    (hs : stage es = .commandParsed) :
    Heeds Ordered es (serveConnect config target) fun _ _ => True := by
  have hdial : (dial config target).Only OfNetwork :=
    only_dial config target (fun _ => nofun) (fun _ => nofun) (fun _ => nofun) nofun
  apply (ordered_silent hdial).outcome_bind
  intro r es₁ h₁
  cases r with
  | error e => exact ordered_refuse _ e
  | ok u =>
    apply ordered_closing
    apply (ordered_silent network_targetLocal).outcome_bind
    intro r es₂ h₂
    cases r with
    | error e => exact ordered_refuse _ e
    | ok bound =>
      apply ordered_respond_relay
      rw [h₂, h₁, hs]
      rfl

theorem ordered_awaitPeer (config : Configuration) (hs : stage es = .commandParsed) :
    Heeds Ordered es (awaitPeer config) fun r es' =>
      ∀ peer, r = .ok (some peer) → stage es' = .active := by
  have hrefuse : ∀ e es', Heeds Ordered es' (do refuse .generalFailure e; return none)
      fun r es' => ∀ peer : SocketAddress, r = .ok (some peer) → stage es' = .active := by
    intro e es'
    apply Heeds.bind _ (ordered_refuse _ e)
    · exact fun _ _ _ => nofun
    · exact fun _ _ _ => heeds_pure nofun
  apply (ordered_silent network_listenerLocal).outcome_bind
  intro r es₁ h₁
  cases r with
  | error e => exact hrefuse e es₁
  | ok bound =>
    apply Heeds.bind _ (ordered_respond _ (by rw [h₁, hs]; rfl))
    · exact fun _ _ _ => nofun
    intro u es₂ h₂
    apply (ordered_silent network_accept).outcome_bind
    intro r es₃ h₃
    cases r with
    | error e => exact hrefuse e es₃
    | ok peer =>
      apply heeds_pure
      intro _ _
      rw [h₃, h₂ u rfl]

theorem ordered_serveBind (config : Configuration) (requested : Address)
    (hs : stage es = .commandParsed) :
    Heeds Ordered es (serveBind config requested) fun _ _ => True := by
  have hlisten : (do listen (← resolve requested) : Action interface Unit).Only OfNetwork :=
    only_bind (network_resolve requested) fun _ => only_attempt nofun
  apply (ordered_silent hlisten).outcome_bind
  intro r es₁ h₁
  cases r with
  | error e => exact ordered_refuse _ e
  | ok u =>
    apply Heeds.bind fun r es => ∀ peer, r = .ok (some peer) → stage es = .active
    · apply heeds_closing
      apply (ordered_awaitPeer config (h₁.trans hs)).mono
      intro r es₂ h₂
      refine ⟨ordered_network nofun, fun peer hp => ?_⟩
      rw [stage_append_of_network (by simp [OfNetwork]), h₂ peer hp]
    · exact fun _ _ _ => trivial
    intro peer es₂ h₂
    cases peer with
    | none => exact heeds_pure trivial
    | some peer =>
      apply ordered_closing
      apply Heeds.bind _ (ordered_silent (network_keepAlive _))
      · exact fun _ _ _ => trivial
      intro u es₃ h₃
      apply ordered_respond_relay
      rw [h₃, h₂ peer rfl]
      rfl

theorem ordered_serveCommand (config : Configuration) (request : CommandRequest)
    (hs : stage es = .commandParsed) :
    Heeds Ordered es (serveCommand config request) fun _ _ => True := by
  unfold serveCommand
  split
  case h_1 => exact ordered_serveConnect config _ hs
  case h_2 => exact ordered_serveBind config _ hs
  case h_3 => exact ordered_refuse _ _

theorem ordered_readCommand (hs : stage es = .authenticated) :
    Heeds Ordered es readCommand fun r es' => ∀ request, r = .ok request →
      stage es' = .commandParsed := by
  have hread : Heeds Ordered es (onClient Connection.readCommand) fun r es' =>
      ∀ request, r = .ok request → stage es' = .commandParsed := by
    apply ordered_operation Connection.readCommand_heeds (by rw [hs]; rfl)
    intro inner r h request hr
    rw [stage_append_ofConnection, h, hr]
  apply hread.outcome_bind
  intro r es₁ h₁
  cases r with
  | ok request => exact heeds_pure h₁
  | error e =>
    dsimp only
    split
    case h_1 status _ =>
      apply Heeds.bind _ (ordered_refuse status e)
      · exact fun _ _ _ => nofun
      · exact fun _ _ _ => heeds_throw nofun
    case h_2 => exact heeds_bind (heeds_pure (heeds_throw nofun))

theorem ordered_handle (config : Configuration) :
    Heeds Ordered [] (handle config) fun _ _ => True := by
  apply Heeds.bind fun r es => ∀ u, r = .ok u → stage es = .negotiated
  · apply ordered_operation (negotiate_heeds _) rfl
    rintro inner r h u rfl
    exact (stage_append_ofConnection [] inner).trans (h.after_of_ok _)
  · exact fun _ _ _ => trivial
  intro u es₁ h₁
  apply Heeds.bind fun r es => ∀ u, r = .ok u → stage es = .authenticated
  · apply ordered_operation (authenticate_heeds _) (by rw [h₁ u rfl]; rfl)
    rintro inner r h u rfl
    rw [stage_append_ofConnection, h]
  · exact fun _ _ _ => trivial
  intro u es₂ h₂
  apply Heeds.bind _ (ordered_readCommand (h₂ u rfl))
  · exact fun _ _ _ => trivial
  intro request es₃ h₃
  exact ordered_serveCommand config request (h₃ request rfl)

/-- A stage that has been reached was entered, and no stage since. -/
theorem exists_entered {es : List (Exchange interface)} {s : Stage} (hs : s ≠ .idle)
    (h : stage es = s) : ∃ before after, es = before ++ enters s :: after ∧
      ∀ e ∈ after, ∀ next, e.request ≠ .client (.entered next) := by
  -- From the last exchange backwards: it has entered the stage, or has left it as it was.
  induction es using List.reverseRecOn with
  | nil => exact absurd h.symm hs
  | append_singleton es e ih =>
    by_cases he : ∃ next, e.request = .client (.entered next)
    · obtain ⟨next, hq⟩ := he
      obtain ⟨q, answer⟩ := e
      obtain rfl : q = .client (.entered next) := hq
      obtain rfl : next = s := h ▸ (stage_append_ofConnection es [⟨.entered next, answer⟩]).symm
      exact ⟨es, [], rfl, by simp⟩
    · have hstill : stage (es ++ [e]) = stage es := by
        obtain ⟨q, answer⟩ := e
        cases q with
        | client q =>
          refine (stage_append_ofConnection es [⟨q, answer⟩]).trans (Stage.after_of_still ?_)
          intro d hd next hn
          obtain rfl := List.mem_singleton.1 hd
          exact he ⟨next, congrArg Request.client hn⟩
        | _ => exact stage_append_of_network (by simp [OfNetwork])
      obtain ⟨before, after, rfl, ha⟩ := ih (hstill ▸ h)
      refine ⟨before, after ++ [e], by simp, fun d hd next hn => ?_⟩
      rcases List.mem_append.1 hd with hd | hd
      · exact ha d hd next hn
      · obtain rfl := List.mem_singleton.1 hd
        exact he ⟨next, hn⟩

/-- The stages of a session: each operation begins at one of its own, the connection is active
just after a reply of success, and the failures of the operations that read leave it closed at
whatever stage they began. -/
structure Staged (config : Configuration) : Prop where
  begun : ∀ es operation, (handle config).Asks es (.client (.started operation)) →
    operation.mayBegin (stage es) = true
  active : ∀ es rest, (handle config).run.Follows es rest → stage es = .active →
    ∃ before after, Succeeded before ∧ es = before ++ enters .active :: after ∧
      ∀ e ∈ after, ∀ next, e.request ≠ .client (.entered next)
  unread : ∀ stream rest e r (s : Stage), (Greeting.receive scratchSize).Ends stream (.error e) →
    (negotiate config.authenticator.method).Ends (announced .negotiate stream ++ rest) r →
      r = .error e ∧ s.after (announced .negotiate stream ++ rest) = .closed
  refused : ∀ es r (s : Stage), (negotiate config.authenticator.method).Ends es r →
    sent es = [protocolVersion, AuthMethod.unacceptable.code] → s.after es = .closed
  unauthenticated : ∀ es e (s : Stage),
    (authenticate config.authenticator.subnegotiation).Ends es (.error e) → s.after es = .closed
  unparsed : ∀ es e (s : Stage), Connection.readCommand.Ends es (.error e) → s.after es = .closed

/-- No stage is skipped. -/
theorem handle_staged (config : Configuration) : Staged config := by
  have hordered := ordered_handle config
  constructor
  · intro es operation h
    exact (hordered.1 es _ h).started operation rfl
  · intro es rest h hs
    obtain ⟨before, after, rfl, ha⟩ := exists_entered (by decide) hs
    exact ⟨before, after, (hordered.1 before _ h.asks).active rfl, rfl, ha⟩
  · intro stream rest e r s he h
    obtain ⟨rfl, rfl⟩ := ((negotiate_heeds _).2 _ r h).eq_of_unread he
    exact ⟨rfl, by simp⟩
  · intro es r s h hs
    have hm : config.authenticator.method ≠ .unacceptable := by
      cases config.authenticator <;> simp [Authenticator.method]
    exact ((negotiate_heeds _).2 es r h).after_of_refusal hm hs s
  · intro es e s h
    exact (authenticate_heeds _).2 es _ h s
  · intro es e s h
    exact Connection.readCommand_heeds.2 es _ h s

example : (negotiate .password).Ends
    (announced .negotiate [⟨.receive 2, .ok ⟨[5, 1], by decide⟩⟩,
      ⟨.receive 1, .ok ⟨[0], by decide⟩⟩, ⟨.send [5, 255], .ok ⟨2, by decide⟩⟩] ++
        [⟨.entered .closed, ()⟩])
    (.error .noAcceptableMethod) := by decide +kernel

end Session

end SocksProxy
