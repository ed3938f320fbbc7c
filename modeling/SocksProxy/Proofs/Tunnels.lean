import SocksProxy.Proofs.AddressTexts
import SocksProxy.Proofs.Admission
import SocksProxy.Proofs.Dialogues
import SocksProxy.Proofs.RelayIntegrity

/-!
# A client is connected to its target

A client that sends what lets it through and a request to connect, whatever follows it at once,
is sent the replies of negotiation, authentication and the command, and no octet more, before the
relay starts. All that it has sent after the request is left for the relay, which carries it to
the target as it carries back what the target sends.
-/

namespace SocksProxy

open SocksProxy.Action OctetStream

namespace Connection

variable {α β : Type}

def Fair (ended : Prop) : Exchange interface → Prop
  | ⟨.stream q, answer⟩ => Flows ⟨q, answer⟩
  | ⟨.relay, _⟩ => ended
  | _ => True

/-- A part of a conversation that leads to the relay. -/
abbrev Talks (ended : Prop) (x : Action interface α) (heard said : Bytes)
    (outcome : Except Error α → Prop) : Prop :=
  Dialogue (Fair ended) (· = .relay) x heard said outcome

variable {ended : Prop} {x : Action interface α} {heard said : Bytes} {a : α}

theorem talks_onStream {x : Action OctetStream.interface α} {outcome : Except Error α → Prop}
    (h : Plain x heard said outcome) : Talks ended (onStream x) heard said outcome :=
  h.embed (fun _ _ => rfl) (fun _ _ => rfl) (fun _ => rfl) (fun _ h => h) nofun
    fun _ => awaitsInput_of_stream

theorem only_onStream (x : Action OctetStream.interface α) :
    (onStream x).Only (· ≠ Request.relay) := by
  intro es q hq
  obtain ⟨r, rfl⟩ := Program.asks_embed hq
  exact nofun

theorem talks_started (operation : Operation) :
    Talks ended (started operation) [] [] (· = .ok ()) :=
  (dialogue_ask (fun ⟨_, h⟩ => nomatch h) fun _ => rfl).mono fun _ ⟨_, _, h⟩ => h

theorem talks_entered (stage : Stage) : Talks ended (entered stage) [] [] (· = .ok ()) :=
  (dialogue_ask (fun ⟨_, h⟩ => nomatch h) fun _ => rfl).mono fun _ ⟨_, _, h⟩ => h

theorem talks_send {reply : Reply} {octets : Bytes} (h : reply.octets = .ok octets) :
    Talks ended (send reply) [] octets (· = .ok ()) := talks_onStream (plain_send h)

theorem talks_orClosed (h : Talks ended x heard said (· = .ok a)) :
    Talks ended (orClosed x) heard said (· = .ok a) :=
  h.attempted_eq.andThenSilent (dialogue_pure rfl)

theorem only_orClosed (h : x.Only (· ≠ Request.relay)) : (orClosed x).Only (· ≠ Request.relay) := by
  refine only_bind (only_outcome h) fun r => ?_
  cases r with
  | ok a => exact only_pure a
  | error e => exact only_bind (only_ask nofun) fun _ => only_throw e

theorem talks_started_bind {operation : Operation} {f : Unit → Action interface β}
    {outcome : Except Error β → Prop} (h : Talks ended (f ()) heard said outcome) :
    Talks ended (started operation >>= f) heard said outcome :=
  (talks_started operation).andThen (only_ask nofun) h

theorem talks_reply {reply : Reply} {octets : Bytes} {stage : Stage}
    (h : reply.octets = .ok octets) :
    Talks ended (do send reply; entered stage) [] octets (· = .ok ()) :=
  (talks_send h).andThenSilent (talks_entered stage)

theorem talks_negotiate {method : AuthMethod} {greeting : Greeting} {octets : Bytes}
    (h : greeting.Frame octets) (ho : greeting.offers method = true) :
    Talks ended (negotiate method) octets [protocolVersion, method.code] (· = .ok ()) := by
  have hread : Talks ended (onStream (Greeting.receive scratchSize)) octets []
      (· = .ok greeting) := talks_onStream (Greeting.receive_reads.plain h)
  refine talks_started_bind ((talks_orClosed hread).answered (only_orClosed (only_onStream _)) ?_)
  simp only [ho, if_true]
  exact talks_reply rfl

theorem talks_subnegotiation {authenticator : Authenticator} {octets : Bytes}
    (h : authenticator.Passes octets) :
    Talks ended authenticator.subnegotiation octets authenticator.approval (· = .ok ()) := by
  cases authenticator with
  | none =>
    obtain rfl : octets = [] := h
    exact dialogue_pure rfl
  | password user secret =>
    have hframe : (⟨Utf8.encode user, Utf8.encode secret⟩ : Credentials).Frame octets := h
    have hread : Talks ended (onStream (Credentials.receive scratchSize)) octets []
        (· = .ok ⟨Utf8.encode user, Utf8.encode secret⟩) :=
      talks_onStream (Credentials.receive_reads.plain hframe)
    refine hread.answered (only_onStream _) ?_
    have hv : Authenticator.verifies user secret ⟨Utf8.encode user, Utf8.encode secret⟩ = true := by
      simp [Authenticator.verifies]
    simp only [hv, if_true]
    exact talks_send rfl

theorem talks_authenticate {authenticator : Authenticator} {octets : Bytes}
    (h : authenticator.Passes octets) :
    Talks ended (authenticate authenticator.subnegotiation) octets authenticator.approval
      (· = .ok ()) :=
  talks_started_bind ((talks_orClosed (talks_subnegotiation h)).andThenSilent (talks_entered _))

theorem talks_readCommand {request : CommandRequest} {octets : Bytes} (h : request.Frame octets) :
    Talks ended readCommand octets [] (· = .ok request) :=
  talks_started_bind
    ((talks_orClosed (talks_onStream (CommandRequest.receive_reads.plain h.taken))).andThenSilent
      ((talks_entered _).andThenSilent (dialogue_pure rfl)))

theorem talks_respond {bound : Address} {record : Bytes} (h : bound.record = .ok record) :
    Talks ended (respond .succeeded bound) [] (Reply.commandHeader .succeeded ++ record)
      (· = .ok ()) :=
  talks_started_bind (talks_reply (Reply.octets_command h))

theorem talks_relay : Talks ended relay [] [] fun r => r = .ok () ∧ ended := by
  refine talks_started_bind ?_
  have hrelay : Talks ended (ask (I := interface) .relay) [] [] fun r => ended ∧ ∃ a, r = .ok a :=
    (dialogue_ask (fun ⟨_, h⟩ => nomatch h) fun _ => rfl).mono fun _ ⟨a, ho, h⟩ => ⟨ho, a, h⟩
  refine hrelay.bind (.inr ⟨rfl, rfl⟩) (fun _ ⟨_, _, h⟩ => nomatch h) fun _ ⟨ho, _⟩ => ?_
  exact (talks_entered _).mono fun _ h => ⟨h, ho⟩

end Connection

namespace Session

variable {α β : Type}

/-- The client's stream flows, and the network answers as `net` does. -/
def Fair (net : ∀ q, Answer q) (ended : Prop) : Exchange interface → Prop
  | ⟨.client q, answer⟩ => Connection.Fair ended ⟨q, answer⟩
  | e => e.answer = net e.request

abbrev Talks (net : ∀ q, Answer q) (ended : Prop) (x : Action interface α) (heard said : Bytes)
    (outcome : Except Error α → Prop) : Prop :=
  Dialogue (Fair net ended) (· = .client .relay) x heard said outcome

variable {net : ∀ q, Answer q} {ended : Prop} {x : Action interface α} {heard said : Bytes}

theorem talks_onClient {x : Action Connection.interface α} {outcome : Except Error α → Prop}
    (h : Connection.Talks ended x heard said outcome) :
    Talks net ended (onClient x) heard said outcome := by
  refine h.embed (fun _ _ => rfl) (fun _ _ => rfl) stream?_ofConnection (fun _ h => h) ?_
    fun _ => awaitsInput_of_client
  intro q hq
  cases hq
  rfl

theorem talks_network (net : ∀ q, Answer q) (h : x.Only fun q => ∀ r, q ≠ Request.client r) :
    Talks net ended x [] [] (· = x.run.eval net) := by
  have hstream : ∀ e : Exchange interface, (∀ r, e.request ≠ .client r) →
      Interface.Streamed.stream? e = none := by
    rintro ⟨q, answer⟩ hq
    cases q with
    | client r => exact absurd rfl (hq r)
    | _ => rfl
  refine dialogue_silent (fun es q hq => ⟨?_, fun e he => ?_⟩) (fun es r hr e he => ?_) ?_
  · rintro ⟨limit, rfl⟩
    exact h es _ hq _ rfl
  · obtain ⟨next, hn⟩ := hq
    exact hstream e (h.mem hn e he)
  · exact hstream e (h.mem hr e he)
  · intro es r hr hf
    refine Program.eq_eval_of_ends hr fun e he => ?_
    have hne := h.mem hr e he
    have hfair := hf e he
    obtain ⟨q, answer⟩ := e
    cases q with
    | client r => exact absurd rfl (hne r)
    | _ => exact hfair

theorem talks_closing {role : Role} {outcome : Except Error α → Prop}
    (h : Talks net ended x heard said outcome) :
    Talks net ended (closing role x) heard said outcome := by
  have hclose : ∀ r, outcome r →
      Talks net ended (do close role; ExceptT.mk (.done r)) [] [] outcome :=
    fun r hr => (dialogue_ask (fun ⟨_, h⟩ => nomatch h) fun _ => rfl).bind (.inr ⟨rfl, rfl⟩)
      (fun _ ⟨_, _, h⟩ => nomatch h) fun _ _ => dialogue_result hr
  have hall : Talks net ended (closing role x) (heard ++ []) (said ++ []) outcome := by
    refine h.attempted.bind (.inr ⟨rfl, rfl⟩) (fun _ ⟨_, h, _⟩ => nomatch h) fun o ⟨r, ho, hr⟩ => ?_
    cases ho
    exact hclose o hr
  rwa [List.append_nil, List.append_nil] at hall

theorem only_client_of_makes {x : Action Connection.interface α}
    {operation : Connection.Operation} {replies : List Bytes} {stages : List Stage}
    (h : x.Only (Connection.Makes operation replies stages)) :
    (onClient x).Only (· ≠ Request.client .relay) := by
  refine only_onClient (h.mono fun q hq he => ?_)
  cases he
  cases hq

theorem talks_serveConnect {config : Configuration} {target : Address} {a : SocketAddress}
    {record : Bytes} (hd : (dial config target).run.eval net = .ok ())
    (hl : net .targetLocal = .ok a) (hr : (config.boundAddress a).record = .ok record) :
    Talks net ended (serveConnect config target) [] (Reply.commandHeader .succeeded ++ record)
      fun r => r = .ok () ∧ ended := by
  have honly : (dial config target).Only fun q => ∀ r, q ≠ Request.client r :=
    only_dial config target (fun _ => nofun) (fun _ => nofun) (fun _ => nofun) nofun
  have hdial := (@talks_network _ ended _ net honly).attempted_eq
  rw [hd] at hdial
  refine hdial.andThen (only_outcome (honly.mono fun q h => h _)) ?_
  have hlocal : Talks net ended targetLocal.outcome [] [] (· = .ok (.ok a)) := by
    have h : Talks net ended targetLocal [] [] (· = targetLocal.run.eval net) :=
      talks_network net (only_attempt nofun)
    have he : targetLocal.run.eval net = .ok a := by
      change (Except.mapError Error.io (net .targetLocal)) = .ok a
      rw [hl]
      rfl
    rw [he] at h
    exact h.attempted_eq
  refine talks_closing (hlocal.andThen (only_outcome (only_attempt nofun)) ?_)
  exact (talks_onClient (Connection.talks_respond hr)).andThenSilent
    (talks_onClient Connection.talks_relay)

def opened (config : Configuration) (record : Bytes) : Bytes :=
  [protocolVersion, config.authenticator.method.code] ++ config.authenticator.approval ++
    (Reply.commandHeader .succeeded ++ record)

theorem talks_readRequest {config : Configuration} {opening : Bytes} {request : CommandRequest}
    (h : Admitted config opening request) :
    Talks net ended (readRequest config) opening
      ([protocolVersion, config.authenticator.method.code] ++ config.authenticator.approval)
      (· = .ok request) := by
  obtain ⟨greeting, selection, pass, frame, rfl, hg, ho, hp, hf⟩ := h
  have hnegotiate := @talks_onClient _ net ended _ _ _ _ (Connection.talks_negotiate hg ho)
  have hauthenticate := @talks_onClient _ net ended _ _ _ _ (Connection.talks_authenticate hp)
  have hcommand := @talks_onClient _ net ended _ _ _ _ (Connection.talks_readCommand hf)
  have hread : Talks net ended readCommand frame [] (· = .ok request) :=
    hcommand.attempted_eq.andThenSilent (dialogue_pure rfl)
  have hrest : Talks net ended (do
      onClient (Connection.authenticate config.authenticator.subnegotiation)
      readCommand) (pass ++ frame) (config.authenticator.approval ++ []) (· = .ok request) :=
    hauthenticate.andThen (only_client_of_makes (Connection.authenticate_meets _).only) hread
  have hall : Talks net ended (readRequest config) _ _ (· = .ok request) :=
    hnegotiate.andThen (only_client_of_makes (Connection.negotiate_meets _).only) hrest
  simpa only [List.append_assoc, List.append_nil] using hall

theorem only_readRequest (config : Configuration) :
    (readRequest config).Only (· ≠ Request.client .relay) := by
  refine (readRequest_meets config).only.mono fun q hq he => ?_
  subst he
  cases hq

theorem talks_handle {config : Configuration} {opening record : Bytes} {request : CommandRequest}
    {a : SocketAddress} (h : Admitted config opening request) (hc : request.command = .connect)
    (hallow : config.allows .connect = true)
    (hd : (dial config request.target).run.eval net = .ok ()) (hl : net .targetLocal = .ok a)
    (hr : (config.boundAddress a).record = .ok record) :
    Talks net ended (handle config) opening (opened config record) fun r => r = .ok () ∧ ended := by
  rw [handle_eq]
  have hserve : serveCommand config request = serveConnect config request.target := by
    simp [serveCommand, hc, hallow]
  have hall := (talks_readRequest h).andThen (only_readRequest config)
    (hserve ▸ @talks_serveConnect net ended _ _ _ _ hd hl hr)
  rwa [List.append_nil] at hall

/-- A moment of a session, with what its relay has done by then: it is not there yet, it goes on,
or it is over and its result is known to the session. -/
inductive Moment (x : Action interface Unit) :
    List (Exchange interface) → Relay → List (Direction × Pipe.Act) → Prop where
  | before {es : List (Exchange interface)} {rest : Program interface (Except Error Unit)}
      (h : Program.Follows x.run es rest) : Moment x es .start []
  | during {es : List (Exchange interface)} {relay : Relay} {log : List (Direction × Pipe.Act)}
      (h : x.Asks es (.client .relay)) (hr : Relay.Reached relay log) : Moment x es relay log
  | after {es more : List (Exchange interface)} {relay : Relay} {log : List (Direction × Pipe.Act)}
      {result : Except IoError (Nat × Nat)} {rest : Program interface (Except Error Unit)}
      (h : Program.Follows x.run (es ++ ⟨.client .relay, result⟩ :: more) rest)
      (hr : Relay.Reached relay log) (ho : relay.result? = some result) :
      Moment x (es ++ ⟨.client .relay, result⟩ :: more) relay log

section

variable {y : Action interface Unit} {es : List (Exchange interface)} {relay : Relay}
  {log : List (Direction × Pipe.Act)}

theorem Moment.follows (h : Moment y es relay log) :
    ∃ rest, Program.Follows y.run es rest := by
  cases h with
  | before h => exact ⟨_, h⟩
  | during h _ =>
    obtain ⟨next, hn⟩ := h
    exact ⟨_, hn⟩
  | after h _ _ => exact ⟨_, h⟩

theorem Moment.reached (h : Moment y es relay log) : Relay.Reached relay log := by
  cases h with
  | before _ => exact .start
  | during _ hr => exact hr
  | after _ hr _ => exact hr

theorem Moment.complete {said tail : Bytes} {outcome : Except Error Unit → Prop}
    (h : Moment y es relay log) (hy : Talks net ended y heard said outcome)
    (hf : ∀ e ∈ es, Fair net ended e) (hp : received es <+: heard ++ tail) (hl : log ≠ []) :
    received es = heard ∧ sent es = said := by
  cases h with
  | before _ => exact absurd rfl hl
  | during h _ =>
    obtain ⟨-, -, -, hdone⟩ := hy.asks tail es _ h hf hp
    exact hdone rfl
  | after h _ _ => exact hy.after_milestone h rfl hf hp

theorem Fair.unended {e : Exchange interface} (h : Fair net True e)
    (hn : e.request ≠ .client .relay) : Fair net False e := by
  obtain ⟨q, answer⟩ := e
  cases q with
  | client q =>
    cases q with
    | relay => exact absurd rfl hn
    | _ => exact h
  | _ => exact h

/-- Without an answer of the relay the session cannot have ended. -/
theorem Moment.goesOn {said tail : Bytes} (h : Moment y es relay log)
    (hy : Talks net False y heard said fun r => r = .ok () ∧ False)
    (hf : ∀ e ∈ es, Fair net True e) (hp : received es <+: heard ++ tail)
    (hn : ∀ e ∈ es, e.request ≠ .client .relay) :
    ∃ q, y.Asks es q ∧ (AwaitsInput q → received es ≠ heard) ∧
      (q = .client .relay → received es = heard ∧ sent es = said) := by
  have hfair : ∀ e ∈ es, Fair net False e := fun e he => (hf e he).unended (hn e he)
  obtain ⟨rest, hfollows⟩ := h.follows
  cases rest with
  | done r => exact absurd (hy.ends tail es r hfollows hfair hp).1.2 id
  | ask q next =>
    have hasks : y.Asks es q := ⟨next, hfollows⟩
    obtain ⟨-, -, hwaits, hdone⟩ := hy.asks tail es q hasks hfair hp
    exact ⟨q, hasks, hwaits, hdone⟩

end

/-- What a client and its target have got at a moment, if the client sends `opening` and then
`payload`, and the target sends `answer`. -/
structure Tunnelled (config : Configuration) (opening payload answer record : Bytes)
    (es : List (Exchange interface)) (relay : Relay) (log : List (Direction × Pipe.Act)) :
    Prop where
  /-- The session reads no octet of the payload, and sends its replies in order. -/
  kept : received es <+: opening
  replies : sent es <+: opened config record
  /-- The relay comes after all of the replies. -/
  separate : log ≠ [] → received es = opening ∧ sent es = opened config record
  /-- Up to the relay the session goes on, and waits for the client only for what is missing. -/
  goesOn : (∀ e ∈ es, e.request ≠ .client .relay) → ∃ q, (handle config).Asks es q ∧
    (AwaitsInput q → received es ≠ opening) ∧
      (q = .client .relay → received es = opening ∧ sent es = opened config record)
  toTarget : Relay.given .outward log <+: payload
  fromTarget : Relay.given .inward log <+: answer
  toClient : sent es ++ Relay.given .inward log <+: opened config record ++ answer
  /-- A direction that waits, when there is nothing left to be read, has carried everything. -/
  allToTarget : (relay.pipe .outward).phase = .receiving →
    received es ++ Relay.taken .outward log = opening ++ payload →
      Relay.given .outward log = payload
  allToClient : (relay.pipe .inward).phase = .receiving → Relay.taken .inward log = answer →
    Relay.given .inward log = answer

/-- A client that asks for a connection to a target that can be dialled is told of it, and is
connected to it. The result of the relay is not restricted. -/
theorem tunnelled_of_dialled {config : Configuration} {opening payload answer : Bytes}
    {request : CommandRequest} {a : SocketAddress} {es : List (Exchange interface)} {relay : Relay}
    {log : List (Direction × Pipe.Act)} (h : Admitted config opening request)
    (hc : request.command = .connect) (hallow : config.allows .connect = true)
    (hd : (dial config request.target).run.eval net = .ok ()) (hl : net .targetLocal = .ok a)
    (ha : ¬ a.Scoped) (hm : Moment (handle config) es relay log) (hf : ∀ e ∈ es, Fair net True e)
    (hp : received es ++ Relay.taken .outward log <+: opening ++ payload)
    (hq : Relay.taken .inward log <+: answer) :
    ∃ record, (config.boundAddress a).record = .ok record ∧
      Tunnelled config opening payload answer record es relay log := by
  obtain ⟨record, hr⟩ := (config.exists_record_boundAddress_iff a).2 fun hs => absurd hs ha
  have htalks : ∀ ended, Talks net ended (handle config) opening (opened config record)
      fun r => r = .ok () ∧ ended := fun ended => talks_handle h hc hallow hd hl hr
  have hreceived : received es <+: opening ++ payload := (List.prefix_append _ _).trans hp
  obtain ⟨rest, hfollows⟩ := hm.follows
  obtain ⟨hopening, hreplies⟩ := (htalks True).follows hfollows hf hreceived
  have hcomplete := hm.complete (htalks True) hf hreceived
  have hreached := hm.reached
  have hgiven := hreached.given_prefix
  have houtward : Relay.taken .outward log <+: payload := by
    by_cases hlog : log = []
    · subst hlog
      exact List.nil_prefix
    · rw [(hcomplete hlog).1] at hp
      exact (List.prefix_append_right_inj opening).1 hp
  have hinward : Relay.given .inward log <+: answer := (hgiven .inward).trans hq
  refine ⟨record, hr, hopening, hreplies, hcomplete, hm.goesOn (htalks False) hf hreceived,
    (hgiven .outward).trans houtward, hinward, ?_, ?_, ?_⟩
  · by_cases hlog : log = []
    · subst hlog
      exact (List.append_nil (sent es)).symm ▸ hreplies.trans (List.prefix_append _ _)
    · rw [(hcomplete hlog).2]
      exact (List.prefix_append_right_inj _).2 hinward
  · intro hphase hall
    rw [hreached.given_eq_of_receiving hphase]
    refine houtward.eq_of_length_le ?_
    have hle := hopening.length_le
    have hlength := congrArg List.length hall
    simp only [List.length_append] at hlength
    omega
  · intro hphase hall
    rw [hreached.given_eq_of_receiving hphase, hall]

def reachable : ∀ q, Answer q
  | .client (.stream (.receive _)) | .client (.stream (.send _)) => .error (.raised .writeZero)
  | .client (.started _) | .client (.entered _) | .close _ => ()
  | .client .relay => .error (.raised .writeZero)
  | .clientPeer | .clientLocal | .accept | .targetLocal | .listenerLocal =>
    .ok (.v4 ⟨10, 0, 0, 2⟩ 4000)
  | .lookup _ => .ok []
  | .connect _ | .listen _ | .setOption _ => .ok ()

def dialled : List (Exchange interface) :=
  connectOpening ++ [⟨.connect (.v4 ⟨127, 0, 0, 1⟩ 80), .ok ()⟩,
    ⟨.targetLocal, .ok (.v4 ⟨10, 0, 0, 2⟩ 4000)⟩, starts .respond,
    takes 10 [5, 0, 0, 1, 10, 0, 0, 2, 15, 160], enters .active, starts .relay]

def carried : List (Direction × Pipe.Act) :=
  [(.outward, .read [97, 98]), (.inward, .read [120]), (.outward, .wrote [97]),
    (.inward, .wrote [120]), (.outward, .wrote [98])]

theorem reached_carried : Relay.Reached ⟨⟨.receiving, 2⟩, ⟨.receiving, 1⟩⟩ carried := by
  have h₁ := @Relay.Reached.step _ _ .outward (.read [97, 98]) .start rfl
    ⟨rfl, by decide, by decide⟩
  have h₂ := @Relay.Reached.step _ _ .inward (.read [120]) h₁ rfl ⟨rfl, by decide, by decide⟩
  have h₃ := @Relay.Reached.step _ _ .outward (.wrote [97]) h₂ rfl ⟨_, _, rfl, [98], rfl⟩
  have h₄ := @Relay.Reached.step _ _ .inward (.wrote [120]) h₃ rfl ⟨_, _, rfl, [], rfl⟩
  exact @Relay.Reached.step _ _ .outward (.wrote [98]) h₄ rfl ⟨_, _, rfl, [], rfl⟩

theorem tunnelled_carried :
    Moment (handle withPassword) dialled ⟨⟨.receiving, 2⟩, ⟨.receiving, 1⟩⟩ carried ∧
      ∃ record, (withPassword.boundAddress (.v4 ⟨10, 0, 0, 2⟩ 4000)).record = .ok record ∧
        Tunnelled withPassword (received connectOpening) [97, 98] [120] record dialled
          ⟨⟨.receiving, 2⟩, ⟨.receiving, 1⟩⟩ carried := by
  have hasks : (handle withPassword).Asks dialled (.client .relay) := by decide +kernel
  have hmoment := Moment.during hasks reached_carried
  have hadmitted : Admitted withPassword (received connectOpening)
      ⟨.connect, ⟨.ipv4, "127.0.0.1:80".toList⟩⟩ := by
    refine ⟨⟨[0, 2]⟩, [5, 2, 0, 2], [1, 1, 117, 1, 112], [5, 1, 0, 1, 127, 0, 0, 1, 0, 80], rfl,
      ⟨2, rfl, rfl⟩, rfl, ⟨1, 1, rfl, rfl, rfl⟩, ?_⟩
    exact ⟨1, 0, [1, 127, 0, 0, 1, 0, 80], rfl, by decide, rfl⟩
  have hfair : ∀ e ∈ dialled, Fair reachable True e := by
    simp [dialled, connectOpening, starts, gives, takes, enters, Fair, Connection.Fair,
      OctetStream.Flows, reachable]
  refine ⟨hmoment, tunnelled_of_dialled hadmitted rfl (by decide) (by decide +kernel) rfl id
    hmoment hfair ?_ ?_⟩
  · decide
  · decide

end Session

end SocksProxy
