import SocksProxy.Proofs.InputTranscripts
import SocksProxy.Proofs.Admission

/-!
# What a refused client is told

If no connection that is made and no listener can tell its address, no client gets what it asks
for. What it is sent then depends on the configuration, on its input and on whether its target has
been dialled: `Session.transcript` gives every octet, however the input comes and wherever it ends.
-/

namespace SocksProxy

open SocksProxy.Action OctetStream

def nothing (_ : Error) : Bytes := []

/-- What a client is sent of the methods that it offers, up to what comes `after` that. -/
def selection (method : AuthMethod) (after : Bytes → Bytes) (input : Bytes) : Bytes :=
  told nothing (fun greeting rest =>
    if greeting.offers method then [5, method.code] ++ after rest else [5, 0xff])
    (Greeting.parse? input)

def subnegotiation (after : Bytes → Bytes) : Authenticator → Bytes → Bytes
  | .none, input => after input
  | .password user secret, input =>
    told nothing (fun credentials rest =>
      if credentials = ⟨Utf8.encode user, Utf8.encode secret⟩ then [1, 0] ++ after rest
      else [1, 1]) (Credentials.parse? input)

def refusal (status : ReplyStatus) : Bytes := [5, status.code, 0, 1, 0, 0, 0, 0, 0, 0]

def unread : Error → Bytes
  | .addressTypeNotSupported _ => refusal .addressTypeNotSupported
  | .invalidAddress _ => refusal .hostUnreachable
  | _ => []

def unserved (status : Command → ReplyStatus) (input : Bytes) : Bytes :=
  told unread (fun request _ => refusal (status request.command)) (CommandRequest.parse? input)

namespace Connection

variable {α : Type} {x : Action interface α} {f : Unit → Action interface α}
  {transcript after : Bytes → Bytes} {next : Except Error α → Bytes → Bytes}

theorem transcribes_onStream {x : Action OctetStream.interface α}
    (h : Transcribes x transcript next) : Transcribes (onStream x) transcript next :=
  h.embed (fun _ _ => rfl) (fun _ _ => rfl) (fun _ => rfl) fun _ => awaitsInput_of_stream

theorem says_send {reply : Reply} {octets : Bytes} (h : reply.octets = .ok octets) :
    Says (send reply) octets := by
  intro next
  rw [send, Reply.send_eq, h]
  exact transcribes_onStream (says_sendAll octets next)

theorem says_started (operation : Operation) : Says (started operation) [] :=
  fun _ _ => course_ask (fun ⟨_, h⟩ => nomatch h) (fun _ => rfl) fun _ => rfl

theorem says_entered (stage : Stage) : Says (entered stage) [] :=
  fun _ _ => course_ask (fun ⟨_, h⟩ => nomatch h) (fun _ => rfl) fun _ => rfl

theorem transcribes_orClosed (h : Transcribes x transcript next) :
    Transcribes (orClosed x) transcript next := by
  refine h.outcome_bind fun r => ?_
  cases r with
  | ok a => exact transcribes_pure rfl
  | error e => exact (says_entered _).bind (transcribes_throw rfl)

theorem transcribes_negotiate (method : AuthMethod) :
    Transcribes (negotiate method) (selection method after) (following nothing fun _ => after) := by
  refine (says_started _).bind ((transcribes_orClosed (transcribes_onStream
    (Greeting.receive_reads.transcribes Greeting.parse?_decides fun _ => rfl))).bind
      (fun _ _ => rfl) fun greeting => ?_)
  by_cases ho : greeting.offers method = true
  · simp only [following, ho, if_true]
    exact (says_send rfl).bind ((says_entered _).finally rfl)
  · simp only [following, ho]
    change Transcribes _ (fun _ => [5, 0xff] ++ []) _
    exact (says_send rfl).bind ((says_entered _).bind (transcribes_throw rfl))

theorem transcribes_subnegotiation (authenticator : Authenticator) :
    Transcribes authenticator.subnegotiation (subnegotiation after authenticator)
      (following nothing fun _ => after) := by
  cases authenticator with
  | none => exact transcribes_pure rfl
  | password user secret =>
    refine (transcribes_onStream
      (Credentials.receive_reads.transcribes Credentials.parse?_decides fun _ => rfl)).bind
        (fun _ _ => rfl) fun credentials => ?_
    by_cases hv : credentials = ⟨Utf8.encode user, Utf8.encode secret⟩
    · simp only [following, hv, Authenticator.verifies, BEq.rfl, Bool.and_self, if_true]
      exact (says_send rfl).finally rfl
    · have hn : Authenticator.verifies user secret credentials ≠ true :=
        fun h => hv (Authenticator.eq_of_verifies h)
      simp only [following, hv, hn]
      change Transcribes _ (fun _ => [1, 1] ++ []) _
      exact (says_send rfl).bind (transcribes_throw rfl)

theorem transcribes_authenticate (authenticator : Authenticator) :
    Transcribes (authenticate authenticator.subnegotiation) (subnegotiation after authenticator)
      (following nothing fun _ => after) :=
  (says_started _).bind ((transcribes_orClosed (transcribes_subnegotiation authenticator)).bind
    (fun _ _ => rfl) fun _ => (says_entered _).finally rfl)

theorem transcribes_readCommand {failure : Error → Bytes} {success : CommandRequest → Bytes → Bytes}
    (hf : ∀ e, failure (.io e) = []) :
    Transcribes readCommand (fun input => told failure success (CommandRequest.parse? input))
      (following failure success) :=
  (says_started _).bind ((transcribes_orClosed (transcribes_onStream
    (CommandRequest.receive_reads.transcribes CommandRequest.parse?_decides hf))).bind
      (fun _ _ => rfl) fun _ => (says_entered _).bind (transcribes_pure rfl))

theorem says_refuse (status : ReplyStatus) : Says (refuse status) (refusal status) :=
  (says_started _).andThen ((says_send (Reply.octets_failure status)).andThen (says_entered _))

end Connection

namespace Session

section

variable {α : Type} {transcript : Bytes → Bytes} {next : Except Error α → Bytes → Bytes}

theorem transcribes_onClient {x : Action Connection.interface α}
    (h : Transcribes x transcript next) : Transcribes (onClient x) transcript next :=
  h.embed (fun _ _ => rfl) (fun _ _ => rfl) stream?_ofConnection fun _ => awaitsInput_of_client

theorem says_refuse (status : ReplyStatus) (e : Error) : Says (refuse status e) (refusal status) :=
  fun next => transcribes_onClient (Connection.says_refuse status next)

theorem unread_eq (e : Error) : unread e = ((malformedStatus e).map refusal).getD [] := by
  cases e <;> rfl

theorem transcribes_readCommand (status : Command → ReplyStatus) :
    Transcribes readCommand (unserved status)
      (following nothing fun request _ => refusal (status request.command)) := by
  refine (transcribes_onClient
    (Connection.transcribes_readCommand fun _ => rfl)).outcome_bind fun r => ?_
  cases r with
  | ok request => exact transcribes_pure rfl
  | error e =>
    simp only [following, unread_eq]
    cases malformedStatus e with
    | none => exact transcribes_throw rfl
    | some status =>
      change Transcribes _ (fun _ => refusal status ++ []) _
      exact (says_refuse status e).bind (transcribes_throw rfl)

end

def failureStatus (config : Configuration) (dialled : Bool) (command : Command) : ReplyStatus :=
  match command, config.allows command with
  | .connect, true => if dialled then .generalFailure else .hostUnreachable
  | .bind, true => .generalFailure
  | _, _ => .commandNotSupported

/-- All that a client is sent whose request is not served. -/
def transcript (config : Configuration) (dialled : Bool) : Bytes → Bytes :=
  selection config.authenticator.method
    (subnegotiation (unserved (failureStatus config dialled)) config.authenticator)

theorem transcribes_readRequest (config : Configuration) (dialled : Bool) :
    Transcribes (readRequest config) (transcript config dialled)
      (following nothing fun request _ => refusal (failureStatus config dialled request.command)) :=
  (transcribes_onClient (Connection.transcribes_negotiate _)).bind (fun _ _ => rfl) fun _ =>
    (transcribes_onClient (Connection.transcribes_authenticate _)).bind (fun _ _ => rfl) fun _ =>
      transcribes_readCommand _

def Locates : Exchange interface → Prop
  | ⟨.targetLocal, .ok _⟩ | ⟨.listenerLocal, .ok _⟩ => True
  | _ => False

/-- The client takes what it is sent, and no address is told. -/
structure Unavailing (es : List (Exchange interface)) : Prop where
  accepting : Accepting es
  unlocated : ∀ e ∈ es, ¬ Locates e

theorem Unavailing.of_append {before after : List (Exchange interface)}
    (h : Unavailing (before ++ after)) : Unavailing before ∧ Unavailing after :=
  ⟨⟨h.accepting.of_append.1, fun e he => h.unlocated e (List.mem_append_left _ he)⟩,
    h.accepting.of_append.2, fun e he => h.unlocated e (List.mem_append_right _ he)⟩

theorem refuse_meets (status : ReplyStatus) (e : Error) :
    (refuse status e).Meets (fun _ _ => True) fun es r =>
      Unavailing es → r = .ok () ∧ sent es = refusal status := by
  refine meets_onClient ((Connection.refuse_meets status).mono (fun _ _ _ => trivial) ?_)
  intro es r h hu
  cases r with
  | error e => exact absurd (accepting_ofConnection.1 hu.accepting) h.2.1
  | ok u => exact ⟨rfl, (sent_ofConnection es).trans h.2⟩

theorem sent_dial {config : Configuration} {target : Address} {es : List (Exchange interface)}
    {r : Except Error Unit} (h : (dial config target).Ends es r) : sent es = [] := by
  have honly : (dial config target).Only fun q => ∀ s, q ≠ Request.client (.stream s) :=
    only_dial config target (fun _ => nofun) (fun _ => nofun) (fun _ => nofun) nofun
  exact sent_eq_nil (honly.mem h)

theorem serveConnect_refuses (config : Configuration) (target : Address) :
    (serveConnect config target).Meets (fun _ _ => True) fun es _ => Unavailing es →
      ∃ dialing after d, es = dialing ++ after ∧ (dial config target).Ends dialing d ∧
        sent es = refusal (if d = .ok () then .generalFailure else .hostUnreachable) := by
  refine meets_bind (meets_outcome ⟨fun _ _ _ => trivial, fun dialing d hd => ?_⟩)
  have hs := sent_dial hd
  cases d with
  | error e =>
    refine (refuse_meets .hostUnreachable e).mono (fun _ _ _ => trivial) fun after r h hu => ?_
    refine ⟨dialing, after, _, rfl, hd, ?_⟩
    rw [sent_append, hs, (h hu.of_append.2).2]
    rfl
  | ok u =>
    refine meets_closing (meets_bind (meets_outcome (meets_attempt trivial fun answer => ?_)))
    cases answer with
    | ok a =>
      refine ⟨fun _ _ _ => trivial, fun after r _ => ⟨trivial, fun hu => ?_⟩⟩
      exact absurd trivial (hu.unlocated ⟨.targetLocal, .ok a⟩ (by simp))
    | error e =>
      refine (refuse_meets .generalFailure (.io e)).mono (fun _ _ _ => trivial) ?_
      intro after r h
      refine ⟨trivial, fun hu => ⟨dialing, _, _, rfl, hd, ?_⟩⟩
      have hafter := (h hu.of_append.2.of_append.1.of_append.2).2
      simp only [sent_append, hs, hafter, if_true, List.nil_append]
      rfl

theorem awaitPeer_refuses (config : Configuration) :
    (awaitPeer config).Meets (fun _ _ => True) fun es r => Unavailing es →
      r = .ok none ∧ sent es = refusal .generalFailure := by
  refine meets_bind (meets_outcome (meets_attempt trivial fun answer => ?_))
  cases answer with
  | ok a =>
    refine ⟨fun _ _ _ => trivial, fun after r _ hu => ?_⟩
    exact absurd trivial (hu.unlocated ⟨.listenerLocal, .ok a⟩ (by simp))
  | error e =>
    refine meets_bind ((refuse_meets .generalFailure (.io e)).mono (fun _ _ _ => trivial) ?_)
    intro es r h
    cases r with
    | error e => exact fun hu => nomatch (h hu.of_append.2).1
    | ok u =>
      refine meets_pure fun hu => ⟨rfl, ?_⟩
      rw [List.append_nil] at hu ⊢
      rw [sent_append, (h hu.of_append.2).2]
      rfl

theorem serveBind_refuses (config : Configuration) (requested : Address) :
    (serveBind config requested).Meets (fun _ _ => True) fun es _ => Unavailing es →
      sent es = refusal .generalFailure := by
  have honly : (do listen (← resolve requested) : Action interface Unit).Only
      fun q => ∀ s, q ≠ Request.client (.stream s) := by
    refine only_bind ((only_resolve requested).mono ?_) fun a => only_attempt nofun
    rintro q ⟨name, rfl⟩
    exact nofun
  refine meets_bind (meets_outcome ⟨fun _ _ _ => trivial, fun listening r hr => ?_⟩)
  have hs : sent listening = [] := sent_eq_nil (honly.mem hr)
  cases r with
  | error e =>
    refine (refuse_meets .generalFailure e).mono (fun _ _ _ => trivial) fun after r h hu => ?_
    rw [sent_append, hs, (h hu.of_append.2).2, List.nil_append]
  | ok u =>
    refine meets_bind (meets_closing ((awaitPeer_refuses config).mono (fun _ _ _ => trivial) ?_))
    intro waiting r h
    refine ⟨trivial, ?_⟩
    match r with
    | .error e => exact fun hu => nomatch (h hu.of_append.2.of_append.1).1
    | .ok (some peer) =>
      refine ⟨fun _ _ _ => trivial, fun after r _ hu => ?_⟩
      exact nomatch (h hu.of_append.2.of_append.1.of_append.1).1
    | .ok none =>
      refine meets_pure fun hu => ?_
      have hwaiting := (h hu.of_append.2.of_append.1.of_append.1).2
      simp only [sent_append, hs, hwaiting, List.nil_append]
      rfl

def Dials (config : Configuration) (es : List (Exchange interface)) : Prop :=
  ∃ before dialing after request, es = before ++ (dialing ++ after) ∧
    (readRequest config).Ends before (.ok request) ∧
      (dial config request.target).Ends dialing (.ok ())

theorem dials_iff {config : Configuration} {before rest : List (Exchange interface)}
    {request : CommandRequest} (h : (readRequest config).Ends before (.ok request)) :
    Dials config (before ++ rest) ↔ ∃ dialing after, rest = dialing ++ after ∧
      (dial config request.target).Ends dialing (.ok ()) := by
  constructor
  · rintro ⟨before', dialing, after, request', he, hb, hd⟩
    obtain ⟨rfl, rfl, hr⟩ := Program.Ends.unique h hb he
    cases hr
    exact ⟨dialing, after, rfl, hd⟩
  · rintro ⟨dialing, after, rfl, hd⟩
    exact ⟨before, dialing, after, request, rfl, h, hd⟩

/-- A request that is read is answered by one reply. -/
theorem serveCommand_refuses {config : Configuration} {request : CommandRequest}
    {before es : List (Exchange interface)} {r : Except Error Unit} {dialled : Bool}
    (hb : (readRequest config).Ends before (.ok request))
    (h : (serveCommand config request).Ends es r) (hu : Unavailing es)
    (hd : dialled = true ↔ Dials config (before ++ es)) :
    sent es = refusal (failureStatus config dialled request.command) := by
  rw [dials_iff hb] at hd
  obtain ⟨command, target⟩ := request
  unfold serveCommand at h
  split at h
  case h_1 hc ha =>
    dsimp only at hc ha hd ⊢
    subst hc
    obtain ⟨dialing, after, d, rfl, hdial, hs⟩ := (serveConnect_refuses config target).2 es r h hu
    have hiff : d = .ok () ↔ dialled = true := by
      rw [hd]
      constructor
      · rintro rfl
        exact ⟨dialing, after, rfl, hdial⟩
      · rintro ⟨dialing', after', he, hdial'⟩
        exact (Program.Ends.unique hdial hdial' he).2.2
    rw [hs]
    simp only [failureStatus, ha, hiff]
  case h_2 hc ha =>
    dsimp only at hc ha ⊢
    subst hc
    simp only [failureStatus, ha]
    exact (serveBind_refuses config target).2 es r h hu
  case h_3 hconnect hbind =>
    rw [((refuse_meets _ _).2 es r h hu).2, failureStatus]
    · exact hconnect
    · exact hbind

/-- A run that has ended, or that waits for its client when all of the input has come. -/
def Spent (x : Action interface Unit) (input : Bytes) (es : List (Exchange interface)) : Prop :=
  (∃ r, x.Ends es r) ∨ ∃ q, x.Asks es q ∧ AwaitsInput q ∧ received es = input

/-- A client that gets nothing of what it asks for is sent what the transcript of its input says,
whatever the parts in which the input comes and wherever it ends. -/
theorem sent_eq_transcript {config : Configuration} {dialled : Bool} {input : Bytes}
    {es : List (Exchange interface)} (hf : Fed input es) (hu : ∀ e ∈ es, ¬ Locates e)
    (hd : dialled = true ↔ Dials config es) (hr : Spent (handle config) input es) :
    sent es = transcript config dialled input := by
  have hread := transcribes_readRequest config dialled input
  rw [Spent, handle_eq] at hr
  rcases hr with ⟨r, hr⟩ | ⟨q, hq, hi, hreceived⟩
  · rcases ends_bind_iff.1 hr with ⟨e, he, rfl⟩ | ⟨before, after, request, rfl, hb, ha⟩
    · obtain ⟨rest, -, h⟩ := hread.ends es _ he hf
      rw [h]
      exact (List.append_nil _).symm
    · obtain ⟨rest, -, h⟩ := hread.ends before _ hb hf.of_append
      have hafter : Unavailing after :=
        ⟨hf.accepting.of_append.2, fun e he => hu e (List.mem_append_right _ he)⟩
      rw [sent_append, serveCommand_refuses hb ha hafter hd, h]
      rfl
  · rcases asks_bind_iff.1 hq with hq | ⟨before, after, request, rfl, -, ha⟩
    · exact hread.waits es q hq hf hi hreceived
    · obtain ⟨limit, rfl⟩ := hi
      exact absurd rfl (((serveCommand_only config request) after _ ha).1.2 limit)

def unlocatedTarget : List (Exchange interface) :=
  [⟨.targetLocal, .error (.reported .enotconn)⟩, starts .refuse,
    takes 10 [5, 1, 0, 1, 0, 0, 0, 0, 0, 0], enters .rejected, ⟨.close .target, ()⟩]

def dialledInVain : List (Exchange interface) :=
  connectOpening ++ ([⟨.connect (.v4 ⟨127, 0, 0, 1⟩ 80), .ok ()⟩] ++ unlocatedTarget)

theorem sent_dialledInVain :
    Fed (received connectOpening ++ [7]) dialledInVain ∧ (∀ e ∈ dialledInVain, ¬ Locates e) ∧
      (true = true ↔ Dials withPassword dialledInVain) ∧
      Spent (handle withPassword) (received connectOpening ++ [7]) dialledInVain ∧
      sent dialledInVain = transcript withPassword true (received connectOpening ++ [7]) := by
  have hfed : Fed (received connectOpening ++ [7]) dialledInVain :=
    fed_of_flowing (by decide) (by decide)
  have hu : ∀ e ∈ dialledInVain, ¬ Locates e := by
    simp [dialledInVain, connectOpening, unlocatedTarget, starts, gives, takes, enters, Locates]
  have hd : true = true ↔ Dials withPassword dialledInVain := by
    refine ⟨fun _ => ⟨connectOpening, _, unlocatedTarget,
      ⟨.connect, ⟨.ipv4, "127.0.0.1:80".toList⟩⟩, rfl, ?_, ?_⟩, fun _ => rfl⟩
    · decide +kernel
    · decide +kernel
  have hr : Spent (handle withPassword) (received connectOpening ++ [7]) dialledInVain :=
    .inl ⟨.ok (), by decide +kernel⟩
  exact ⟨hfed, hu, hd, hr, sent_eq_transcript hfed hu hd hr⟩

end Session

end SocksProxy
