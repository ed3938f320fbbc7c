import SocksProxy.Proofs.SentReplies

/-!
# The operations of a connection

Each operation makes requests of few kinds: its announcement, requests to receive if it reads a
message, parts of the replies that it may send, and the stages that it may reach. If it ends well
the octets received are a message that it accepts, and those sent are its reply.
-/

namespace SocksProxy

open SocksProxy.Action OctetStream

namespace Connection

variable {α β : Type}

theorem meets_onStream {x : Action OctetStream.interface α}
    {during : List (Exchange interface) → Request → Prop}
    {after : List (Exchange interface) → Except Error α → Prop}
    (h : x.Meets (fun es q => during (es.map ofStream) (.stream q))
      fun es => after (es.map ofStream)) : (onStream x).Meets during after :=
  meets_embed (fun _ _ => rfl) (fun _ _ => rfl) h

theorem meets_orClosed {x : Action interface α}
    {during : List (Exchange interface) → Request → Prop}
    {after : List (Exchange interface) → Except Error α → Prop}
    (h : x.Meets during fun es r =>
      match r with
      | .ok a => after es (.ok a)
      | .error e => during es (.entered .closed) ∧
          after (es ++ [⟨.entered .closed, ()⟩]) (.error e)) :
    (orClosed x).Meets during after := by
  refine meets_bind (meets_outcome (h.mono (fun _ _ hq => hq) fun es r hr => ?_))
  cases r with
  | ok a => exact meets_pure (by simpa using hr)
  | error e =>
    refine meets_bind (meets_ask (by simpa using hr.1) fun _ => ?_)
    exact meets_throw (by simpa using hr.2)

theorem ends_orClosed_error {x : Action interface α} {es : List (Exchange interface)} {e : Error}
    (h : x.Ends es (.error e)) :
    (orClosed x).Ends (es ++ [⟨.entered .closed, ()⟩]) (.error e) := by
  have houtcome : x.outcome.Ends es (.ok (.error e)) := ends_outcome_iff.2 ⟨_, rfl, h⟩
  exact follows_bind_of_ends houtcome (.step (.refl _))

def Operation.reads : Operation → Bool
  | .negotiate | .authenticate | .readCommand => true
  | .respond | .refuse | .relay => false

/-- The requests that an operation may make, by the replies that it may send and the stages that
it may reach. -/
inductive Makes (operation : Operation) (replies : List Bytes) (stages : List Stage) :
    Request → Prop where
  | started : Makes operation replies stages (.started operation)
  | receive (h : operation.reads = true) (limit : Nat) :
      Makes operation replies stages (.stream (.receive limit))
  | send {octets rest : Bytes} (h : octets ∈ replies) (hr : rest <:+ octets) :
      Makes operation replies stages (.stream (.send rest))
  | entered {stage : Stage} (h : stage ∈ stages) : Makes operation replies stages (.entered stage)

section

variable {operation : Operation} {replies : List Bytes} {stages : List Stage}

theorem meets_started {f : Unit → Action interface α}
    {after : List (Exchange interface) → Except Error α → Prop}
    (h : (f ()).Meets (fun _ => Makes operation replies stages)
      fun es => after (⟨.started operation, ()⟩ :: es)) :
    (started operation >>= f).Meets (fun _ => Makes operation replies stages) after :=
  meets_bind (meets_ask .started fun _ => h)

theorem meets_entered {stage : Stage} {after : List (Exchange interface) → Except Error Unit → Prop}
    (h : stage ∈ stages) (ha : after [⟨.entered stage, ()⟩] (.ok ())) :
    (entered stage).Meets (fun _ => Makes operation replies stages) after :=
  meets_ask (.entered h) fun _ => ha

theorem meets_reading {x : Action OctetStream.interface α}
    {taken : Except Error α → Bytes → Prop}
    {after : List (Exchange interface) → Except Error α → Prop}
    (ho : operation.reads = true) (h : Reads x taken)
    (ha : ∀ es r, Read taken es r → after (es.map ofStream) r) :
    (onStream x).Meets (fun _ => Makes operation replies stages) after := by
  refine meets_onStream (h.meets.mono ?_ ha)
  rintro es q ⟨-, -, -, limit, -, rfl⟩
  exact .receive ho limit

theorem meets_send {reply : Reply} {octets : Bytes} (ho : reply.octets = .ok octets)
    (hm : octets ∈ replies) {after : List (Exchange interface) → Except Error Unit → Prop}
    (ha : ∀ es r, Sent octets es r → after (es.map ofStream) r) :
    (send reply).Meets (fun _ => Makes operation replies stages) after := by
  refine meets_onStream ?_
  rw [Reply.send_eq, ho]
  refine (sendAll_meets octets).mono ?_ ha
  rintro es q ⟨-, -, rest, -, rfl, rfl⟩
  exact .send hm (List.suffix_append ..)

end

@[simp] theorem received_started (operation : Operation) (es : List (Exchange interface)) :
    received ((⟨Request.started operation, ()⟩ : Exchange interface) :: es) = received es := rfl

@[simp] theorem sent_started (operation : Operation) (es : List (Exchange interface)) :
    sent ((⟨Request.started operation, ()⟩ : Exchange interface) :: es) = sent es := rfl

@[simp] theorem received_entered (stage : Stage) :
    received ([⟨Request.entered stage, ()⟩] : List (Exchange interface)) = [] := rfl

@[simp] theorem sent_entered (stage : Stage) :
    sent ([⟨Request.entered stage, ()⟩] : List (Exchange interface)) = [] := rfl

theorem negotiate_meets (method : AuthMethod) :
    (negotiate method).Meets
      (fun _ => Makes .negotiate [[protocolVersion, method.code],
        [protocolVersion, AuthMethod.unacceptable.code]] [.negotiated, .closed])
      fun es r => ∀ u, r = .ok u → sent es = [protocolVersion, method.code] ∧
        ∃ greeting : Greeting, greeting.Frame (received es) ∧ greeting.offers method = true := by
  refine meets_started (meets_bind (meets_orClosed (meets_reading rfl Greeting.receive_reads ?_)))
  intro es r h
  cases r with
  | error e => exact ⟨.entered (by simp), nofun⟩
  | ok greeting =>
    obtain ⟨-, hs, hg⟩ := h
    have hg : greeting.Frame (received es) := hg
    simp only [Continues]
    split
    case isTrue hm =>
      refine meets_bind (meets_send rfl (by simp) fun es' r h => ?_)
      cases r with
      | error e => exact nofun
      | ok _ =>
        obtain ⟨-, hr, hs'⟩ := h
        refine meets_entered (by simp) fun u _ => ⟨by simp [hs, hs'], greeting, ?_, hm⟩
        simpa [hr] using hg
    case isFalse =>
      refine meets_bind (meets_send rfl (by simp) fun es' r h => ?_)
      cases r with
      | error e => exact nofun
      | ok _ => exact meets_bind (meets_entered (by simp) (meets_throw nofun))

end Connection

namespace Authenticator

open Connection

/-- The octets with which a client passes the subnegotiation. -/
def Passes : Authenticator → Bytes → Prop
  | .none, octets => octets = []
  | .password user secret, octets =>
    (⟨Utf8.encode user, Utf8.encode secret⟩ : Credentials).Frame octets

def approval : Authenticator → Bytes
  | .none => []
  | .password .. => [subnegotiationVersion, 0]

theorem eq_of_verifies {user secret : Text} {credentials : Credentials}
    (h : verifies user secret credentials = true) :
    credentials = ⟨Utf8.encode user, Utf8.encode secret⟩ := by
  obtain ⟨username, password⟩ := credentials
  simp only [verifies, Bool.and_eq_true, beq_iff_eq] at h
  rw [h.1, h.2]

theorem subnegotiation_meets (authenticator : Authenticator) :
    authenticator.subnegotiation.Meets
      (fun _ => Makes .authenticate [[subnegotiationVersion, 0], [subnegotiationVersion, 1]]
        [.authenticated, .closed])
      fun es r => ∀ u, r = .ok u →
        sent es = authenticator.approval ∧ authenticator.Passes (received es) := by
  cases authenticator with
  | none => exact meets_pure fun _ _ => ⟨rfl, rfl⟩
  | password user secret =>
    refine meets_bind (meets_reading rfl Credentials.receive_reads ?_)
    intro es r h
    cases r with
    | error e => exact nofun
    | ok credentials =>
      obtain ⟨-, hs, hc⟩ := h
      have hc : credentials.Frame (received es) := hc
      simp only [Continues]
      split
      case isTrue hv =>
        rw [eq_of_verifies hv] at hc
        refine meets_send rfl (by simp) fun es' r h _ _ => ?_
        cases r with
        | error e => contradiction
        | ok _ =>
          obtain ⟨-, hr, hs'⟩ := h
          exact ⟨by simp [hs, hs', approval], by simpa [hr, Passes] using hc⟩
      case isFalse =>
        refine meets_bind (meets_send rfl (by simp) fun es' r h => ?_)
        cases r with
        | error e => exact nofun
        | ok _ => exact meets_throw nofun

end Authenticator

namespace Connection

theorem authenticate_meets (authenticator : Authenticator) :
    (authenticate authenticator.subnegotiation).Meets
      (fun _ => Makes .authenticate [[subnegotiationVersion, 0], [subnegotiationVersion, 1]]
        [.authenticated, .closed])
      fun es r => ∀ u, r = .ok u →
        sent es = authenticator.approval ∧ authenticator.Passes (received es) := by
  refine meets_started (meets_bind (meets_orClosed
    (authenticator.subnegotiation_meets.mono (fun _ _ hq => hq) ?_)))
  intro es r h
  cases r with
  | error e => exact ⟨.entered (by simp), nofun⟩
  | ok u =>
    obtain ⟨hs, hp⟩ := h u rfl
    refine meets_entered (by simp) fun _ _ => ?_
    simpa using ⟨hs, hp⟩

theorem readCommand_meets :
    readCommand.Meets (fun _ => Makes .readCommand [] [.commandParsed, .closed])
      fun es r => sent es = [] ∧ ∀ request, r = .ok request → request.Frame (received es) := by
  refine meets_started (meets_bind (meets_orClosed
    (meets_reading rfl CommandRequest.receive_reads ?_)))
  intro es r h
  cases r with
  | error e => exact ⟨.entered (by simp), by simpa using h.sent_eq, nofun⟩
  | ok request =>
    obtain ⟨-, hs, ht⟩ := h
    refine meets_bind (meets_entered (by simp) (meets_pure ⟨by simpa using hs, ?_⟩))
    simpa using ht.frame

def Replied (octets : Bytes) (es : List (Exchange interface)) (r : Except Error Unit) : Prop :=
  received es = [] ∧ match r with
    | .ok _ => sent es = octets
    | .error _ => ¬ Accepting es ∧ ∃ rest, rest ≠ [] ∧ sent es ++ rest = octets

theorem accepting_ofStream {es : List (Exchange OctetStream.interface)} :
    Accepting (es.map ofStream) ↔ Accepting es := accepting_embed fun _ => rfl

theorem replied_of_sent {octets : Bytes} {es : List (Exchange OctetStream.interface)}
    {operation : Operation} {e : Error} (h : Sent octets es (.error e)) :
    Replied octets (⟨.started operation, ()⟩ :: es.map ofStream) (.error e) := by
  obtain ⟨-, hc, hr, rest, hrest, hs⟩ := h
  refine ⟨by simpa using hr, fun h => hc (accepting_ofStream.1 ?_), rest, hrest, by simpa using hs⟩
  rw [← List.singleton_append] at h
  exact h.of_append.2

theorem reply_meets {operation : Operation} {reply : Reply} {octets : Bytes} {stage : Stage}
    (ho : reply.octets = .ok octets) :
    (do started operation; send reply; entered stage).Meets
      (fun _ => Makes operation [octets] [stage]) (Replied octets) := by
  refine meets_started (meets_bind (meets_send ho (by simp) fun es r h => ?_))
  cases r with
  | error e => exact replied_of_sent h
  | ok _ =>
    obtain ⟨-, hr, hs⟩ := h
    exact meets_entered (by simp) ⟨by simpa using hr, by simpa using hs⟩

theorem respond_meets {status : ReplyStatus} {bound : Address} {record : Bytes}
    (h : bound.record = .ok record) :
    (respond status bound).Meets
      (fun _ => Makes .respond [Reply.commandHeader status ++ record]
        [if status = .succeeded then .active else .rejected])
      (Replied (Reply.commandHeader status ++ record)) :=
  reply_meets (Reply.octets_command h)

theorem respond_meets_of_error {status : ReplyStatus} {bound : Address} {e : Error}
    (h : bound.record = .error e) :
    (respond status bound).Meets (fun _ => Makes .respond [] [])
      fun es r => received es = [] ∧ sent es = [] ∧ r = .error e := by
  have ho : (Reply.command status bound).octets = .error e := by
    simp [Reply.octets, h, Except.map]
  refine meets_started (meets_bind ?_)
  rw [send, Reply.send_eq, ho]
  exact meets_onStream (meets_throw ⟨rfl, rfl, rfl⟩)

def failureOctets (status : ReplyStatus) : Bytes :=
  Reply.commandHeader status ++ [AddressType.ipv4.code, 0, 0, 0, 0, 0, 0]

theorem refuse_meets (status : ReplyStatus) :
    (refuse status).Meets (fun _ => Makes .refuse [failureOctets status] [.rejected])
      (Replied (failureOctets status)) :=
  reply_meets (Reply.octets_failure status)

theorem relay_meets :
    relay.Meets (fun _ q => q = .started .relay ∨ q = .relay ∨ q = .entered .closed)
      fun es r => received es = [] ∧ sent es = [] ∧ r = .ok () := by
  refine meets_bind (meets_ask (.inl rfl) fun _ => meets_bind (meets_ask (.inr (.inl rfl)) ?_))
  exact fun _ => meets_ask (.inr (.inr rfl)) fun _ => ⟨rfl, rfl, rfl⟩

end Connection

end SocksProxy
