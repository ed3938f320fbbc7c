import SocksProxy.Proofs.BufferedMessages
import SocksProxy.Proofs.DividedTexts

/-!
# Sessions on the buffer

All messages of a session are read and written by way of the buffer. Here its operations are taken
up once more, each under its name with `Buffered` added, with the buffer in the hands of the
session. The session makes the same requests as without the buffer and no others. So it never
leaves the places of the buffer and never finds the buffer too short.
-/

namespace SocksProxy

open SocksProxy.Action SocksProxy.Buffered

namespace Connection

variable {α : Type}

def onStreamBuffered (action : Buffered OctetStream.interface α) : Buffered interface α :=
  Buffered.embed (I := OctetStream.interface) (J := interface) .stream (fun _ answer => answer)
    action

def sendBuffered (reply : Reply) : Buffered interface Unit := onStreamBuffered reply.sendBuffered

def orClosedBuffered (action : Buffered interface α) : Buffered interface α := do
  match ← Buffered.outcome action with
  | .ok a => return a
  | .error e =>
    plain (entered .closed)
    throw e

def negotiateBuffered (method : AuthMethod) : Buffered interface Unit := do
  plain (started .negotiate)
  let greeting ← orClosedBuffered (onStreamBuffered Greeting.receiveBuffered)
  if greeting.offers method then
    sendBuffered (.method method)
    plain (entered .negotiated)
  else
    sendBuffered (.method .unacceptable)
    plain (entered .closed)
    throw .noAcceptableMethod

def authenticateBuffered (subnegotiation : Buffered interface Unit) : Buffered interface Unit := do
  plain (started .authenticate)
  orClosedBuffered subnegotiation
  plain (entered .authenticated)

def readCommandBuffered : Buffered interface CommandRequest := do
  plain (started .readCommand)
  let request ← orClosedBuffered (onStreamBuffered CommandRequest.receiveBuffered)
  plain (entered .commandParsed)
  return request

def respondBuffered (status : ReplyStatus) (bound : Address) : Buffered interface Unit := do
  plain (started .respond)
  sendBuffered (.command status bound)
  plain (entered (if status = .succeeded then .active else .rejected))

def refuseBuffered (status : ReplyStatus) : Buffered interface Unit := do
  plain (started .refuse)
  sendBuffered (.failure status)
  plain (entered .rejected)

theorem matches_send (reply : Reply) : Matches (sendBuffered reply) (send reply) :=
  reply.matches_send.embed

theorem matches_entered (stage : Stage) : Matches (plain (entered stage)) (entered stage) :=
  matches_plain (roomy_ask _)

theorem matches_started (operation : Operation) :
    Matches (plain (started operation)) (started operation) :=
  matches_plain (roomy_ask _)

theorem matches_orClosed {x : Buffered interface α} {y : Action interface α} (h : Matches x y) :
    Matches (orClosedBuffered x) (orClosed y) := by
  apply h.outcome_bind
  · exact matches_pure
  · intro e he
    exact (matches_entered .closed).bind fun _ => matches_throw he

theorem matches_negotiate (method : AuthMethod) :
    Matches (negotiateBuffered method) (negotiate method) := by
  apply (matches_started .negotiate).bind
  intro _
  apply (matches_orClosed Greeting.matches_receive.embed).bind
  intro greeting
  apply matches_ite
  · exact (matches_send _).bind fun _ => matches_entered .negotiated
  · apply (matches_send _).bind
    intro _
    exact (matches_entered .closed).bind fun _ => matches_throw nofun

theorem matches_authenticate {x : Buffered interface Unit} {y : Action interface Unit}
    (h : Matches x y) : Matches (authenticateBuffered x) (authenticate y) := by
  apply (matches_started .authenticate).bind
  intro _
  exact (matches_orClosed h).bind fun _ => matches_entered .authenticated

theorem matches_readCommand : Matches readCommandBuffered readCommand := by
  apply (matches_started .readCommand).bind
  intro _
  apply (matches_orClosed CommandRequest.matches_receive.embed).bind
  intro request
  exact (matches_entered .commandParsed).bind fun _ => matches_pure request

theorem matches_respond (status : ReplyStatus) (bound : Address) :
    Matches (respondBuffered status bound) (respond status bound) := by
  apply (matches_started .respond).bind
  intro _
  exact (matches_send _).bind fun _ => matches_entered _

theorem matches_refuse (status : ReplyStatus) :
    Matches (refuseBuffered status) (refuse status) := by
  apply (matches_started .refuse).bind
  intro _
  exact (matches_send _).bind fun _ => matches_entered .rejected

theorem roomy_relay : relay.Roomy :=
  (roomy_ask _).bind fun _ => (roomy_ask _).bind fun _ => roomy_ask _

end Connection

namespace Authenticator

open Connection

def subnegotiationBuffered : Authenticator → Buffered Connection.interface Unit
  | .none => pure ()
  | .password user secret => do
    let credentials ← onStreamBuffered Credentials.receiveBuffered
    if verifies user secret credentials then
      sendBuffered (.subnegotiation true)
    else
      sendBuffered (.subnegotiation false)
      throw .authenticationFailed

theorem matches_subnegotiation (authenticator : Authenticator) :
    Matches authenticator.subnegotiationBuffered authenticator.subnegotiation := by
  cases authenticator with
  | none => exact matches_pure ()
  | password user secret =>
    apply Credentials.matches_receive.embed.bind
    intro credentials
    apply matches_ite
    · exact matches_send _
    · exact (matches_send _).bind fun _ => matches_throw nofun

end Authenticator

namespace Resolution

theorem roomy_lookup (name : Text) : (lookup name).Roomy := by
  unfold lookup
  split
  · exact roomy_throw (not_isShort_io _)
  · exact roomy_attempt

theorem roomy_addresses (host : Text) : (addresses host).Roomy := by
  unfold addresses
  split
  · exact roomy_pure _
  · exact roomy_lookup host

theorem roomy_resolve (a : Address) : (resolve a).Roomy := by
  have hparts : Roomy (ExceptT.mk (.done a.parts) : Action interface (Text × Text)) := by
    apply roomy_result
    intro e h
    obtain ⟨-, rfl⟩ := Address.parts_eq_error_iff.1 h
    rintro ⟨_, _, ⟨⟩⟩
  apply hparts.bind
  rintro ⟨host, digits⟩
  have hport : Roomy (ExceptT.mk (.done (Address.portNumber digits)) : Action interface _) := by
    apply roomy_result
    intro e h
    rcases Address.portNumber_cases digits with ⟨port, hport⟩ | hport
    · cases hport.symm.trans h
    · cases hport.symm.trans h
      rintro ⟨_, _, ⟨⟩⟩
  apply hport.bind
  intro port
  obtain ⟨type, t⟩ := a
  cases type with
  | ipv4 | ipv6 =>
    dsimp only
    cases IpAddress.parse? host with
    | some ip => exact roomy_pure _
    | none =>
      apply roomy_throw
      rintro ⟨_, _, ⟨⟩⟩
  | domain =>
    dsimp only
    split
    · exact roomy_pure _
    · apply (roomy_addresses host).bind
      rintro (_ | ⟨ip, rest⟩)
      · apply roomy_throw
        rintro ⟨_, _, ⟨⟩⟩
      · exact roomy_pure _

end Resolution

theorem Keepalive.roomy_apply (interval : Nat) : (Keepalive.apply interval).Roomy := by
  have hall (options : List SocketOption) : (Keepalive.setAll options).Roomy := by
    induction options with
    | nil => exact roomy_pure ()
    | cons option rest ih => exact roomy_attempt.bind fun _ => ih
  exact hall _

namespace Session

variable {α : Type}

def onClientBuffered (action : Buffered Connection.interface α) : Buffered interface α :=
  Buffered.embed (I := Connection.interface) (J := interface) .client (fun _ answer => answer)
    action

def closingBuffered (role : Role) (action : Buffered interface α) : Buffered interface α := do
  let outcome ← Buffered.outcome action
  plain (close role)
  plain (ExceptT.mk (.done outcome))

def refuseBuffered (status : ReplyStatus) (_cause : Error) : Buffered interface Unit :=
  onClientBuffered (Connection.refuseBuffered status)

def respondBuffered (bound : Address) : Buffered interface Unit :=
  onClientBuffered (Connection.respondBuffered .succeeded bound)

def serveConnectBuffered (config : Configuration) (target : Address) :
    Buffered interface Unit := do
  match ← Buffered.outcome (plain (dial config target)) with
  | .error e => refuseBuffered .hostUnreachable e
  | .ok () =>
    closingBuffered .target do
      match ← Buffered.outcome (plain targetLocal) with
      | .error e => refuseBuffered .generalFailure e
      | .ok bound =>
        respondBuffered (config.boundAddress bound)
        plain (onClient Connection.relay)

def awaitPeerBuffered (config : Configuration) : Buffered interface (Option SocketAddress) := do
  match ← Buffered.outcome (plain listenerLocal) with
  | .error e =>
    refuseBuffered .generalFailure e
    return none
  | .ok bound =>
    respondBuffered (config.boundAddress bound)
    match ← Buffered.outcome (plain accept) with
    | .error e =>
      refuseBuffered .generalFailure e
      return none
    | .ok peer => return some peer

def serveBindBuffered (config : Configuration) (requested : Address) :
    Buffered interface Unit := do
  match ← Buffered.outcome (plain (do listen (← resolve requested))) with
  | .error e => refuseBuffered .generalFailure e
  | .ok () =>
    match ← closingBuffered .listener (awaitPeerBuffered config) with
    | none => return
    | some peer =>
      closingBuffered .target do
        plain (keepAlive config.keepalive)
        respondBuffered (.ofSocketAddress peer)
        plain (onClient Connection.relay)

def readCommandBuffered : Buffered interface CommandRequest := do
  match ← Buffered.outcome (onClientBuffered Connection.readCommandBuffered) with
  | .ok request => return request
  | .error e =>
    match malformedStatus e with
    | some status => refuseBuffered status e
    | none => pure ()
    throw e

def serveCommandBuffered (config : Configuration) (request : CommandRequest) :
    Buffered interface Unit :=
  match request.command, config.allows request.command with
  | .connect, true => serveConnectBuffered config request.target
  | .bind, true => serveBindBuffered config request.target
  | command, _ => refuseBuffered .commandNotSupported (.commandNotSupported command)

def handleBuffered (config : Configuration) : Buffered interface Unit := do
  onClientBuffered (Connection.negotiateBuffered config.authenticator.method)
  onClientBuffered (Connection.authenticateBuffered config.authenticator.subnegotiationBuffered)
  serveCommandBuffered config (← readCommandBuffered)

theorem roomy_resolve (a : Address) : (resolve a).Roomy := (Resolution.roomy_resolve a).embed

theorem roomy_keepAlive (interval : Nat) : (keepAlive interval).Roomy :=
  (Keepalive.roomy_apply interval).embed

theorem roomy_dial (config : Configuration) (target : Address) : (dial config target).Roomy := by
  apply (roomy_resolve target).bind
  intro address
  apply roomy_attempt.bind
  intro _
  apply (roomy_keepAlive config.keepalive).outcome_bind
  intro r hr
  cases r with
  | ok a => exact roomy_pure a
  | error e => exact (roomy_ask _).bind fun _ => roomy_throw (hr e rfl)

theorem matches_close (role : Role) : Matches (plain (close role)) (close role) :=
  matches_plain (roomy_ask _)

theorem matches_relay :
    Matches (plain (onClient Connection.relay)) (onClient Connection.relay) :=
  matches_plain Connection.roomy_relay.embed

theorem matches_closing {x : Buffered interface α} {y : Action interface α} (role : Role)
    (h : Matches x y) : Matches (closingBuffered role x) (closing role y) := by
  apply h.outcome_bind
  · intro a
    exact (matches_close role).bind fun _ => matches_plain (roomy_pure a)
  · intro e he
    exact (matches_close role).bind fun _ => matches_plain (roomy_throw he)

theorem matches_refuse (status : ReplyStatus) (cause : Error) :
    Matches (refuseBuffered status cause) (refuse status cause) :=
  (Connection.matches_refuse status).embed

theorem matches_respond (bound : Address) : Matches (respondBuffered bound) (respond bound) :=
  (Connection.matches_respond .succeeded bound).embed

theorem matches_serveConnect (config : Configuration) (target : Address) :
    Matches (serveConnectBuffered config target) (serveConnect config target) := by
  apply (matches_plain (roomy_dial config target)).outcome_bind
  · rintro ⟨⟩
    apply matches_closing .target
    apply (matches_plain roomy_attempt).outcome_bind
    · intro bound
      exact (matches_respond _).bind fun _ => matches_relay
    · intro e _
      exact matches_refuse .generalFailure e
  · intro e _
    exact matches_refuse .hostUnreachable e

theorem matches_awaitPeer (config : Configuration) :
    Matches (awaitPeerBuffered config) (awaitPeer config) := by
  apply (matches_plain roomy_attempt).outcome_bind
  · intro bound
    apply (matches_respond _).bind
    intro _
    apply (matches_plain roomy_attempt).outcome_bind
    · intro peer
      exact matches_pure (some peer)
    · intro e _
      exact (matches_refuse .generalFailure e).bind fun _ => matches_pure none
  · intro e _
    exact (matches_refuse .generalFailure e).bind fun _ => matches_pure none

theorem matches_serveBind (config : Configuration) (requested : Address) :
    Matches (serveBindBuffered config requested) (serveBind config requested) := by
  apply (matches_plain ((roomy_resolve requested).bind fun _ => roomy_attempt)).outcome_bind
  · rintro ⟨⟩
    apply (matches_closing .listener (matches_awaitPeer config)).bind
    intro peer
    cases peer with
    | none => exact matches_pure ()
    | some peer =>
      apply matches_closing .target
      apply (matches_plain (roomy_keepAlive config.keepalive)).bind
      intro _
      exact (matches_respond _).bind fun _ => matches_relay
  · intro e _
    exact matches_refuse .generalFailure e

theorem matches_readCommand : Matches readCommandBuffered readCommand := by
  apply Connection.matches_readCommand.embed.outcome_bind
  · exact matches_pure
  · intro e he
    cases hs : malformedStatus e with
    | none =>
      simp only [hs]
      exact matches_throw he
    | some status =>
      simp only [hs]
      exact (matches_refuse status e).bind fun _ => matches_throw he

theorem matches_serveCommand (config : Configuration) (request : CommandRequest) :
    Matches (serveCommandBuffered config request) (serveCommand config request) := by
  obtain ⟨command, target⟩ := request
  unfold serveCommandBuffered serveCommand
  cases command with
  | connect =>
    dsimp only
    cases config.allows .connect with
    | true => exact matches_serveConnect config target
    | false => exact matches_refuse _ _
  | bind =>
    dsimp only
    cases config.allows .bind with
    | true => exact matches_serveBind config target
    | false => exact matches_refuse _ _
  | udpAssociate => exact matches_refuse _ _
  | other code => exact matches_refuse _ _

theorem matches_handle (config : Configuration) :
    Matches (handleBuffered config) (handle config) := by
  apply (Connection.matches_negotiate config.authenticator.method).embed.bind
  intro _
  have hsubnegotiation := config.authenticator.matches_subnegotiation
  apply (Connection.matches_authenticate hsubnegotiation).embed.bind
  intro _
  apply matches_readCommand.bind
  intro request
  exact matches_serveCommand config request

/-- On the buffer, whatever it holds at first, a session runs as it does without one. It never
leaves the places of the buffer, and none of its operations fails for a lack of room. -/
structure KeepsToBuffer (config : Configuration) (buffer : Scratch) : Prop where
  same : Prod.fst <$> (handleBuffered config).on buffer = Buffered.lift (handle config).run
  in_range : ∀ es start stop, ¬ ((handleBuffered config).on buffer).Asks es (.outOfRange start stop)
  long_enough : ∀ es required available,
    ¬ ((handleBuffered config).on buffer).Asks es (.tooShort required available)
  unfailing : ∀ es required available,
    ¬ (handle config).Ends es (.error (.shortBuffer required available))

/-- Whatever the buffer holds, a session keeps to its places. -/
theorem handle_keeps_to_buffer (config : Configuration) (buffer : Scratch) :
    KeepsToBuffer config buffer where
  same := (matches_handle config).lift_eq buffer
  in_range _ _ _ := (matches_handle config).not_asks_outOfRange
  long_enough _ _ _ := (matches_handle config).not_asks_tooShort
  unfailing es required available he :=
    (matches_handle config buffer).roomy es _ he ⟨required, available, rfl⟩

end Session

end SocksProxy
