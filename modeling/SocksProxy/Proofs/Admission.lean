import SocksProxy.Proofs.Sessions

/-!
# Nothing is done for a client that has not been admitted

Look-ups, connections, listeners, replies of success and the relay come only after the client has
selected the method, has passed its subnegotiation, and has sent a request for a command that is
allowed and that the deed belongs to. A look-up belongs to both commands that are served, since
the address to listen on may be a name.
-/

namespace SocksProxy

open SocksProxy.Action Connection

namespace Session

/-- The commands for which a request is made, if it is not made for clients in general. -/
def Request.commands? : Request → Option (List Command)
  | .lookup _ | .client .relay => some [.connect, .bind]
  | .connect _ => some [.connect]
  | .listen _ | .accept => some [.bind]
  | .client (.stream (.send octets)) =>
    if Reply.commandHeader .succeeded <+: octets then some [.connect, .bind] else none
  | _ => none

theorem commands?_of_makes {operation : Operation} {replies : List Bytes} {stages : List Stage}
    {q : Connection.Request} (h : Makes operation replies stages q)
    (hr : ∀ octets ∈ replies, ¬ Reply.commandHeader .succeeded <:+: octets) :
    (Request.client q).commands? = none := by
  cases h with
  | started => rfl
  | receive h limit => rfl
  | send ho hs =>
    refine if_neg fun hp => hr _ ho ?_
    exact hp.isInfix.trans hs.isInfix
  | entered h => rfl

theorem not_success_of_length_two {octets : Bytes} (h : octets.length = 2) :
    ¬ Reply.commandHeader .succeeded <:+: octets := by
  intro hi
  have hl := hi.length_le
  rw [h] at hl
  exact absurd hl (by decide)

theorem not_success_failureOctets {status : ReplyStatus} (h : status ≠ .succeeded) :
    ¬ Reply.commandHeader .succeeded <:+: failureOctets status := by
  cases status with
  | succeeded => exact absurd rfl h
  | _ => decide

theorem only_refuse {status : ReplyStatus} (h : status ≠ .succeeded) (e : Error) :
    (refuse status e).Only fun q => Request.commands? q = none ∧
      ∀ limit, q ≠ Request.client (.stream (.receive limit)) := by
  refine only_onClient ((refuse_meets status).only.mono fun q hq => ⟨?_, ?_⟩)
  · exact commands?_of_makes hq (by simpa using not_success_failureOctets h)
  · rintro limit he
    cases he
    cases hq with
    | receive hr limit => cases hr

theorem malformedStatus_ne_succeeded {e : Error} {status : ReplyStatus}
    (h : malformedStatus e = some status) : status ≠ .succeeded := by
  cases e <;> cases h <;> decide

/-- A client that has been let through has sent what `Admitted` says, and up to then nothing has
been done for it in particular. -/
theorem readRequest_meets (config : Configuration) :
    (readRequest config).Meets (fun _ q => q.commands? = none)
      fun es r => ∀ request, r = .ok request → Admitted config (received es) request := by
  refine meets_bind (meets_onClient ((negotiate_meets _).mono ?_ ?_))
  · intro es q hq
    refine commands?_of_makes hq ?_
    simp only [List.mem_cons, List.not_mem_nil, or_false, forall_eq_or_imp, forall_eq]
    exact ⟨not_success_of_length_two rfl, not_success_of_length_two rfl⟩
  intro es r h
  cases r with
  | error e => exact nofun
  | ok u =>
    obtain ⟨-, greeting, hg, ho⟩ := h u rfl
    refine meets_bind (meets_onClient ((authenticate_meets _).mono ?_ ?_))
    · intro es' q hq
      refine commands?_of_makes hq ?_
      simp only [List.mem_cons, List.not_mem_nil, or_false, forall_eq_or_imp, forall_eq]
      exact ⟨not_success_of_length_two rfl, not_success_of_length_two rfl⟩
    intro es' r h
    cases r with
    | error e => exact nofun
    | ok u =>
      obtain ⟨-, hp⟩ := h u rfl
      refine meets_bind (meets_outcome (meets_onClient (readCommand_meets.mono ?_ ?_)))
      · exact fun es'' q hq => commands?_of_makes hq (by simp)
      intro es'' r h
      cases r with
      | ok request =>
        refine meets_pure fun request' he => ?_
        cases he
        refine ⟨greeting, received es, received es', received es'', ?_, hg, ho, hp, h.2 _ rfl⟩
        simp
      | error e =>
        simp only [Continues]
        split
        case h_1 status hs =>
          have hn := only_refuse (malformedStatus_ne_succeeded hs) e
          refine meets_bind ⟨fun rest q hq => (hn rest q hq).1, fun rest r _ => ?_⟩
          cases r with
          | error e => exact nofun
          | ok u => exact meets_throw nofun
        case h_2 => exact meets_throw nofun

/-- A request that belongs to a command and does not receive from the client. -/
def Serves (command : Command) (q : Request) : Prop :=
  (∀ commands, q.commands? = some commands → command ∈ commands) ∧
    ∀ limit, q ≠ .client (.stream (.receive limit))

theorem serves_of_mem {command : Command} {q : Request} {commands : List Command}
    (h : q.commands? = some commands) (hc : command ∈ commands)
    (hr : ∀ limit, q ≠ .client (.stream (.receive limit))) : Serves command q := by
  refine ⟨fun others ho => ?_, hr⟩
  rw [h] at ho
  cases ho
  exact hc

theorem serves_of_makes {operation : Operation} {replies : List Bytes} {stages : List Stage}
    {command : Command} {q : Connection.Request} (h : Makes operation replies stages q)
    (ho : operation.reads = false) (hc : command ∈ [Command.connect, .bind]) :
    Serves command (.client q) := by
  cases h with
  | started => exact ⟨nofun, nofun⟩
  | receive hr limit => exact absurd hr (by simp [ho])
  | entered h => exact ⟨nofun, nofun⟩
  | send hm hs =>
    refine ⟨fun commands h => ?_, nofun⟩
    simp only [Request.commands?] at h
    split at h
    · cases h
      exact hc
    · cases h

theorem serves_refuse {status : ReplyStatus} {command : Command} (h : status ≠ .succeeded)
    (e : Error) : (refuse status e).Only (Serves command) := by
  refine (only_refuse h e).mono fun q ⟨hn, hr⟩ => ⟨fun commands hc => ?_, hr⟩
  rw [hn] at hc
  cases hc

theorem serves_respond {bound : Address} {command : Command}
    (hc : command ∈ [Command.connect, .bind]) : (respond bound).Only (Serves command) := by
  refine only_onClient ?_
  cases hr : bound.record with
  | ok record => exact (respond_meets hr).only.mono fun q hq => serves_of_makes hq rfl hc
  | error e => exact (respond_meets_of_error hr).only.mono fun q hq => serves_of_makes hq rfl hc

theorem serves_relay {command : Command} (hc : command ∈ [Command.connect, .bind]) :
    (onClient relay).Only (Serves command) := by
  refine only_onClient (relay_meets.only.mono ?_)
  rintro q (rfl | rfl | rfl)
  · exact ⟨nofun, nofun⟩
  · exact serves_of_mem rfl hc nofun
  · exact ⟨nofun, nofun⟩

theorem serves_resolve {command : Command} (hc : command ∈ [Command.connect, .bind])
    (a : Address) : (resolve a).Only (Serves command) := by
  refine (only_resolve a).mono ?_
  rintro q ⟨name, rfl⟩
  exact serves_of_mem rfl hc nofun

theorem serves_keepAlive (command : Command) (interval : Nat) :
    (keepAlive interval).Only (Serves command) := by
  refine (only_keepAlive interval).mono ?_
  rintro q ⟨option, rfl⟩
  exact ⟨nofun, nofun⟩

theorem serves_closing {role : Role} {α : Type} {x : Action interface α} {command : Command}
    (h : x.Only (Serves command)) : (closing role x).Only (Serves command) :=
  only_closing h ⟨nofun, nofun⟩

theorem serves_dial (config : Configuration) (target : Address) :
    (dial config target).Only (Serves .connect) := by
  refine only_dial config target ?_ ?_ ?_ ?_
  · exact fun name => serves_of_mem rfl (by simp) nofun
  · exact fun a => serves_of_mem rfl (by simp) nofun
  · exact fun option => ⟨nofun, nofun⟩
  · exact ⟨nofun, nofun⟩

theorem serveConnect_only (config : Configuration) (target : Address) :
    (serveConnect config target).Only (Serves .connect) := by
  refine only_bind (only_outcome (serves_dial config target)) fun r => ?_
  cases r with
  | error e => exact serves_refuse (by decide) e
  | ok u =>
    refine serves_closing (only_bind (only_outcome (only_attempt ⟨nofun, nofun⟩)) fun r => ?_)
    cases r with
    | error e => exact serves_refuse (by decide) e
    | ok bound => exact only_bind (serves_respond (by simp)) fun _ => serves_relay (by simp)

theorem awaitPeer_only (config : Configuration) : (awaitPeer config).Only (Serves .bind) := by
  refine only_bind (only_outcome (only_attempt ⟨nofun, nofun⟩)) fun r => ?_
  cases r with
  | error e => exact only_bind (serves_refuse (by decide) e) fun _ => only_pure _
  | ok bound =>
    have haccept : Serves .bind .accept := serves_of_mem rfl (by simp) nofun
    refine only_bind (serves_respond (by simp)) fun _ => ?_
    refine only_bind (only_outcome (only_attempt haccept)) fun r => ?_
    cases r with
    | error e => exact only_bind (serves_refuse (by decide) e) fun _ => only_pure _
    | ok peer => exact only_pure _

theorem serveBind_only (config : Configuration) (requested : Address) :
    (serveBind config requested).Only (Serves .bind) := by
  have hlisten : ∀ a, (listen a).Only (Serves .bind) := fun a =>
    only_attempt (serves_of_mem rfl (by simp) nofun)
  refine only_bind (only_outcome (only_bind (serves_resolve (by simp) requested) hlisten))
    fun r => ?_
  cases r with
  | error e => exact serves_refuse (by decide) e
  | ok u =>
    refine only_bind (serves_closing (awaitPeer_only config)) fun peer => ?_
    cases peer with
    | none => exact only_pure _
    | some peer =>
      refine serves_closing (only_bind (serves_keepAlive _ _) fun _ => ?_)
      exact only_bind (serves_respond (by simp)) fun _ => serves_relay (by simp)

/-- What is done while a command is served belongs to it, and to no command unless it is
allowed. -/
theorem serveCommand_only (config : Configuration) (request : CommandRequest) :
    (serveCommand config request).Only fun q => Serves request.command q ∧
      ∀ commands, Request.commands? q = some commands → config.allows request.command = true := by
  obtain ⟨command, target⟩ := request
  unfold serveCommand
  split
  case h_1 hc ha =>
    dsimp only at hc ha ⊢
    subst hc
    exact (serveConnect_only config target).mono fun q hq => ⟨hq, fun _ _ => ha⟩
  case h_2 hc ha =>
    dsimp only at hc ha ⊢
    subst hc
    exact (serveBind_only config target).mono fun q hq => ⟨hq, fun _ _ => ha⟩
  case h_3 =>
    refine (only_refuse (by decide) _).mono fun q ⟨hn, hr⟩ => ?_
    have hs : ∀ commands, Request.commands? q ≠ some commands := by simp [hn]
    exact ⟨⟨fun commands h => absurd h (hs commands), hr⟩, fun commands h => absurd h (hs commands)⟩

/-- A request that belongs to certain commands is made only for a client that has sent all that
lets it through, and then a request of one of these commands, which is allowed. -/
theorem asks_only_for_admitted {config : Configuration} {es : List (Exchange interface)}
    {q : Request} {commands : List Command} (h : (handle config).Asks es q)
    (hq : q.commands? = some commands) :
    ∃ request, Admitted config (received es) request ∧ config.allows request.command = true ∧
      request.command ∈ commands ∧
        ∀ other, Admitted config (received es) other → other = request := by
  rw [handle_eq] at h
  rcases asks_bind_iff.1 h with h | ⟨before, after, request, rfl, hb, ha⟩
  · have hn := (readRequest_meets config).1 es q h
    rw [hn] at hq
    cases hq
  · have hadmitted := (readRequest_meets config).2 before _ hb request rfl
    obtain ⟨⟨hc, -⟩, hallowed⟩ := serveCommand_only config request after q ha
    have hsilent : received after = [] := by
      obtain ⟨next, hf⟩ := ha
      refine received_eq_nil fun e he limit => ?_
      exact ((serveCommand_only config request).mem hf e he).1.2 limit
    rw [received_append, hsilent, List.append_nil]
    exact ⟨request, hadmitted, hallowed commands hq, hc commands hq,
      fun other ho => ho.unique hadmitted⟩

def connectOpening : List (Exchange interface) :=
  [starts .negotiate, gives 2 [5, 2], gives 2 [0, 2], takes 2 [5, 2], enters .negotiated,
    starts .authenticate, gives 2 [1, 1], gives 1 [117], gives 1 [1], gives 1 [112], takes 2 [1, 0],
    enters .authenticated, starts .readCommand, gives 4 [5, 1, 0, 1], gives 6 [127, 0, 0, 1, 0, 80],
    enters .commandParsed]

def withPassword : Configuration :=
  Settings.configuration { credentials := some (['u'], ['p']) }

theorem connects_for_admitted :
    (handle withPassword).Asks connectOpening (.connect (.v4 ⟨127, 0, 0, 1⟩ 80)) ∧
      ∃ request, Admitted withPassword (received connectOpening) request ∧
        withPassword.allows request.command = true ∧ request.command ∈ [Command.connect] ∧
          ∀ other, Admitted withPassword (received connectOpening) other → other = request := by
  have h : (handle withPassword).Asks connectOpening (.connect (.v4 ⟨127, 0, 0, 1⟩ 80)) := by
    decide +kernel
  exact ⟨h, asks_only_for_admitted h rfl⟩

def bindOpening : List (Exchange interface) :=
  [starts .negotiate, gives 2 [5, 1], gives 1 [0], takes 2 [5, 0], enters .negotiated,
    starts .authenticate, enters .authenticated, starts .readCommand, gives 4 [5, 2, 0, 3],
    gives 1 [1], gives 3 [97, 0, 80], enters .commandParsed]

def bindOnly : Configuration := Settings.configuration { allowed := [.bind] }

theorem admitted_bindOpening :
    Admitted bindOnly (received bindOpening) ⟨.bind, ⟨.domain, "a:80".toList⟩⟩ := by
  refine ⟨⟨[0]⟩, [5, 1, 0], [], [5, 2, 0, 3, 1, 97, 0, 80], rfl, ⟨1, rfl, rfl⟩, rfl, rfl, ?_⟩
  exact ⟨2, 0, [3, 1, 97, 0, 80], rfl, by decide, rfl⟩

/-- The name to listen on is looked up, although no connection has been asked for. -/
theorem looks_up_without_connect :
    (handle bindOnly).Asks bindOpening (.lookup ['a']) ∧
      ∀ request, Admitted bindOnly (received bindOpening) request → request.command ≠ .connect := by
  refine ⟨by decide +kernel, fun request h => ?_⟩
  rw [h.unique admitted_bindOpening]
  decide

end Session

end SocksProxy
