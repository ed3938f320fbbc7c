import SocksProxy.Proofs.Admission
import SocksProxy.Proofs.Deliveries

/-!
# Sessions do not depend on how their input is delivered

In whatever parts the octets of a client come, before or after the replies, a session gives the
same replies, serves the same request with the same look-ups and connections, and leaves the same
octets to the relay. What it does for a client that falls silent is the beginning of what it does
for one that goes on.
-/

namespace SocksProxy

open SocksProxy.Action

section

open OctetStream

theorem OctetStream.sendAll_only (octets : Bytes) :
    (sendAll octets).Only (Outward (I := interface)) := by
  intro es q hq
  obtain ⟨-, -, rest, -, -, rfl⟩ := (sendAll_meets octets).1 es q hq
  exact fun _ => rfl

end

namespace Connection

variable {α : Type}

theorem onStream_steady {x : Action OctetStream.interface α} (hx : Steady x) :
    Steady (onStream x) := hx.embed (fun _ => rfl) (fun _ _ => rfl) (fun _ _ => rfl)

theorem send_steady (reply : Reply) : Steady (send reply) := by
  apply onStream_steady
  rw [Reply.send_eq]
  cases reply.octets with
  | ok octets => exact steady_of_outward (OctetStream.sendAll_only octets)
  | error e => exact steady_throw e

theorem started_steady (operation : Operation) : Steady (started operation) :=
  steady_ask fun _ => rfl

theorem entered_steady (stage : Stage) : Steady (entered stage) := steady_ask fun _ => rfl

theorem orClosed_steady {x : Action interface α} (hx : Steady x) : Steady (orClosed x) := by
  refine hx.outcome.bind fun r => ?_
  cases r with
  | ok a => exact steady_pure a
  | error e => exact (entered_steady .closed).bind fun _ => steady_throw e

theorem negotiate_steady (method : AuthMethod) : Steady (negotiate method) := by
  refine (started_steady .negotiate).bind fun _ =>
    (orClosed_steady (onStream_steady Greeting.receive_reads.steady)).bind fun greeting => ?_
  apply steady_ite
  · exact (send_steady _).bind fun _ => entered_steady _
  · exact (send_steady _).bind fun _ => (entered_steady _).bind fun _ => steady_throw _

theorem subnegotiation_steady (authenticator : Authenticator) :
    Steady authenticator.subnegotiation := by
  cases authenticator with
  | none => exact steady_pure ()
  | password user secret =>
    refine (onStream_steady Credentials.receive_reads.steady).bind fun credentials => ?_
    apply steady_ite
    · exact send_steady _
    · exact (send_steady _).bind fun _ => steady_throw _

theorem authenticate_steady {subnegotiation : Action interface Unit} (h : Steady subnegotiation) :
    Steady (authenticate subnegotiation) :=
  (started_steady .authenticate).bind fun _ => (orClosed_steady h).bind fun _ => entered_steady _

theorem readCommand_steady : Steady readCommand :=
  (started_steady .readCommand).bind fun _ =>
    (orClosed_steady (onStream_steady CommandRequest.receive_reads.steady)).bind fun _ =>
      (entered_steady _).bind fun _ => steady_pure _

end Connection

namespace Session

variable {α : Type}

theorem onClient_steady {x : Action Connection.interface α} (hx : Steady x) :
    Steady (onClient x) := hx.embed stream?_ofConnection (fun _ _ => rfl) (fun _ _ => rfl)

theorem outward_iff {q : Request} :
    Outward (I := interface) q ↔ ∀ limit, q ≠ .client (.stream (.receive limit)) := by
  constructor
  · rintro h limit rfl
    cases h (.error (.raised .unexpectedEof))
  · intro h a
    cases q with
    | client q =>
      cases q with
      | stream q =>
        cases q with
        | receive limit => exact absurd rfl (h limit)
        | send octets => rfl
      | _ => rfl
    | _ => rfl

theorem refuse_steady {status : ReplyStatus} (h : status ≠ .succeeded) (e : Error) :
    Steady (refuse status e) :=
  steady_of_outward ((only_refuse h e).mono fun _ hq => outward_iff.2 hq.2)

theorem readCommand_steady : Steady readCommand := by
  refine (onClient_steady Connection.readCommand_steady).outcome.bind fun r => ?_
  cases r with
  | ok request => exact steady_pure request
  | error e =>
    dsimp only
    cases hs : malformedStatus e with
    | none => exact steady_throw e
    | some status =>
      exact (refuse_steady (malformedStatus_ne_succeeded hs) e).bind fun _ => steady_throw e

theorem readRequest_steady (config : Configuration) : Steady (readRequest config) :=
  (onClient_steady (Connection.negotiate_steady _)).bind fun _ =>
    (onClient_steady (Connection.authenticate_steady
      (Connection.subnegotiation_steady _))).bind fun _ => readCommand_steady

theorem serveCommand_steady (config : Configuration) (request : CommandRequest) :
    Steady (serveCommand config request) :=
  steady_of_outward ((serveCommand_only config request).mono fun _ hq => outward_iff.2 hq.1.2)

theorem handle_steady (config : Configuration) : Steady (handle config) := by
  rw [handle_eq]
  exact (readRequest_steady config).bind (serveCommand_steady config)

/-- The first part of the session has ended with the request. -/
def HasRead (config : Configuration) (es : List (Exchange interface)) (request : CommandRequest) :
    Prop := ∃ before, before <+: es ∧ (readRequest config).Ends before (.ok request)

/-- What the second of two runs of a session has in common with the first. -/
structure SameCourse (config : Configuration) (es fs : List (Exchange interface)) : Prop where
  sent_eq : sent es = sent fs
  request_iff : ∀ request, HasRead config es request ↔ HasRead config fs request
  /-- Look-ups and connections, replies, the relay and all else that is not received. -/
  others_eq : others es = others fs
  result_iff : ∀ r, (handle config).Ends es r ↔ (handle config).Ends fs r
  received_eq : received es = received fs
  /-- Each request but those to receive is made at the same point, answered or not, with the same
  octets received and the same left. -/
  repeats : ∀ before q, before <+: es → (handle config).Asks before q →
    (∀ limit, q ≠ .client (.stream (.receive limit))) → Repeats (handle config) fs before q

variable {config : Configuration} {s : Circumstances interface}
  {es fs : List (Exchange interface)}

theorem HasRead.of_concludes {request : CommandRequest} (h : HasRead config es request)
    (hes : s.Fits es) (hfs : s.Concludes (handle config) fs) : HasRead config fs request := by
  obtain ⟨before, hp, hread⟩ := h
  rw [handle_eq] at hfs
  obtain ⟨first, second, rfl, hfirst, -⟩ := hfs.split
  have hends := ((readRequest_steady config).ends (.refl s) hread (hes.of_le hp) hfirst).1
  exact ⟨first, List.prefix_append _ _, hends⟩

theorem alike_of_concludes (hes : s.Concludes (handle config) es)
    (hfs : s.Concludes (handle config) fs) :
    Alike es fs ∧ ∀ r, (handle config).Ends es r → (handle config).Ends fs r := by
  have hsteady := handle_steady config
  obtain ⟨p, hp⟩ := hes.exists_follows
  obtain ⟨p', hp'⟩ := hfs.exists_follows
  have hle := hsteady.behind (.refl s) hp hes.1 hfs
  have hge := hsteady.behind (.refl s) hp' hfs.1 hes
  refine ⟨⟨?_, ?_⟩, fun r hr => (hsteady.ends (.refl s) hr hes.1 hfs).1⟩
  · exact hle.others_le.eq_of_length_le hge.others_le.length_le
  · exact hle.received_le.eq_of_length_le hge.received_le.length_le

/-- In given circumstances each run of a session goes on to a conclusion, and all conclusions are
the same, in whatever parts the client's octets come. Where the client falls silent, what has been
sent is the beginning of what is sent if the client goes on, with whatever octets and end. -/
theorem sameCourse_of_circumstances (config : Configuration) (s : Circumstances interface) :
    (∀ es p, (handle config).run.Follows es p → s.Fits es →
      ∃ more, s.Concludes (handle config) (es ++ more)) ∧
    (∀ es fs, s.Concludes (handle config) es → s.Concludes (handle config) fs →
      SameCourse config es fs) ∧
    ∀ more ending es p fs, s.ending = .silent → (handle config).run.Follows es p → s.Fits es →
      (s.goingOn more ending).Concludes (handle config) fs → sent es <+: sent fs := by
  refine ⟨fun es p => Circumstances.exists_concludes, fun es fs hes hfs => ?_, ?_⟩
  · obtain ⟨halike, hends⟩ := alike_of_concludes hes hfs
    constructor
    case sent_eq => exact halike.sent_eq
    case request_iff =>
      exact fun request => ⟨fun h => h.of_concludes hes.1 hfs, fun h => h.of_concludes hfs.1 hes⟩
    case others_eq => exact halike.others_eq
    case result_iff => exact fun r => ⟨hends r, (alike_of_concludes hfs hes).2 r⟩
    case received_eq => exact halike.received_eq
    case repeats =>
      intro before q hp hq ho
      exact ((handle_steady config).asks (.refl s) hq (hes.1.of_le hp) hfs).2 (outward_iff.2 ho)
  · intro more ending es p fs hs hp hes hfs
    exact ((handle_steady config).behind (.inr ⟨hs, more, ending, rfl⟩) hp hes hfs).sent_le

def allTaken (count : Nat) : {taken : Nat // taken ≤ count} :=
  ⟨count, Nat.le_refl count⟩

/-- A client that is let through, asks for a connection and sends two octets more, and a network
on which the target is reached and the relay does not end. -/
def hospitable : Circumstances interface where
  input := received connectOpening ++ [104, 105]
  ending := .silent
  world _ q := match q with
    | .client (.stream (.send octets)) => some (.ok (allTaken octets.length))
    | .client (.stream (.receive _)) | .client .relay => none
    | .client (.started _) | .client (.entered _) | .close _ => some ()
    | .clientPeer | .clientLocal | .accept | .targetLocal | .listenerLocal =>
      some (.ok (.v4 ⟨10, 0, 0, 2⟩ 4000))
    | .lookup _ => some (.ok [])
    | .connect _ | .listen _ | .setOption _ => some (.ok ())

def tunnelOpening : List (Exchange interface) :=
  [⟨.connect (.v4 ⟨127, 0, 0, 1⟩ 80), .ok ()⟩, ⟨.targetLocal, .ok (.v4 ⟨10, 0, 0, 2⟩ 4000)⟩,
    starts .respond, takes 10 [5, 0, 0, 1, 10, 0, 0, 2, 15, 160], enters .active, starts .relay]

/-- The same client as that of `connectOpening`, whose octets come in other parts. -/
def haltingOpening : List (Exchange interface) :=
  [starts .negotiate, gives 2 [5], gives 1 [2], gives 2 [0], gives 1 [2], takes 2 [5, 2],
    enters .negotiated, starts .authenticate, gives 2 [1, 1], gives 1 [117], gives 1 [1],
    gives 1 [112], takes 2 [1, 0], enters .authenticated, starts .readCommand, gives 4 [5],
    gives 3 [1], gives 2 [0, 1], gives 6 [127, 0, 0], gives 3 [1, 0], gives 1 [80],
    enters .commandParsed]

/-- The client of `hospitable` up to its username, and then silent. -/
def hesitant : Circumstances interface :=
  { hospitable with input := (received connectOpening).take 6 }

theorem sameCourse_haltingOpening :
    hospitable.Concludes (handle withPassword) (connectOpening ++ tunnelOpening) ∧
      hospitable.Concludes (handle withPassword) (haltingOpening ++ tunnelOpening) ∧
        SameCourse withPassword (connectOpening ++ tunnelOpening)
          (haltingOpening ++ tunnelOpening) ∧
            hesitant.Fits (haltingOpening.take 9) ∧
              sent (haltingOpening.take 9) <+: sent (connectOpening ++ tunnelOpening) := by
  have hfits : hospitable.Fits (connectOpening ++ tunnelOpening) ∧
      hospitable.Fits (haltingOpening ++ tunnelOpening) ∧
        hesitant.Fits (haltingOpening.take 9) := by
    simp [connectOpening, haltingOpening, tunnelOpening, starts, gives, takes, enters, hesitant,
      hospitable, allTaken, Circumstances.Fits, Circumstances.Answers, Circumstances.after,
      Circumstances.Delivers, receipt?, others, received, OctetStream.receipt?,
      OctetStream.octetsIn, Interface.Streamed.stream?, Except.map]
  have hstuck (es : List (Exchange interface)) (a : Answer (.client .relay)) :
      ¬ (hospitable.after es).Answers ⟨.client .relay, a⟩ := by
    have ho : Outward (I := interface) (.client .relay) := fun _ => rfl
    rw [Circumstances.answers_outward_iff ho]
    exact (Option.some_ne_none a).symm
  have hone : (handle withPassword).Asks (connectOpening ++ tunnelOpening) (.client .relay) := by
    decide +kernel
  have htwo : (handle withPassword).Asks (haltingOpening ++ tunnelOpening) (.client .relay) := by
    decide +kernel
  have hwaits : (handle withPassword).Asks (haltingOpening.take 9)
      (.client (.stream (.receive 1))) := by decide +kernel
  have hes : hospitable.Concludes (handle withPassword) (connectOpening ++ tunnelOpening) :=
    ⟨hfits.1, .inr ⟨_, hone, hstuck _⟩⟩
  have hfs : hospitable.Concludes (handle withPassword) (haltingOpening ++ tunnelOpening) :=
    ⟨hfits.2.1, .inr ⟨_, htwo, hstuck _⟩⟩
  have hgoes : hesitant.goingOn ((received connectOpening).drop 6 ++ [104, 105]) .silent =
      hospitable := rfl
  obtain ⟨next, hnext⟩ := hwaits
  obtain ⟨-, hsame, -⟩ := sameCourse_of_circumstances withPassword hospitable
  obtain ⟨-, -, hsent⟩ := sameCourse_of_circumstances withPassword hesitant
  exact ⟨hes, hfs, hsame _ _ hes hfs, hfits.2.2,
    hsent _ _ _ _ _ rfl hnext hfits.2.2 (hgoes ▸ hes)⟩

end Session

end SocksProxy
