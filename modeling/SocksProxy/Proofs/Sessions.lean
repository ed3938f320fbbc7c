import SocksProxy.Proofs.Stages

/-!
# The parts of a session

A session makes requests of the client's connection and of the network. It first reads the
request of its client; `Admitted` relates the octets received by then to the request. After that
the request is served, and nothing more is received.
-/

namespace SocksProxy

open SocksProxy.Action

/-- The octets with which a client is let through to a request, all of which is then known. -/
def Admitted (config : Configuration) (opening : Bytes) (request : CommandRequest) : Prop :=
  ∃ (greeting : Greeting) (selection pass frame : Bytes), opening = selection ++ pass ++ frame ∧
    greeting.Frame selection ∧ greeting.offers config.authenticator.method = true ∧
    config.authenticator.Passes pass ∧ request.Frame frame

theorem Authenticator.Passes.unique {authenticator : Authenticator} {octets octets' : Bytes}
    (h : authenticator.Passes octets) (h' : authenticator.Passes octets') : octets = octets' := by
  cases authenticator with
  | none => exact h.trans h'.symm
  | password user secret =>
    obtain ⟨first, second, hf, hs, rfl⟩ := h
    obtain ⟨first', second', hf', hs', rfl⟩ := h'
    obtain rfl : first = first' := UInt8.toNat_inj.1 (hf.trans hf'.symm)
    obtain rfl : second = second' := UInt8.toNat_inj.1 (hs.trans hs'.symm)
    rfl

theorem CommandRequest.Frame.unique {request request' : CommandRequest} {octets : Bytes}
    (h : request.Frame octets) (h' : request'.Frame octets) : request = request' := by
  have hunique := CommandRequest.receive_reads.prefixFree _ _ _ _ h.taken h'.taken List.prefix_rfl
  exact Except.ok.inj hunique.1

theorem Admitted.unique {config : Configuration} {opening : Bytes}
    {request request' : CommandRequest} (h : Admitted config opening request)
    (h' : Admitted config opening request') : request = request' := by
  obtain ⟨greeting, selection, pass, frame, rfl, hg, -, hp, hf⟩ := h
  obtain ⟨greeting', selection', pass', frame', he, hg', -, hp', hf'⟩ := h'
  obtain rfl := hp.unique hp'
  rw [List.append_assoc, List.append_assoc] at he
  obtain ⟨-, hr⟩ := Greeting.receive_reads.frame_unique hg hg' he
  obtain rfl : frame = frame' := List.append_cancel_left hr
  exact hf.unique hf'

namespace Session

variable {α : Type}

theorem meets_onClient {x : Action Connection.interface α}
    {during : List (Exchange interface) → Request → Prop}
    {after : List (Exchange interface) → Except Error α → Prop}
    (h : x.Meets (fun es q => during (es.map ofConnection) (.client q))
      fun es => after (es.map ofConnection)) : (onClient x).Meets during after :=
  meets_embed (fun _ _ => rfl) (fun _ _ => rfl) h

theorem only_onClient {x : Action Connection.interface α} {P : Request → Prop}
    (h : x.Only fun q => P (.client q)) : (onClient x).Only P :=
  (meets_onClient ⟨h, fun _ _ _ => trivial⟩ : (onClient x).Meets (fun _ => P) fun _ _ => True).only

theorem only_resolve (a : Address) : (resolve a).Only fun q => ∃ name, q = Request.lookup name := by
  intro es q hq
  obtain ⟨⟨name⟩, rfl⟩ := Program.asks_embed hq
  exact ⟨name, rfl⟩

theorem only_keepAlive (interval : Nat) :
    (keepAlive interval).Only fun q => ∃ option, q = Request.setOption option := by
  intro es q hq
  obtain ⟨⟨option⟩, rfl⟩ := Program.asks_embed hq
  exact ⟨option, rfl⟩

theorem only_closing {role : Role} {x : Action interface α} {P : Request → Prop}
    (hx : x.Only P) (hc : P (.close role)) : (closing role x).Only P :=
  only_bind (only_outcome hx) fun r => only_bind (only_ask hc) fun _ => only_result r

theorem only_dial {P : Request → Prop} (config : Configuration) (target : Address)
    (hl : ∀ name, P (.lookup name)) (hc : ∀ a, P (.connect a))
    (ho : ∀ option, P (.setOption option)) (hx : P (.close .target)) :
    (dial config target).Only P := by
  have hresolve : (resolve target).Only P := by
    refine (only_resolve target).mono ?_
    rintro q ⟨name, rfl⟩
    exact hl name
  have hprobes : (keepAlive config.keepalive).Only P := by
    refine (only_keepAlive config.keepalive).mono ?_
    rintro q ⟨option, rfl⟩
    exact ho option
  refine only_bind hresolve fun a => only_bind (only_attempt (hc a)) fun _ => ?_
  refine only_bind (only_outcome hprobes) fun r => ?_
  cases r with
  | ok u => exact only_pure _
  | error e => exact only_bind (only_ask hx) fun _ => only_throw e

theorem received_eq_nil {es : List (Exchange interface)}
    (h : ∀ e ∈ es, ∀ limit, e.request ≠ .client (.stream (.receive limit))) : received es = [] := by
  refine List.flatMap_eq_nil_iff.2 fun s hs => ?_
  obtain ⟨⟨q, answer⟩, he, hq⟩ := List.mem_filterMap.1 hs
  cases q with
  | client q =>
    cases q with
    | stream q =>
      cases hq
      cases q with
      | receive limit => exact absurd rfl (h _ he limit)
      | send octets => rfl
    | _ => cases hq
  | _ => cases hq

theorem sent_eq_nil {es : List (Exchange interface)}
    (h : ∀ e ∈ es, ∀ s, e.request ≠ .client (.stream s)) : sent es = [] := by
  refine (received_eq_nil_of_stream? fun e he => ?_).2
  obtain ⟨q, answer⟩ := e
  cases q with
  | client q =>
    cases q with
    | stream s => exact absurd rfl (h _ he s)
    | _ => rfl
  | _ => rfl

theorem meets_closing {role : Role} {x : Action interface α}
    {during : List (Exchange interface) → Request → Prop}
    {after : List (Exchange interface) → Except Error α → Prop}
    (h : x.Meets during fun es r => during es (.close role) ∧ after (es ++ [⟨.close role, ()⟩]) r) :
    (closing role x).Meets during after := by
  refine meets_bind (meets_outcome (h.mono (fun _ _ hq => hq) fun es r hr => ?_))
  refine meets_bind (meets_ask (by simpa using hr.1) fun _ => ?_)
  exact meets_result (by simpa using hr.2)

def gives (limit : Nat) (octets : Bytes) : Exchange interface :=
  ⟨.client (.stream (.receive limit)), .ok ⟨octets.take limit, List.length_take_le limit octets⟩⟩

def takes (count : Nat) (octets : Bytes) : Exchange interface :=
  ⟨.client (.stream (.send octets)), .ok ⟨min count octets.length, Nat.min_le_right ..⟩⟩

def starts (operation : Connection.Operation) : Exchange interface :=
  ⟨.client (.started operation), ()⟩

def enters (stage : Stage) : Exchange interface := ⟨.client (.entered stage), ()⟩

/-- The first part of a session, up to the request of the client. -/
def readRequest (config : Configuration) : Action interface CommandRequest := do
  onClient (Connection.negotiate config.authenticator.method)
  onClient (Connection.authenticate config.authenticator.subnegotiation)
  readCommand

theorem handle_eq (config : Configuration) :
    handle config = readRequest config >>= serveCommand config := by
  simp only [handle, readRequest, bind_assoc]

end Session

end SocksProxy
