import SocksProxy.Proofs.Admission
import SocksProxy.Proofs.AddressRoundTrips

/-!
# The target that is dialled is the one requested

The name of a request is kept as one text with the port and is divided again before it is dialled.
What is looked up then is the name that was sent, and what is connected to is an address that the
name stands for: one that it is itself, or the first that a look-up of it gives, or for the empty
name the address of all interfaces. This is shown for all names but those that are nothing else
than another name in brackets.
-/

namespace SocksProxy

open SocksProxy.Action

namespace HostPort

/-- The name in brackets of a host without brackets and colons, which is taken for that host. -/
def Shell (name : Text) : Prop := ∃ host, Open host ∧ ':' ∉ host ∧ name = enclosed host

end HostPort

namespace Resolution

theorem resolve_eq_throw {a : Address} {e : Error} (h : a.parts = .error e) :
    resolve a = throw e := by
  unfold resolve
  rw [h]
  rfl

theorem addresses_meets (host : Text) :
    (addresses host).Meets (fun _ q => q = .lookup host ∧ IpAddress.parse? host = none)
      fun es r => ∀ ips, r = .ok ips →
        match IpAddress.parse? host with
        | some literal => ips = [literal]
        | none => (⟨.lookup host, .ok ips⟩ : Exchange interface) ∈ es := by
  unfold addresses
  cases hliteral : IpAddress.parse? host with
  | some literal =>
    refine meets_pure fun ips hips => ?_
    cases hips
    rfl
  | none =>
    unfold lookup
    by_cases hnull : host.contains '\x00' = true
    · rw [if_pos hnull]
      exact meets_throw nofun
    · rw [if_neg hnull]
      refine meets_attempt ⟨rfl, rfl⟩ fun answer ips hips => ?_
      cases answer with
      | error e => cases hips
      | ok found =>
        cases hips
        exact List.mem_singleton_self _

end Resolution

namespace Session

/-- What a name stands for: the empty one for all interfaces, one that is an address for itself,
and another for the first address that a look-up of it has given. -/
def StandsFor (es : List (Exchange interface)) (name : Text) (ip : IpAddress) : Prop :=
  if name = [] then ip = .v4 .unspecified
  else match IpAddress.parse? name with
    | some literal => ip = literal
    | none => ∃ more, (⟨.lookup name, .ok (ip :: more)⟩ : Exchange interface) ∈ es

theorem standsFor_empty (es : List (Exchange interface)) :
    StandsFor es [] (.v4 .unspecified) := by
  rw [StandsFor, if_pos rfl]

theorem standsFor_literal {es : List (Exchange interface)} {name : Text} {ip : IpAddress}
    (hn : name ≠ []) (h : IpAddress.parse? name = some ip) : StandsFor es name ip := by
  rw [StandsFor, if_neg hn, h]

theorem standsFor_lookup {es : List (Exchange interface)} {name : Text} {ip : IpAddress}
    {more : List IpAddress} (hn : name ≠ []) (hliteral : IpAddress.parse? name = none)
    (h : (⟨.lookup name, .ok (ip :: more)⟩ : Exchange interface) ∈ es) : StandsFor es name ip := by
  rw [StandsFor, if_neg hn, hliteral]
  exact ⟨more, h⟩

/-- Look-ups and connections are for the name and the port. Only a name that does not say its
address itself is looked up. -/
def Aims (name : Text) (port : UInt16) (es : List (Exchange interface)) : Request → Prop
  | .lookup found => found = name ∧ name ≠ [] ∧ IpAddress.parse? name = none
  | .connect a => ∃ ip, a = .ofIp ip port ∧ StandsFor es name ip
  | _ => True

def named (name : Text) (port : UInt16) : Address := ⟨.domain, HostPort.join name port⟩

variable {name : Text} {port : UInt16}

theorem aims_of_only {α : Type} {x : Action interface α}
    {whole : List (Exchange interface) → List (Exchange interface)}
    (h : x.Only fun q => ∀ es, Aims name port es q) :
    x.Meets (fun es => Aims name port (whole es)) fun _ _ => True :=
  ⟨fun es q hq => h es q hq _, fun _ _ _ => trivial⟩

def ofLookup : Exchange Resolution.interface → Exchange interface :=
  Exchange.embed ofResolution fun | .lookup _, answer => answer

theorem meets_resolve {a : Address} {during : List (Exchange interface) → Request → Prop}
    {after : List (Exchange interface) → Except Error SocketAddress → Prop}
    (h : (Resolution.resolve a).Meets (fun es q => during (es.map ofLookup) (ofResolution q))
      fun es => after (es.map ofLookup)) : (resolve a).Meets during after :=
  meets_embed (fun | .lookup _, _ => rfl) (fun | .lookup _, _ => rfl) h

theorem parts_named {found digits : Text} (hname : ¬ HostPort.Shell name)
    (h : (named name port).parts = .ok (found, digits)) :
    found = name ∧ digits = portText port := by
  unfold named Address.parts at h
  cases hs : HostPort.split? (HostPort.join name port) with
  | none =>
    rw [hs] at h
    cases h
  | some parts =>
    rw [hs] at h
    cases h
    obtain ⟨hdigits, hopen, hfound⟩ := HostPort.split?_join_eq_some_iff.1 hs
    rcases hfound with rfl | ⟨hcolon, hshell⟩
    · exact ⟨rfl, hdigits⟩
    · exact absurd ⟨found, hopen, hcolon, hshell⟩ hname

theorem resolve_meets (hname : ¬ HostPort.Shell name) :
    (resolve (named name port)).Meets
      (fun _ q => q = .lookup name ∧ name ≠ [] ∧ IpAddress.parse? name = none)
      fun es r => ∀ a, r = .ok a → ∃ ip, a = .ofIp ip port ∧ StandsFor es name ip := by
  apply meets_resolve
  cases hparts : (named name port).parts with
  | error e =>
    rw [Resolution.resolve_eq_throw hparts]
    exact meets_throw nofun
  | ok parts =>
    obtain ⟨found, digits⟩ := parts
    obtain ⟨rfl, rfl⟩ := parts_named hname hparts
    rw [Resolution.resolve_eq hparts (Address.portNumber_portText port)]
    by_cases hempty : found = []
    · subst hempty
      refine meets_pure fun a ha => ⟨.v4 .unspecified, ?_, standsFor_empty _⟩
      cases ha
      rfl
    · have hnot : found.isEmpty = false := by simpa using hempty
      simp only [named, hnot]
      refine meets_bind ((Resolution.addresses_meets found).mono ?_ fun es r hr => ?_)
      · rintro es q ⟨rfl, hliteral⟩
        exact ⟨rfl, hempty, hliteral⟩
      · match r with
        | .error e => exact nofun
        | .ok [] => exact meets_throw nofun
        | .ok (ip :: more) =>
          refine meets_pure fun a ha => ?_
          cases ha
          have hfound := hr _ rfl
          cases hliteral : IpAddress.parse? found with
          | some literal =>
            rw [hliteral] at hfound
            cases hfound
            exact ⟨_, rfl, standsFor_literal hempty hliteral⟩
          | none =>
            rw [hliteral] at hfound
            have hmem : (⟨.lookup found, .ok (ip :: more)⟩ : Exchange interface) ∈
                es.map ofLookup := List.mem_map_of_mem hfound
            rw [List.append_nil]
            exact ⟨ip, rfl, standsFor_lookup hempty hliteral hmem⟩

theorem dial_meets (config : Configuration) (hname : ¬ HostPort.Shell name) :
    (dial config (named name port)).Meets (Aims name port) fun _ _ => True := by
  refine meets_bind ((resolve_meets hname).mono ?_ fun es r hr => ?_)
  · rintro es q ⟨rfl, hn⟩
    exact ⟨rfl, hn⟩
  · cases r with
    | error e => trivial
    | ok a =>
      refine meets_bind (meets_attempt ?_ fun answer => ?_)
      · obtain ⟨ip, ha, hip⟩ := hr a rfl
        exact ⟨ip, ha, by rwa [List.append_nil]⟩
      · cases answer with
        | error e => trivial
        | ok u =>
          have hkeep : (keepAlive config.keepalive).Only fun q => ∀ es, Aims name port es q := by
            refine (only_keepAlive _).mono ?_
            rintro q ⟨option, rfl⟩ _
            trivial
          change Action.Meets _ _ _
          refine aims_of_only (only_bind (only_outcome hkeep) fun r => ?_)
          cases r with
          | ok u => exact only_pure u
          | error e => exact only_bind (only_ask fun _ => trivial) fun _ => only_throw e

theorem serveConnect_meets (config : Configuration) (hname : ¬ HostPort.Shell name) :
    (serveConnect config (named name port)).Meets (Aims name port) fun _ _ => True := by
  refine meets_bind (meets_outcome ((dial_meets config hname).mono (fun _ _ h => h) ?_))
  intro es r _
  cases r with
  | error e => exact aims_of_only (only_onClient fun _ _ _ _ => trivial)
  | ok u =>
    refine aims_of_only (only_closing (only_bind (only_outcome (only_attempt fun _ => trivial))
      fun r => ?_) fun _ => trivial)
    cases r with
    | error e => exact only_onClient fun _ _ _ _ => trivial
    | ok bound =>
      exact only_bind (only_onClient fun _ _ _ _ => trivial) fun _ =>
        only_onClient fun _ _ _ _ => trivial

def namedFrame (reserved length : UInt8) (name : Text) (port : UInt16) : Bytes :=
  [5, 1, reserved, 3, length] ++ Utf8.encode name ++ Word.octets port

theorem frame_named {reserved length : UInt8} (h : length.toNat = (Utf8.encode name).length) :
    (⟨.connect, named name port⟩ : CommandRequest).Frame
      (namedFrame reserved length name port) := by
  have hl : Address.LengthOctets .domain (Utf8.encode name).length [length] :=
    ⟨length, rfl, h.symm⟩
  have hname : Address.hostText .domain (Utf8.encode name) = .ok name := by
    simp [Address.hostText]
  have hdecode := Address.decode_host_append port [] hl hname
  rw [List.append_nil] at hdecode
  exact ⟨1, reserved, _, rfl, rfl, hdecode⟩

/-- The octets of a client that is let through and asks for a connection to the name. -/
def AsksFor (config : Configuration) (name : Text) (port : UInt16) (opening : Bytes) : Prop :=
  ∃ (greeting : Greeting) (selection pass : Bytes) (reserved length : UInt8),
    opening = selection ++ pass ++ namedFrame reserved length name port ∧
      greeting.Frame selection ∧ greeting.offers config.authenticator.method = true ∧
        config.authenticator.Passes pass ∧ length.toNat = (Utf8.encode name).length

theorem AsksFor.admitted {config : Configuration} {opening : Bytes}
    (h : AsksFor config name port opening) :
    Admitted config opening ⟨.connect, named name port⟩ := by
  obtain ⟨greeting, selection, pass, reserved, length, rfl, hg, ho, hp, hl⟩ := h
  exact ⟨greeting, selection, pass, _, rfl, hg, ho, hp, frame_named hl⟩

/-- What is done for a command in particular is done to serve the request that has been read. -/
theorem exists_served {config : Configuration} {es : List (Exchange interface)} {q : Request}
    {commands : List Command} (h : (handle config).Asks es q) (hq : q.commands? = some commands) :
    ∃ before after request, es = before ++ after ∧ Admitted config (received es) request ∧
      (serveCommand config request).Asks after q := by
  rw [handle_eq] at h
  rcases asks_bind_iff.1 h with h | ⟨before, after, request, rfl, hb, ha⟩
  · rw [(readRequest_meets config).1 es q h] at hq
    cases hq
  · have hsilent : received after = [] := by
      obtain ⟨next, hf⟩ := ha
      refine received_eq_nil fun e he limit => ?_
      exact ((serveCommand_only config request).mem hf e he).1.2 limit
    have hadmitted := (readRequest_meets config).2 before _ hb request rfl
    refine ⟨before, after, request, rfl, ?_, ha⟩
    rwa [received_append, hsilent, List.append_nil]

theorem StandsFor.append {before after : List (Exchange interface)} {ip : IpAddress}
    (h : StandsFor after name ip) : StandsFor (before ++ after) name ip := by
  unfold StandsFor at h ⊢
  split
  · rwa [if_pos ‹_›] at h
  · rw [if_neg ‹_›] at h
    split
    · next hliteral => rwa [hliteral] at h
    · next hliteral =>
      rw [hliteral] at h
      obtain ⟨more, hmem⟩ := h
      exact ⟨more, List.mem_append_right before hmem⟩

theorem Aims.append {before after : List (Exchange interface)} {q : Request}
    (h : Aims name port after q) : Aims name port (before ++ after) q := by
  cases q with
  | lookup found => exact h
  | connect a =>
    obtain ⟨ip, ha, hip⟩ := h
    exact ⟨ip, ha, hip.append⟩
  | _ => trivial

theorem serveCommand_meets (config : Configuration) (hname : ¬ HostPort.Shell name) :
    (serveCommand config ⟨.connect, named name port⟩).Meets (Aims name port)
      fun _ _ => True := by
  unfold serveCommand
  cases config.allows .connect with
  | true => exact serveConnect_meets config hname
  | false =>
    have honly : (refuse .commandNotSupported (.commandNotSupported .connect)).Only
        fun q => ∀ es, Aims name port es q := only_onClient fun _ _ _ _ => trivial
    exact aims_of_only honly

/-- For a client that asks for a connection to a name, which is not another name in brackets, that
name is looked up and no other, and a connection is made only to an address that it stands for. -/
theorem aims_of_asksFor {config : Configuration} {es : List (Exchange interface)} {q : Request}
    (h : (handle config).Asks es q) (hopening : AsksFor config name port (received es))
    (hname : ¬ HostPort.Shell name) : Aims name port es q := by
  cases hq : q.commands? with
  | none =>
    cases q with
    | lookup found => cases hq
    | connect a => cases hq
    | _ => trivial
  | some commands =>
    obtain ⟨before, after, request, rfl, hadmitted, ha⟩ := exists_served h hq
    obtain rfl := hadmitted.unique hopening.admitted
    exact ((serveCommand_meets config hname).1 after q ha).append

def namedOpening (octets : Bytes) : List (Exchange interface) :=
  [starts .negotiate, gives 2 [5, 1], gives 1 [0], takes 2 [5, 0], enters .negotiated,
    starts .authenticate, enters .authenticated, starts .readCommand, gives 4 [5, 1, 0, 3],
    gives 1 [.ofNat octets.length], gives (octets.length + 2) (octets ++ [0, 80]),
    enters .commandParsed]

def connectOnly : Configuration := Settings.configuration {}

def lookedUp : List (Exchange interface) :=
  namedOpening [97, 58, 49] ++ [⟨.lookup "a:1".toList, .ok [.v4 ⟨10, 0, 0, 1⟩]⟩]

theorem aims_lookedUp :
    (handle connectOnly).Asks lookedUp (.connect (.v4 ⟨10, 0, 0, 1⟩ 80)) ∧
      AsksFor connectOnly "a:1".toList 80 (received lookedUp) ∧ ¬ HostPort.Shell "a:1".toList ∧
        Aims "a:1".toList 80 lookedUp (.connect (.v4 ⟨10, 0, 0, 1⟩ 80)) := by
  have hasks : (handle connectOnly).Asks lookedUp (.connect (.v4 ⟨10, 0, 0, 1⟩ 80)) := by
    decide +kernel
  have hopening : AsksFor connectOnly "a:1".toList 80 (received lookedUp) :=
    ⟨⟨[0]⟩, [5, 1, 0], [], 0, 3, by decide +kernel, ⟨1, rfl, rfl⟩, rfl, rfl, by decide +kernel⟩
  have hname : ¬ HostPort.Shell "a:1".toList := by
    rintro ⟨host, -, -, h⟩
    cases h
  exact ⟨hasks, hopening, hname, aims_of_asksFor hasks hopening hname⟩

/-- The empty name is connected to without a look-up, and a name in brackets is taken for the name
within. -/
theorem connects_unresolved_and_looks_up_unnamed :
    (AsksFor connectOnly [] 80 (received (namedOpening [])) ∧
      (handle connectOnly).Asks (namedOpening []) (.connect (.v4 ⟨0, 0, 0, 0⟩ 80)) ∧
        IpAddress.parse? [] = none ∧
          ∀ e ∈ namedOpening [], ∀ name, e.request ≠ .lookup name) ∧
    AsksFor connectOnly "[a]".toList 80 (received (namedOpening [91, 97, 93])) ∧
      (handle connectOnly).Asks (namedOpening [91, 97, 93]) (.lookup ['a']) := by
  refine ⟨⟨?_, by decide +kernel, by decide +kernel, ?_⟩, ?_, by decide +kernel⟩
  · exact ⟨⟨[0]⟩, [5, 1, 0], [], 0, 0, by decide +kernel, ⟨1, rfl, rfl⟩, rfl, rfl, rfl⟩
  · simp [namedOpening, starts, gives, takes, enters]
  · exact ⟨⟨[0]⟩, [5, 1, 0], [], 0, 3, by decide +kernel, ⟨1, rfl, rfl⟩, rfl, rfl,
      by decide +kernel⟩

end Session

end SocksProxy
