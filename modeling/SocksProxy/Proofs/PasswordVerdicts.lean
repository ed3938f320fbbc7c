import SocksProxy.Proofs.Deliveries
import SocksProxy.Proofs.ExactReaders
import SocksProxy.Proofs.UndividedReplies

/-!
# The message that passes a password

For a username and a password there is one message with which a client passes, and none if an octet
cannot tell the length of one of them. With any other message that is complete the client is told
that it is refused before the subnegotiation fails. A wrong version and an input that ends too soon
are not answered. Whatever the failure, the connection is closed after it.
-/

namespace SocksProxy

open SocksProxy.Action OctetStream Circumstances

namespace Authenticator

variable {user secret : Text} {octets : Bytes}

def message (user secret : Text) : Bytes :=
  subnegotiationVersion :: UInt8.ofNat (Utf8.size user) :: Utf8.encode user ++
    UInt8.ofNat (Utf8.size secret) :: Utf8.encode secret

theorem passes_iff_message : (password user secret).Passes octets ↔
    Utf8.size user ≤ 255 ∧ Utf8.size secret ≤ 255 ∧ octets = message user secret := by
  constructor
  · rintro ⟨first, second, hf, hs, rfl⟩
    have hfirst := first.toNat_lt
    have hsecond := second.toNat_lt
    change first.toNat = Utf8.size user at hf
    change second.toNat = Utf8.size secret at hs
    refine ⟨by omega, by omega, ?_⟩
    rw [message, ← hf, ← hs, UInt8.ofNat_toNat, UInt8.ofNat_toNat]
  · rintro ⟨hu, hs, rfl⟩
    exact ⟨_, _, Utf8.toNat_octet (Nat.lt_succ_of_le hu), Utf8.toNat_octet (Nat.lt_succ_of_le hs),
      rfl⟩

def answer (user secret : Text) (credentials : Credentials) :
    Action Connection.interface Unit := do
  if verifies user secret credentials then
    Connection.send (.subnegotiation true)
  else
    Connection.send (.subnegotiation false)
    throw .authenticationFailed

theorem subnegotiation_password (user secret : Text) : (password user secret).subnegotiation =
    Connection.onStream (Credentials.receive scratchSize) >>= answer user secret := rfl

end Authenticator

namespace Connection

variable {α β : Type} {s : Circumstances interface} {es : List (Exchange interface)}
  {stream : List (Exchange OctetStream.interface)}

theorem ofStream_injective : Function.Injective ofStream := by
  rintro ⟨q, answer⟩ ⟨q', answer'⟩ h
  cases h
  rfl

theorem ends_onStream_iff {x : Action OctetStream.interface α} {r : Except Error α} :
    (onStream x).Ends (stream.map ofStream) r ↔ x.Ends stream r := by
  constructor
  · intro h
    obtain ⟨inner, hi, hr⟩ := (Program.ends_embed_iff (fun _ _ => rfl) fun _ _ => rfl).1 h
    obtain rfl := (List.map_inj_right fun _ _ he => ofStream_injective he).1 hi
    exact hr
  · exact ends_onStream

def streamed (s : Circumstances interface) : Circumstances OctetStream.interface :=
  s.within .stream (fun _ answer => answer) fun _ answer => answer

theorem concludes_onStream {x : Action OctetStream.interface α} (h : s.Concludes (onStream x) es) :
    ∃ stream, es = stream.map ofStream ∧ (streamed s).Concludes x stream :=
  h.of_embed (fun _ => rfl) (fun _ _ => rfl) fun _ _ => rfl

/-- The client takes something of whatever it is sent. -/
def Obliging (s : Circumstances interface) : Prop :=
  ∀ es octets, octets ≠ [] → ∃ taken : { taken : Nat // taken ≤ octets.length },
    0 < taken.val ∧ s.world es (.stream (.send octets)) = some (.ok taken)

theorem Obliging.after (h : Obliging s) (es : List (Exchange interface)) : Obliging (s.after es) :=
  fun _ octets hn => h _ octets hn

theorem Obliging.exists_answer {octets : Bytes} (h : Obliging s) (hn : octets ≠ [])
    (stream : List (Exchange OctetStream.interface)) :
    ∃ taken : { taken : Nat // taken ≤ octets.length }, 0 < taken.val ∧
      ∀ a, ((streamed s).after stream).Answers ⟨.send octets, a⟩ ↔ a = .ok taken := by
  obtain ⟨taken, hpos, hw⟩ :=
    h ((others stream ++ []).map ofStream) octets hn
  refine ⟨taken, hpos, fun a => ?_⟩
  change (s.world ((others stream ++ []).map ofStream) (.stream (.send octets))).map id = some a ↔ _
  rw [hw]
  exact ⟨fun ha => (Option.some.inj ha).symm, fun ha => ha ▸ rfl⟩

theorem Obliging.sends {reply : Reply} {octets : Bytes} (h : Obliging s)
    (ho : reply.octets = .ok octets) (hc : s.Concludes (send reply) es) :
    (send reply).Ends es (.ok ()) ∧ sent es = octets ∧ received es = [] := by
  obtain ⟨stream, rfl, hstream⟩ := concludes_onStream hc
  rw [send, ends_onStream_iff, sent_ofStream, received_ofStream]
  rw [Reply.send_eq, ho] at hstream ⊢
  have hmeets := sendAll_meets octets
  obtain ⟨hfits, ⟨r, hr⟩ | ⟨q, hq, hstuck⟩⟩ := hstream
  · have hsent := hmeets.2 stream r hr
    cases r with
    | ok u => exact ⟨hr, hsent.2.2, hsent.2.1⟩
    | error e =>
      obtain ⟨⟨before, ⟨q, a⟩, rfl, -, hfails⟩, -⟩ := hsent
      obtain ⟨-, -, rest, hn, -, rfl⟩ := hmeets.1 before q (Program.Follows.asks hr)
      obtain ⟨taken, hpos, ha⟩ := h.exists_answer hn before
      obtain rfl := (ha a).1 (fits_singleton_iff.1 (fits_append_iff.1 hfits).2)
      exact absurd hfails.1 (Nat.ne_of_gt hpos)
  · obtain ⟨-, -, rest, hn, -, rfl⟩ := hmeets.1 stream q hq
    obtain ⟨taken, -, ha⟩ := h.exists_answer hn stream
    exact absurd ((ha _).2 rfl) (hstuck _)

theorem sent_of_reading {rest : Program interface (Except Error Credentials)}
    (h : (onStream (Credentials.receive scratchSize)).run.Follows es rest) : sent es = [] := by
  have hs : (onStream (Credentials.receive scratchSize)).Meets (fun es _ => sent es = [])
      fun es _ => sent es = [] := by
    apply meets_onStream
    simp only [sent_ofStream]
    exact Credentials.receive_reads.meets.mono (fun _ _ hq => hq.sent_eq) fun _ _ hr => hr.sent_eq
  exact hs.of_follows h

theorem Obliging.refuses {reply : Reply} {octets : Bytes} {e : Error} (h : Obliging s)
    (ho : reply.octets = .ok octets)
    (hc : s.Concludes (do send reply; throw e : Action interface Unit) es) :
    (do send reply; throw e : Action interface Unit).Ends es (.error e) ∧ sent es = octets ∧
      received es = [] := by
  obtain ⟨first, second, rfl, hfirst, hsecond, -⟩ := hc.split
  obtain ⟨hends, hs, hr⟩ := h.sends ho hfirst
  obtain ⟨-, ⟨r, hthrown⟩ | ⟨q, hq, -⟩⟩ := hsecond () hends
  · obtain ⟨rfl, rfl⟩ := Program.ends_done_iff.1 hthrown
    rw [List.append_nil]
    exact ⟨ends_bind_iff.2 (.inr ⟨_, _, _, (List.append_nil first).symm, hends, hthrown⟩), hs, hr⟩
  · exact absurd hq (Program.not_asks_done _ _ _)

section

variable {reader : Action OctetStream.interface α} {taken : Except Error α → Bytes → Prop}
  {f : α → Action interface β} {octets : Bytes}

theorem takes_onStream (ht : Reads reader taken) (hc : s.Concludes (onStream reader) es)
    {r : Except Error α} (hr : taken r octets) (hp : octets <+: s.input) :
    (onStream reader).Ends es r ∧ received es = octets := by
  obtain ⟨stream, rfl, hstream⟩ := concludes_onStream hc
  rw [ends_onStream_iff, received_ofStream]
  exact ht.whole hstream hr hp

theorem bind_of_taken (ht : Reads reader taken) (hc : s.Concludes (onStream reader >>= f) es)
    {a : α} (ha : taken (.ok a) octets) (hp : octets <+: s.input) :
    ∃ first second, es = first ++ second ∧ (onStream reader).Ends first (.ok a) ∧
      received first = octets ∧ (s.after first).Concludes (f a) second := by
  obtain ⟨first, second, rfl, hfirst, hsecond, -⟩ := hc.split
  obtain ⟨hends, hr⟩ := takes_onStream ht hfirst ha hp
  exact ⟨first, second, rfl, hends, hr, hsecond a hends⟩

theorem bind_of_refused (ht : Reads reader taken) (hc : s.Concludes (onStream reader >>= f) es)
    {e : Error} (he : taken (.error e) octets) (hp : octets <+: s.input) :
    (onStream reader).Ends es (.error e) ∧ (onStream reader >>= f).Ends es (.error e) ∧
      received es = octets := by
  obtain ⟨first, second, rfl, hfirst, -, hsecond⟩ := hc.split
  obtain ⟨hends, hr⟩ := takes_onStream ht hfirst he hp
  obtain rfl := hsecond e hends
  rw [List.append_nil]
  exact ⟨hends, ends_bind_iff.2 (.inl ⟨e, hends, rfl⟩), hr⟩

/-- A run of a connection that takes all of the input, and ends as the input does. -/
structure Exhausts (s : Circumstances interface) (x : Action interface α)
    (es : List (Exchange interface)) : Prop where
  received : received es = s.input
  ends_iff : ∀ r, x.Ends es r ↔ ∃ e, s.ending.failure? = some e ∧ r = .error e

theorem exhausts_onStream (ht : Reads reader taken) (hno : Unsettled taken s.input)
    (hc : s.Concludes (onStream reader) es) : Exhausts s (onStream reader) es := by
  obtain ⟨stream, rfl, hstream⟩ := concludes_onStream hc
  obtain ⟨hr, hends⟩ := ht.short hstream hno
  exact ⟨(received_ofStream stream).trans hr, fun r => ends_onStream_iff.trans (hends r)⟩

theorem bind_of_short (ht : Reads reader taken) (hno : Unsettled taken s.input)
    (hc : s.Concludes (onStream reader >>= f) es) :
    s.Concludes (onStream reader) es ∧ Exhausts s (onStream reader >>= f) es := by
  -- The reader does not end well at any point of the run, so that the run is all its own.
  have hnot : ∀ {es a}, s.Fits es → ¬ (onStream reader).Ends es (.ok a) := by
    intro es a hfits ha
    obtain ⟨e, -, he⟩ := ((exhausts_onStream ht hno (.of_ends hfits ha)).ends_iff _).1 ha
    cases he
  rcases hc.bind_cases with ⟨hfirst, -⟩ | ⟨first, second, a, rfl, hfits, ha, -⟩
  · obtain ⟨hr, hends⟩ := exhausts_onStream ht hno hfirst
    refine ⟨hfirst, hr, fun r => ?_⟩
    rw [ends_bind_iff]
    constructor
    · rintro (⟨e, he, rfl⟩ | ⟨before, after, a, rfl, ha, -⟩)
      · obtain ⟨e', hf, he'⟩ := (hends _).1 he
        cases he'
        exact ⟨e, hf, rfl⟩
      · exact absurd ha (hnot (fits_append_iff.1 hfirst.1).1)
    · rintro ⟨e, hf, rfl⟩
      exact .inl ⟨e, (hends _).2 ⟨e, hf, rfl⟩, rfl⟩
  · exact absurd ha (hnot hfits)

end

end Connection

namespace Authenticator

open Connection

variable {user secret : Text} {credentials : Credentials} {frame : Bytes}
  {s : Circumstances Connection.interface} {es : List (Exchange Connection.interface)}

/-- What a client that accepts all that it is sent comes to with its input: it passes with the one
message, is refused with another, and is told nothing if there is no message. -/
structure Judged (user secret : Text) (s : Circumstances Connection.interface)
    (es : List (Exchange Connection.interface)) : Prop where
  passes_iff : (password user secret).subnegotiation.Ends es (.ok ()) ↔
    Utf8.size user ≤ 255 ∧ Utf8.size secret ≤ 255 ∧ message user secret <+: s.input
  passed : (password user secret).subnegotiation.Ends es (.ok ()) →
    sent es = [subnegotiationVersion, 0] ∧ received es = message user secret
  refused : ∀ credentials frame, Credentials.Frame credentials frame → frame <+: s.input →
    credentials ≠ ⟨Utf8.encode user, Utf8.encode secret⟩ →
      (password user secret).subnegotiation.Ends es (.error .authenticationFailed) ∧
        sent es = [subnegotiationVersion, 1] ∧ received es = frame
  versioned : ∀ version length, version ≠ subnegotiationVersion → [version, length] <+: s.input →
    (password user secret).subnegotiation.Ends es (.error (.invalidSubnegotiationVersion version)) ∧
      sent es = [] ∧ received es = [version, length]
  incomplete : (∀ credentials frame, Credentials.Frame credentials frame → ¬ frame <+: s.input) →
    (∀ version length, version ≠ subnegotiationVersion → ¬ [version, length] <+: s.input) →
      sent es = [] ∧ Exhausts s (password user secret).subnegotiation es

theorem verifies_iff : verifies user secret credentials = true ↔
    credentials = ⟨Utf8.encode user, Utf8.encode secret⟩ := by
  constructor
  · exact eq_of_verifies
  · rintro rfl
    simp [verifies]

/-- Credentials are read from their frame, and then answered. -/
theorem answered (hc : s.Concludes (password user secret).subnegotiation es)
    (hf : credentials.Frame frame) (hp : frame <+: s.input) :
    ∃ first second, es = first ++ second ∧ sent first = [] ∧ received first = frame ∧
      (s.after first).Concludes (answer user secret credentials) second ∧
        ∀ r, (answer user secret credentials).Ends second r →
          (password user secret).subnegotiation.Ends es r := by
  rw [subnegotiation_password] at hc ⊢
  obtain ⟨first, second, rfl, hread, hr, hsecond⟩ :=
    bind_of_taken Credentials.receive_reads hc hf hp
  exact ⟨first, second, rfl, sent_of_reading hread, hr, hsecond,
    fun r => follows_bind_of_ends hread⟩

theorem ends_of_verifies (hs : Obliging s)
    (hc : s.Concludes (password user secret).subnegotiation es) (hf : credentials.Frame frame)
    (hp : frame <+: s.input) (hv : verifies user secret credentials = true) :
    (password user secret).subnegotiation.Ends es (.ok ()) := by
  obtain ⟨first, second, rfl, -, -, hsecond, hends⟩ := answered hc hf hp
  apply hends
  simp only [answer, hv, if_true] at hsecond ⊢
  exact ((hs.after first).sends rfl hsecond).1

theorem ends_of_not_verifies (hs : Obliging s)
    (hc : s.Concludes (password user secret).subnegotiation es) (hf : credentials.Frame frame)
    (hp : frame <+: s.input) (hv : ¬ verifies user secret credentials = true) :
    (password user secret).subnegotiation.Ends es (.error .authenticationFailed) ∧
      sent es = [subnegotiationVersion, 1] ∧ received es = frame := by
  obtain ⟨first, second, rfl, hnone, hr, hsecond, hends⟩ := answered hc hf hp
  simp only [answer, if_neg hv] at hsecond hends
  obtain ⟨hrefused, hsent, hreceived⟩ :
      _ ∧ sent second = [subnegotiationVersion, 1] ∧ _ := (hs.after first).refuses rfl hsecond
  refine ⟨hends _ hrefused, ?_, ?_⟩
  · rw [sent_append, hnone, hsent, List.nil_append]
  · rw [received_append, hr, hreceived, List.append_nil]

theorem judged_of_concludes (hs : Obliging s)
    (hc : s.Concludes (password user secret).subnegotiation es) : Judged user secret s es := by
  have hpassed : (password user secret).subnegotiation.Ends es (.ok ()) →
      sent es = [subnegotiationVersion, 0] ∧ (password user secret).Passes (received es) :=
    fun h => (subnegotiation_meets _).2 es _ h () rfl
  constructor
  · constructor
    · intro h
      obtain ⟨hu, hp, hr⟩ := passes_iff_message.1 (hpassed h).2
      exact ⟨hu, hp, hr ▸ hc.1.received_le⟩
    · rintro ⟨hu, hp, hm⟩
      have hframe := passes_iff_message.2 ⟨hu, hp, rfl⟩
      exact ends_of_verifies hs hc hframe hm (verifies_iff.2 rfl)
  · intro h
    exact ⟨(hpassed h).1, (passes_iff_message.1 (hpassed h).2).2.2⟩
  · intro credentials frame hf hp hne
    exact ends_of_not_verifies hs hc hf hp fun hv => hne (verifies_iff.1 hv)
  · intro version length hv hp
    obtain ⟨hread, hends, hr⟩ := bind_of_refused Credentials.receive_reads hc (.intro hv rfl) hp
    exact ⟨hends, sent_of_reading hread, hr⟩
  · intro hframe hversion
    have hno : ∀ r octets, Outcome Credentials.Frame (WrongVersion subnegotiationVersion 1
        .invalidSubnegotiationVersion) r octets → ¬ octets <+: s.input := by
      intro r octets ht
      cases r with
      | ok credentials => exact hframe credentials octets ht
      | error e =>
        obtain ⟨hv, hl⟩ := ht
        obtain ⟨length, rfl⟩ := List.length_eq_one_iff.1 hl
        exact hversion _ length hv
    obtain ⟨hread, hexhausts⟩ := bind_of_short Credentials.receive_reads hno hc
    obtain ⟨p, hp⟩ := hread.exists_follows
    exact ⟨sent_of_reading hp, hexhausts⟩

end Authenticator

namespace Connection

variable {x : Action interface Unit} {es : List (Exchange interface)} {r : Except Error Unit}

def decided : Except Error Unit → Stage
  | .ok _ => .authenticated
  | .error _ => .closed

/-- An authentication does what the subnegotiation does, and then enters the stage that this has
decided on. -/
theorem ends_authenticate_iff : (authenticate x).Ends es r ↔ ∃ inner, x.Ends inner r ∧
    es = ⟨.started .authenticate, ()⟩ :: inner ++ [⟨.entered (decided r), ()⟩] := by
  constructor
  · have hmeets : (authenticate x).Meets (fun _ _ => True) fun es r => ∃ inner, x.Ends inner r ∧
        es = ⟨.started .authenticate, ()⟩ :: inner ++ [⟨.entered (decided r), ()⟩] := by
      apply meets_bind
      apply meets_ask trivial fun _ => ?_
      apply meets_bind
      apply meets_orClosed
      refine ⟨fun _ _ _ => trivial, fun inner r hr => ?_⟩
      cases r with
      | ok u => exact meets_ask trivial fun _ => ⟨inner, hr, rfl⟩
      | error e => exact ⟨trivial, inner, hr, rfl⟩
    exact hmeets.2 es r
  · rintro ⟨inner, hx, rfl⟩
    have hstarted : (started .authenticate).Ends [⟨.started .authenticate, ()⟩] (.ok ()) :=
      .step (.refl _)
    apply follows_bind_of_ends hstarted
    cases r with
    | ok u =>
      have houtcome : x.outcome.Ends inner (.ok (.ok u)) := ends_outcome_iff.2 ⟨.ok u, rfl, hx⟩
      have hopen : (orClosed x).Ends inner (.ok u) :=
        ends_bind_iff.2 (.inr ⟨inner, [], _, (List.append_nil inner).symm, houtcome, .refl _⟩)
      exact follows_bind_of_ends hopen (.step (.refl _))
    | error e => exact ends_bind_iff.2 (.inl ⟨e, ends_orClosed_error hx, rfl⟩)

end Connection

namespace Authenticator

open Connection

/-- With a client that accepts all that it is sent, the subnegotiation comes to what the input
decides, and the connection is authenticated after it or else closed. -/
theorem password_judged (user secret : Text) {s : Circumstances Connection.interface}
    (h : Obliging s) :
    (∃ es, s.Concludes (password user secret).subnegotiation es) ∧
      (∀ es, s.Concludes (password user secret).subnegotiation es → Judged user secret s es) ∧
      (∀ es r, (authenticate (password user secret).subnegotiation).Ends es r ↔
        ∃ inner, (password user secret).subnegotiation.Ends inner r ∧
          es = ⟨.started .authenticate, ()⟩ :: inner ++ [⟨.entered (decided r), ()⟩]) ∧
      ∀ es r, (authenticate (password user secret).subnegotiation).Ends es r →
        Leaves .authenticated r es := by
  have hconcludes : ∃ es, s.Concludes (password user secret).subnegotiation es :=
    exists_concludes (.refl _) trivial
  exact ⟨hconcludes, fun es => judged_of_concludes h, fun es r => ends_authenticate_iff,
    (authenticate_heeds (password user secret)).2⟩

def sending (input : Bytes) : Circumstances Connection.interface := { oneAtATime with input }

theorem obliging_sending (input : Bytes) : Obliging (sending input) := by
  intro es octets hn
  have hpos : 0 < octets.length := List.length_pos_iff.2 hn
  exact ⟨⟨min 1 octets.length, Nat.min_le_right ..⟩, Nat.lt_min.2 ⟨Nat.one_pos, hpos⟩, rfl⟩

/-- A name of one letter and two octets, with the empty password that it needs, and with another. -/
theorem judged_letter :
    Obliging (sending [1, 2, 0xc3, 0xa9, 0, 5]) ∧ Obliging (sending [1, 2, 0xc3, 0xa9, 1, 7]) ∧
      (∃ es, Judged ['é'] [] (sending [1, 2, 0xc3, 0xa9, 0, 5]) es ∧
        (password ['é'] []).subnegotiation.Ends es (.ok ()) ∧
        sent es = [1, 0] ∧ received es = [1, 2, 0xc3, 0xa9, 0]) ∧
      ∃ es, Judged ['é'] [] (sending [1, 2, 0xc3, 0xa9, 1, 7]) es ∧
        (authenticate (password ['é'] []).subnegotiation).Ends
          (⟨.started .authenticate, ()⟩ :: es ++ [⟨.entered .closed, ()⟩])
          (.error .authenticationFailed) ∧
        sent es = [1, 1] ∧ received es = [1, 2, 0xc3, 0xa9, 1, 7] := by
  have hright := obliging_sending [1, 2, 0xc3, 0xa9, 0, 5]
  have hwrong := obliging_sending [1, 2, 0xc3, 0xa9, 1, 7]
  refine ⟨hright, hwrong, ?_, ?_⟩
  · obtain ⟨⟨es, hc⟩, hjudged, -⟩ := password_judged ['é'] [] hright
    have hpasses := (hjudged es hc).passes_iff.2 (by decide +kernel)
    obtain ⟨hs, hr⟩ := (hjudged es hc).passed hpasses
    exact ⟨es, hjudged es hc, hpasses, hs, hr⟩
  · obtain ⟨⟨es, hc⟩, hjudged, hends, -⟩ := password_judged ['é'] [] hwrong
    obtain ⟨hrefused, hs, hr⟩ := (hjudged es hc).refused ⟨[0xc3, 0xa9], [7]⟩ _ ⟨2, 1, rfl, rfl, rfl⟩
      List.prefix_rfl (by decide +kernel)
    exact ⟨es, hjudged es hc, (hends _ _).2 ⟨es, hrefused, rfl⟩, hs, hr⟩

end Authenticator

end SocksProxy
