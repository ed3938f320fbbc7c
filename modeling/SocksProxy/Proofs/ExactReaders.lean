import SocksProxy.Proofs.AddressDecoders
import SocksProxy.Proofs.AddressRoundTrips

/-!
# The readers accept their frames and take just these

A reader of a message of the client accepts an input if and only if it begins with a frame of the
message, and leaves what follows the frame. What it refuses it names by the octets that it has
taken: a version, the type of an address or a name. Everything else is too short for the reader,
which then ends as the input does.
-/

namespace SocksProxy

open SocksProxy.Action OctetStream Circumstances

namespace OctetStream

variable {α : Type} {x : Action interface α} {accepted : α → Bytes → Prop}
  {refused : Error → Bytes → Prop}

/-- A reader that accepts its frames and takes just these, with any parts of any input. -/
structure Exact (x : Action interface α) (accepted : α → Bytes → Prop)
    (refused : Error → Bytes → Prop) : Prop where
  goesOn : ∀ {s : Circumstances interface} {es p}, x.run.Follows es p → s.Fits es →
    ∃ more, s.Concludes x (es ++ more)
  accepts_iff : ∀ {s : Circumstances interface} {es} a rest, s.Concludes x es →
    ((x.Ends es (.ok a) ∧ (s.after es).input = rest) ↔
      ∃ frame, accepted a frame ∧ s.input = frame ++ rest)
  refuses : ∀ {s : Circumstances interface} {es} e frame, s.Concludes x es → refused e frame →
    frame <+: s.input → x.Ends es (.error e) ∧ received es = frame
  short : ∀ {s : Circumstances interface} {es}, s.Concludes x es →
    (∀ a frame, accepted a frame → ¬ frame <+: s.input) →
    (∀ e frame, refused e frame → ¬ frame <+: s.input) → RunsDry s x es

theorem exact_of_reads (h : Reads x (Outcome accepted refused)) : Exact x accepted refused := by
  constructor
  · intro s es p hp hfits
    exact exists_concludes hp hfits
  · intro s es a rest hc
    constructor
    · rintro ⟨ha, rfl⟩
      obtain ⟨more, hmore⟩ := hc.1.received_le
      refine ⟨received es, h.taken_of_ends ha, ?_⟩
      rw [Circumstances.after, ← hmore, List.drop_left]
    · rintro ⟨frame, hframe, hi⟩
      have ht : Outcome accepted refused (.ok a) frame := hframe
      obtain ⟨hends, hr⟩ := h.whole hc ht ⟨rest, hi.symm⟩
      refine ⟨hends, ?_⟩
      rw [Circumstances.after, hr, hi, List.drop_left]
  · intro s es e frame hc hr hp
    have ht : Outcome accepted refused (.error e) frame := hr
    exact h.whole hc ht hp
  · intro s es hc ha hr
    apply h.short hc
    intro r octets ht
    cases r with
    | ok a => exact ha a octets ht
    | error e => exact hr e octets ht

end OctetStream

namespace Address

/-- The octets of a record: the code of the type, the host and the port. -/
inductive Layout : Address → Bytes → Prop where
  | ipv4 (ip : Ipv4) (port : UInt16) : Layout ⟨.ipv4, HostPort.join ip.text port⟩
      (AddressType.ipv4.code :: ip.octets ++ Word.octets port)
  | ipv6 (ip : Ipv6) (port : UInt16) : Layout ⟨.ipv6, HostPort.join ip.text port⟩
      (AddressType.ipv6.code :: ip.octets ++ Word.octets port)
  | domain (name : Text) (length : UInt8) (port : UInt16)
      (hl : length.toNat = (Utf8.encode name).length) : Layout ⟨.domain, HostPort.join name port⟩
        (AddressType.domain.code :: length :: Utf8.encode name ++ Word.octets port)

/-- A code that is that of no type, and a record with octets for a name that are not UTF-8. -/
inductive Refused : Error → Bytes → Prop where
  | type {code : UInt8} (h : AddressType.ofCode? code = none) :
      Refused (.addressTypeNotSupported code) [code]
  | name {length : UInt8} {name : Bytes} (port : UInt16) (hl : length.toNat = name.length)
      (h : ∀ t, Utf8.encode t ≠ name) : Refused (.invalidAddress (Utf8.decodeLossy name))
        (AddressType.domain.code :: length :: name ++ Word.octets port)

theorem layout_or_refused {type : AddressType} {length : Nat} {lengthOctets body : Bytes}
    (hl : LengthOctets type length lengthOctets) (hb : body.length = length + 2) :
    Outcome Layout Refused (ofBody type length body) (type.code :: (lengthOctets ++ body)) := by
  obtain ⟨host, port, rest, rfl, rfl⟩ := exists_eq_append (Nat.le_of_eq hb.symm)
  obtain rfl : rest = [] := by
    simp only [List.length_append, Word.length_octets] at hb
    exact List.length_eq_zero_iff.1 (by omega)
  rw [ofBody_append, List.append_nil]
  cases type with
  | ipv4 =>
    obtain ⟨rfl, hlength⟩ := hl
    have h := Layout.ipv4 (Ipv4.ofOctets host) port
    rw [Ipv4.octets_ofOctets hlength] at h
    exact h
  | ipv6 =>
    obtain ⟨rfl, hlength⟩ := hl
    have h := Layout.ipv6 (Ipv6.ofOctets host) port
    rw [Ipv6.octets_ofOctets hlength] at h
    exact h
  | domain =>
    obtain ⟨n, rfl, hlength⟩ := hl
    cases hname : Utf8.decode? host with
    | none =>
      have hno : ∀ t, Utf8.encode t ≠ host := by
        intro t ht
        rw [Utf8.decode?_eq_some_iff_encode.2 ht] at hname
        cases hname
      simp only [hostText, hname]
      exact .name port hlength.symm hno
    | some name =>
      have he := Utf8.decode?_eq_some_iff_encode.1 hname
      simp only [hostText, hname]
      subst he
      exact .domain name n port hlength.symm

theorem taken_of_hostText {type : AddressType} {lengthOctets host : Bytes} {port : UInt16}
    {r : Except Error Text} (hl : LengthOctets type host.length lengthOctets)
    (hr : hostText type host = r) :
    Taken type.code (r.map fun text => ⟨type, HostPort.join text port⟩)
      (lengthOctets ++ (host ++ Word.octets port)) := by
  have hbody := ofBody_append type host port []
  rw [List.append_nil, hr] at hbody
  rw [← hbody]
  exact .record (AddressType.ofCode?_code type) hl (by simp)

theorem Layout.taken {a : Address} {record : Bytes} (h : a.Layout record) :
    ∃ code octets, record = code :: octets ∧ Taken code (.ok a) octets := by
  cases h with
  | ipv4 ip port =>
    have hl : LengthOctets .ipv4 ip.octets.length [] := ⟨rfl, rfl⟩
    exact ⟨_, _, rfl, taken_of_hostText hl rfl⟩
  | ipv6 ip port =>
    have hl : LengthOctets .ipv6 ip.octets.length [] := ⟨rfl, Ipv6.length_octets ip⟩
    have hip : hostText .ipv6 ip.octets = .ok ip.text := by
      rw [hostText, Ipv6.ofOctets_octets]
    exact ⟨_, _, rfl, taken_of_hostText hl hip⟩
  | domain name length port hlength =>
    have hl : LengthOctets .domain (Utf8.encode name).length [length] :=
      ⟨length, rfl, hlength.symm⟩
    have hname : hostText .domain (Utf8.encode name) = .ok name := by
      simp only [hostText, Utf8.decode?_encode]
    exact ⟨_, _, rfl, taken_of_hostText hl hname⟩

theorem Refused.taken {e : Error} {record : Bytes} (h : Refused e record) :
    ∃ code octets, record = code :: octets ∧ Taken code (.error e) octets := by
  cases h with
  | type h => exact ⟨_, [], rfl, .unsupported h⟩
  | @name length name port hlength h =>
    have hl : LengthOctets .domain name.length [length] := ⟨length, rfl, hlength.symm⟩
    have hname : hostText .domain name = .error (.invalidAddress (Utf8.decodeLossy name)) := by
      cases hd : Utf8.decode? name with
      | some t => exact absurd (Utf8.decode?_eq_some_iff_encode.1 hd) (h t)
      | none => simp only [hostText, hd]
    exact ⟨_, _, rfl, taken_of_hostText hl hname⟩

theorem Taken.outcome {code : UInt8} {r : Except Error Address} {octets : Bytes}
    (h : Taken code r octets) : Outcome Layout Refused r (code :: octets) := by
  cases h with
  | unsupported h => exact .type h
  | record ht hl hb =>
    obtain rfl := AddressType.code_of_ofCode? ht
    exact layout_or_refused hl hb

end Address

/-- The octets of a command request, whose third octet may be any. -/
def CommandRequest.Layout (request : CommandRequest) (octets : Bytes) : Prop :=
  ∃ code reserved record, octets = protocolVersion :: code :: reserved :: record ∧
    request.command = .ofCode code ∧ request.target.Layout record

/-- The first octets with a wrong version, or those of the right one with a refused address. -/
inductive CommandRequest.Refused : Error → Bytes → Prop where
  | version {e : Error} {octets : Bytes}
      (h : WrongVersion protocolVersion 3 .invalidVersion e octets) : Refused e octets
  | address {e : Error} {command reserved : UInt8} {record : Bytes} (h : Address.Refused e record) :
      Refused e (protocolVersion :: command :: reserved :: record)

theorem CommandRequest.taken_iff {r : Except Error CommandRequest} {octets : Bytes} :
    Taken r octets ↔ Outcome Layout Refused r octets := by
  constructor
  · rintro (⟨e, he, rfl⟩ | ⟨fields, rest, rfl, hl, r', ht, rfl⟩)
    · exact .version he
    · obtain ⟨command, reserved, code, rfl⟩ : ∃ command reserved code,
          fields = [command, reserved, code] := by
        match fields, hl with
        | [command, reserved, code], _ => exact ⟨command, reserved, code, rfl⟩
      have houtcome := ht.outcome
      cases r' with
      | error e => exact .address houtcome
      | ok target => exact ⟨command, reserved, _, rfl, rfl, houtcome⟩
  · intro h
    cases r with
    | ok request =>
      obtain ⟨requested, target⟩ := request
      obtain ⟨command, reserved, record, rfl, hc, hlayout⟩ := h
      obtain ⟨code, octets, rfl, ht⟩ := hlayout.taken
      obtain rfl : requested = .ofCode command := hc
      exact .inr ⟨[command, reserved, code], octets, rfl, rfl, .ok target, ht, rfl⟩
    | error e =>
      cases h with
      | version h => exact .inl ⟨e, h, rfl⟩
      | @address command reserved record h =>
        obtain ⟨code, octets, rfl, ht⟩ := h.taken
        exact .inr ⟨[command, reserved, code], octets, rfl, rfl, .error e, ht, rfl⟩

/-- The three readers, with whatever their buffer has held before. -/
theorem readers_exact {buffer : Bytes} (h : buffer.length = scratchSize) :
    Exact (Greeting.receiveInto buffer) Greeting.Frame
        (WrongVersion protocolVersion 1 .invalidVersion) ∧
      Exact (Credentials.receiveInto buffer) Credentials.Frame
          (WrongVersion subnegotiationVersion 1 .invalidSubnegotiationVersion) ∧
        Exact (CommandRequest.receiveInto buffer) CommandRequest.Layout CommandRequest.Refused := by
  rw [Greeting.receiveInto_eq, Credentials.receiveInto_eq, CommandRequest.receiveInto_eq, h]
  exact ⟨exact_of_reads Greeting.receive_reads, exact_of_reads Credentials.receive_reads,
    exact_of_reads (CommandRequest.receive_reads.congr fun _ _ => CommandRequest.taken_iff)⟩

def sentTogether : Circumstances OctetStream.interface where
  input := [5, 1, 0, 1, 127, 0, 0, 1, 0, 80, 7]
  ending := .silent
  world _ _ := none

def receivedApart : List (Exchange OctetStream.interface) :=
  [⟨.receive 4, .ok ⟨[5, 1], by decide⟩⟩, ⟨.receive 2, .ok ⟨[0, 1], by decide⟩⟩,
    ⟨.receive 6, .ok ⟨[127, 0, 0, 1, 0, 80], by decide⟩⟩]

def usedBuffer : Bytes := List.replicate scratchSize 0xaa

theorem exact_receivedApart :
    usedBuffer.length = scratchSize ∧ sentTogether.Concludes
        (CommandRequest.receiveInto usedBuffer) receivedApart ∧
      ∃ frame, CommandRequest.Layout ⟨.connect, ⟨.ipv4, "127.0.0.1:80".toList⟩⟩ frame ∧
        sentTogether.input = frame ++ [7] := by
  have hl : usedBuffer.length = scratchSize := List.length_replicate
  have hends : (CommandRequest.receiveInto usedBuffer).Ends receivedApart
      (.ok ⟨.connect, ⟨.ipv4, "127.0.0.1:80".toList⟩⟩) := by decide +kernel
  have hfits : sentTogether.Fits receivedApart := by
    simp [sentTogether, receivedApart, Circumstances.Fits, Circumstances.Answers,
      Circumstances.after, Circumstances.Delivers, receipt?, others, received,
      OctetStream.receipt?, OctetStream.octetsIn, Interface.Streamed.stream?, Except.map]
  have hleft : (sentTogether.after receivedApart).input = [7] := by decide
  have hc := Concludes.of_ends hfits hends
  exact ⟨hl, hc, ((readers_exact hl).2.2.accepts_iff _ [7] hc).1 ⟨hends, hleft⟩⟩

end SocksProxy
