import SocksProxy.Proofs.BufferedPrograms
import SocksProxy.Proofs.WrittenAddresses

/-!
# Messages on the buffer

The readers of the messages of a client fill the first places of the buffer and take the fields of
the message from there. The writer of a reply puts its octets into the first places, from which
they are sent. How many places there are in use follows from octets that the client sends, and
from texts of any length; the buffer has them all.
-/

namespace SocksProxy

open SocksProxy.Action SocksProxy.Buffered

namespace Buffered

variable {I : Interface} {α β γ δ : Type} {buffer : Scratch}

/-- Writes octets from `start` on, from where the buffer has `available` places, and tells their
number. -/
def write (start available : Nat) (octets : Bytes) : Buffered I Nat := do
  require octets.length available
  let _ ← slice start (start + octets.length)
  overwrite start octets
  return octets.length

theorem carries_write {before octets : Bytes} {start available : Nat} {f : Nat → Buffered I γ}
    {y : Action I δ} {S : γ → Scratch → δ → Prop} (hb : before <+: buffer.val)
    (hs : before.length = start) (hl : start + octets.length ≤ scratchSize)
    (ha : octets.length ≤ available)
    (h : ∀ buffer' : Scratch, before ++ octets <+: buffer'.val →
      Carries (f octets.length) buffer' y S) :
    Carries (write start available octets >>= f) buffer y S := by
  subst hs
  simp only [write, bind_assoc, pure_bind]
  apply carries_require ha
  apply carries_slice (Nat.le_add_right _ _) hl
  exact carries_overwrite hb hl h

theorem carries_write_first {octets : Bytes} {f : Nat → Buffered I γ} {y : Action I δ}
    {S : γ → Scratch → δ → Prop} (hl : octets.length ≤ scratchSize)
    (h : ∀ buffer' : Scratch, octets <+: buffer'.val → Carries (f octets.length) buffer' y S) :
    Carries (write 0 scratchSize octets >>= f) buffer y S :=
  carries_write List.nil_prefix rfl (by rwa [Nat.zero_add]) hl h

end Buffered

namespace OctetStream

variable {buffer : Scratch} {before : Bytes} {requests missing count : Nat} {γ δ : Type}

theorem Breaks.not_isShort {es : List (Exchange interface)} {e : Error} (h : Breaks es e) :
    ¬ e.IsShort := by
  obtain ⟨-, ⟨q, answer⟩, -, -, hf⟩ := h
  cases q with
  | receive limit =>
    cases answer with
    | ok octets =>
      obtain ⟨-, rfl⟩ := hf
      exact not_isShort_io _
    | error failure =>
      obtain rfl := hf
      exact not_isShort_io failure
  | send octets =>
    cases answer with
    | ok taken =>
      obtain ⟨-, rfl⟩ := hf
      exact not_isShort_io _
    | error failure =>
      obtain rfl := hf
      exact not_isShort_io failure

theorem roomy_receiveOctet : receiveOctet.Roomy :=
  fun es _ h => (receiveOctet_meets.2 es _ h).1.not_isShort

theorem roomy_sendAll (octets : Bytes) : (sendAll octets).Roomy :=
  fun es _ h => ((sendAll_meets octets).2 es _ h).1.not_isShort

theorem receive_ends {es : List (Exchange interface)} {octets : Bytes}
    (h : (receive missing).Ends es (.ok octets)) : octets.length ≤ missing := by
  obtain ⟨answer, rest, -, hr⟩ := Program.ends_ask_iff.1 h
  have hresult := (Program.ends_done_iff.1 hr).2
  cases answer with
  | ok octets =>
    cases hresult
    exact octets.property
  | error failure => cases hresult

def fillMore : (requests start missing : Nat) → Buffered interface Unit
  | 0, _, _ => pure ()
  | requests + 1, start, missing => do
    if missing = 0 then return
    let octets ← plain (receive missing)
    if octets.isEmpty then throw (.io (.raised .unexpectedEof))
    overwrite start octets
    fillMore requests (start + octets.length) (missing - octets.length)

def fillPlaces (count : Nat) : Buffered interface Unit := do
  let _ ← slice 0 count
  fillMore count 0 count

theorem carries_fillMore (hb : before <+: buffer.val) (hr : missing ≤ requests)
    (hl : before.length + missing ≤ scratchSize) :
    Carries (fillMore requests before.length missing) buffer (receiveMore requests missing)
      fun _ buffer' octets => octets.length = missing ∧ before ++ octets <+: buffer'.val := by
  induction requests generalizing before missing buffer with
  | zero =>
    refine carries_pure ⟨?_, ?_⟩
    · exact (Nat.le_zero.1 hr).symm
    · rwa [List.append_nil]
  | succ requests ih =>
    unfold fillMore receiveMore
    apply carries_ite
    · rintro rfl
      refine carries_pure ⟨rfl, ?_⟩
      rwa [List.append_nil]
    · intro _
      apply carries_plain roomy_attempt
      intro es octets hends
      have ho := receive_ends hends
      apply carries_ite
      · intro _
        exact carries_throw (not_isShort_io _)
      · intro hn
        have hpos : 0 < octets.length :=
          List.length_pos_iff.2 fun h => hn (List.isEmpty_iff.2 h)
        apply carries_overwrite hb (by omega)
        intro buffer hb
        rw [← bind_pure (fillMore _ _ _), ← List.length_append]
        apply (ih hb (by omega) (by rw [List.length_append]; omega)).bind
        rintro _ buffer more ⟨hm, hp⟩
        refine carries_pure ⟨?_, ?_⟩
        · rw [List.length_append]
          omega
        · rwa [← List.append_assoc]

theorem carries_fillPlaces {f : Unit → Buffered interface γ} {g : Bytes → Action interface δ}
    {S : γ → Scratch → δ → Prop} (hc : count ≤ scratchSize)
    (h : ∀ (buffer' : Scratch) octets, octets.length = count → octets <+: buffer'.val →
      Carries (f ()) buffer' (g octets) S) :
    Carries (fillPlaces count >>= f) buffer (receiveWithin scratchSize count >>= g) S := by
  rw [receiveWithin_eq hc, fillPlaces, bind_assoc]
  apply carries_slice (Nat.zero_le _) hc
  have hb : ([] : Bytes) <+: buffer.val := List.nil_prefix
  apply (carries_fillMore hb (Nat.le_refl count) (by simpa using hc)).bind
  rintro _ buffer' octets ⟨hl, hp⟩
  exact h buffer' octets hl hp

end OctetStream

open OctetStream

theorem toNat_le_scratchSize (n : UInt8) : n.toNat ≤ scratchSize :=
  Nat.le_trans (Nat.le_add_right _ 2) (octet_le_scratchSize n)

def Greeting.receiveBuffered : Buffered OctetStream.interface Greeting := do
  fillPlaces 2
  let version ← octetAt 0
  let count ← octetAt 1
  if version ≠ protocolVersion then throw (.invalidVersion version)
  fillPlaces count.toNat
  return ⟨← slice 0 count.toNat⟩

theorem Greeting.matches_receive :
    Matches Greeting.receiveBuffered (Greeting.receive scratchSize) := by
  intro buffer
  apply carries_fillPlaces (by decide)
  intro buffer head hl hp
  apply carries_octetAt hp (by omega)
  apply carries_octetAt hp (by omega)
  apply carries_ite
  · intro _
    exact carries_throw nofun
  · intro _
    apply carries_fillPlaces (toNat_le_scratchSize _)
    intro buffer methods hm hp
    apply carries_slice_of_prefix hp hm
    exact carries_pure rfl

def Credentials.receiveBuffered : Buffered OctetStream.interface Credentials := do
  fillPlaces 2
  let version ← octetAt 0
  let count ← octetAt 1
  if version ≠ subnegotiationVersion then throw (.invalidSubnegotiationVersion version)
  fillPlaces count.toNat
  let username ← slice 0 count.toNat
  let length ← plain receiveOctet
  fillPlaces length.toNat
  return ⟨username, ← slice 0 length.toNat⟩

theorem Credentials.matches_receive :
    Matches Credentials.receiveBuffered (Credentials.receive scratchSize) := by
  intro buffer
  apply carries_fillPlaces (by decide)
  intro buffer head hl hp
  apply carries_octetAt hp (by omega)
  apply carries_octetAt hp (by omega)
  apply carries_ite
  · intro _
    exact carries_throw nofun
  · intro _
    apply carries_fillPlaces (toNat_le_scratchSize _)
    intro buffer username hu hp
    apply carries_slice_of_prefix hp hu
    apply carries_plain roomy_receiveOctet
    intro es length _
    apply carries_fillPlaces (toNat_le_scratchSize _)
    intro buffer password hw hp
    apply carries_slice_of_prefix hp hw
    exact carries_pure rfl

namespace Address

def receiveBuffered (code : UInt8) : Buffered OctetStream.interface Address := do
  match AddressType.ofCode? code with
  | none => throw (.addressTypeNotSupported code)
  | some type =>
    let length ← plain (receive.hostLength type)
    require (length + 2) scratchSize
    fillPlaces (length + 2)
    let host ← plain (ExceptT.mk (.done (hostText type (← slice 0 length))))
    return ⟨type, HostPort.join host (Word.ofOctets (← octetAt length) (← octetAt (length + 1)))⟩

theorem roomy_hostLength (type : AddressType) : (receive.hostLength type).Roomy := by
  cases type with
  | ipv4 => exact roomy_pure 4
  | ipv6 => exact roomy_pure 16
  | domain => exact roomy_receiveOctet.bind fun octet => roomy_pure octet.toNat

theorem hostText_not_isShort {type : AddressType} {octets : Bytes} {e : Error}
    (h : hostText type octets = .error e) : ¬ e.IsShort := by
  cases type with
  | ipv4 => cases h
  | ipv6 => cases h
  | domain =>
    rw [hostText] at h
    cases hdecode : Utf8.decode? octets with
    | some name =>
      rw [hdecode] at h
      cases h
    | none =>
      rw [hdecode] at h
      cases h
      rintro ⟨_, _, ⟨⟩⟩

theorem matches_receive (code : UInt8) :
    Matches (receiveBuffered code) (receive scratchSize code) := by
  intro buffer
  unfold receiveBuffered receive
  cases AddressType.ofCode? code with
  | none => exact carries_throw nofun
  | some type =>
    apply carries_plain (roomy_hostLength type)
    intro es length hends
    have hlength : LengthOctets type length (received es) :=
      (hostLength_reads type).taken_of_ends hends
    have hl : length + 2 ≤ scratchSize := hlength.le_scratchSize
    apply carries_require hl
    apply carries_fillPlaces hl
    intro buffer body hb hp
    have hbody : (ExceptT.mk (.done (ofBody type length body)) : Action OctetStream.interface _) =
        ExceptT.mk (.done (hostText type (body.take length))) >>= fun host =>
          pure ⟨type, HostPort.join host
            (Word.ofOctets (body.getD length 0) (body.getD (length + 1) 0))⟩ := by
      unfold ofBody
      cases hostText type (body.take length) <;> rfl
    rw [hbody]
    apply carries_slice_of_prefix ((List.take_prefix length body).trans hp)
    · rw [List.length_take]
      omega
    apply carries_result fun e => hostText_not_isShort
    intro host _
    apply carries_octetAt hp (by omega)
    apply carries_octetAt hp (by omega)
    exact carries_pure rfl

theorem record_not_isShort {a : Address} {e : Error} (h : a.record = .error e) :
    ¬ e.IsShort := by
  cases hsplit : HostPort.split? a.text with
  | none =>
    rw [record_of_split?_eq_none hsplit] at h
    cases h
    exact nofun
  | some found =>
    obtain ⟨host, digits⟩ := found
    cases ho : hostOctets? a.type host with
    | none =>
      rw [record_of_hostOctets?_eq_none hsplit ho] at h
      cases h
      exact nofun
    | some octets =>
      rcases portNumber_cases digits with ⟨port, hport⟩ | hport
      · have hf : HostPort.Forms a.text host digits := HostPort.split?_eq_some_iff.1 hsplit
        rw [record_eq_ok_iff.2 ⟨host, digits, octets, port, parts_eq_ok_iff.2 hf, ho, hport, rfl⟩]
          at h
        cases h
      · rw [record_of_portNumber_eq_error hsplit ho hport] at h
        cases h
        exact nofun

end Address

def CommandRequest.receiveBuffered : Buffered OctetStream.interface CommandRequest := do
  fillPlaces 4
  let version ← octetAt 0
  let command ← octetAt 1
  let code ← octetAt 3
  if version ≠ protocolVersion then throw (.invalidVersion version)
  return ⟨.ofCode command, ← Address.receiveBuffered code⟩

theorem CommandRequest.matches_receive :
    Matches CommandRequest.receiveBuffered (CommandRequest.receive scratchSize) := by
  intro buffer
  apply carries_fillPlaces (by decide)
  intro buffer head hl hp
  apply carries_octetAt hp (by omega)
  apply carries_octetAt hp (by omega)
  apply carries_octetAt hp (by omega)
  apply carries_ite
  · intro _
    exact carries_throw nofun
  · intro _
    apply (Address.matches_receive _ buffer).bind
    rintro target buffer _ rfl
    exact carries_pure rfl

namespace Reply

def encodeBuffered : Reply → Buffered OctetStream.interface Nat
  | .method selected => write 0 scratchSize [protocolVersion, selected.code]
  | .subnegotiation accepted =>
    write 0 scratchSize [subnegotiationVersion, if accepted then 0 else 1]
  | .command status bound => do
    let header ← write 0 scratchSize (commandHeader status)
    let rest ← slice header scratchSize
    let record ← plain (ExceptT.mk (.done bound.record))
    return header + (← write header rest.length record)

def sendBuffered (reply : Reply) : Buffered OctetStream.interface Unit := do
  let length ← reply.encodeBuffered
  plain (OctetStream.sendAll (← slice 0 length))

/-- The octets of a reply come to stand in the first places. -/
def Stands (length : Nat) (buffer : Scratch) (octets : Bytes) : Prop :=
  octets.length = length ∧ octets <+: buffer.val

theorem carries_write_whole {octets : Bytes} (hl : octets.length ≤ scratchSize)
    (buffer : Scratch) :
    Carries (write 0 scratchSize octets : Buffered OctetStream.interface Nat) buffer (pure octets)
      Stands := by
  rw [← bind_pure (write 0 scratchSize octets)]
  exact carries_write_first hl fun _ hp => carries_pure ⟨rfl, hp⟩

theorem carries_encode (reply : Reply) (buffer : Scratch) :
    Carries reply.encodeBuffered buffer (ExceptT.mk (.done reply.octets)) Stands := by
  cases reply with
  | method selected => exact carries_write_whole (Nat.le_of_ble_eq_true rfl) buffer
  | subnegotiation accepted => exact carries_write_whole (Nat.le_of_ble_eq_true rfl) buffer
  | command status bound =>
    have hoctets : (ExceptT.mk (.done (Reply.command status bound).octets) :
        Action OctetStream.interface Bytes) =
          ExceptT.mk (.done bound.record) >>= fun record =>
            pure (commandHeader status ++ record) := by
      rw [octets]
      cases bound.record <;> rfl
    rw [hoctets]
    have hheader : (commandHeader status).length ≤ scratchSize := Nat.le_of_ble_eq_true rfl
    apply carries_write_first hheader
    intro buffer hp
    apply carries_slice hheader (Nat.le_refl _)
    apply carries_result fun e => Address.record_not_isShort
    intro record hr
    have hle := Address.record_length_le hr
    have hroom : (commandHeader status).length + record.length ≤ scratchSize := by
      rw [length_commandHeader]
      exact Nat.le_trans (Nat.add_le_add_left hle 3) (Nat.le_of_ble_eq_true rfl)
    have hrest : record.length ≤
        ((buffer.val.take scratchSize).drop (commandHeader status).length).length := by
      rw [List.length_drop, List.length_take, buffer.property, Nat.min_self]
      exact Nat.le_sub_of_add_le' hroom
    apply carries_write hp rfl hroom hrest
    intro buffer hp
    exact carries_pure ⟨List.length_append, hp⟩

theorem matches_send (reply : Reply) : Matches reply.sendBuffered reply.send := by
  have hsend : reply.send = ExceptT.mk (.done reply.octets) >>= OctetStream.sendAll := by
    rw [send_eq]
    cases reply.octets <;> rfl
  intro buffer
  rw [hsend]
  apply (reply.carries_encode buffer).bind
  rintro length buffer octets ⟨hl, hp⟩
  apply carries_slice_of_prefix hp hl
  exact matches_plain (roomy_sendAll octets) buffer

end Reply

end SocksProxy
