import SocksProxy.Resolution
import SocksProxy.Utf8Decoding
import SocksProxy.Proofs.JoinedTexts

/-!
# Addresses between text and wire

What stands for a host on the wire is read as the usual text of the host, and that text is written
in the same way. So an address that is written and read keeps its type and its port, and has its
host in the usual form, and what is read is written back octet for octet, unless it is a name with
a bracket in it.
-/

namespace SocksProxy

namespace IpAddress

def octets : IpAddress → Bytes
  | .v4 ip => ip.octets
  | .v6 ip => ip.octets

theorem open_text (ip : IpAddress) : HostPort.Open ip.text := by
  apply HostPort.open_of_isIpChar
  intro c hc
  cases ip with
  | v4 ip => exact Ipv4.isIpChar_of_parse? (Ipv4.parse?_text ip) hc
  | v6 ip => exact Ipv6.isIpChar_of_parse? (Ipv6.parse?_text ip) hc

theorem ipv6_parse?_eq_none {t : Text} {ip : Ipv4} (h : Ipv4.parse? t = some ip) :
    Ipv6.parse? t = none := by
  have hc : ':' ∉ t := fun hm => absurd (Ipv4.isDigit_of_parse? h hm (by decide)) (by decide)
  have hgap : Ipv6.cutGap t = none := by simpa [Ipv6.cutGap] using Ipv6.cutGap_append hc []
  rw [Ipv6.parse?, hgap]
  unfold Ipv6.groupFields
  by_cases hempty : t.isEmpty = true
  · rw [if_pos hempty]
    rfl
  · rw [if_neg hempty, fields_of_not_mem hc]
    simp [Ipv6.groups?, h, Ipv6.ofWords?]

@[simp] theorem parse?_text (ip : IpAddress) : parse? ip.text = some ip := by
  unfold parse?
  cases ip with
  | v4 ip => simp [text]
  | v6 ip =>
    have hn : Ipv4.parse? ip.text = none := by
      cases hp : Ipv4.parse? ip.text with
      | none => rfl
      | some ipv4 =>
        have hnone := ipv6_parse?_eq_none hp
        rw [Ipv6.parse?_text] at hnone
        cases hnone
    simp [text, hn]

end IpAddress

namespace Address

/-- The usual form of a host: that in which the address is written that it stands for, if it
stands for one. -/
def canonical (host : Text) : Text :=
  match IpAddress.parse? host with
  | some ip => ip.text
  | none => host

theorem parse?_canonical (host : Text) :
    IpAddress.parse? (canonical host) = IpAddress.parse? host := by
  unfold canonical
  cases h : IpAddress.parse? host with
  | some ip => exact IpAddress.parse?_text ip
  | none => exact h

theorem typeOf_canonical (host : Text) : typeOf (canonical host) = typeOf host := by
  rw [typeOf, parse?_canonical, typeOf]

theorem open_canonical {host : Text} (h : HostPort.Open host) : HostPort.Open (canonical host) := by
  unfold canonical
  cases IpAddress.parse? host with
  | some ip => exact ip.open_text
  | none => exact h

theorem hostOctets?_of_hostText {type : AddressType} {octets lengthOctets : Bytes} {host : Text}
    (hl : LengthOctets type octets.length lengthOctets) (h : hostText type octets = .ok host) :
    hostOctets? type host = some (lengthOctets ++ octets) := by
  cases type with
  | ipv4 =>
    obtain ⟨rfl, hlength⟩ := hl
    cases h
    simp [hostOctets?, Ipv4.octets_ofOctets hlength]
  | ipv6 =>
    obtain ⟨rfl, hlength⟩ := hl
    cases h
    simp [hostOctets?, Ipv6.octets_ofOctets hlength]
  | domain =>
    obtain ⟨n, rfl, hlength⟩ := hl
    unfold hostText at h
    cases hd : Utf8.decode? octets with
    | none =>
      rw [hd] at h
      cases h
    | some name =>
      rw [hd] at h
      cases h
      obtain rfl := Utf8.decode?_eq_some_iff_encode.1 hd
      have hle : (Utf8.encode host).length ≤ longestName := by
        have hn := n.toNat_lt
        rw [hlength, longestName]
        omega
      simp only [hostOctets?]
      rw [if_pos hle, hlength, UInt8.ofNat_toNat, List.singleton_append]

/-- A host that is written for its own type is read in its usual form. -/
theorem exists_hostText {host : Text} {octets : Bytes}
    (h : hostOctets? (typeOf host) host = some octets) :
    ∃ lengthOctets body, octets = lengthOctets ++ body ∧
      LengthOctets (typeOf host) body.length lengthOctets ∧
        hostText (typeOf host) body = .ok (canonical host) := by
  unfold typeOf canonical at *
  cases hip : IpAddress.parse? host with
  | some ip =>
    rw [hip] at h
    cases ip with
    | v4 ip =>
      simp only [hostOctets?, IpAddress.parse?_v4 hip, Option.map_some, Option.some.injEq] at h
      subst h
      exact ⟨[], ip.octets, rfl, ⟨rfl, rfl⟩, rfl⟩
    | v6 ip =>
      simp only [hostOctets?, IpAddress.parse?_v6 hip, Option.map_some, Option.some.injEq] at h
      subst h
      exact ⟨[], ip.octets, rfl, ⟨rfl, ip.length_octets⟩, by simp [hostText, IpAddress.text]⟩
  | none =>
    rw [hip] at h
    simp only [hostOctets?] at h
    by_cases hl : (Utf8.encode host).length ≤ longestName
    · rw [if_pos hl] at h
      cases h
      have hn : (UInt8.ofNat (Utf8.encode host).length).toNat = (Utf8.encode host).length :=
        Utf8.toNat_octet (by rw [longestName] at hl; omega)
      exact ⟨[_], Utf8.encode host, rfl, ⟨_, rfl, hn.symm⟩, by simp [hostText]⟩
    · rw [if_neg hl] at h
      cases h

theorem ofOctets_getD_append (front : Bytes) (port : UInt16) (rest : Bytes) :
    Word.ofOctets ((front ++ (Word.octets port ++ rest)).getD front.length 0)
      ((front ++ (Word.octets port ++ rest)).getD (front.length + 1) 0) = port := by
  have hoctet (i : Nat) : (front ++ (Word.octets port ++ rest)).getD (front.length + i) 0 =
      (Word.octets port ++ rest).getD i 0 := by
    simp [List.getD_eq_getElem?_getD, List.getElem?_append_right]
  rw [hoctet 1, ← Nat.add_zero front.length, hoctet 0]
  exact Word.ofOctets_div_mod port

theorem ofBody_append (type : AddressType) (body : Bytes) (port : UInt16) (rest : Bytes) :
    ofBody type body.length (body ++ (Word.octets port ++ rest)) =
      (hostText type body).map fun host => ⟨type, HostPort.join host port⟩ := by
  have htake : (body ++ (Word.octets port ++ rest)).take body.length = body :=
    List.take_left' rfl
  rw [ofBody, htake, ofOctets_getD_append]
  cases hostText type body <;> rfl

theorem exists_eq_append {length : Nat} {body : Bytes} (h : length + 2 ≤ body.length) :
    ∃ octets port rest, octets.length = length ∧ body = octets ++ (Word.octets port ++ rest) := by
  cases hdrop : body.drop length with
  | nil =>
    have hl := congrArg List.length hdrop
    simp only [List.length_drop, List.length_nil] at hl
    omega
  | cons high more =>
    cases more with
    | nil =>
      have hl := congrArg List.length hdrop
      simp only [List.length_drop, List.length_cons, List.length_nil] at hl
      omega
    | cons low rest =>
      refine ⟨body.take length, Word.ofOctets high low, rest, ?_, ?_⟩
      · rw [List.length_take]
        omega
      · rw [Word.octets_ofOctets]
        exact (hdrop ▸ List.take_append_drop length body).symm

theorem decode_host_append {type : AddressType} {lengthOctets body : Bytes} {host : Text}
    (port : UInt16) (rest : Bytes) (hl : LengthOctets type body.length lengthOctets)
    (h : hostText type body = .ok host) :
    decode ((type.code :: (lengthOctets ++ body) ++ Word.octets port) ++ rest) =
      .ok (⟨type, HostPort.join host port⟩,
        (type.code :: (lengthOctets ++ body) ++ Word.octets port).length) := by
  apply decode_eq_ok_iff.2
  refine ⟨type, body.length, lengthOctets, body ++ (Word.octets port ++ rest), ?_, hl, ?_, ?_, ?_⟩
  · simp only [List.cons_append, List.append_assoc]
  · simp only [List.length_append, Word.length_octets]
    omega
  · rw [ofBody_append, h]
    rfl
  · simp only [List.cons_append, List.length_cons, List.length_append, Word.length_octets]
    omega

theorem record_join {type : AddressType} {host : Text} {octets : Bytes} (port : UInt16)
    (hopen : HostPort.Open host) (h : hostOctets? type host = some octets) :
    (⟨type, HostPort.join host port⟩ : Address).record =
      .ok (type.code :: octets ++ Word.octets port) := by
  apply record_eq_ok_iff.2
  refine ⟨host, portText port, octets, port, ?_, h, portNumber_portText port, rfl⟩
  rw [parts, HostPort.split?_join hopen]

theorem encodeInto_of_record {a : Address} {record buffer : Bytes} (h : a.record = .ok record)
    (hl : record.length ≤ buffer.length) :
    a.encodeInto buffer = (record ++ buffer.drop record.length, .ok record.length) := by
  rw [encodeInto, h]
  exact writeInto_eq hl

/-- What becomes of the address of a text, with the given host and port, that is written as
`record` and read from there as `b`. -/
structure ReadBack (t : Text) (a : Address) (host : Text) (port : UInt16) (record : Bytes)
    (b : Address) : Prop where
  split : ∃ digits, HostPort.split? t = some (host, digits)
  kind : a.type = typeOf host
  layout : ∃ octets, hostOctets? a.type host = some octets ∧
    record = a.type.code :: octets ++ Word.octets port
  written : ∀ buffer : Bytes, record.length ≤ buffer.length →
    a.encodeInto buffer = (record ++ buffer.drop record.length, .ok record.length)
  decoded : ∀ rest, decode (record ++ rest) = .ok (b, record.length)
  type_eq : b.type = a.type
  text_eq : b.text = HostPort.join (canonical host) port
  unchanged_iff : b = a ↔ t = HostPort.join (canonical host) port
  parsed : parse b.text = .ok b
  rewritten : ∀ buffer : Bytes, record.length ≤ buffer.length →
    b.encodeInto buffer = (record ++ buffer.drop record.length, .ok record.length)

/-- An address that a text stands for is read back from the wire with the same type and port and
the usual form of its host, and from then on does not change any more. -/
theorem readBack_of_parse {t : Text} {a : Address} {port : UInt16} (h : parse t = .ok a)
    (hp : a.port = .ok port) :
    ∃ host record b, ReadBack t a host port record b := by
  obtain ⟨host, digits, octets, hs, rfl, ho⟩ := parse_eq_ok_iff.1 h
  obtain ⟨lengthOctets, body, rfl, hl, hhost⟩ := exists_hostText ho
  have hparts : (⟨typeOf host, t⟩ : Address).parts = .ok (host, digits) := by rw [parts, hs]
  have hnumber : portNumber digits = .ok port := by
    rw [Address.port, hparts] at hp
    exact hp
  have hopen : HostPort.Open (canonical host) :=
    open_canonical (HostPort.split?_eq_some_iff.1 hs).1
  have hrecord : (⟨typeOf host, t⟩ : Address).record =
      .ok ((typeOf host).code :: (lengthOctets ++ body) ++ Word.octets port) :=
    record_eq_ok_iff.2 ⟨host, digits, _, port, hparts, ho, hnumber, rfl⟩
  have hagain := hostOctets?_of_hostText hl hhost
  have hsame := record_join port hopen hagain
  refine ⟨host, (typeOf host).code :: (lengthOctets ++ body) ++ Word.octets port,
    ⟨typeOf host, HostPort.join (canonical host) port⟩, ?_⟩
  constructor
  case split => exact ⟨digits, hs⟩
  case kind => rfl
  case layout => exact ⟨_, ho, rfl⟩
  case written => exact fun buffer => encodeInto_of_record hrecord
  case decoded => exact fun rest => decode_host_append port rest hl hhost
  case type_eq => rfl
  case text_eq => rfl
  case unchanged_iff => simp [eq_comm]
  case parsed =>
    apply parse_eq_ok_iff.2
    refine ⟨canonical host, portText port, lengthOctets ++ body, HostPort.split?_join hopen port,
      ?_, ?_⟩
    · rw [typeOf_canonical]
    · rw [typeOf_canonical]
      exact hagain
  case rewritten => exact fun buffer => encodeInto_of_record hsame

/-- An address that stands in the last words of another one, in an unusual form and with a port
that begins with zeros. -/
def mappedText : Text := "[0::FFFF:102:304]:0080".toList

theorem readBack_mappedText :
    parse mappedText = .ok ⟨.ipv6, mappedText⟩ ∧
      (⟨.ipv6, mappedText⟩ : Address).port = .ok 80 ∧
        ∃ host record b, ReadBack mappedText ⟨.ipv6, mappedText⟩ host 80 record b := by
  have h : parse mappedText = .ok ⟨.ipv6, mappedText⟩ := by decide +kernel
  have hp : (⟨.ipv6, mappedText⟩ : Address).port = .ok 80 := by decide +kernel
  exact ⟨h, hp, readBack_of_parse h hp⟩

end Address

namespace Resolution

/-- What resolving an address does that can be split. -/
theorem resolve_eq {a : Address} {host digits : Text} {port : UInt16}
    (hp : a.parts = .ok (host, digits)) (hn : Address.portNumber digits = .ok port) :
    resolve a = match a.type with
      | .ipv4 | .ipv6 =>
        match IpAddress.parse? host with
        | some ip => pure (.ofIp ip port)
        | none => throw (.invalidAddress a.text)
      | .domain =>
        if host.isEmpty then pure (.v4 .unspecified port)
        else do
          match ← addresses host with
          | [] => throw (.unresolvedName host)
          | ip :: _ => return .ofIp ip port := by
  unfold resolve
  rw [hp]
  change (do
    let port ← ExceptT.mk (.done (Address.portNumber digits))
    _ : Action interface SocketAddress) = _
  rw [hn]
  rfl

end Resolution

namespace Address

/-- What becomes of an address that is read from the first octets of a buffer. -/
structure WrittenBack (a : Address) (buffer : Bytes) (used : Nat) (port : UInt16) : Prop where
  used_le : used ≤ buffer.length
  written : ∀ target : Bytes, used ≤ target.length →
    a.encodeInto target = (buffer.take used ++ target.drop used, .ok used)
  port_eq : a.port = .ok port
  resolved : a.type ≠ .domain → ∃ ip : IpAddress, ip.octets = (buffer.drop 1).take (used - 3) ∧
    Resolution.resolve a = pure (.ofIp ip port)

theorem hostText_ip {type : AddressType} {octets : Bytes} (ht : type ≠ .domain)
    {lengthOctets : Bytes} (hl : LengthOctets type octets.length lengthOctets) :
    lengthOctets = [] ∧ ∃ ip : IpAddress, ip.octets = octets ∧
      hostText type octets = .ok ip.text := by
  cases type with
  | ipv4 =>
    obtain ⟨rfl, hlength⟩ := hl
    exact ⟨rfl, .v4 (Ipv4.ofOctets octets), Ipv4.octets_ofOctets hlength, rfl⟩
  | ipv6 =>
    obtain ⟨rfl, hlength⟩ := hl
    exact ⟨rfl, .v6 (Ipv6.ofOctets octets), Ipv6.octets_ofOctets hlength, rfl⟩
  | domain => exact absurd rfl ht

theorem encode_of_hostText {octets : Bytes} {name : Text}
    (h : hostText .domain octets = .ok name) : Utf8.encode name = octets := by
  simp only [hostText] at h
  split at h
  case h_1 t ht =>
    cases h
    exact Utf8.decode?_eq_some_iff_encode.1 ht
  case h_2 => cases h

theorem open_of_hostText {type : AddressType} {octets lengthOctets : Bytes} {host : Text}
    (hl : LengthOctets type octets.length lengthOctets) (h : hostText type octets = .ok host)
    (hname : type = .domain → Utf8.encode host = octets → HostPort.Open host) :
    HostPort.Open host := by
  by_cases ht : type = .domain
  · subst ht
    exact hname rfl (encode_of_hostText h)
  · obtain ⟨-, ip, -, hip⟩ := hostText_ip ht hl
    rw [hip] at h
    cases h
    exact ip.open_text

theorem writtenBack_of_hostText {type : AddressType} {octets lengthOctets : Bytes} {host : Text}
    (port : UInt16) (rest : Bytes) (hl : LengthOctets type octets.length lengthOctets)
    (h : hostText type octets = .ok host) (hopen : HostPort.Open host) :
    WrittenBack ⟨type, HostPort.join host port⟩
      ((type.code :: (lengthOctets ++ octets) ++ Word.octets port) ++ rest)
      (type.code :: (lengthOctets ++ octets) ++ Word.octets port).length port := by
  have hrecord := record_join port hopen (hostOctets?_of_hostText hl h)
  have hparts : (⟨type, HostPort.join host port⟩ : Address).parts = .ok (host, portText port) := by
    rw [parts, HostPort.split?_join hopen]
  have hnumber := portNumber_portText port
  constructor
  case used_le => simp
  case written =>
    intro target ht
    rw [List.take_left]
    exact encodeInto_of_record hrecord ht
  case port_eq =>
    rw [Address.port, hparts]
    exact hnumber
  case resolved =>
    intro ht
    obtain ⟨rfl, ip, rfl, hip⟩ := hostText_ip ht hl
    rw [hip] at h
    cases h
    refine ⟨ip, ?_, ?_⟩
    · simp
    · rw [Resolution.resolve_eq hparts hnumber]
      cases type with
      | domain => exact absurd rfl ht
      | ipv4 => simp
      | ipv6 => simp

/-- An address that is read from the wire, and is no name with a bracket in it, is written as the
octets from which it has been read. -/
theorem writtenBack_of_decode {buffer : Bytes} {a : Address} {used : Nat}
    (h : decode buffer = .ok (a, used))
    (hname : a.type = .domain → ∀ name, Utf8.encode name = (buffer.drop 2).take (used - 4) →
      HostPort.Open name) :
    WrittenBack a buffer used
      (Word.ofOctets (buffer.getD (used - 2) 0) (buffer.getD (used - 1) 0)) := by
  obtain ⟨type, length, lengthOctets, body, rfl, hl, hb, ho, rfl⟩ := decode_eq_ok_iff.1 h
  obtain ⟨octets, port, rest, rfl, rfl⟩ := exists_eq_append hb
  rw [ofBody_append] at ho
  cases hhost : hostText type octets with
  | error e =>
    rw [hhost] at ho
    cases ho
  | ok host =>
    rw [hhost] at ho
    cases ho
    have hopen : HostPort.Open host := by
      refine open_of_hostText hl hhost fun ht he => hname ht host ?_
      subst ht
      obtain ⟨n, rfl, -⟩ := hl
      have hlength : [n].length + 1 + (octets.length + 2) - 4 = octets.length := by
        rw [List.length_singleton]
        omega
      rw [he, hlength, List.cons_append, List.singleton_append, List.drop_succ_cons,
        List.drop_succ_cons, List.drop_zero, List.take_left]
    have hbuffer : type.code :: lengthOctets ++ (octets ++ (Word.octets port ++ rest)) =
        (type.code :: (lengthOctets ++ octets)) ++ (Word.octets port ++ rest) := by
      simp only [List.cons_append, List.append_assoc]
    have hused : lengthOctets.length + 1 + (octets.length + 2) =
        (type.code :: (lengthOctets ++ octets)).length + 2 := by
      simp only [List.length_cons, List.length_append]
      omega
    have hwritten := writtenBack_of_hostText port rest hl hhost hopen
    rw [hbuffer, hused, Nat.add_sub_cancel, Nat.add_succ_sub_one, ofOctets_getD_append]
    rwa [List.append_assoc, List.length_append, Word.length_octets] at hwritten

/-- A name that is the text of an address, with what follows its record. -/
def literalName : Bytes := [3, 3, 58, 58, 49, 0, 80, 7, 9]

theorem writtenBack_literalName :
    decode literalName = .ok (⟨.domain, "[::1]:80".toList⟩, 7) ∧
      (AddressType.domain = .domain → ∀ name, Utf8.encode name = (literalName.drop 2).take (7 - 4) →
        HostPort.Open name) ∧
      WrittenBack ⟨.domain, "[::1]:80".toList⟩ literalName 7
        (Word.ofOctets (literalName.getD (7 - 2) 0) (literalName.getD (7 - 1) 0)) := by
  have h : decode literalName = .ok (⟨.domain, "[::1]:80".toList⟩, 7) := by decide +kernel
  have hname : AddressType.domain = .domain →
      ∀ name, Utf8.encode name = (literalName.drop 2).take (7 - 4) → HostPort.Open name := by
    intro _ name hn
    have hd : Utf8.decode? ((literalName.drop 2).take (7 - 4)) = some "::1".toList := by
      decide +kernel
    rw [← hn, Utf8.decode?_encode] at hd
    cases hd
    exact HostPort.open_of_any_isBracket (by decide +kernel)
  exact ⟨h, hname, writtenBack_of_decode h hname⟩

end Address

end SocksProxy
