import SocksProxy.Proofs.DecodedBuffers

/-!
# What writing an address makes of a buffer

An address is written whole or not at all. Its text has to be that of a host and a port, the host
has to be one of the declared type, the port has to be a number, and the buffer has to have room
for the record. The first of these that fails is the failure, and the buffer is left as it was.
-/

namespace SocksProxy

/-- A text of a host, in brackets or without colons, and of what stands for the port. -/
def HostPort.Forms (t host digits : Text) : Prop :=
  Open host ∧ Open digits ∧ ':' ∉ digits ∧
    (t = enclosed host ++ ':' :: digits ∨ ':' ∉ host ∧ t = host ++ ':' :: digits)

theorem HostPort.split?_eq_none_iff {t : Text} :
    split? t = none ↔ ∀ host digits, ¬ Forms t host digits := by
  rw [Option.eq_none_iff_forall_ne_some, Prod.forall]
  exact forall_congr' fun host => forall_congr' fun digits => not_congr split?_eq_some_iff

namespace Address

def Numbers (digits : Text) (port : UInt16) : Prop :=
  digits ≠ [] ∧ (∀ c ∈ digits, c.isDigit = true) ∧ Decimal.value digits = port.toNat

/-- The octets of a host that is written as one of a type, without the length of a name. -/
def Spells : AddressType → Text → Bytes → Prop
  | .ipv4, host, octets => ∃ ip, Ipv4.parse? host = some ip ∧ octets = ip.octets
  | .ipv6, host, octets => ∃ ip, Ipv6.parse? host = some ip ∧ octets = ip.octets
  | .domain, host, octets => Utf8.size host ≤ longestName ∧ octets = Utf8.encode host

def required : AddressType → Text → Nat
  | .ipv4, _ => 7
  | .ipv6, _ => 19
  | .domain, host => 4 + Utf8.size host

variable {a : Address} {type : AddressType} {t host digits : Text} {octets buffer : Bytes}
  {port : UInt16}

theorem portNumber_eq_ok_iff : portNumber digits = .ok port ↔ Numbers digits port := by
  have hword (n : Nat) (hn : n ≤ 65535) : UInt16.ofNat n = port ↔ n = port.toNat := by
    rw [← UInt16.toNat_inj, UInt16.toNat_ofNat', Nat.mod_eq_of_lt (by omega)]
  unfold portNumber parsePort? Decimal.parse? Numbers
  by_cases hd : digits ≠ [] ∧ (∀ c ∈ digits, c.isDigit = true) ∧ Decimal.value digits ≤ 65535
  · have hc : (!digits.isEmpty && digits.all Char.isDigit &&
        decide (Decimal.value digits ≤ 65535)) = true := by
      simpa [and_assoc] using hd
    rw [if_pos hc]
    simp only [Option.map_some, Except.ok.injEq, hword _ hd.2.2]
    exact ⟨fun h => ⟨hd.1, hd.2.1, h⟩, fun h => h.2.2⟩
  · have hc : (!digits.isEmpty && digits.all Char.isDigit &&
        decide (Decimal.value digits ≤ 65535)) ≠ true := by
      simpa [and_assoc] using hd
    rw [if_neg hc]
    have hport := port.toNat_lt
    refine ⟨nofun, fun h => absurd ⟨h.1, h.2.1, ?_⟩ hd⟩
    omega

theorem portNumber_cases (digits : Text) :
    (∃ port, portNumber digits = .ok port) ∨ portNumber digits = .error (.invalidPort digits) := by
  unfold portNumber
  cases parsePort? digits with
  | some port => exact .inl ⟨port, rfl⟩
  | none => exact .inr rfl

theorem hostOctets?_eq_some_iff {octets : Bytes} : hostOctets? type host = some octets ↔
    ∃ lengthOctets body, Spells type host body ∧ LengthOctets type body.length lengthOctets ∧
      octets = lengthOctets ++ body := by
  cases type with
  | ipv4 =>
    constructor
    · intro h
      obtain ⟨ip, hip, rfl⟩ := Option.map_eq_some_iff.1 h
      exact ⟨[], ip.octets, ⟨ip, hip, rfl⟩, ⟨rfl, ip.length_octets⟩, rfl⟩
    · rintro ⟨_, _, ⟨ip, hip, rfl⟩, ⟨rfl, -⟩, rfl⟩
      exact Option.map_eq_some_iff.2 ⟨ip, hip, rfl⟩
  | ipv6 =>
    constructor
    · intro h
      obtain ⟨ip, hip, rfl⟩ := Option.map_eq_some_iff.1 h
      exact ⟨[], ip.octets, ⟨ip, hip, rfl⟩, ⟨rfl, ip.length_octets⟩, rfl⟩
    · rintro ⟨_, _, ⟨ip, hip, rfl⟩, ⟨rfl, -⟩, rfl⟩
      exact Option.map_eq_some_iff.2 ⟨ip, hip, rfl⟩
  | domain =>
    have hoctet (h : Utf8.size host ≤ longestName) :
        (UInt8.ofNat (Utf8.encode host).length).toNat = (Utf8.encode host).length := by
      apply Utf8.toNat_octet
      rw [Utf8.size, longestName] at h
      omega
    simp only [hostOctets?]
    constructor
    · intro h
      by_cases hl : (Utf8.encode host).length ≤ longestName
      · rw [if_pos hl] at h
        cases h
        exact ⟨[_], Utf8.encode host, ⟨hl, rfl⟩, ⟨_, rfl, (hoctet hl).symm⟩, rfl⟩
      · rw [if_neg hl] at h
        cases h
    · rintro ⟨_, _, ⟨hl, rfl⟩, ⟨n, rfl, hn⟩, rfl⟩
      have hle : (Utf8.encode host).length ≤ longestName := hl
      rw [if_pos hle, hn, UInt8.ofNat_toNat]
      rfl

theorem Spells.exists_lengthOctets (h : Spells type host octets) :
    ∃ lengthOctets, LengthOctets type octets.length lengthOctets := by
  cases type with
  | ipv4 =>
    obtain ⟨ip, -, rfl⟩ := h
    exact ⟨[], rfl, ip.length_octets⟩
  | ipv6 =>
    obtain ⟨ip, -, rfl⟩ := h
    exact ⟨[], rfl, ip.length_octets⟩
  | domain =>
    obtain ⟨hl, rfl⟩ := h
    refine ⟨[UInt8.ofNat (Utf8.encode host).length], _, rfl, (Utf8.toNat_octet ?_).symm⟩
    rw [Utf8.size, longestName] at hl
    omega

theorem Spells.exists_hostOctets (h : Spells type host octets) :
    ∃ lengthOctets, LengthOctets type octets.length lengthOctets ∧
      hostOctets? type host = some (lengthOctets ++ octets) := by
  obtain ⟨lengthOctets, hl⟩ := h.exists_lengthOctets
  exact ⟨lengthOctets, hl, hostOctets?_eq_some_iff.2 ⟨lengthOctets, octets, h, hl, rfl⟩⟩

theorem Spells.record_length {record : Bytes} (h : Spells type host octets)
    (hr : Framed type octets port record) : record.length = required type host := by
  obtain ⟨lengthOctets, hl, rfl⟩ := hr
  simp only [List.cons_append, List.length_cons, List.length_append, Word.length_octets]
  cases type with
  | ipv4 =>
    obtain ⟨rfl, hlength⟩ := hl
    rw [hlength]
    rfl
  | ipv6 =>
    obtain ⟨rfl, hlength⟩ := hl
    rw [hlength]
    rfl
  | domain =>
    obtain ⟨n, rfl, -⟩ := hl
    obtain ⟨-, rfl⟩ := h
    rw [List.length_singleton, required, Utf8.size]
    omega

theorem parts_eq_ok_iff :
    a.parts = .ok (host, digits) ↔ HostPort.Forms a.text host digits := by
  rw [HostPort.Forms, ← HostPort.split?_eq_some_iff, parts]
  cases HostPort.split? a.text with
  | none => simp
  | some found => simp

theorem record_of_split?_eq_none (h : HostPort.split? a.text = none) :
    a.record = .error (.invalidAddress a.text) := by
  simp only [record, parts, h]
  rfl

theorem record_of_hostOctets?_eq_none (h : HostPort.split? a.text = some (host, digits))
    (ho : hostOctets? a.type host = none) : a.record = .error (.invalidAddress a.text) := by
  simp only [record, parts, h, bind, Except.bind, ho]

theorem record_of_portNumber_eq_error {e : Error}
    (h : HostPort.split? a.text = some (host, digits))
    (ho : hostOctets? a.type host = some octets) (hn : portNumber digits = .error e) :
    a.record = .error e := by
  simp only [record, parts, h, bind, Except.bind, ho, hn]

theorem exists_framed_of_spells (hf : HostPort.Forms a.text host digits)
    (hs : Spells a.type host octets) (hn : Numbers digits port) :
    ∃ record, a.record = .ok record ∧ Framed a.type octets port record := by
  obtain ⟨lengthOctets, hl, ho⟩ := hs.exists_hostOctets
  have hrecord := record_eq_ok_iff.2
    ⟨host, digits, _, port, parts_eq_ok_iff.2 hf, ho, portNumber_eq_ok_iff.2 hn, rfl⟩
  exact ⟨_, hrecord, lengthOctets, hl, rfl⟩

/-- What writing an address makes of a buffer, and what it tells. -/
inductive Writes (a : Address) (buffer : Bytes) : Bytes × Except Error Nat → Prop where
  | unsplit (h : ∀ host digits, ¬ HostPort.Forms a.text host digits) :
      Writes a buffer (buffer, .error (.invalidAddress a.text))
  | unspelt {host digits : Text} (hf : HostPort.Forms a.text host digits)
      (hs : ∀ octets, ¬ Spells a.type host octets) :
      Writes a buffer (buffer, .error (.invalidAddress a.text))
  | unnumbered {host digits : Text} {octets : Bytes} (hf : HostPort.Forms a.text host digits)
      (hs : Spells a.type host octets) (hn : ∀ port, ¬ Numbers digits port) :
      Writes a buffer (buffer, .error (.invalidPort digits))
  | short {host digits : Text} {octets : Bytes} {port : UInt16}
      (hf : HostPort.Forms a.text host digits) (hs : Spells a.type host octets)
      (hn : Numbers digits port) (hl : buffer.length < required a.type host) :
      Writes a buffer (buffer, .error (.shortBuffer (required a.type host) buffer.length))
  | whole {host digits : Text} {octets record : Bytes} {port : UInt16}
      (hf : HostPort.Forms a.text host digits) (hs : Spells a.type host octets)
      (hn : Numbers digits port) (hr : Framed a.type octets port record)
      (hl : required a.type host ≤ buffer.length) :
      Writes a buffer (record ++ buffer.drop (required a.type host), .ok (required a.type host))

theorem writes_encodeInto (a : Address) (buffer : Bytes) :
    Writes a buffer (a.encodeInto buffer) := by
  unfold encodeInto
  cases hsplit : HostPort.split? a.text with
  | none =>
    rw [record_of_split?_eq_none hsplit]
    exact .unsplit (HostPort.split?_eq_none_iff.1 hsplit)
  | some found =>
    obtain ⟨host, digits⟩ := found
    have hf : HostPort.Forms a.text host digits := HostPort.split?_eq_some_iff.1 hsplit
    cases ho : hostOctets? a.type host with
    | none =>
      rw [record_of_hostOctets?_eq_none hsplit ho]
      refine .unspelt hf fun octets hs => ?_
      obtain ⟨lengthOctets, -, hsome⟩ := hs.exists_hostOctets
      rw [hsome] at ho
      cases ho
    | some octets =>
      obtain ⟨lengthOctets, body, hs, hl, rfl⟩ := hostOctets?_eq_some_iff.1 ho
      rcases portNumber_cases digits with ⟨port, hport⟩ | hport
      · have hn : Numbers digits port := portNumber_eq_ok_iff.1 hport
        obtain ⟨record, hrecord, hframed⟩ := exists_framed_of_spells hf hs hn
        rw [hrecord]
        simp only [writeInto, hs.record_length hframed]
        by_cases hroom : buffer.length < required a.type host
        · rw [if_pos hroom]
          exact .short hf hs hn hroom
        · rw [if_neg hroom]
          exact .whole hf hs hn hframed (Nat.not_lt.1 hroom)
      · rw [record_of_portNumber_eq_error hsplit ho hport]
        refine .unnumbered hf hs fun port hn => ?_
        rw [portNumber_eq_ok_iff.2 hn] at hport
        cases hport

/-- A host and a port have one record of a type. -/
theorem Framed.unique {record record' : Bytes} (h : Framed type octets port record)
    (h' : Framed type octets port record') : record = record' := by
  obtain ⟨lengthOctets, hl, rfl⟩ := h
  obtain ⟨lengthOctets', hl', rfl⟩ := h'
  cases type with
  | ipv4 => rw [hl.1, hl'.1]
  | ipv6 => rw [hl.1, hl'.1]
  | domain =>
    obtain ⟨n, rfl, hn⟩ := hl
    obtain ⟨m, rfl, hm⟩ := hl'
    obtain rfl : n = m := UInt8.toNat_inj.1 (hn.symm.trans hm)
    rfl

theorem encodeInto_of_error {e : Error} (h : a.record = .error e) (buffer : Bytes) :
    a.encodeInto buffer = (buffer, .error e) := by
  rw [encodeInto, h]

theorem Writes.encodeInto_eq {out : Bytes × Except Error Nat} (h : Writes a buffer out) :
    a.encodeInto buffer = out := by
  cases h with
  | unsplit h =>
    exact encodeInto_of_error (record_of_split?_eq_none (HostPort.split?_eq_none_iff.2 h)) buffer
  | @unspelt host digits hf hs =>
    have ho : hostOctets? a.type host = none := by
      rw [Option.eq_none_iff_forall_ne_some]
      intro octets ho
      obtain ⟨lengthOctets, body, hs', -, -⟩ := hostOctets?_eq_some_iff.1 ho
      exact hs body hs'
    have hsplit := HostPort.split?_eq_some_iff.2 hf
    exact encodeInto_of_error (record_of_hostOctets?_eq_none hsplit ho) buffer
  | @unnumbered host digits octets hf hs hn =>
    obtain ⟨lengthOctets, -, ho⟩ := hs.exists_hostOctets
    have hsplit := HostPort.split?_eq_some_iff.2 hf
    rcases portNumber_cases digits with ⟨port, hport⟩ | hport
    · exact absurd (portNumber_eq_ok_iff.1 hport) (hn port)
    · exact encodeInto_of_error (record_of_portNumber_eq_error hsplit ho hport) buffer
  | short hf hs hn hl =>
    obtain ⟨record, hrecord, hframed⟩ := exists_framed_of_spells hf hs hn
    rw [← hs.record_length hframed] at hl ⊢
    rw [encodeInto, hrecord]
    exact if_pos hl
  | whole hf hs hn hr hl =>
    obtain ⟨record, hrecord, hframed⟩ := exists_framed_of_spells hf hs hn
    obtain rfl := hr.unique hframed
    rw [← hs.record_length hframed] at hl ⊢
    exact encodeInto_of_record hrecord hl

/-- Writing an address is determined for every address and every buffer. -/
theorem encodeInto_eq_iff (a : Address) (buffer : Bytes) (out : Bytes × Except Error Nat) :
    a.encodeInto buffer = out ↔ Writes a buffer out := by
  constructor
  · rintro rfl
    exact writes_encodeInto a buffer
  · exact Writes.encodeInto_eq

end Address

end SocksProxy
