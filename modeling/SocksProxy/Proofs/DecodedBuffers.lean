import SocksProxy.Proofs.ExactReaders

/-!
# What buffers are decoded to

A buffer begins with a whole record, or is itself cut off a longer one, or begins with the code of
no type. What decoding it comes to tells these cases apart: the address of the record with its
length, a failure that names a host in no known form, how many octets there must be at least, or
the code.
-/

namespace SocksProxy

theorem AddressType.code_injective {s t : AddressType} (h : s.code = t.code) : s = t := by
  simpa using congrArg ofCode? h

theorem AddressType.ofCode?_eq_none_iff {code : UInt8} :
    ofCode? code = none ↔ code ≠ 1 ∧ code ≠ 3 ∧ code ≠ 4 := by
  unfold ofCode?
  repeat' split
  all_goals simp_all

namespace Address

/-- The octets of a whole record, whether or not those of its host stand for a text. -/
def Framed (type : AddressType) (host : Bytes) (port : UInt16) (record : Bytes) : Prop :=
  ∃ lengthOctets, LengthOctets type host.length lengthOctets ∧
    record = type.code :: (lengthOctets ++ host) ++ Word.octets port

/-- The text of the host that stands in a record as `octets`. -/
def Denotes : AddressType → Bytes → Text → Prop
  | .ipv4, octets, text => ∃ ip : Ipv4, ip.octets = octets ∧ text = ip.text
  | .ipv6, octets, text => ∃ ip : Ipv6, ip.octets = octets ∧ text = ip.text
  | .domain, octets, text => Utf8.encode text = octets

variable {type : AddressType} {host buffer record rest : Bytes} {port : UInt16}

theorem LengthOctets.unique {length length' : Nat} {octets octets' body body' : Bytes}
    (h : LengthOctets type length octets) (h' : LengthOctets type length' octets')
    (he : octets ++ body = octets' ++ body') : octets = octets' ∧ length = length' := by
  cases type with
  | ipv4 =>
    obtain ⟨rfl, rfl⟩ := h
    obtain ⟨rfl, rfl⟩ := h'
    exact ⟨rfl, rfl⟩
  | ipv6 =>
    obtain ⟨rfl, rfl⟩ := h
    obtain ⟨rfl, rfl⟩ := h'
    exact ⟨rfl, rfl⟩
  | domain =>
    obtain ⟨n, rfl, rfl⟩ := h
    obtain ⟨m, rfl, rfl⟩ := h'
    obtain ⟨rfl, -⟩ := List.cons.inj he
    exact ⟨rfl, rfl⟩

theorem Framed.length_eq {type' : AddressType} {length : Nat} {lengthOctets body : Bytes}
    (h : Framed type host port record) (hl : LengthOctets type' length lengthOctets)
    (he : type'.code :: lengthOctets ++ body = record ++ rest) :
    record.length = lengthOctets.length + 1 + (length + 2) := by
  obtain ⟨octets, ho, rfl⟩ := h
  simp only [List.cons_append, List.append_assoc] at he
  obtain ⟨hcode, htail⟩ := List.cons.inj he
  obtain rfl := AddressType.code_injective hcode
  obtain ⟨rfl, rfl⟩ := hl.unique ho htail
  simp only [List.cons_append, List.length_cons, List.length_append, Word.length_octets]
  omega

/-- No record is the beginning of another one. -/
theorem Framed.append_inj {type' : AddressType} {host' record' rest' : Bytes} {port' : UInt16}
    (h : Framed type host port record) (h' : Framed type' host' port' record')
    (he : record ++ rest = record' ++ rest') : record = record' ∧ rest = rest' := by
  apply List.append_inj he
  obtain ⟨octets, ho, hr⟩ := h
  have hbegins :
      type.code :: octets ++ (host ++ (Word.octets port ++ rest)) = record' ++ rest' := by
    rw [← he, hr]
    simp only [List.cons_append, List.append_assoc]
  rw [h'.length_eq ho hbegins, hr]
  simp only [List.cons_append, List.length_cons, List.length_append, Word.length_octets]
  omega

theorem exists_framed {length : Nat} {lengthOctets body : Bytes}
    (hl : LengthOctets type length lengthOctets) (hb : body.length ≤ length + 2) :
    ∃ host port record, Framed type host port record ∧
      type.code :: lengthOctets ++ body <+: record := by
  have hfull : length + 2 ≤ (body ++ List.replicate (length + 2 - body.length) 0).length := by
    rw [List.length_append, List.length_replicate]
    omega
  obtain ⟨host, port, rest, rfl, he⟩ := exists_eq_append hfull
  refine ⟨host, port, _, ⟨lengthOctets, hl, rfl⟩, ?_⟩
  have hle : body.length ≤ (host ++ Word.octets port).length := by
    rw [List.length_append, Word.length_octets]
    exact hb
  have hbody : body <+: host ++ Word.octets port := by
    refine List.prefix_of_prefix_length_le ⟨_, he⟩ ?_ hle
    rw [← List.append_assoc]
    exact List.prefix_append _ rest
  simpa only [List.cons_append, List.append_assoc] using
    (List.prefix_append_right_inj (type.code :: lengthOctets)).2 hbody

theorem decode_whole (h : Framed type host port record) (rest : Bytes) :
    decode (record ++ rest) =
      (hostText type host).map fun text => (⟨type, HostPort.join text port⟩, record.length) := by
  obtain ⟨octets, hl, rfl⟩ := h
  have hlist : type.code :: (octets ++ host) ++ Word.octets port ++ rest =
      type.code :: octets ++ (host ++ (Word.octets port ++ rest)) := by
    simp only [List.cons_append, List.append_assoc]
  have hlength : ¬ (host ++ (Word.octets port ++ rest)).length < host.length + 2 := by
    simp only [List.length_append, Word.length_octets]
    omega
  have hused : (type.code :: (octets ++ host) ++ Word.octets port).length =
      octets.length + 1 + (host.length + 2) := by
    simp only [List.cons_append, List.length_cons, List.length_append, Word.length_octets]
    omega
  rw [hlist, decode_append (AddressType.ofCode?_code type) hl, if_neg hlength, ofBody_append, hused]
  cases hostText type host <;> rfl

theorem hostText_eq_ok_iff (h : Framed type host port record) {text : Text} :
    hostText type host = .ok text ↔ Denotes type host text := by
  obtain ⟨octets, hl, -⟩ := h
  cases type with
  | ipv4 =>
    constructor
    · rintro ⟨⟩
      exact ⟨Ipv4.ofOctets host, Ipv4.octets_ofOctets hl.2, rfl⟩
    · rintro ⟨ip, rfl, rfl⟩
      rfl
  | ipv6 =>
    constructor
    · rintro ⟨⟩
      exact ⟨Ipv6.ofOctets host, Ipv6.octets_ofOctets hl.2, rfl⟩
    · rintro ⟨ip, rfl, rfl⟩
      simp only [hostText, Ipv6.ofOctets_octets]
  | domain =>
    constructor
    · exact encode_of_hostText
    · rintro rfl
      simp only [hostText, Utf8.decode?_encode]

theorem layout_iff {a : Address} : a.Layout record ↔ ∃ type host port text,
    Framed type host port record ∧ Denotes type host text ∧
      a = ⟨type, HostPort.join text port⟩ := by
  constructor
  · intro h
    cases h with
    | ipv4 ip port =>
      have hw : Framed .ipv4 ip.octets port _ := ⟨[], ⟨rfl, ip.length_octets⟩, rfl⟩
      exact ⟨.ipv4, ip.octets, port, ip.text, hw, ⟨ip, rfl, rfl⟩, rfl⟩
    | ipv6 ip port =>
      have hw : Framed .ipv6 ip.octets port _ := ⟨[], ⟨rfl, ip.length_octets⟩, rfl⟩
      exact ⟨.ipv6, ip.octets, port, ip.text, hw, ⟨ip, rfl, rfl⟩, rfl⟩
    | domain name length port hl =>
      have hw : Framed .domain (Utf8.encode name) port _ :=
        ⟨[length], ⟨length, rfl, hl.symm⟩, rfl⟩
      exact ⟨.domain, Utf8.encode name, port, name, hw, rfl, rfl⟩
  · rintro ⟨type, host, port, text, ⟨octets, hl, rfl⟩, hd, rfl⟩
    cases type with
    | ipv4 =>
      obtain ⟨ip, rfl, rfl⟩ := hd
      obtain ⟨rfl, -⟩ := hl
      exact .ipv4 ip port
    | ipv6 =>
      obtain ⟨ip, rfl, rfl⟩ := hd
      obtain ⟨rfl, -⟩ := hl
      exact .ipv6 ip port
    | domain =>
      obtain rfl := hd
      obtain ⟨n, rfl, hn⟩ := hl
      exact .domain text n port hn.symm

theorem hostText_eq_error_iff {e : Error} :
    hostText type host = .error e ↔ type = .domain ∧ (∀ name, Utf8.encode name ≠ host) ∧
      e = .invalidAddress (Utf8.decodeLossy host) := by
  cases type with
  | ipv4 => simp [hostText]
  | ipv6 => simp [hostText]
  | domain =>
    have hname : (∀ name, Utf8.encode name ≠ host) ↔ Utf8.decode? host = none := by
      rw [Option.eq_none_iff_forall_ne_some]
      exact forall_congr' fun name => not_congr Utf8.decode?_eq_some_iff_encode.symm
    rw [hname, hostText]
    cases Utf8.decode? host with
    | some name => simp
    | none => simp [eq_comm]

/-- The results of decoding with the buffers that come to them. -/
inductive Decoded : Bytes → Except Error (Address × Nat) → Prop where
  | read {type : AddressType} {host record rest : Bytes} {port : UInt16} {text : Text}
      (hw : Framed type host port record) (hd : Denotes type host text) :
      Decoded (record ++ rest) (.ok (⟨type, HostPort.join text port⟩, record.length))
  | unsupported {code : UInt8} {rest : Bytes} (hc : AddressType.ofCode? code = none) :
      Decoded (code :: rest) (.error (.addressTypeNotSupported code))
  | unreadable {host record rest : Bytes} {port : UInt16} (hw : Framed .domain host port record)
      (hn : ∀ name, Utf8.encode name ≠ host) :
      Decoded (record ++ rest) (.error (.invalidAddress (Utf8.decodeLossy host)))
  | short {buffer : Bytes} {required : Nat} (hl : buffer.length < required)
      (he : ∃ type host port record, Framed type host port record ∧ buffer <+: record)
      (hm : ∀ type host port record, Framed type host port record → buffer <+: record →
        required ≤ record.length) :
      Decoded buffer (.error (.shortBuffer required buffer.length))

theorem decoded_whole (h : Framed type host port record) (rest : Bytes) :
    Decoded (record ++ rest) (decode (record ++ rest)) := by
  rw [decode_whole h]
  cases hh : hostText type host with
  | ok text => exact .read h ((hostText_eq_ok_iff h).1 hh)
  | error e =>
    obtain ⟨rfl, hn, rfl⟩ := hostText_eq_error_iff.1 hh
    exact .unreadable h hn

theorem decoded_begun {length : Nat} {lengthOctets body : Bytes}
    (hl : LengthOctets type length lengthOctets) (hb : body.length < length + 2) :
    Decoded (type.code :: lengthOctets ++ body) (decode (type.code :: lengthOctets ++ body)) := by
  have hlength : (type.code :: lengthOctets ++ body).length =
      lengthOctets.length + 1 + body.length := by
    rw [List.length_append, List.length_cons]
  rw [decode_append (AddressType.ofCode?_code type) hl, if_pos hb, ← hlength]
  apply Decoded.short
  · rw [hlength]
    omega
  · obtain ⟨host, port, record, hw, hp⟩ := exists_framed hl (Nat.le_of_lt hb)
    exact ⟨type, host, port, record, hw, hp⟩
  · rintro type' host port record hw ⟨more, hmore⟩
    rw [List.append_assoc, ← List.append_nil record] at hmore
    exact Nat.le_of_eq (hw.length_eq hl hmore).symm

theorem decoded_unmeasured :
    Decoded [AddressType.domain.code] (decode [AddressType.domain.code]) := by
  have hl : LengthOctets .domain 0 [0] := ⟨0, rfl, rfl⟩
  have hnone : ([] : Bytes).length ≤ 0 + 2 := by decide
  have hshort : [AddressType.domain.code].length < 2 := by decide
  refine .short hshort ?_ ?_
  · obtain ⟨host, port, record, hw, hp⟩ := exists_framed hl hnone
    exact ⟨.domain, host, port, record, hw, (List.prefix_append _ _).trans hp⟩
  · rintro type host port record ⟨octets, -, rfl⟩ -
    simp only [List.cons_append, List.length_cons, List.length_append, Word.length_octets]
    omega

theorem decoded (buffer : Bytes) : Decoded buffer (decode buffer) := by
  cases buffer with
  | nil =>
    have hl : LengthOctets .ipv4 4 [] := ⟨rfl, rfl⟩
    have hnone : ([] : Bytes).length ≤ 4 + 2 := by decide
    have hshort : ([] : Bytes).length < 1 := by decide
    refine .short hshort ?_ ?_
    · obtain ⟨host, port, record, hw, -⟩ := exists_framed hl hnone
      exact ⟨.ipv4, host, port, record, hw, List.nil_prefix⟩
    · rintro type host port record ⟨octets, -, rfl⟩ -
      simp only [List.cons_append, List.length_cons]
      omega
  | cons code rest =>
    cases ht : AddressType.ofCode? code with
    | none =>
      simp only [decode, ht]
      exact .unsupported ht
    | some type =>
      obtain rfl := AddressType.code_of_ofCode? ht
      rcases exists_lengthOctets type rest with ⟨rfl, rfl⟩ | ⟨length, octets, body, rfl, hl⟩
      · exact decoded_unmeasured
      · by_cases hb : body.length < length + 2
        · exact decoded_begun hl hb
        · obtain ⟨host, port, rest, rfl, rfl⟩ := exists_eq_append (Nat.not_lt.1 hb)
          have hw : Framed type host port (type.code :: (octets ++ host) ++ Word.octets port) :=
            ⟨octets, hl, rfl⟩
          simpa only [List.cons_append, List.append_assoc] using decoded_whole hw rest

/-- What decoding a buffer comes to, and for which buffers it does. -/
structure Classified (buffer : Bytes) : Prop where
  read_iff : ∀ a used, decode buffer = .ok (a, used) ↔
    used ≤ buffer.length ∧ a.Layout (buffer.take used)
  unaffected : ∀ a used, decode buffer = .ok (a, used) → ∀ rest,
    decode (buffer.take used ++ rest) = .ok (a, used)
  minimal : ∀ a used, decode buffer = .ok (a, used) → ∀ shorter, shorter <+: buffer.take used →
    shorter.length < used → ∀ result, decode shorter ≠ .ok result
  unsupported_iff : ∀ code, decode buffer = .error (.addressTypeNotSupported code) ↔
    (∃ rest, buffer = code :: rest) ∧ code ≠ 1 ∧ code ≠ 3 ∧ code ≠ 4
  unreadable_iff : ∀ text, decode buffer = .error (.invalidAddress text) ↔
    ∃ host port record, Framed .domain host port record ∧ record <+: buffer ∧
      (∀ name, Utf8.encode name ≠ host) ∧ text = Utf8.decodeLossy host
  short_iff : (∃ required available, decode buffer = .error (.shortBuffer required available)) ↔
    ∃ type host port record, Framed type host port record ∧ buffer <+: record ∧ buffer ≠ record
  short_bounds : ∀ required available, decode buffer = .error (.shortBuffer required available) →
    available = buffer.length ∧ available < required ∧ ∀ type host port record,
      Framed type host port record → buffer <+: record → required ≤ record.length
  only : ∀ e, decode buffer = .error e → (∃ code, e = .addressTypeNotSupported code) ∨
    (∃ text, e = .invalidAddress text) ∨ ∃ required available, e = .shortBuffer required available

/-- A buffer that begins with a whole record is not cut off another one. -/
theorem Framed.eq_of_prefix {type' : AddressType} {host' record' : Bytes} {port' : UInt16}
    (h : Framed type host port record) (h' : Framed type' host' port' record')
    (hp : record ++ rest <+: record') : record ++ rest = record' := by
  obtain ⟨more, hmore⟩ := hp
  rw [List.append_assoc, ← List.append_nil record'] at hmore
  obtain ⟨rfl, hnil⟩ := h.append_inj h' hmore
  rw [(List.append_eq_nil_iff.1 hnil).1, List.append_nil]

theorem read_iff (buffer : Bytes) (a : Address) (used : Nat) :
    decode buffer = .ok (a, used) ↔ used ≤ buffer.length ∧ a.Layout (buffer.take used) := by
  rw [layout_iff]
  constructor
  · intro h
    have hdecoded := decoded buffer
    rw [h] at hdecoded
    cases hdecoded with
    | @read type host record rest port text hw hd =>
      rw [List.take_left, List.length_append]
      exact ⟨Nat.le_add_right _ _, type, host, port, text, hw, hd, rfl⟩
  · rintro ⟨hle, type, host, port, text, hw, hd, rfl⟩
    have hdecode := decode_whole hw (buffer.drop used)
    rw [List.take_append_drop, (hostText_eq_ok_iff hw).2 hd, List.length_take_of_le hle] at hdecode
    exact hdecode

theorem decode_take_append {a : Address} {used : Nat} (h : decode buffer = .ok (a, used))
    (rest : Bytes) : decode (buffer.take used ++ rest) = .ok (a, used) := by
  obtain ⟨hle, hread⟩ := (read_iff buffer a used).1 h
  have htake : (buffer.take used ++ rest).take used = buffer.take used :=
    List.take_left' (List.length_take_of_le hle)
  apply (read_iff _ a used).2
  rw [htake, List.length_append, List.length_take_of_le hle]
  exact ⟨Nat.le_add_right _ _, hread⟩

theorem not_decoded_of_prefix {a : Address} {used : Nat} (h : decode buffer = .ok (a, used))
    {shorter : Bytes} (hp : shorter <+: buffer.take used) (hl : shorter.length < used)
    (result : Address × Nat) : decode shorter ≠ .ok result := by
  obtain ⟨b, used'⟩ := result
  intro hs
  have hle := ((read_iff shorter b used').1 hs).1
  obtain ⟨more, hmore⟩ := hp
  have hwhole := decode_take_append hs (shorter.drop used' ++ more)
  rw [← List.append_assoc, List.take_append_drop, hmore, ← List.append_nil (buffer.take used),
    decode_take_append h] at hwhole
  cases hwhole
  omega

theorem unsupported_iff (buffer : Bytes) (code : UInt8) :
    decode buffer = .error (.addressTypeNotSupported code) ↔
      (∃ rest, buffer = code :: rest) ∧ code ≠ 1 ∧ code ≠ 3 ∧ code ≠ 4 := by
  rw [← AddressType.ofCode?_eq_none_iff]
  constructor
  · intro h
    have hdecoded := decoded buffer
    rw [h] at hdecoded
    cases hdecoded with
    | unsupported hc => exact ⟨⟨_, rfl⟩, hc⟩
  · rintro ⟨⟨rest, rfl⟩, hc⟩
    simp only [decode, hc]

theorem unreadable_iff (buffer : Bytes) (text : Text) :
    decode buffer = .error (.invalidAddress text) ↔
      ∃ host port record, Framed .domain host port record ∧ record <+: buffer ∧
        (∀ name, Utf8.encode name ≠ host) ∧ text = Utf8.decodeLossy host := by
  constructor
  · intro h
    have hdecoded := decoded buffer
    rw [h] at hdecoded
    cases hdecoded with
    | unreadable hw hn => exact ⟨_, _, _, hw, List.prefix_append _ _, hn, rfl⟩
  · rintro ⟨host, port, record, hw, ⟨rest, rfl⟩, hn, rfl⟩
    rw [decode_whole hw, hostText_eq_error_iff.2 ⟨rfl, hn, rfl⟩]
    rfl

theorem short_iff (buffer : Bytes) :
    (∃ required available, decode buffer = .error (.shortBuffer required available)) ↔
      ∃ type host port record, Framed type host port record ∧ buffer <+: record ∧
        buffer ≠ record := by
  constructor
  · rintro ⟨required, available, h⟩
    have hdecoded := decoded buffer
    rw [h] at hdecoded
    cases hdecoded with
    | short hl he hm =>
      obtain ⟨type, host, port, record, hw, hp⟩ := he
      refine ⟨type, host, port, record, hw, hp, ?_⟩
      rintro rfl
      exact Nat.not_lt.2 (hm _ _ _ _ hw hp) hl
  · rintro ⟨type, host, port, record, hw, hp, hne⟩
    have hdecoded := decoded buffer
    generalize decode buffer = result at hdecoded
    cases hdecoded with
    | read hw' hd => exact absurd (hw'.eq_of_prefix hw hp) hne
    | unreadable hw' hn => exact absurd (hw'.eq_of_prefix hw hp) hne
    | short => exact ⟨_, _, rfl⟩
    | unsupported hc =>
      obtain ⟨octets, -, rfl⟩ := hw
      rw [List.cons_append] at hp
      obtain ⟨rfl, -⟩ := List.cons_prefix_cons.1 hp
      rw [AddressType.ofCode?_code] at hc
      cases hc

theorem short_bounds {required available : Nat}
    (h : decode buffer = .error (.shortBuffer required available)) :
    available = buffer.length ∧ available < required ∧ ∀ type host port record,
      Framed type host port record → buffer <+: record → required ≤ record.length := by
  have hdecoded := decoded buffer
  rw [h] at hdecoded
  cases hdecoded with
  | short hl he hm => exact ⟨rfl, hl, hm⟩

theorem error_cases {e : Error} (h : decode buffer = .error e) :
    (∃ code, e = .addressTypeNotSupported code) ∨ (∃ text, e = .invalidAddress text) ∨
      ∃ required available, e = .shortBuffer required available := by
  have hdecoded := decoded buffer
  rw [h] at hdecoded
  cases hdecoded with
  | unsupported => exact .inl ⟨_, rfl⟩
  | unreadable => exact .inr (.inl ⟨_, rfl⟩)
  | short => exact .inr (.inr ⟨_, _, rfl⟩)

/-- Decoding tells whole records, those whose host is unreadable, parts of records and unknown types
apart, for every buffer. -/
theorem classified (buffer : Bytes) : Classified buffer where
  read_iff := read_iff buffer
  unaffected _ _ h := decode_take_append h
  minimal _ _ h _ hp hl := not_decoded_of_prefix h hp hl
  unsupported_iff := unsupported_iff buffer
  unreadable_iff := unreadable_iff buffer
  short_iff := short_iff buffer
  short_bounds _ _ := short_bounds
  only _ := error_cases

end Address

end SocksProxy
