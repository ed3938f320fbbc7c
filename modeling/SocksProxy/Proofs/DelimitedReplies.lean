import SocksProxy.Proofs.WrittenAddresses

/-!
# Replies show where they end

A reply to a command is a header of three octets and the record of an address, and tells by itself
where it ends, whatever the type of the address. So a client that reads replies one after the other
finds each of them, and what follows the last one is left for the relay.
-/

namespace SocksProxy

namespace Address

variable {a : Address} {record buffer : Bytes}

theorem encodeInto_eq_ok_iff {buffer' : Bytes} {n : Nat} :
    a.encodeInto buffer = (buffer', .ok n) ↔ ∃ record, a.record = .ok record ∧
      record.length ≤ buffer.length ∧ buffer' = record ++ buffer.drop record.length ∧
        n = record.length := by
  constructor
  · intro h
    cases hr : a.record with
    | error e =>
      rw [encodeInto_of_error hr] at h
      cases h
    | ok record =>
      by_cases hl : record.length ≤ buffer.length
      · rw [encodeInto_of_record hr hl] at h
        cases h
        exact ⟨record, rfl, hl, rfl, rfl⟩
      · rw [encodeInto, hr] at h
        simp only [writeInto, if_pos (Nat.not_le.1 hl)] at h
        cases h
  · rintro ⟨record, hr, hl, rfl, rfl⟩
    exact encodeInto_of_record hr hl

theorem eq_of_encodeInto_eq_error {buffer' : Bytes} {e : Error}
    (h : a.encodeInto buffer = (buffer', .error e)) : buffer' = buffer := by
  have hwrites := writes_encodeInto a buffer
  rw [h] at hwrites
  cases hwrites <;> rfl

theorem Spells.exists_denotes {type : AddressType} {host : Text} {octets : Bytes}
    (hs : Spells type host octets) (ho : HostPort.Open host) :
    ∃ text, Denotes type octets text ∧ HostPort.Open text ∧ Spells type text octets := by
  cases type with
  | ipv4 =>
    obtain ⟨ip, -, rfl⟩ := hs
    exact ⟨ip.text, ⟨ip, rfl, rfl⟩, (IpAddress.v4 ip).open_text, ip, ip.parse?_text, rfl⟩
  | ipv6 =>
    obtain ⟨ip, -, rfl⟩ := hs
    exact ⟨ip.text, ⟨ip, rfl, rfl⟩, (IpAddress.v6 ip).open_text, ip, ip.parse?_text, rfl⟩
  | domain =>
    have hname := hs
    obtain ⟨-, rfl⟩ := hs
    exact ⟨host, rfl, ho, hname⟩

theorem exists_decode_record (h : a.record = .ok record) :
    ∃ b : Address, b.type = a.type ∧ b.record = .ok record ∧
      ∀ rest, decode (record ++ rest) = .ok (b, record.length) := by
  obtain ⟨host, digits, octets, port, hparts, ho, -, rfl⟩ := record_eq_ok_iff.1 h
  obtain ⟨lengthOctets, body, hs, hl, rfl⟩ := hostOctets?_eq_some_iff.1 ho
  have hopen : HostPort.Open host := (parts_eq_ok_iff.1 hparts).1
  -- The text may be another one than that of `a`, but it is written with the same octets.
  obtain ⟨text, hd, htext, hspells⟩ := hs.exists_denotes hopen
  have hagain : hostOctets? a.type text = some (lengthOctets ++ body) :=
    hostOctets?_eq_some_iff.2 ⟨lengthOctets, body, hspells, hl, rfl⟩
  have hframed : Framed a.type body port
      (a.type.code :: (lengthOctets ++ body) ++ Word.octets port) := ⟨lengthOctets, hl, rfl⟩
  refine ⟨⟨a.type, HostPort.join text port⟩, rfl, record_join port htext hagain, fun rest => ?_⟩
  rw [decode_whole hframed, (hostText_eq_ok_iff hframed).2 hd]
  rfl

end Address

namespace Reply

/-- A reply to a command, as it is read. -/
structure Heard where
  version : UInt8
  code : UInt8
  reserved : UInt8
  bound : Address

/-- Reads the reply to a command that stands first in a buffer, and tells its length. -/
def hear (buffer : Bytes) : Except Error (Heard × Nat) :=
  match buffer with
  | version :: code :: reserved :: rest =>
    (Address.decode rest).map fun (bound, used) => (⟨version, code, reserved, bound⟩, 3 + used)
  | _ => .error (.shortBuffer 3 buffer.length)

def hearEach : (count : Nat) → (buffer : Bytes) → Except Error (List Heard × Bytes)
  | 0, buffer => .ok ([], buffer)
  | count + 1, buffer => do
    let (first, used) ← hear buffer
    let (others, rest) ← hearEach count (buffer.drop used)
    return (first :: others, rest)

variable {status : ReplyStatus} {bound : Address} {buffer buffer' octets octets' : Bytes} {n : Nat}

theorem encodeInto_command (h : 3 ≤ buffer.length) : (command status bound).encodeInto buffer =
    (commandHeader status ++ (bound.encodeInto (buffer.drop 3)).1,
      (bound.encodeInto (buffer.drop 3)).2.map (3 + ·)) := by
  have hheader : (commandHeader status).length ≤ buffer.length := h
  simp only [encodeInto, writeInto_eq hheader]
  rfl

theorem encodeInto_command_short (h : buffer.length < 3) :
    (command status bound).encodeInto buffer =
      (buffer, .error (.shortBuffer 3 buffer.length)) := by
  have hwritten : writeInto buffer (commandHeader status) =
      (buffer, .error (.shortBuffer 3 buffer.length)) := if_pos h
  simp only [encodeInto, hwritten]

theorem encodeInto_command_eq_ok_iff :
    (command status bound).encodeInto buffer = (buffer', .ok n) ↔
      ∃ record, bound.record = .ok record ∧ record.length + 3 ≤ buffer.length ∧
        buffer' = commandHeader status ++ record ++ buffer.drop n ∧ n = 3 + record.length := by
  constructor
  · intro h
    by_cases hl : 3 ≤ buffer.length
    · rw [encodeInto_command hl] at h
      cases hb : bound.encodeInto (buffer.drop 3) with
      | mk rest written =>
        rw [hb] at h
        cases written with
        | error e => cases h
        | ok size =>
          obtain ⟨record, hr, hroom, rfl, rfl⟩ := Address.encodeInto_eq_ok_iff.1 hb
          cases h
          rw [List.length_drop] at hroom
          refine ⟨record, hr, by omega, ?_, rfl⟩
          rw [List.drop_drop, List.append_assoc]
    · rw [encodeInto_command_short (Nat.not_le.1 hl)] at h
      cases h
  · rintro ⟨record, hr, hl, rfl, rfl⟩
    have hlength : (commandHeader status ++ record).length = 3 + record.length := by
      rw [List.length_append, length_commandHeader]
    have hroom : (commandHeader status ++ record).length ≤ buffer.length := by omega
    rw [encodeInto_of_octets (octets_command hr) hroom, hlength]

/-- A reply that is not written leaves all but the place of the header as it was. -/
theorem drop_of_encodeInto_error {e : Error}
    (h : (command status bound).encodeInto buffer = (buffer', .error e)) :
    buffer'.length = buffer.length ∧ buffer'.drop 3 = buffer.drop 3 := by
  by_cases hl : 3 ≤ buffer.length
  · rw [encodeInto_command hl] at h
    cases hb : bound.encodeInto (buffer.drop 3) with
    | mk rest written =>
      rw [hb] at h
      cases written with
      | ok size => cases h
      | error e' =>
        obtain rfl := Address.eq_of_encodeInto_eq_error hb
        cases h
        refine ⟨?_, List.drop_left' (length_commandHeader status)⟩
        rw [List.length_append, length_commandHeader, List.length_drop]
        omega
  · rw [encodeInto_command_short (Nat.not_le.1 hl)] at h
    cases h
    exact ⟨rfl, rfl⟩

/-- Octets that are heard as a reply with an address, which is written as the address that has been
replied with. -/
structure HeardAs (status : ReplyStatus) (bound : Address) (octets : Bytes) (b : Address) :
    Prop where
  heard : ∀ rest, hear (octets ++ rest) =
    .ok (⟨protocolVersion, status.code, 0, b⟩, octets.length)
  type_eq : b.type = bound.type
  written : ∀ room : Bytes, octets.length ≤ room.length + 3 → bound.encodeInto room =
    (octets.drop 3 ++ room.drop (octets.length - 3), .ok (octets.length - 3))
  rewritten : ∀ room : Bytes, octets.length ≤ room.length + 3 → b.encodeInto room =
    (octets.drop 3 ++ room.drop (octets.length - 3), .ok (octets.length - 3))

theorem exists_heardAs {record : Bytes} (status : ReplyStatus) (h : bound.record = .ok record) :
    ∃ b, HeardAs status bound (commandHeader status ++ record) b := by
  obtain ⟨b, htype, hb, hd⟩ := Address.exists_decode_record h
  have hlength : (commandHeader status ++ record).length = record.length + 3 := by
    rw [List.length_append, length_commandHeader, Nat.add_comm]
  have hdrop : (commandHeader status ++ record).drop 3 = record :=
    List.drop_left' (length_commandHeader status)
  have hencoded {a : Address} (ha : a.record = .ok record) (room : Bytes)
      (hl : (commandHeader status ++ record).length ≤ room.length + 3) : a.encodeInto room =
        ((commandHeader status ++ record).drop 3 ++
            room.drop ((commandHeader status ++ record).length - 3),
          .ok ((commandHeader status ++ record).length - 3)) := by
    rw [hlength] at hl ⊢
    rw [hdrop, Nat.add_sub_cancel]
    exact Address.encodeInto_of_record ha (Nat.le_of_add_le_add_right hl)
  refine ⟨b, ?_, htype, hencoded h, hencoded hb⟩
  intro rest
  rw [hlength, Nat.add_comm]
  change (Address.decode (record ++ rest)).map _ = _
  rw [hd]
  rfl

/-- The octets of a reply to a command that has been written into some buffer. -/
def Encoded (octets : Bytes) : Prop :=
  ∃ status bound buffer buffer' n, (ofCommand status bound).encodeInto buffer = (buffer', .ok n) ∧
    octets = buffer'.take n

theorem take_of_encodeInto {record : Bytes}
    (hb : buffer' = commandHeader status ++ record ++ buffer.drop n)
    (hn : n = 3 + record.length) : buffer'.take n = commandHeader status ++ record := by
  subst hb
  apply List.take_left'
  rw [List.length_append, length_commandHeader, hn]

theorem Encoded.exists_heardAs (h : Encoded octets) :
    ∃ status bound b, HeardAs status bound octets b := by
  obtain ⟨status, bound, buffer, buffer', n, he, rfl⟩ := h
  obtain ⟨record, hr, -, hb, hn⟩ := encodeInto_command_eq_ok_iff.1 he
  rw [take_of_encodeInto hb hn]
  exact ⟨_, _, Reply.exists_heardAs _ hr⟩

/-- What follows a reply tells nothing about where it ends. -/
theorem Encoded.append_inj {rest rest' : Bytes} (h : Encoded octets) (h' : Encoded octets')
    (he : octets ++ rest = octets' ++ rest') : octets = octets' ∧ rest = rest' := by
  obtain ⟨_, _, b, hb⟩ := h.exists_heardAs
  obtain ⟨_, _, b', hb'⟩ := h'.exists_heardAs
  have hsame := hb.heard rest
  rw [he, hb'.heard rest'] at hsame
  exact List.append_inj he (Prod.mk.inj (Except.ok.inj hsame)).2.symm

theorem hearEach_cons {message : Heard} {count : Nat}
    (h : ∀ rest, hear (octets ++ rest) = .ok (message, octets.length)) (rest : Bytes) :
    hearEach (count + 1) (octets ++ rest) =
      (hearEach count rest).map fun (others, left) => (message :: others, left) := by
  rw [hearEach, h]
  change (hearEach count ((octets ++ rest).drop octets.length) >>= _) = _
  rw [List.drop_left]
  cases hearEach count rest <;> rfl

/-- Replies are read one after the other as each of them is read alone. -/
theorem exists_hearEach {replies : List Bytes} (h : ∀ octets ∈ replies, Encoded octets) :
    ∃ messages, (replies.map fun octets => (hear octets).map Prod.fst) = messages.map .ok ∧
      ∀ data, hearEach replies.length (replies.flatten ++ data) = .ok (messages, data) := by
  induction replies with
  | nil => exact ⟨[], rfl, fun data => rfl⟩
  | cons octets replies ih =>
    obtain ⟨status, bound, b, hb⟩ := (h octets (List.mem_cons_self ..)).exists_heardAs
    obtain ⟨messages, heach, hall⟩ := ih fun o ho => h o (List.mem_cons_of_mem _ ho)
    refine ⟨⟨protocolVersion, status.code, 0, b⟩ :: messages, ?_, fun data => ?_⟩
    · have halone := hb.heard []
      rw [List.append_nil] at halone
      rw [List.map_cons, List.map_cons, heach, halone]
      rfl
    · rw [List.flatten_cons, List.append_assoc, List.length_cons, hearEach_cons hb.heard, hall]
      rfl

/-- What replies and the data after them are made of, whoever takes them apart. -/
structure SplitOnce (replies : List Bytes) (data : Bytes) : Prop where
  heard : ∃ messages, (replies.map fun octets => (hear octets).map Prod.fst) = messages.map .ok ∧
    hearEach replies.length (replies.flatten ++ data) = .ok (messages, data)
  nested : ∀ replies' data', (∀ octets ∈ replies', Encoded octets) →
    replies.flatten ++ data = replies'.flatten ++ data' → ∃ more,
      (replies' = replies ++ more ∧ data = more.flatten ++ data') ∨
        (replies = replies' ++ more ∧ data' = more.flatten ++ data)
  unique : ∀ replies' data', (∀ octets ∈ replies', Encoded octets) →
    replies.flatten ++ data = replies'.flatten ++ data' → replies.length = replies'.length →
      replies = replies' ∧ data = data'

theorem nested_of_flatten {replies replies' : List Bytes} {data data' : Bytes}
    (h : ∀ octets ∈ replies, Encoded octets) (h' : ∀ octets ∈ replies', Encoded octets)
    (he : replies.flatten ++ data = replies'.flatten ++ data') : ∃ more,
      (replies' = replies ++ more ∧ data = more.flatten ++ data') ∨
        (replies = replies' ++ more ∧ data' = more.flatten ++ data) := by
  -- As long as there are replies on both sides, the first ones are the same and are taken away.
  induction replies generalizing replies' with
  | nil => exact ⟨replies', .inl ⟨rfl, he⟩⟩
  | cons octets replies ih =>
    cases replies' with
    | nil => exact ⟨octets :: replies, .inr ⟨rfl, he.symm⟩⟩
    | cons octets' replies' =>
      simp only [List.flatten_cons, List.append_assoc] at he
      obtain ⟨rfl, hrest⟩ := (h octets (List.mem_cons_self ..)).append_inj
        (h' octets' (List.mem_cons_self ..)) he
      obtain ⟨more, ⟨rfl, hdata⟩ | ⟨rfl, hdata⟩⟩ := ih (fun o ho => h o (List.mem_cons_of_mem _ ho))
        (fun o ho => h' o (List.mem_cons_of_mem _ ho)) hrest
      · exact ⟨more, .inl ⟨rfl, hdata⟩⟩
      · exact ⟨more, .inr ⟨rfl, hdata⟩⟩

theorem splitOnce {replies : List Bytes} (h : ∀ octets ∈ replies, Encoded octets) (data : Bytes) :
    SplitOnce replies data := by
  constructor
  · obtain ⟨messages, heach, hall⟩ := exists_hearEach h
    exact ⟨messages, heach, hall data⟩
  · intro replies' data' h' he
    exact nested_of_flatten h h' he
  · intro replies' data' h' he hl
    obtain ⟨more, ⟨rfl, rfl⟩ | ⟨rfl, rfl⟩⟩ := nested_of_flatten h h' he
    · rw [List.length_append] at hl
      obtain rfl : more = [] := List.length_eq_zero_iff.1 (by omega)
      exact ⟨(List.append_nil _).symm, rfl⟩
    · rw [List.length_append] at hl
      obtain rfl : more = [] := List.length_eq_zero_iff.1 (by omega)
      exact ⟨List.append_nil _, rfl⟩

/-- What writing a reply to a command makes of a buffer. -/
structure Delimited (status : Option ReplyStatus) (bound : Option Address) (buffer : Bytes) :
    Prop where
  heard : ∀ buffer' n, (ofCommand status bound).encodeInto buffer = (buffer', .ok n) →
    (buffer'.take n).length = n ∧ ∃ b, HeardAs (status.getD .generalFailure)
      (bound.getD .unspecified) (buffer'.take n) b
  written_iff : (∃ buffer' n, (ofCommand status bound).encodeInto buffer = (buffer', .ok n)) ↔
    ∃ room size, ((bound.getD .unspecified).encodeInto room).2 = .ok size ∧
      size + 3 ≤ buffer.length
  unset : bound = none → 10 ≤ buffer.length → (ofCommand status bound).encodeInto buffer =
    ([5, (status.getD .generalFailure).code, 0, 1, 0, 0, 0, 0, 0, 0] ++ buffer.drop 10, .ok 10)
  unwritten : ∀ buffer' e, (ofCommand status bound).encodeInto buffer = (buffer', .error e) →
    buffer'.length = buffer.length ∧ buffer'.drop 3 = buffer.drop 3

theorem delimited (status : Option ReplyStatus) (bound : Option Address) (buffer : Bytes) :
    Delimited status bound buffer := by
  constructor
  case heard =>
    intro buffer' n h
    obtain ⟨record, hr, -, hb, hn⟩ := encodeInto_command_eq_ok_iff.1 h
    rw [take_of_encodeInto hb hn]
    refine ⟨?_, exists_heardAs _ hr⟩
    rw [List.length_append, length_commandHeader, hn]
  case written_iff =>
    constructor
    · rintro ⟨buffer', n, h⟩
      obtain ⟨record, hr, hl, -, -⟩ := encodeInto_command_eq_ok_iff.1 h
      refine ⟨record, record.length, ?_, hl⟩
      rw [Address.encodeInto_of_record hr (Nat.le_refl _)]
    · rintro ⟨room, size, h, hl⟩
      obtain ⟨record, hr, -, -, rfl⟩ := Address.encodeInto_eq_ok_iff.1 (Prod.ext rfl h)
      exact ⟨_, _, encodeInto_command_eq_ok_iff.2 ⟨record, hr, hl, rfl, rfl⟩⟩
  case unset =>
    rintro rfl hl
    have hr : Address.unspecified.record = .ok [1, 0, 0, 0, 0, 0, 0] := rfl
    exact encodeInto_command_eq_ok_iff.2 ⟨_, hr, hl, rfl, rfl⟩
  case unwritten =>
    intro buffer' e h
    exact drop_of_encodeInto_error h

/-- Each reply tells where it ends, and so do replies that are sent one after the other: from what
follows the last of them they are told apart in one way. -/
theorem replies_delimited :
    (∀ status bound buffer, Delimited status bound buffer) ∧
      ∀ replies, (∀ octets ∈ replies, Encoded octets) → ∀ data, SplitOnce replies data := by
  constructor
  · intro status bound buffer
    exact delimited status bound buffer
  · intro replies h data
    exact splitOnce h data

/-- The two replies to a bind, the second with a name, before data that begin as a reply. -/
theorem splitOnce_bindReplies :
    Encoded [5, 0, 0, 1, 127, 0, 0, 1, 31, 144] ∧ Encoded [5, 0, 0, 3, 1, 97, 0, 80] ∧
      SplitOnce [[5, 0, 0, 1, 127, 0, 0, 1, 31, 144], [5, 0, 0, 3, 1, 97, 0, 80]]
        [5, 0, 0, 3, 1, 98] := by
  have hfirst : Encoded [5, 0, 0, 1, 127, 0, 0, 1, 31, 144] :=
    ⟨some .succeeded, some ⟨.ipv4, "127.0.0.1:8080".toList⟩, List.replicate 10 7,
      [5, 0, 0, 1, 127, 0, 0, 1, 31, 144], 10, by decide +kernel, rfl⟩
  have hsecond : Encoded [5, 0, 0, 3, 1, 97, 0, 80] :=
    ⟨some .succeeded, some ⟨.domain, "a:80".toList⟩, List.replicate 10 7,
      [5, 0, 0, 3, 1, 97, 0, 80, 7, 7], 8, by decide +kernel, rfl⟩
  refine ⟨hfirst, hsecond, replies_delimited.2 _ ?_ _⟩
  intro octets ho
  rcases List.mem_cons.1 ho with rfl | ho
  · exact hfirst
  · obtain rfl := List.mem_singleton.1 ho
    exact hsecond

end Reply

end SocksProxy
