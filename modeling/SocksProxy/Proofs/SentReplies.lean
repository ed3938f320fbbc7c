import SocksProxy.Proofs.Messages

/-!
# What a reply puts on the stream

A reply is a header, and for a command an address record. Every record fits into the buffer for
messages together with its header, so a reply is sent whole unless its address has no record; then
nothing is sent.
-/

namespace SocksProxy

theorem writeInto_eq {buffer octets : Bytes} (h : octets.length ≤ buffer.length) :
    writeInto buffer octets = (octets ++ buffer.drop octets.length, .ok octets.length) := by
  rw [writeInto, if_neg (Nat.not_lt.2 h)]

namespace Address

theorem hostOctets?_length_le {type : AddressType} {host : Text} {octets : Bytes}
    (h : hostOctets? type host = some octets) : octets.length ≤ longestName + 1 := by
  cases type with
  | ipv4 =>
    obtain ⟨ip, -, rfl⟩ := Option.map_eq_some_iff.1 h
    simp [longestName]
  | ipv6 =>
    obtain ⟨ip, -, rfl⟩ := Option.map_eq_some_iff.1 h
    simp [longestName]
  | domain =>
    simp only [hostOctets?] at h
    split at h
    case isFalse => cases h
    case isTrue hl =>
      injection h with h
      subst h
      simp only [List.length_cons]
      omega

theorem record_eq_ok_iff {a : Address} {record : Bytes} :
    a.record = .ok record ↔ ∃ host port octets number, a.parts = .ok (host, port) ∧
      hostOctets? a.type host = some octets ∧ portNumber port = .ok number ∧
      record = a.type.code :: octets ++ Word.octets number := by
  unfold Address.record
  cases hp : a.parts with
  | error e => simp [bind, Except.bind]
  | ok parts =>
    obtain ⟨host, port⟩ := parts
    simp only [bind, Except.bind, Except.ok.injEq, Prod.mk.injEq]
    cases ho : hostOctets? a.type host with
    | none =>
      constructor
      · exact nofun
      · rintro ⟨_, _, _, _, ⟨rfl, rfl⟩, h, -⟩
        rw [ho] at h
        cases h
    | some octets =>
      cases hn : portNumber port with
      | error e =>
        constructor
        · exact nofun
        · rintro ⟨_, _, _, _, ⟨rfl, rfl⟩, -, h, -⟩
          rw [hn] at h
          cases h
      | ok number =>
        constructor
        · intro h
          injection h with h
          exact ⟨host, port, octets, number, ⟨rfl, rfl⟩, ho, hn, h.symm⟩
        · rintro ⟨_, _, _, _, ⟨rfl, rfl⟩, h, h', rfl⟩
          rw [ho] at h
          rw [hn] at h'
          cases h
          cases h'
          rfl

theorem record_length_le {a : Address} {record : Bytes} (h : a.record = .ok record) :
    record.length ≤ longestName + 4 := by
  obtain ⟨host, port, octets, number, -, ho, -, rfl⟩ := record_eq_ok_iff.1 h
  have := hostOctets?_length_le ho
  simp only [List.cons_append, List.length_cons, List.length_append, Word.length_octets]
  omega

end Address

namespace Reply

@[simp] theorem length_commandHeader (status : ReplyStatus) :
    (commandHeader status).length = 3 := rfl

/-- The octets of a reply, if it has any. -/
def octets : Reply → Except Error Bytes
  | .method selected => .ok [protocolVersion, selected.code]
  | .subnegotiation accepted => .ok [subnegotiationVersion, if accepted then 0 else 1]
  | .command status bound => bound.record.map (commandHeader status ++ ·)

theorem octets_command {status : ReplyStatus} {bound : Address} {record : Bytes}
    (h : bound.record = .ok record) :
    (Reply.command status bound).octets = .ok (commandHeader status ++ record) := by
  simp [octets, h, Except.map]

theorem octets_length_le {reply : Reply} {octets : Bytes} (h : reply.octets = .ok octets) :
    octets.length ≤ scratchSize := by
  cases reply with
  | method selected =>
    cases h
    simp [scratchSize]
  | subnegotiation accepted =>
    cases h
    simp [scratchSize]
  | command status bound =>
    cases hr : bound.record with
    | error e => simp [Reply.octets, hr, Except.map] at h
    | ok record =>
      rw [octets_command hr] at h
      injection h with h
      subst h
      have := Address.record_length_le hr
      simp only [List.length_append, length_commandHeader, scratchSize, Address.longestName] at *
      omega

theorem encodeInto_of_octets {reply : Reply} {octets buffer : Bytes} (h : reply.octets = .ok octets)
    (hl : octets.length ≤ buffer.length) :
    reply.encodeInto buffer = (octets ++ buffer.drop octets.length, .ok octets.length) := by
  cases reply with
  | method selected =>
    cases h
    exact writeInto_eq hl
  | subnegotiation accepted =>
    cases h
    exact writeInto_eq hl
  | command status bound =>
    cases hr : bound.record with
    | error e => simp [Reply.octets, hr, Except.map] at h
    | ok record =>
      rw [octets_command hr] at h
      injection h with h
      subst h
      simp only [List.length_append, length_commandHeader] at hl
      have hh : (commandHeader status).length ≤ buffer.length := by
        rw [length_commandHeader]
        omega
      simp only [encodeInto, writeInto_eq hh, Address.encodeInto, hr]
      rw [List.drop_left' rfl, List.take_left' rfl, writeInto_eq]
      · simp [Except.map]
      · simp only [List.length_drop, length_commandHeader]
        omega

theorem send_eq (reply : Reply) :
    reply.send = match reply.octets with
      | .ok octets => OctetStream.sendAll octets
      | .error e => throw e := by
  cases h : reply.octets with
  | ok octets =>
    have hl : octets.length ≤ (List.replicate scratchSize (0 : UInt8)).length := by
      simpa using octets_length_le h
    rw [send, encodeInto_of_octets h hl]
    change OctetStream.sendAll (List.take octets.length (octets ++ _)) = _
    rw [List.take_left' rfl]
  | error e =>
    cases reply with
    | method selected => cases h
    | subnegotiation accepted => cases h
    | command status bound =>
      cases hr : bound.record with
      | ok record => simp [octets_command hr] at h
      | error e' =>
        have he : e' = e := by simpa [Reply.octets, hr, Except.map] using h
        subst he
        have hh : (commandHeader status).length ≤
            (List.replicate scratchSize (0 : UInt8)).length := by
          rw [length_commandHeader, List.length_replicate]
          decide
        simp only [send, encodeInto, writeInto_eq hh, Address.encodeInto, hr]
        rfl

theorem octets_failure (status : ReplyStatus) :
    (failure status).octets =
      .ok (commandHeader status ++ [AddressType.ipv4.code, 0, 0, 0, 0, 0, 0]) := by
  have h : Address.unspecified.record = .ok [AddressType.ipv4.code, 0, 0, 0, 0, 0, 0] := rfl
  exact octets_command h

end Reply

end SocksProxy
