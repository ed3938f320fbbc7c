import SocksProxy.Proofs.ScratchBuffers
import SocksProxy.Proofs.TakenInput

/-!
# The two decoders of addresses

An address record is decoded from a buffer that holds it, or read from a stream once the code of
its type has been received. Both are told by the same relation of a result to the octets of the
record, so that they come to the same result wherever the record is whole. Where it is not, the one
finds its buffer too short and the other finds the end of its stream.
-/

namespace SocksProxy

open SocksProxy.Action OctetStream Circumstances

namespace Address

theorem decode_short {code : UInt8} {input : Bytes} (h : Unsettled (Taken code) input) :
    ∃ required available, decode (code :: input) = .error (.shortBuffer required available) := by
  cases ht : AddressType.ofCode? code with
  | none => exact absurd List.nil_prefix (h _ [] (.unsupported ht))
  | some type =>
    rcases exists_lengthOctets type input with ⟨rfl, rfl⟩ | ⟨length, octets, body, rfl, hl⟩
    · simp only [decode, ht]
      exact ⟨2, 1, rfl⟩
    · by_cases hb : body.length < length + 2
      · rw [← List.cons_append, decode_append ht hl, if_pos hb]
        exact ⟨_, _, rfl⟩
      · have htake : (body.take (length + 2)).length = length + 2 :=
          List.length_take_of_le (Nat.not_lt.1 hb)
        refine absurd ?_ (h _ _ (.record ht hl htake))
        exact (List.prefix_append_right_inj octets).2 (List.take_prefix _ body)

/-- What decoding a buffer comes to, what reading a stream comes to, and how many octets of the
stream have been taken then. -/
inductive Agree (code : UInt8) : Except Error (Address × Nat) → Except Error Address → Nat → Prop
    where
  | read {a : Address} {consumed : Nat} : Agree code (.ok (a, consumed + 1)) (.ok a) consumed
  | unsupported {consumed : Nat} : Agree code (.error (.addressTypeNotSupported code))
      (.error (.addressTypeNotSupported code)) consumed
  | unreadable {text : Text} {consumed : Nat} :
      Agree code (.error (.invalidAddress text)) (.error (.invalidAddress text)) consumed
  | short {required available consumed : Nat} :
      Agree code (.error (.shortBuffer required available)) (.error (.io (.raised .unexpectedEof)))
        consumed

theorem ofBody_error {type : AddressType} {length : Nat} {body : Bytes} {e : Error}
    (h : ofBody type length body = .error e) : ∃ text, e = .invalidAddress text := by
  cases type with
  | ipv4 => cases h
  | ipv6 => cases h
  | domain =>
    simp only [ofBody, hostText] at h
    cases hd : Utf8.decode? (body.take length) with
    | some name =>
      rw [hd] at h
      cases h
    | none =>
      rw [hd] at h
      cases h
      exact ⟨_, rfl⟩

theorem Taken.agree {code : UInt8} {r : Except Error Address} {octets : Bytes}
    (h : Taken code r octets) : Agree code (r.map (·, octets.length + 1)) r octets.length := by
  cases h with
  | unsupported => exact .unsupported
  | @record type length lengthOctets body =>
    cases hr : ofBody type length body with
    | ok a => exact .read
    | error e =>
      obtain ⟨text, rfl⟩ := ofBody_error hr
      exact .unreadable

/-- The two decoders agree on every input, in whatever parts it comes, with every buffer in which
the longest record has room. -/
theorem decoders_agree {buffer : Bytes} {s : Circumstances OctetStream.interface} (code : UInt8)
    (hb : longestName + 2 ≤ buffer.length) (he : s.ending = .ends) :
    (∃ es, s.Concludes (receiveInto buffer code) es) ∧
      ∀ es, s.Concludes (receiveInto buffer code) es → ∃ r, (receiveInto buffer code).Ends es r ∧
        Agree code (decode (code :: s.input)) r (received es).length := by
  rw [receiveInto_eq, receive_eq_of_longest hb]
  constructor
  · exact exists_concludes (.refl _) trivial
  intro es h
  rcases (receive_reads code).concluded h with ⟨r, hends, ht⟩ | ⟨hnone, hdry⟩
  · obtain ⟨rest, hrest⟩ := h.1.received_le
    rw [← hrest, ht.decode_eq]
    exact ⟨r, hends, ht.agree⟩
  · obtain ⟨required, available, hd⟩ := decode_short hnone
    have hends := (hdry.ends_iff _).2 ⟨_, by rw [he]; rfl, rfl⟩
    rw [hd]
    exact ⟨_, hends, .short⟩

/-- A name of which the octets come one by one, with an octet more. -/
def namedSlowly : Circumstances OctetStream.interface where
  input := [1, 97, 0, 80, 7]
  ending := .ends
  world _ _ := none

def receivedSlowly : List (Exchange OctetStream.interface) :=
  [⟨.receive 1, .ok ⟨[1], by decide⟩⟩, ⟨.receive 3, .ok ⟨[97], by decide⟩⟩,
    ⟨.receive 2, .ok ⟨[0], by decide⟩⟩, ⟨.receive 1, .ok ⟨[80], by decide⟩⟩]

def smallestBuffer : Bytes := List.replicate 257 0xff

theorem agree_receivedSlowly :
    longestName + 2 ≤ smallestBuffer.length ∧ namedSlowly.ending = .ends ∧
      namedSlowly.Concludes (receiveInto smallestBuffer 3) receivedSlowly ∧
        ∃ r, (receiveInto smallestBuffer 3).Ends receivedSlowly r ∧
          Agree 3 (decode (3 :: namedSlowly.input)) r 4 := by
  have hb : longestName + 2 ≤ smallestBuffer.length := by
    rw [smallestBuffer, List.length_replicate]
    decide
  have hends : (receiveInto smallestBuffer 3).Ends receivedSlowly
      (.ok ⟨.domain, "a:80".toList⟩) := by decide +kernel
  have hfits : namedSlowly.Fits receivedSlowly := by
    simp [namedSlowly, receivedSlowly, Circumstances.Fits, Circumstances.Answers,
      Circumstances.after, Circumstances.Delivers, receipt?, others, received,
      OctetStream.receipt?, OctetStream.octetsIn, Interface.Streamed.stream?, Except.map]
  have hc := Concludes.of_ends hfits hends
  exact ⟨hb, rfl, hc, (decoders_agree 3 hb rfl).2 receivedSlowly hc⟩

end Address

end SocksProxy
