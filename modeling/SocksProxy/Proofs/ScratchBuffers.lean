import SocksProxy.Proofs.Messages

/-!
# Readers that share a buffer

The readers of the messages of a client receive one part after the other into the same buffer, and
take the fields of a message from its first places. What the buffer has held before, and what is
left in it of earlier parts, is never read: the readers depend on the length of the buffer alone.
-/

namespace SocksProxy

open SocksProxy.Action

namespace OctetStream

variable {α : Type} {buffer octets : Bytes} {capacity count : Nat}

/-- Receives octets into the first places of a buffer. -/
def fill (buffer : Bytes) (count : Nat) : Action interface Bytes := do
  return (← receiveWithin buffer.length count) ++ buffer.drop count

theorem receiveWithin_ends {es : List (Exchange interface)}
    (h : (receiveWithin capacity count).Ends es (.ok octets)) :
    octets.length = count ∧ count ≤ capacity := by
  by_cases hc : capacity < count
  · rw [receiveWithin, if_pos hc] at h
    cases (Program.ends_done_iff.1 h).2
  · have hle : count ≤ capacity := Nat.not_lt.1 hc
    obtain ⟨-, -, -, hl⟩ := (receiveWithin_meets hle).2 es _ h
    exact ⟨hl, hle⟩

/-- What follows on a buffer that has been filled may depend on the octets received alone. -/
theorem fill_bind {f g : Bytes → Action interface α}
    (h : ∀ octets, octets.length = count → count ≤ buffer.length →
      f (octets ++ buffer.drop count) = g octets) :
    fill buffer count >>= f = receiveWithin buffer.length count >>= g := by
  rw [fill, bind_assoc]
  simp only [pure_bind]
  apply bind_congr_of_ends
  intro es octets hr
  obtain ⟨hl, hc⟩ := receiveWithin_ends hr
  exact h octets hl hc

theorem length_filled (hl : octets.length = count) (hc : count ≤ buffer.length) :
    (octets ++ buffer.drop count).length = buffer.length := by
  rw [List.length_append, List.length_drop]
  omega

theorem take_filled (hl : octets.length = count) :
    (octets ++ buffer.drop count).take count = octets :=
  List.take_left' hl

theorem getD_filled (hl : octets.length = count) {i : Nat} (hi : i < count) :
    (octets ++ buffer.drop count).getD i 0 = octets.getD i 0 := by
  simp only [List.getD_eq_getElem?_getD]
  rw [List.getElem?_append_left (by omega)]

end OctetStream

open OctetStream

def Greeting.receiveInto (buffer : Bytes) : Action OctetStream.interface Greeting := do
  let buffer ← fill buffer 2
  let version := buffer.getD 0 0
  let count := (buffer.getD 1 0).toNat
  if version ≠ protocolVersion then throw (.invalidVersion version)
  let buffer ← fill buffer count
  return ⟨buffer.take count⟩

theorem Greeting.receiveInto_eq (buffer : Bytes) :
    Greeting.receiveInto buffer = Greeting.receive buffer.length := by
  apply fill_bind
  intro head hl hc
  simp only [getD_filled hl (by decide : 0 < 2), getD_filled hl (by decide : 1 < 2)]
  apply ite_congr rfl
  · intro _
    rfl
  intro _
  rw [← length_filled hl hc]
  apply fill_bind
  intro methods hm _
  rw [take_filled hm]

def Credentials.receiveInto (buffer : Bytes) : Action OctetStream.interface Credentials := do
  let buffer ← fill buffer 2
  let version := buffer.getD 0 0
  let count := (buffer.getD 1 0).toNat
  if version ≠ subnegotiationVersion then throw (.invalidSubnegotiationVersion version)
  let buffer ← fill buffer count
  let username := buffer.take count
  let length ← receiveOctet
  let buffer ← fill buffer length.toNat
  return ⟨username, buffer.take length.toNat⟩

theorem Credentials.receiveInto_eq (buffer : Bytes) :
    Credentials.receiveInto buffer = Credentials.receive buffer.length := by
  apply fill_bind
  intro head hl hc
  simp only [getD_filled hl (by decide : 0 < 2), getD_filled hl (by decide : 1 < 2)]
  apply ite_congr rfl
  · intro _
    rfl
  intro _
  rw [← length_filled hl hc]
  apply fill_bind
  intro username hu hc'
  rw [take_filled hu, ← length_filled hu hc']
  congr 1
  funext length
  apply fill_bind
  intro password hp _
  rw [take_filled hp]

def Address.receiveInto (buffer : Bytes) (code : UInt8) :
    Action OctetStream.interface Address := do
  match AddressType.ofCode? code with
  | none => throw (.addressTypeNotSupported code)
  | some type =>
    let length ← receive.hostLength type
    let buffer ← fill buffer (length + 2)
    ExceptT.mk (.done (ofBody type length buffer))

theorem Address.receiveInto_eq (buffer : Bytes) (code : UInt8) :
    Address.receiveInto buffer code = Address.receive buffer.length code := by
  unfold Address.receiveInto Address.receive
  cases AddressType.ofCode? code with
  | none => rfl
  | some type =>
    dsimp only
    congr 1
    funext length
    apply fill_bind
    intro body hl _
    rw [← ofBody_take, take_filled hl]

def CommandRequest.receiveInto (buffer : Bytes) :
    Action OctetStream.interface CommandRequest := do
  let buffer ← fill buffer 4
  let version := buffer.getD 0 0
  let command := Command.ofCode (buffer.getD 1 0)
  if version ≠ protocolVersion then throw (.invalidVersion version)
  return ⟨command, ← Address.receiveInto buffer (buffer.getD 3 0)⟩

theorem CommandRequest.receiveInto_eq (buffer : Bytes) :
    CommandRequest.receiveInto buffer = CommandRequest.receive buffer.length := by
  apply fill_bind
  intro head hl hc
  simp only [getD_filled hl (by decide : 0 < 4), getD_filled hl (by decide : 1 < 4),
    getD_filled hl (by decide : 3 < 4)]
  rw [Address.receiveInto_eq, length_filled hl hc]

theorem Address.LengthOctets.le_longestName {type : AddressType} {length : Nat} {octets : Bytes}
    (h : LengthOctets type length octets) : length ≤ longestName := by
  cases type with
  | ipv4 =>
    obtain ⟨-, rfl⟩ := h
    decide
  | ipv6 =>
    obtain ⟨-, rfl⟩ := h
    decide
  | domain =>
    obtain ⟨n, -, rfl⟩ := h
    have hn := n.toNat_lt
    rw [longestName]
    omega

/-- A buffer that has room for the longest name and a port is as good as a larger one. -/
theorem Address.receive_eq_of_longest {capacity : Nat} (h : longestName + 2 ≤ capacity)
    (code : UInt8) : Address.receive capacity code = Address.receive scratchSize code := by
  unfold Address.receive
  cases AddressType.ofCode? code with
  | none => rfl
  | some type =>
    apply bind_congr_of_ends
    intro es length hr
    have hl : LengthOctets type length (received es) := (hostLength_reads type).taken_of_ends hr
    have hle := hl.le_longestName
    rw [receiveWithin_eq (by omega), receiveWithin_eq hl.le_scratchSize]

end SocksProxy
