import SocksProxy.Proofs.AddressRoundTrips
import SocksProxy.Proofs.Stages

/-!
# The socket addresses that can be reported

A socket address goes into a reply by way of its text, which is read back when the reply is
written. What is then on the wire is the family, the host and the port. A text with a scope is not
read back, though, so that no reply can be made of such an address and nothing is sent.
-/

namespace SocksProxy

open SocksProxy.Action

namespace SocketAddress

def family : SocketAddress → AddressType
  | .v4 .. => .ipv4
  | .v6 .. => .ipv6

/-- A socket address on the wire, without flow information and scope. -/
def wire (a : SocketAddress) : Bytes := a.family.code :: a.ip.octets ++ Word.octets a.port

theorem hostOctets?_of_not_scoped {a : SocketAddress} (h : ¬ a.Scoped) :
    Address.hostOctets? a.family a.hostText = some a.ip.octets := by
  cases a with
  | v4 ip port => simp [Address.hostOctets?, family, hostText, SocketAddress.ip, IpAddress.octets]
  | v6 ip port flow scope =>
    have h0 : scope = 0 := Decidable.not_not.1 h
    simp [Address.hostOctets?, family, hostText, SocketAddress.ip, IpAddress.octets, h0]

theorem hostOctets?_of_scoped {a : SocketAddress} (h : a.Scoped) :
    Address.hostOctets? a.family a.hostText = none := by
  cases a with
  | v4 ip port => exact absurd h id
  | v6 ip port flow scope =>
    simp only [Address.hostOctets?, family, parse?_hostText_of_scoped h, Option.map_none]

theorem type_ofSocketAddress (a : SocketAddress) : (Address.ofSocketAddress a).type = a.family := by
  cases a <;> rfl

theorem text_ofSocketAddress (a : SocketAddress) : (Address.ofSocketAddress a).text = a.text := by
  cases a <;> rfl

theorem record_of_not_scoped {a : SocketAddress} (h : ¬ a.Scoped) :
    (Address.ofSocketAddress a).record = .ok a.wire := by
  apply Address.record_eq_ok_iff.2
  have ho := hostOctets?_of_not_scoped h
  rw [← type_ofSocketAddress] at ho
  refine ⟨a.hostText, portText a.port, a.ip.octets, a.port, ?_, ho, ?_, ?_⟩
  · exact Address.parts_ofSocketAddress a
  · exact Address.portNumber_portText a.port
  · rw [wire, type_ofSocketAddress]

theorem record_of_scoped {a : SocketAddress} (h : a.Scoped) :
    (Address.ofSocketAddress a).record = .error (.invalidAddress a.text) := by
  have ho := hostOctets?_of_scoped h
  unfold Address.record
  rw [Address.parts_ofSocketAddress, type_ofSocketAddress]
  simp only [bind, Except.bind, ho, text_ofSocketAddress]

/-- A reply with a socket address is written and sent whole, and reports the address. -/
structure Reported (status : ReplyStatus) (a : SocketAddress) : Prop where
  fits : (Reply.commandHeader status ++ a.wire).length ≤ scratchSize
  encoded : ∀ buffer : Bytes, a.wire.length ≤ buffer.length →
    (Address.ofSocketAddress a).encodeInto buffer =
      (a.wire ++ buffer.drop a.wire.length, .ok a.wire.length)
  replied : ∀ es r, (Connection.respond status (.ofSocketAddress a)).Ends es r → Accepting es →
    r = .ok () ∧ sent es = Reply.commandHeader status ++ a.wire

/-- A reply with a socket address is not written, and no octet of it is sent. -/
structure Withheld (status : ReplyStatus) (a : SocketAddress) : Prop where
  encoded : ∀ buffer : Bytes, (Address.ofSocketAddress a).encodeInto buffer =
    (buffer, .error (.invalidAddress a.text))
  replied : ∀ es r, (Connection.respond status (.ofSocketAddress a)).Ends es r →
    r = .error (.invalidAddress a.text) ∧ sent es = []

theorem reported_of_record {status : ReplyStatus} {a : SocketAddress}
    (h : (Address.ofSocketAddress a).record = .ok a.wire) : Reported status a := by
  constructor
  · exact Reply.octets_length_le (Reply.octets_command h)
  · intro buffer hl
    exact Address.encodeInto_of_record h hl
  · intro es r hr ha
    have hreplied := (Connection.respond_meets h).2 es r hr
    cases r with
    | ok u => exact ⟨rfl, hreplied.2⟩
    | error e => exact absurd ha hreplied.2.1

theorem withheld_of_record {status : ReplyStatus} {a : SocketAddress}
    (h : (Address.ofSocketAddress a).record = .error (.invalidAddress a.text)) :
    Withheld status a := by
  constructor
  · intro buffer
    rw [Address.encodeInto, h]
  · intro es r hr
    obtain ⟨-, hs, rfl⟩ := (Connection.respond_meets_of_error h).2 es r hr
    exact ⟨rfl, hs⟩

/-- Every socket address without a scope is reported, in each reply, and no other one is. -/
theorem reported_unless_scoped (status : ReplyStatus) (a : SocketAddress) :
    (¬ a.Scoped → Reported status a) ∧ (a.Scoped → Withheld status a) := by
  constructor
  · intro h
    exact reported_of_record (record_of_not_scoped h)
  · intro h
    exact withheld_of_record (record_of_scoped h)

theorem reported_unscoped :
    ¬ (v6 ⟨[0xfe80, 0, 0, 0, 0, 0, 0, 1], rfl⟩ 4242 7 0).Scoped ∧
      Reported .succeeded (.v6 ⟨[0xfe80, 0, 0, 0, 0, 0, 0, 1], rfl⟩ 4242 7 0) := by
  have hs : ¬ (v6 ⟨[0xfe80, 0, 0, 0, 0, 0, 0, 1], rfl⟩ 4242 7 0).Scoped := fun h => h rfl
  exact ⟨hs, (reported_unless_scoped .succeeded _).1 hs⟩

def linkLocal : SocketAddress := .v6 ⟨[0xfe80, 0, 0, 0, 0, 0, 0, 1], rfl⟩ 4242 0 3

/-- A peer on a link is an address that cannot be written, although the buffer is long enough. -/
theorem linkLocal_not_reported :
    (Address.ofSocketAddress linkLocal).encodeInto (List.replicate scratchSize 0) =
        (List.replicate scratchSize 0, .error (.invalidAddress "[fe80::1%3]:4242".toList)) ∧
      linkLocal.wire.length ≤ scratchSize ∧ ¬ Reported .succeeded linkLocal := by
  have ht : linkLocal.text = "[fe80::1%3]:4242".toList := by decide +kernel
  have hl : linkLocal.wire.length ≤ scratchSize := by decide
  have hs : (3 : UInt32) ≠ 0 := by decide
  have hw : Withheld .succeeded linkLocal := withheld_of_record (record_of_scoped hs)
  have he := hw.encoded (List.replicate scratchSize 0)
  refine ⟨by rwa [ht] at he, hl, fun h => ?_⟩
  rw [h.encoded _ (by simpa using hl)] at he
  cases congrArg Prod.snd he

end SocketAddress

end SocksProxy
