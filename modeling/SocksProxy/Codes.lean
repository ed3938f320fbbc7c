import SocksProxy.Text

/-!
# Codes of the protocol

Authentication methods, commands, address types and reply statuses with their
codes on the wire, and the version octets of the messages.
-/

namespace SocksProxy

def protocolVersion : UInt8 := 5

def subnegotiationVersion : UInt8 := 1

inductive AuthMethod where
  | none
  | password
  | unacceptable
  deriving DecidableEq, Repr

def AuthMethod.code : AuthMethod → UInt8
  | .none => 0x00
  | .password => 0x02
  | .unacceptable => 0xff

/-- A command of a request. Codes without a meaning are kept, to be refused. -/
inductive Command where
  | connect
  | bind
  | udpAssociate
  | other (code : UInt8)
  deriving DecidableEq, Repr

namespace Command

def ofCode (code : UInt8) : Command :=
  if code = 1 then .connect
  else if code = 2 then .bind
  else if code = 3 then .udpAssociate
  else .other code

theorem ofCode_eq_connect_iff {code : UInt8} : ofCode code = .connect ↔ code = 1 := by
  fun_cases ofCode code <;> simp_all

theorem ofCode_eq_bind_iff {code : UInt8} : ofCode code = .bind ↔ code = 2 := by
  fun_cases ofCode code <;> simp_all

theorem ofCode_eq_udpAssociate_iff {code : UInt8} : ofCode code = .udpAssociate ↔ code = 3 := by
  fun_cases ofCode code <;> simp_all

theorem ofCode_eq_other_iff {code unknown : UInt8} :
    ofCode code = .other unknown ↔ code = unknown ∧ code ≠ 1 ∧ code ≠ 2 ∧ code ≠ 3 := by
  fun_cases ofCode code <;> simp_all

def text : Command → Text
  | .connect => "CONNECT".toList
  | .bind => "BIND".toList
  | .udpAssociate => "UDP ASSOCIATE".toList
  | .other code => "UNKNOWN(".toList ++ Hex.octet code ++ [')']

end Command

/-- How the host of an address record is written on the wire. -/
inductive AddressType where
  | ipv4
  | domain
  | ipv6
  deriving DecidableEq, Repr

namespace AddressType

def code : AddressType → UInt8
  | .ipv4 => 1
  | .domain => 3
  | .ipv6 => 4

def ofCode? (code : UInt8) : Option AddressType :=
  if code = 1 then some .ipv4
  else if code = 3 then some .domain
  else if code = 4 then some .ipv6
  else none

@[simp] theorem ofCode?_code (t : AddressType) : ofCode? t.code = some t := by
  cases t <;> rfl

theorem code_of_ofCode? {b : UInt8} {t : AddressType} (h : ofCode? b = some t) : t.code = b := by
  unfold ofCode? at h
  split at h
  · cases h; simp_all [code]
  · split at h
    · cases h; simp_all [code]
    · split at h
      · cases h; simp_all [code]
      · cases h

end AddressType

inductive ReplyStatus where
  | succeeded
  | generalFailure
  | connectionNotAllowed
  | networkUnreachable
  | hostUnreachable
  | connectionRefused
  | ttlExpired
  | commandNotSupported
  | addressTypeNotSupported
  deriving DecidableEq, Repr

def ReplyStatus.code : ReplyStatus → UInt8
  | .succeeded => 0
  | .generalFailure => 1
  | .connectionNotAllowed => 2
  | .networkUnreachable => 3
  | .hostUnreachable => 4
  | .connectionRefused => 5
  | .ttlExpired => 6
  | .commandNotSupported => 7
  | .addressTypeNotSupported => 8

theorem ReplyStatus.code_injective {s t : ReplyStatus} (h : s.code = t.code) : s = t := by
  cases s <;> cases t <;> first | rfl | simp [code] at h

end SocksProxy
