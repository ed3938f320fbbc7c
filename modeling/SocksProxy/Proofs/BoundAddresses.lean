import SocksProxy.Proofs.DelimitedReplies
import SocksProxy.Proofs.ReportedAddresses

/-!
# The addresses that are reported as bound

An operator may have a text reported in place of an address. It is used if it is a host, which is an
IP address or not too long, and the number of a port: just then it can be written. Otherwise the
address itself is reported. So there is always something that can be sent.

A host that an operator has reported in front of the port of the address never changes that port,
whatever brackets and colons it has. If it has no brackets, it is what is reported.
-/

namespace SocksProxy

namespace Address

variable {a : Address} {t host digits : Text} {port : UInt16}

def Places (host : Text) : Prop :=
  (IpAddress.parse? host).isSome ∨ Utf8.size host ≤ longestName

/-- A text of a host that can stand in a record, and of the number of a port. -/
def Reportable (t : Text) : Prop :=
  ∃ host digits port, HostPort.Forms t host digits ∧ Places host ∧ Numbers digits port

theorem places_iff : Places host ↔ ∃ octets, hostOctets? (typeOf host) host = some octets := by
  unfold Places typeOf
  cases h : IpAddress.parse? host with
  | none => simp [hostOctets?, Utf8.size]
  | some ip =>
    cases ip with
    | v4 ip => simp [hostOctets?, IpAddress.parse?_v4 h]
    | v6 ip => simp [hostOctets?, IpAddress.parse?_v6 h]

theorem places_of_hostOctets? {type : AddressType} {octets : Bytes}
    (h : hostOctets? type host = some octets) : Places host := by
  cases type with
  | ipv4 =>
    obtain ⟨ip, hip, -⟩ := Option.map_eq_some_iff.1 h
    left
    simp [IpAddress.parse?, hip]
  | ipv6 =>
    obtain ⟨ip, hip, -⟩ := Option.map_eq_some_iff.1 h
    left
    cases hv4 : Ipv4.parse? host with
    | some ipv4 => simp [IpAddress.parse?, hv4]
    | none => simp [IpAddress.parse?, hv4, hip]
  | domain =>
    right
    obtain ⟨-, -, ⟨hl, -⟩, -⟩ := hostOctets?_eq_some_iff.1 h
    exact hl

theorem port_eq_ok_iff :
    a.port = .ok port ↔ ∃ host digits, HostPort.Forms a.text host digits ∧ Numbers digits port := by
  unfold Address.port
  constructor
  · intro h
    cases hp : a.parts with
    | error e =>
      rw [hp] at h
      cases h
    | ok parts =>
      rw [hp] at h
      exact ⟨parts.1, parts.2, parts_eq_ok_iff.1 hp, portNumber_eq_ok_iff.1 h⟩
  · rintro ⟨host, digits, hf, hn⟩
    rw [parts_eq_ok_iff.2 hf]
    exact portNumber_eq_ok_iff.2 hn

/-- A text that can be read as an address can be reported if its port is a number. -/
theorem reportable_iff_port (h : parse t = .ok a) :
    Reportable t ↔ ∃ port, a.port = .ok port := by
  obtain ⟨host, digits, octets, hsplit, rfl, ho⟩ := parse_eq_ok_iff.1 h
  have hplaces : Places host := places_iff.2 ⟨octets, ho⟩
  simp only [port_eq_ok_iff]
  constructor
  · rintro ⟨host', digits', port, hf, -, hn⟩
    exact ⟨port, host', digits', hf, hn⟩
  · rintro ⟨port, host', digits', hf, hn⟩
    rw [HostPort.Forms, ← HostPort.split?_eq_some_iff, hsplit] at hf
    cases hf
    exact ⟨host, digits, port, HostPort.split?_eq_some_iff.1 hsplit, hplaces, hn⟩

theorem Reportable.exists_parse (h : Reportable t) : ∃ a, parse t = .ok a := by
  obtain ⟨host, digits, -, hf, hplaces, -⟩ := h
  obtain ⟨octets, ho⟩ := places_iff.1 hplaces
  exact ⟨_, parse_eq_ok_iff.2 ⟨host, digits, octets, HostPort.split?_eq_some_iff.2 hf, rfl, ho⟩⟩

theorem reportable_of_record {record : Bytes} (h : a.record = .ok record) : Reportable a.text := by
  obtain ⟨host, digits, octets, port, hp, ho, hn, -⟩ := record_eq_ok_iff.1 h
  exact ⟨host, digits, port, parts_eq_ok_iff.1 hp, places_of_hostOctets? ho,
    portNumber_eq_ok_iff.1 hn⟩

theorem reportable_iff_encodeInto :
    Reportable t ↔ ∃ type buffer buffer' n,
      (Address.mk type t).encodeInto buffer = (buffer', .ok n) := by
  constructor
  · rintro ⟨host, digits, port, hf, hplaces, hn⟩
    obtain ⟨octets, ho⟩ := places_iff.1 hplaces
    have hrecord : (Address.mk (typeOf host) t).record = .ok _ := record_eq_ok_iff.2
      ⟨host, digits, octets, port, parts_eq_ok_iff.2 hf, ho, portNumber_eq_ok_iff.2 hn, rfl⟩
    exact ⟨typeOf host, _, _, _, encodeInto_of_record hrecord (Nat.le_refl _)⟩
  · rintro ⟨type, buffer, buffer', n, he⟩
    obtain ⟨record, hr, -⟩ := encodeInto_eq_ok_iff.1 he
    exact reportable_of_record hr

theorem port_ofSocketAddress (a : SocketAddress) : (ofSocketAddress a).port = .ok a.port := by
  unfold Address.port
  rw [parts_ofSocketAddress]
  exact portNumber_portText a.port

theorem text_of_parse (h : parse t = .ok a) : a.text = t := by
  obtain ⟨-, -, -, -, rfl, -⟩ := parse_eq_ok_iff.1 h
  rfl

/-- If a joined text is that of an address with a port, the port is the one it has been joined
with. -/
theorem port_of_join (h : parse (HostPort.join host port) = .ok a)
    (hp : ∃ number, a.port = .ok number) : a.port = .ok port := by
  obtain ⟨number, hnumber⟩ := hp
  obtain ⟨found, digits, hf, hn⟩ := port_eq_ok_iff.1 hnumber
  rw [text_of_parse h, HostPort.Forms, ← HostPort.split?_eq_some_iff,
    HostPort.split?_join_eq_some_iff] at hf
  obtain ⟨rfl, -, -⟩ := hf
  have hport := portNumber_eq_ok_iff.2 hn
  rw [portNumber_portText] at hport
  cases hport
  exact hnumber

end Address

namespace Configuration

open Address

variable {config : Configuration} {a : SocketAddress} {t : Text} {b : Address}

theorem usable?_eq_some_iff : usable? t = some b ↔ parse t = .ok b ∧ Reportable t := by
  unfold usable?
  cases hp : parse t with
  | error e => simp
  | ok b' =>
    simp only [Except.ok.injEq]
    rw [reportable_iff_port hp]
    cases hport : b'.port with
    | ok port => simp [Except.isOk, Except.toBool]
    | error e => simp [Except.isOk, Except.toBool]

theorem usable?_eq_none_iff : usable? t = none ↔ ¬ Reportable t := by
  rw [Option.eq_none_iff_forall_ne_some]
  constructor
  · intro h hr
    obtain ⟨b, hb⟩ := hr.exists_parse
    exact h b (usable?_eq_some_iff.2 ⟨hb, hr⟩)
  · intro h b hb
    exact h (usable?_eq_some_iff.1 hb).2

theorem boundAddress_of_reportable {announce : Announcement}
    (h : config.announcement = some announce) (hr : Reportable (announce a)) :
    parse (announce a) = .ok (config.boundAddress a) := by
  obtain ⟨b, hb⟩ := hr.exists_parse
  have hu := usable?_eq_some_iff.2 ⟨hb, hr⟩
  simp only [boundAddress, h, hu, Option.getD_some]
  exact hb

theorem boundAddress_of_not_reportable
    (h : ∀ announce, config.announcement = some announce → ¬ Reportable (announce a)) :
    config.boundAddress a = .ofSocketAddress a := by
  unfold boundAddress
  cases ha : config.announcement with
  | none => rfl
  | some announce =>
    have hu := usable?_eq_none_iff.2 (h announce ha)
    simp only [hu, Option.getD_none]

theorem exists_port_boundAddress (config : Configuration) (a : SocketAddress) :
    ∃ port, (config.boundAddress a).port = .ok port := by
  by_cases h : ∃ announce, config.announcement = some announce ∧ Reportable (announce a)
  · obtain ⟨announce, ha, hr⟩ := h
    exact (reportable_iff_port (boundAddress_of_reportable ha hr)).1 hr
  · have hkept := boundAddress_of_not_reportable fun announce ha hr => h ⟨announce, ha, hr⟩
    exact ⟨a.port, hkept ▸ port_ofSocketAddress a⟩

/-- What is reported as bound: the text for it if that can be reported, and else the address. Either
can be written, and no text is discarded that could be written with any type. -/
structure Reporting (config : Configuration) (a : SocketAddress) : Prop where
  replaced_iff : ∀ announce, config.announcement = some announce →
    (parse (announce a) = .ok (config.boundAddress a) ↔ Reportable (announce a))
  kept : (∀ announce, config.announcement = some announce → ¬ Reportable (announce a)) →
    config.boundAddress a = .ofSocketAddress a
  written : ∀ buffer : Bytes, 262 ≤ buffer.length → ∃ record,
    (config.boundAddress a).encodeInto buffer =
      (record ++ buffer.drop record.length, .ok record.length)
  strict : ∀ announce, config.announcement = some announce →
    (Reportable (announce a) ↔ ∃ type buffer buffer' n,
      (Address.mk type (announce a)).encodeInto buffer = (buffer', .ok n))

/-- Whatever an operator has reported, each address without a scope leads to one that is sent. -/
theorem reporting_of_not_scoped (config : Configuration) (h : ¬ a.Scoped) :
    config.Reporting a where
  replaced_iff announce ha := by
    refine ⟨fun hp => ?_, boundAddress_of_reportable ha⟩
    exact (reportable_iff_port hp).2 (exists_port_boundAddress config a)
  kept := boundAddress_of_not_reportable
  written buffer hl := by
    obtain ⟨record, hr⟩ := (exists_record_boundAddress_iff config a).2 fun hs => absurd hs h
    have hle := record_length_le hr
    rw [longestName] at hle
    exact ⟨record, encodeInto_of_record hr (by omega)⟩
  strict _ _ := reportable_iff_encodeInto

/-- Reports one port in a host of the operator's own, and the others in a text with no port. -/
def detour : Announcement := fun a =>
  if a.port = 80 then "[0:0::1]:0080".toList else "[0:0::1]:65536".toList

theorem reporting_detour :
    ¬ (SocketAddress.v4 ⟨127, 0, 0, 1⟩ 80).Scoped ∧ ¬ (SocketAddress.v4 ⟨127, 0, 0, 1⟩ 81).Scoped ∧
      Reporting (Settings.configuration { announcement := some detour }) (.v4 ⟨127, 0, 0, 1⟩ 80) ∧
      Reporting (Settings.configuration { announcement := some detour }) (.v4 ⟨127, 0, 0, 1⟩ 81) ∧
      (Settings.configuration { announcement := some detour }).boundAddress
        (.v4 ⟨127, 0, 0, 1⟩ 80) = ⟨.ipv6, "[0:0::1]:0080".toList⟩ ∧
      (Settings.configuration { announcement := some detour }).boundAddress
        (.v4 ⟨127, 0, 0, 1⟩ 81) = ⟨.ipv4, "127.0.0.1:81".toList⟩ :=
  ⟨id, id, reporting_of_not_scoped _ id, reporting_of_not_scoped _ id, by decide +kernel,
    by decide +kernel⟩

theorem usable?_join {host : Text} (ho : HostPort.Open host) (hp : Places host) (port : UInt16) :
    usable? (HostPort.join host port) = some ⟨typeOf host, HostPort.join host port⟩ := by
  have hsplit := HostPort.split?_join ho port
  obtain ⟨octets, hoctets⟩ := places_iff.1 hp
  have hparse : parse (HostPort.join host port) = .ok ⟨typeOf host, HostPort.join host port⟩ :=
    parse_eq_ok_iff.2 ⟨host, portText port, octets, hsplit, rfl, hoctets⟩
  have hn : Numbers (portText port) port := portNumber_eq_ok_iff.1 (portNumber_portText port)
  exact usable?_eq_some_iff.2
    ⟨hparse, host, portText port, port, HostPort.split?_eq_some_iff.1 hsplit, hp, hn⟩

/-- A host that an operator has reported does not change the port of the address, and stands before
it if it has no brackets and can stand in a record. -/
theorem port_kept_by_host (config : Configuration) (host : Text) (a : SocketAddress) :
    ({ config with announcement := some (.host host) }.boundAddress a).port = .ok a.port ∧
      (HostPort.Open host → Places host →
        { config with announcement := some (.host host) }.boundAddress a =
          ⟨typeOf host, HostPort.join host a.port⟩) := by
  simp only [boundAddress, Announcement.host]
  constructor
  · cases hu : usable? (HostPort.join host a.port) with
    | none => exact port_ofSocketAddress a
    | some b =>
      obtain ⟨hparse, hr⟩ := usable?_eq_some_iff.1 hu
      exact port_of_join hparse ((reportable_iff_port hparse).1 hr)
  · intro ho hp
    rw [usable?_join ho hp, Option.getD_some]

/-- A peer with a scope, for which a host with colons is reported and one in brackets is not. -/
theorem port_kept_for_peer :
    HostPort.Open "2001:db8::1".toList ∧ Places "2001:db8::1".toList ∧
      { Settings.configuration {} with
        announcement := some (.host "2001:db8::1".toList) }.boundAddress
          (.v6 ⟨[0xfe80, 0, 0, 0, 0, 0, 0, 1], rfl⟩ 4242 0 3) =
        ⟨.ipv6, "[2001:db8::1]:4242".toList⟩ ∧
      ({ Settings.configuration {} with
        announcement := some (.host "[a]:80".toList) }.boundAddress
          (.v6 ⟨[0xfe80, 0, 0, 0, 0, 0, 0, 1], rfl⟩ 4242 0 3)).port = .ok 4242 := by
  have ho : HostPort.Open "2001:db8::1".toList := HostPort.open_of_any_isBracket (by decide +kernel)
  have hp : Places "2001:db8::1".toList := .inl (by decide +kernel)
  have htype : typeOf "2001:db8::1".toList = .ipv6 := by decide +kernel
  have hkept := (port_kept_by_host (Settings.configuration {}) "2001:db8::1".toList
    (.v6 ⟨[0xfe80, 0, 0, 0, 0, 0, 0, 1], rfl⟩ 4242 0 3)).2 ho hp
  rw [htype] at hkept
  refine ⟨ho, hp, hkept.trans (by decide +kernel), ?_⟩
  exact (port_kept_by_host (Settings.configuration {}) "[a]:80".toList
    (.v6 ⟨[0xfe80, 0, 0, 0, 0, 0, 0, 1], rfl⟩ 4242 0 3)).1

end Configuration

end SocksProxy
