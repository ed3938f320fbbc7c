import SocksProxy.Ipv6Reading
import SocksProxy.Configuration
import SocksProxy.Proofs.SentReplies

/-!
# Hosts and ports in the texts of addresses

A text that is read as an IP address consists of hexadecimal digits, points and colons. So the
text of an IP address holds no bracket, and a host that shows a scope is read as no address. The
text of a socket address is cut into that of its IP address and that of its port, and therefore
has a record unless it shows a scope.
-/

namespace SocksProxy

theorem exists_mem_fields {separator c : Char} {t : Text} (h : c ∈ t) (hs : c ≠ separator) :
    ∃ part ∈ fields separator t, c ∈ part := by
  induction t with
  | nil => cases h
  | cons d rest ih =>
    have hrest : c ∈ rest → ∃ part ∈ fields separator (d :: rest), c ∈ part := by
      intro hc
      obtain ⟨part, hp, hm⟩ := ih hc
      simp only [fields]
      split
      · exact ⟨part, List.mem_cons_of_mem _ hp, hm⟩
      · cases hf : fields separator rest with
        | nil => simp [hf] at hp
        | cons q qs =>
          rw [hf] at hp
          rcases List.mem_cons.1 hp with rfl | hp
          · exact ⟨d :: part, List.mem_cons_self .., List.mem_cons_of_mem _ hm⟩
          · exact ⟨part, List.mem_cons_of_mem _ hp, hm⟩
    rcases List.mem_cons.1 h with rfl | hc
    · simp only [fields, if_neg hs]
      cases fields separator rest with
      | nil => exact ⟨[c], by simp, by simp⟩
      | cons q qs => exact ⟨c :: q, by simp, by simp⟩
    · exact hrest hc

theorem exists_of_mapM_eq_some {α β : Type} {f : α → Option β} {as : List α} {bs : List β}
    (h : as.mapM f = some bs) {a : α} (ha : a ∈ as) : ∃ b, f a = some b := by
  induction as generalizing bs with
  | nil => cases ha
  | cons a' as ih =>
    rw [List.mapM_cons] at h
    obtain ⟨b, hb, h⟩ := Option.bind_eq_some_iff.1 h
    obtain ⟨bs', hbs, -⟩ := Option.bind_eq_some_iff.1 h
    rcases List.mem_cons.1 ha with rfl | ha
    · exact ⟨b, hb⟩
    · exact ih hbs ha

def isIpChar (c : Char) : Bool := (Hex.value? c).isSome || c == ':' || c == '.'

theorem isIpChar_of_isDigit {c : Char} (h : c.isDigit = true) : isIpChar c = true := by
  simp [isIpChar, Hex.value?, h]

theorem Decimal.isDigit_of_parse? {bound n : Nat} {t : Text} (h : parse? bound t = some n)
    {c : Char} (hc : c ∈ t) : c.isDigit = true := by
  unfold parse? at h
  split at h
  case isTrue hd =>
    simp only [Bool.and_eq_true, List.all_eq_true] at hd
    exact hd.1.2 c hc
  case isFalse => cases h

theorem Ipv4.isDigit_of_parse? {t : Text} {ip : Ipv4} (h : parse? t = some ip) {c : Char}
    (hc : c ∈ t) (hp : c ≠ '.') : c.isDigit = true := by
  obtain ⟨part, hm, hcp⟩ := exists_mem_fields hc hp
  unfold parse? at h
  split at h
  case h_2 => cases h
  case h_1 ho =>
    obtain ⟨o, ho⟩ := exists_of_mapM_eq_some ho hm
    unfold octet? at ho
    split at ho
    case h_1 n hn => exact Decimal.isDigit_of_parse? hn hcp
    case h_2 => cases ho

theorem Ipv4.isIpChar_of_parse? {t : Text} {ip : Ipv4} (h : parse? t = some ip) {c : Char}
    (hc : c ∈ t) : isIpChar c = true := by
  by_cases hp : c = '.'
  · subst hp
    rfl
  · exact isIpChar_of_isDigit (isDigit_of_parse? h hc hp)

namespace Ipv6

theorem isIpChar_of_group? {t : Text} {w : UInt16} (h : group? t = some w) {c : Char}
    (hc : c ∈ t) : isIpChar c = true := by
  obtain ⟨n, hn, -⟩ := Option.map_eq_some_iff.1 h
  unfold Hex.parse? at hn
  split at hn
  case isTrue => cases hn
  case isFalse =>
    obtain ⟨digits, hd, -⟩ := Option.map_eq_some_iff.1 hn
    obtain ⟨d, hd⟩ := exists_of_mapM_eq_some hd hc
    simp [isIpChar, hd]

theorem isIpChar_of_groups? {parts : List Text} {ws : List UInt16} (h : groups? parts = some ws)
    {part : Text} (hp : part ∈ parts) {c : Char} (hc : c ∈ part) : isIpChar c = true := by
  fun_induction groups? parts generalizing ws with
  | case1 => cases hp
  | case2 last ipv4 hl =>
    obtain rfl := List.mem_singleton.1 hp
    exact Ipv4.isIpChar_of_parse? hl hc
  | case3 last hl =>
    obtain rfl := List.mem_singleton.1 hp
    obtain ⟨w, hw, -⟩ := Option.map_eq_some_iff.1 h
    exact isIpChar_of_group? hw hc
  | case4 g gs hgs ih =>
    obtain ⟨w, hw, h⟩ := Option.bind_eq_some_iff.1 h
    obtain ⟨ws', hws, -⟩ := Option.bind_eq_some_iff.1 h
    rcases List.mem_cons.1 hp with rfl | hp
    · exact isIpChar_of_group? hw hc
    · exact ih hws hp

theorem eq_of_cutGap {t before after : Text} (h : cutGap t = some (before, after)) :
    t = before ++ ':' :: ':' :: after := by
  fun_induction cutGap t generalizing before with
  | case1 => cases h
  | case2 rest =>
    cases h
    rfl
  | case3 c rest hn ih =>
    obtain ⟨⟨before', after'⟩, hp, he⟩ := Option.map_eq_some_iff.1 h
    cases he
    rw [ih hp]
    rfl

theorem exists_mem_groupFields {c : Char} {t : Text} (h : c ∈ t) (hs : c ≠ ':') :
    ∃ part ∈ groupFields t, c ∈ part := by
  have ht : t.isEmpty = false := by
    cases t with
    | nil => cases h
    | cons d rest => rfl
  rw [groupFields, ht]
  exact exists_mem_fields h hs

theorem isIpChar_of_parse? {t : Text} {ip : Ipv6} (h : parse? t = some ip) {c : Char}
    (hc : c ∈ t) : isIpChar c = true := by
  by_cases hs : c = ':'
  · subst hs
    rfl
  unfold parse? at h
  split at h
  case h_1 =>
    obtain ⟨ws, hw, -⟩ := Option.bind_eq_some_iff.1 h
    obtain ⟨part, hp, hm⟩ := exists_mem_groupFields hc hs
    exact isIpChar_of_groups? hw hp hm
  case h_2 before after hg =>
    obtain ⟨head, hh, h⟩ := Option.bind_eq_some_iff.1 h
    obtain ⟨tail, ht, -⟩ := Option.bind_eq_some_iff.1 h
    rw [eq_of_cutGap hg] at hc
    simp only [List.mem_append, List.mem_cons, hs, false_or] at hc
    rcases hc with hc | hc
    · obtain ⟨part, hp, hm⟩ := exists_mem_groupFields hc hs
      obtain ⟨w, hw⟩ := exists_of_mapM_eq_some hh hp
      exact isIpChar_of_group? hw hm
    · obtain ⟨part, hp, hm⟩ := exists_mem_groupFields hc hs
      exact isIpChar_of_groups? ht hp hm

end Ipv6

theorem IpAddress.parse?_v4 {host : Text} {ip : Ipv4} (h : parse? host = some (.v4 ip)) :
    Ipv4.parse? host = some ip := by
  unfold parse? at h
  split at h
  case h_1 ip' hip =>
    cases h
    exact hip
  case h_2 =>
    obtain ⟨ip', -, he⟩ := Option.map_eq_some_iff.1 h
    cases he

theorem IpAddress.parse?_v6 {host : Text} {ip : Ipv6} (h : parse? host = some (.v6 ip)) :
    Ipv6.parse? host = some ip := by
  unfold parse? at h
  split at h
  case h_1 => cases h
  case h_2 =>
    obtain ⟨ip', hip, he⟩ := Option.map_eq_some_iff.1 h
    cases he
    exact hip

namespace HostPort

abbrev Open (t : Text) : Prop := ∀ c ∈ t, isBracket c = false

theorem any_isBracket {t : Text} (h : Open t) : t.any isBracket = false := by
  simpa using h

theorem open_of_isIpChar {t : Text} (h : ∀ c ∈ t, isIpChar c = true) : Open t := by
  intro c hc
  cases hb : isBracket c with
  | false => rfl
  | true =>
    simp only [isBracket, Bool.or_eq_true, beq_iff_eq] at hb
    rcases hb with rfl | rfl
    · exact absurd (h _ hc) (by decide)
    · exact absurd (h _ hc) (by decide)

theorem open_portText (port : UInt16) : Open (portText port) :=
  open_of_isIpChar fun _ hc => isIpChar_of_isDigit (Decimal.isDigit_of_mem_text hc)

theorem colon_not_mem_portText (port : UInt16) : ':' ∉ portText port := fun h =>
  absurd (Decimal.isDigit_of_mem_text h) (by decide)

theorem split?_of_cutHost {t host port : Text} (h : cutHost t = some (host, port))
    (hh : Open host) (hp : Open port) (hc : ':' ∉ port) : split? t = some (host, port) := by
  simp [split?, h, any_isBracket hh, any_isBracket hp, hc]

theorem split?_plain {host port : Text} (hh : Open host) (hn : ':' ∉ host) (hp : Open port)
    (hc : ':' ∉ port) : split? (host ++ ':' :: port) = some (host, port) := by
  refine split?_of_cutHost ?_ hh hp hc
  have hcut : cut ':' (host ++ ':' :: port) = some (host, port) := cut_eq_some_iff.2 ⟨rfl, hn⟩
  cases host with
  | nil => exact hcut
  | cons c host =>
    have hb : c ≠ '[' := by
      rintro rfl
      exact absurd (hh '[' (List.mem_cons_self ..)) (by decide)
    unfold cutHost
    split
    case h_1 rest he => exact absurd (List.cons.inj he).1 hb
    case h_2 => exact hcut

theorem split?_bracketed {host port : Text} (hh : Open host) (hp : Open port) (hc : ':' ∉ port) :
    split? ('[' :: host ++ ']' :: ':' :: port) = some (host, port) := by
  refine split?_of_cutHost ?_ hh hp hc
  have hn : ']' ∉ host := fun h => absurd (hh ']' h) (by decide)
  have hcut : cut ']' (host ++ ']' :: ':' :: port) = some (host, ':' :: port) :=
    cut_eq_some_iff.2 ⟨rfl, hn⟩
  simp [cutHost, hcut]

end HostPort

namespace SocketAddress

/-- The host that the text of a socket address shows, with its scope if there is one. -/
def hostText : SocketAddress → Text
  | .v4 ip _ => ip.text
  | .v6 ip _ _ scope => ip.text ++ if scope = 0 then [] else '%' :: Decimal.text scope.toNat

def Scoped : SocketAddress → Prop
  | .v4 .. => False
  | .v6 _ _ _ scope => scope ≠ 0

theorem open_hostText (a : SocketAddress) : HostPort.Open a.hostText := by
  cases a with
  | v4 ip port =>
    exact HostPort.open_of_isIpChar fun _ hc => Ipv4.isIpChar_of_parse? (Ipv4.parse?_text ip) hc
  | v6 ip port flow scope =>
    intro c hc
    rcases List.mem_append.1 hc with hc | hc
    · exact HostPort.open_of_isIpChar
        (fun _ hc => Ipv6.isIpChar_of_parse? (Ipv6.parse?_text ip) hc) c hc
    · split at hc
      · cases hc
      · rcases List.mem_cons.1 hc with rfl | hc
        · rfl
        · exact HostPort.open_of_isIpChar
            (fun _ hc => isIpChar_of_isDigit (Decimal.isDigit_of_mem_text hc)) c hc

theorem split?_text (a : SocketAddress) :
    HostPort.split? a.text = some (a.hostText, portText a.port) := by
  have hh := a.open_hostText
  have hp := HostPort.open_portText a.port
  have hc := HostPort.colon_not_mem_portText a.port
  cases a with
  | v4 ip port => exact HostPort.split?_plain hh (Ipv6.colon_not_mem_ipv4 ip) hp hc
  | v6 ip port flow scope => exact HostPort.split?_bracketed hh hp hc

theorem parse?_hostText_of_scoped {ip : Ipv6} {port : UInt16} {flow scope : UInt32}
    (h : scope ≠ 0) : Ipv6.parse? (hostText (.v6 ip port flow scope)) = none := by
  cases hp : Ipv6.parse? (hostText (.v6 ip port flow scope)) with
  | none => rfl
  | some ip' =>
    have hm : '%' ∈ hostText (.v6 ip port flow scope) := by simp [hostText, h]
    exact absurd (Ipv6.isIpChar_of_parse? hp hm) (by decide)

end SocketAddress

namespace Address

theorem parts_ofSocketAddress (a : SocketAddress) :
    (ofSocketAddress a).parts = .ok (a.hostText, portText a.port) := by
  have ht : (ofSocketAddress a).text = a.text := by cases a <;> rfl
  rw [parts, ht, a.split?_text]

theorem portNumber_portText (port : UInt16) : portNumber (portText port) = .ok port := by
  rw [portNumber, parsePort?_portText]

def typeOf (host : Text) : AddressType :=
  match IpAddress.parse? host with
  | some (.v4 _) => .ipv4
  | some (.v6 _) => .ipv6
  | none => .domain

/-- The texts that are addresses: those with a host that can be written on the wire. -/
theorem parse_eq_ok_iff {t : Text} {a : Address} :
    parse t = .ok a ↔ ∃ host port octets, HostPort.split? t = some (host, port) ∧
      a = ⟨typeOf host, t⟩ ∧ hostOctets? (typeOf host) host = some octets := by
  unfold parse
  cases hs : HostPort.split? t with
  | none => simp
  | some parts =>
    obtain ⟨host, port⟩ := parts
    simp only [Option.some.injEq, Prod.mk.injEq, and_assoc, exists_and_left, exists_eq_left']
    unfold typeOf
    cases hip : IpAddress.parse? host with
    | some ip =>
      cases ip with
      | v4 ip => simp [hostOctets?, IpAddress.parse?_v4 hip, eq_comm]
      | v6 ip => simp [hostOctets?, IpAddress.parse?_v6 hip, eq_comm]
    | none =>
      by_cases hl : Utf8.size host ≤ longestName
      · have hl' : (Utf8.encode host).length ≤ longestName := hl
        simp [hostOctets?, hl, hl', eq_comm]
      · have hl' : ¬ (Utf8.encode host).length ≤ longestName := hl
        simp [hostOctets?, hl, hl']

theorem exists_record {a : Address} {host portText : Text} {octets : Bytes}
    (hp : a.parts = .ok (host, portText)) (hport : a.port.isOk = true)
    (ho : hostOctets? a.type host = some octets) : ∃ record, a.record = .ok record := by
  simp only [port, hp, bind, Except.bind] at hport
  cases hn : portNumber portText with
  | ok number => exact ⟨_, record_eq_ok_iff.2 ⟨host, portText, octets, number, hp, ho, hn, rfl⟩⟩
  | error e =>
    rw [hn] at hport
    cases hport

/-- A socket address has a record unless it shows a scope. -/
theorem exists_record_ofSocketAddress_iff (a : SocketAddress) :
    (∃ record, (ofSocketAddress a).record = .ok record) ↔ ¬ a.Scoped := by
  constructor
  · rintro ⟨record, h⟩ hs
    obtain ⟨host, port, octets, number, hp, ho, -, -⟩ := record_eq_ok_iff.1 h
    rw [parts_ofSocketAddress] at hp
    cases hp
    cases a with
    | v4 ip port => exact hs
    | v6 ip port flow scope =>
      obtain ⟨ip', hip, -⟩ := Option.map_eq_some_iff.1 ho
      rw [SocketAddress.parse?_hostText_of_scoped hs] at hip
      cases hip
  · intro hs
    have hp := parts_ofSocketAddress a
    have hport : (ofSocketAddress a).port.isOk = true := by
      simp only [port, hp, bind, Except.bind, portNumber_portText]
      rfl
    cases a with
    | v4 ip port =>
      have ho : hostOctets? .ipv4 ip.text = some ip.octets := by simp [hostOctets?]
      exact exists_record hp hport ho
    | v6 ip port flow scope =>
      have h0 : scope = 0 := Decidable.not_not.1 hs
      subst h0
      have ho : hostOctets? .ipv6 (ip.text ++ []) = some ip.octets := by simp [hostOctets?]
      exact exists_record hp hport ho

end Address

namespace Configuration

theorem exists_record_of_usable? {t : Text} {a : Address} (h : usable? t = some a) :
    ∃ record, a.record = .ok record := by
  unfold usable? at h
  split at h
  case h_1 => cases h
  case h_2 b hb =>
    split at h
    case isFalse => cases h
    case isTrue hport =>
      cases h
      obtain ⟨host, portText, octets, hsplit, rfl, ho⟩ := Address.parse_eq_ok_iff.1 hb
      have hparts : (Address.mk (Address.typeOf host) t).parts = .ok (host, portText) := by
        rw [Address.parts, hsplit]
      exact Address.exists_record hparts hport ho

/-- Whether the address bound on behalf of a client can be reported to it: it shows no scope, or
is replaced. -/
def Reports (config : Configuration) (a : SocketAddress) : Prop :=
  a.Scoped → ∃ announce, config.announcement = some announce ∧ (usable? (announce a)).isSome = true

theorem exists_record_boundAddress_iff (config : Configuration) (a : SocketAddress) :
    (∃ record, (config.boundAddress a).record = .ok record) ↔ config.Reports a := by
  have hself := Address.exists_record_ofSocketAddress_iff a
  unfold boundAddress Reports
  cases ha : config.announcement with
  | none => simpa using hself
  | some announce =>
    cases hu : usable? (announce a) with
    | none => simpa [hu] using hself
    | some b => simpa [hu] using exists_record_of_usable? hu

end Configuration

end SocksProxy
