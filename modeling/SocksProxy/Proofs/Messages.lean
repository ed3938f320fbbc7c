import SocksProxy.Proofs.Readers

/-!
# The messages that readers accept

`Frame` relates each message of a client to its octets. The reader of a message takes its frames,
and besides only what it refuses: the first part of a message with a wrong version, and an address
of which the type is unknown or the name unreadable.
-/

namespace SocksProxy

open OctetStream

/-- The frames of a reader with its results, and what it refuses with its failures. -/
def OctetStream.Outcome {α : Type} (accepted : α → Bytes → Prop) (refused : Error → Bytes → Prop) :
    Except Error α → Bytes → Prop
  | .ok a, octets => accepted a octets
  | .error e, octets => refused e octets

/-- What begins with a frame does so in one way. -/
theorem OctetStream.Reads.frame_unique {α : Type} {x : Action interface α}
    {accepted : α → Bytes → Prop} {refused : Error → Bytes → Prop}
    (h : Reads x (Outcome accepted refused)) {a a' : α} {frame frame' rest rest' : Bytes}
    (ha : accepted a frame) (ha' : accepted a' frame') (he : frame ++ rest = frame' ++ rest') :
    frame = frame' ∧ rest = rest' := by
  have ht : Outcome accepted refused (.ok a) frame := ha
  have ht' : Outcome accepted refused (.ok a') frame' := ha'
  obtain ⟨-, rfl⟩ := h.prefixFree.unique ht ht' (List.prefix_append frame rest) ⟨rest', he.symm⟩
  exact ⟨rfl, List.append_cancel_left he⟩

/-- The first part of a message, with a version that is not that of the message. -/
inductive WrongVersion (version : UInt8) (count : Nat) (failure : UInt8 → Error) :
    Error → Bytes → Prop where
  | intro {other : UInt8} {fields : Bytes} (h : other ≠ version) (hl : fields.length = count) :
      WrongVersion version count failure (failure other) (other :: fields)

/-- The octets for the result of a reader that first receives a version with some fields. -/
def Versioned {α : Type} (version : UInt8) (count : Nat) (failure : UInt8 → Error)
    (next : Bytes → Except Error α → Bytes → Prop) (r : Except Error α) (octets : Bytes) : Prop :=
  (∃ e, WrongVersion version count failure e octets ∧ r = .error e) ∨
    ∃ fields rest, octets = version :: fields ++ rest ∧ fields.length = count ∧ next fields r rest

theorem reads_versioned {α : Type} {count : Nat} {version : UInt8} {failure : UInt8 → Error}
    {g : Bytes → Action OctetStream.interface α} {next : Bytes → Except Error α → Bytes → Prop}
    (hc : count + 1 ≤ scratchSize)
    (hg : ∀ fields, fields.length = count → Reads (g (version :: fields)) (next fields)) :
    Reads (receiveWithin scratchSize (count + 1) >>= fun head =>
      if head.getD 0 0 ≠ version then throw (failure (head.getD 0 0)) else g head)
      (Versioned version count failure next) := by
  have hreads : Reads (receiveWithin scratchSize (count + 1) >>= fun head =>
      if head.getD 0 0 ≠ version then throw (failure (head.getD 0 0)) else g head)
      fun r octets => ∃ head rest, octets = head ++ rest ∧ head.length = count + 1 ∧
        if head.getD 0 0 ≠ version then r = .error (failure (head.getD 0 0)) ∧ rest = []
        else next head.tail r rest := by
    apply reads_within_bind hc
    intro head hl
    apply reads_ite
    · exact fun _ => reads_throw _
    intro hv
    obtain ⟨first, fields, rfl⟩ := List.exists_cons_of_length_eq_add_one hl
    obtain rfl : first = version := Decidable.not_not.1 hv
    exact hg fields (Nat.succ.inj hl)
  apply hreads.congr
  intro r octets
  constructor
  · rintro ⟨head, rest, rfl, hl, h⟩
    obtain ⟨first, fields, rfl⟩ := List.exists_cons_of_length_eq_add_one hl
    have hfields : fields.length = count := Nat.succ.inj hl
    by_cases hv : first = version
    · subst hv
      exact .inr ⟨fields, rest, rfl, hfields, by simpa using h⟩
    · obtain ⟨rfl, rfl⟩ : r = .error (failure first) ∧ rest = [] := by simpa [hv] using h
      rw [List.append_nil]
      exact .inl ⟨_, .intro hv hfields, rfl⟩
  · rintro (⟨e, ⟨hv, hl⟩, rfl⟩ | ⟨fields, rest, rfl, hl, hn⟩)
    · exact ⟨_, [], (List.append_nil _).symm, by simpa using hl, by simp [hv]⟩
    · exact ⟨version :: fields, rest, rfl, by simpa using hl, by simpa using hn⟩

def Greeting.Frame (greeting : Greeting) (octets : Bytes) : Prop :=
  ∃ count : UInt8, count.toNat = greeting.methods.length ∧
    octets = protocolVersion :: count :: greeting.methods

def Credentials.Frame (credentials : Credentials) (octets : Bytes) : Prop :=
  ∃ first second : UInt8, first.toNat = credentials.username.length ∧
    second.toNat = credentials.password.length ∧
    octets = subnegotiationVersion :: first :: credentials.username ++
      second :: credentials.password

/-- The octets of a command request, whose third octet may be any. -/
def CommandRequest.Frame (request : CommandRequest) (octets : Bytes) : Prop :=
  ∃ code reserved record, octets = protocolVersion :: code :: reserved :: record ∧
    request.command = .ofCode code ∧
    Address.decode record = .ok (request.target, record.length)

theorem octet_le_scratchSize (n : UInt8) : n.toNat + 2 ≤ scratchSize := by
  have := n.toNat_lt
  simp only [scratchSize]
  omega

theorem octet_le_capacity (n : UInt8) : n.toNat ≤ scratchSize :=
  Nat.le_trans (Nat.le_add_right _ _) (octet_le_scratchSize n)

theorem Greeting.receive_reads : Reads (Greeting.receive scratchSize)
    (Outcome Greeting.Frame (WrongVersion protocolVersion 1 .invalidVersion)) := by
  have hreads : Reads (Greeting.receive scratchSize) (Versioned protocolVersion 1 .invalidVersion
      fun fields r octets => octets.length = (fields.getD 0 0).toNat ∧ r = .ok ⟨octets⟩) := by
    apply reads_versioned (by decide)
    intro fields hl
    exact reads_within_map (octet_le_capacity _)
  apply hreads.congr
  intro r octets
  constructor
  · rintro (⟨e, he, rfl⟩ | ⟨fields, methods, rfl, hl, hm, rfl⟩)
    · exact he
    · obtain ⟨count, rfl⟩ := List.length_eq_one_iff.1 hl
      exact ⟨count, hm.symm, rfl⟩
  · intro h
    cases r with
    | error e => exact .inl ⟨e, h, rfl⟩
    | ok greeting =>
      obtain ⟨count, hm, rfl⟩ := h
      exact .inr ⟨[count], greeting.methods, rfl, rfl, hm.symm, rfl⟩

theorem Credentials.receive_reads : Reads (Credentials.receive scratchSize)
    (Outcome Credentials.Frame
      (WrongVersion subnegotiationVersion 1 .invalidSubnegotiationVersion)) := by
  have hreads : Reads (Credentials.receive scratchSize) (Versioned subnegotiationVersion 1
      .invalidSubnegotiationVersion fun fields r octets => ∃ username after,
        octets = username ++ after ∧ username.length = (fields.getD 0 0).toNat ∧
          ∃ length password, after = length :: password ∧ password.length = length.toNat ∧
            r = .ok ⟨username, password⟩) := by
    apply reads_versioned (by decide)
    intro fields hl
    apply reads_within_bind (octet_le_capacity _)
    intro username hu
    apply reads_octet_bind
    intro length
    exact reads_within_map (octet_le_capacity length)
  apply hreads.congr
  intro r octets
  constructor
  · rintro (⟨e, he, rfl⟩ | ⟨fields, _, rfl, hl, username, _, rfl, hu, second, password, rfl, h⟩)
    · exact he
    · obtain ⟨hp, rfl⟩ := h
      obtain ⟨first, rfl⟩ := List.length_eq_one_iff.1 hl
      exact ⟨first, second, hu.symm, hp.symm, rfl⟩
  · intro h
    cases r with
    | error e => exact .inl ⟨e, h, rfl⟩
    | ok credentials =>
      obtain ⟨first, second, hu, hp, rfl⟩ := h
      exact .inr ⟨[first], _, rfl, rfl, credentials.username, _, rfl, hu.symm, second,
        credentials.password, rfl, hp.symm, rfl⟩

namespace Address

/-- The octets that give the length of a host, if its type does not. -/
def LengthOctets : AddressType → Nat → Bytes → Prop
  | .ipv4, length, octets => octets = [] ∧ length = 4
  | .ipv6, length, octets => octets = [] ∧ length = 16
  | .domain, length, octets => ∃ n : UInt8, octets = [n] ∧ length = n.toNat

theorem LengthOctets.le_scratchSize {type : AddressType} {length : Nat} {octets : Bytes}
    (h : LengthOctets type length octets) : length + 2 ≤ scratchSize := by
  cases type with
  | ipv4 =>
    obtain ⟨-, rfl⟩ := h
    decide
  | ipv6 =>
    obtain ⟨-, rfl⟩ := h
    decide
  | domain =>
    obtain ⟨n, -, rfl⟩ := h
    exact octet_le_scratchSize n

theorem decode_append {code : UInt8} {type : AddressType}
    (ht : AddressType.ofCode? code = some type) {lengthOctets input : Bytes} {length : Nat}
    (hl : LengthOctets type length lengthOctets) :
    decode (code :: lengthOctets ++ input) =
      if input.length < length + 2 then .error (.shortBuffer
        (lengthOctets.length + 1 + (length + 2)) (lengthOctets.length + 1 + input.length))
      else (ofBody type length input).map (·, lengthOctets.length + 1 + (length + 2)) := by
  have hhost (start required : Nat) (hs : start = lengthOctets.length + 1)
      (hr : required = start + (length + 2)) :
      decode.host (code :: lengthOctets ++ input) type start length =
        if input.length < length + 2 then .error (.shortBuffer required (start + input.length))
        else (ofBody type length input).map (·, required) := by
    have hlength : (code :: lengthOctets ++ input).length = start + input.length := by
      rw [List.length_append, List.length_cons, hs]
    have hdrop : (code :: lengthOctets ++ input).drop start = input := by
      rw [hs, List.cons_append, List.drop_succ_cons, List.drop_left]
    rw [decode.host, hlength, hdrop, Nat.add_assoc, ← hr]
    refine ite_congr (by simp [hr]) (fun _ => rfl) fun _ => ?_
    cases ofBody type length input <;> rfl
  cases type with
  | ipv4 =>
    obtain ⟨rfl, rfl⟩ := hl
    simp only [List.cons_append, decode, ht]
    exact hhost 1 _ rfl rfl
  | ipv6 =>
    obtain ⟨rfl, rfl⟩ := hl
    simp only [List.cons_append, decode, ht]
    exact hhost 1 _ rfl rfl
  | domain =>
    obtain ⟨n, rfl, rfl⟩ := hl
    simp only [List.cons_append, decode, ht]
    exact hhost 2 _ rfl rfl

theorem exists_lengthOctets (type : AddressType) (rest : Bytes) :
    (type = .domain ∧ rest = []) ∨ ∃ length lengthOctets body,
      rest = lengthOctets ++ body ∧ LengthOctets type length lengthOctets := by
  cases type with
  | ipv4 => exact .inr ⟨4, [], rest, rfl, rfl, rfl⟩
  | ipv6 => exact .inr ⟨16, [], rest, rfl, rfl, rfl⟩
  | domain =>
    cases rest with
    | nil => exact .inl ⟨rfl, rfl⟩
    | cons n body => exact .inr ⟨n.toNat, [n], body, rfl, n, rfl, rfl⟩

theorem decode_eq_ok_iff {buffer : Bytes} {a : Address} {used : Nat} :
    decode buffer = .ok (a, used) ↔ ∃ type length lengthOctets body,
      buffer = type.code :: lengthOctets ++ body ∧ LengthOctets type length lengthOctets ∧
        length + 2 ≤ body.length ∧ ofBody type length body = .ok a ∧
          used = lengthOctets.length + 1 + (length + 2) := by
  constructor
  · intro h
    cases buffer with
    | nil => cases h
    | cons code rest =>
      cases ht : AddressType.ofCode? code with
      | none =>
        simp only [decode, ht] at h
        cases h
      | some type =>
        obtain rfl := AddressType.code_of_ofCode? ht
        rcases exists_lengthOctets type rest with ⟨rfl, rfl⟩ | ⟨length, octets, body, rfl, hl⟩
        · simp only [decode, ht] at h
          cases h
        · rw [← List.cons_append, decode_append ht hl] at h
          by_cases hb : body.length < length + 2
          · rw [if_pos hb] at h
            cases h
          · rw [if_neg hb] at h
            cases ho : ofBody type length body with
            | error e =>
              rw [ho] at h
              cases h
            | ok b =>
              rw [ho] at h
              cases h
              exact ⟨type, length, octets, body, rfl, hl, Nat.not_lt.1 hb, ho, rfl⟩
  · rintro ⟨type, length, octets, body, rfl, hl, hb, ho, rfl⟩
    rw [decode_append (AddressType.ofCode?_code type) hl, if_neg (Nat.not_lt.2 hb), ho]
    rfl

theorem ofBody_take (type : AddressType) (length : Nat) (body : Bytes) :
    ofBody type length (body.take (length + 2)) = ofBody type length body := by
  have hhost : (body.take (length + 2)).take length = body.take length := by
    rw [List.take_take, Nat.min_eq_left (Nat.le_add_right length 2)]
  have hport (i : Nat) (h : i < length + 2) :
      (body.take (length + 2)).getD i 0 = body.getD i 0 := by
    simp only [List.getD_eq_getElem?_getD, List.getElem?_take_of_lt h]
  rw [ofBody, ofBody, hhost, hport length (by omega), hport (length + 1) (by omega)]

/-- The octets for the result of reading the rest of a record, the code of its type being known. -/
inductive Taken (code : UInt8) : Except Error Address → Bytes → Prop where
  | unsupported (h : AddressType.ofCode? code = none) :
      Taken code (.error (.addressTypeNotSupported code)) []
  | record {type : AddressType} {length : Nat} {lengthOctets body : Bytes}
      (ht : AddressType.ofCode? code = some type) (hl : LengthOctets type length lengthOctets)
      (hb : body.length = length + 2) : Taken code (ofBody type length body) (lengthOctets ++ body)

theorem hostLength_reads (type : AddressType) :
    Reads (receive.hostLength type) (Outcome (LengthOctets type) fun _ _ => False) := by
  cases type with
  | ipv4 =>
    apply (reads_pure 4).congr
    rintro (e | length) octets <;> simp [Outcome, LengthOctets, and_comm]
  | ipv6 =>
    apply (reads_pure 16).congr
    rintro (e | length) octets <;> simp [Outcome, LengthOctets, and_comm]
  | domain =>
    apply reads_octet.map.congr
    intro r octets
    constructor
    · rintro ⟨_, ⟨n, rfl, rfl⟩, rfl⟩
      exact ⟨n, rfl, rfl⟩
    · intro h
      cases r with
      | error e => exact h.elim
      | ok length =>
        obtain ⟨n, rfl, rfl⟩ := h
        exact ⟨.ok n, ⟨n, rfl, rfl⟩, rfl⟩

theorem receive_reads (code : UInt8) : Reads (receive scratchSize code) (Taken code) := by
  unfold receive
  cases ht : AddressType.ofCode? code with
  | none =>
    apply (reads_throw _).congr
    intro r octets
    constructor
    · rintro ⟨rfl, rfl⟩
      exact .unsupported ht
    · intro h
      cases h with
      | unsupported => exact ⟨rfl, rfl⟩
      | record ht' => simp [ht] at ht'
  | some type =>
    have hjoined : Reads (do
        let length ← receive.hostLength type
        let body ← receiveWithin scratchSize (length + 2)
        ExceptT.mk (.done (ofBody type length body)))
        (Joined (Outcome (LengthOctets type) fun _ _ => False) fun length r body =>
          body.length = length + 2 ∧ r = ofBody type length body) :=
      (hostLength_reads type).bind fun _ _ hl => reads_within_result hl.le_scratchSize
    apply hjoined.congr
    intro r octets
    constructor
    · rintro (⟨e, he, -⟩ | ⟨length, before, body, rfl, hl, hb, rfl⟩)
      · exact he.elim
      · exact .record ht hl hb
    · intro h
      cases h with
      | unsupported h => simp [ht] at h
      | record ht' hl hb =>
        rw [ht] at ht'
        cases ht'
        exact .inr ⟨_, _, _, rfl, hl, hb, rfl⟩

theorem Taken.decode_eq {code : UInt8} {r : Except Error Address} {octets : Bytes}
    (h : Taken code r octets) (rest : Bytes) :
    decode (code :: (octets ++ rest)) = r.map (·, octets.length + 1) := by
  cases h with
  | unsupported h =>
    simp only [decode, h]
    rfl
  | @record type length lengthOctets body ht hl hb =>
    have hlength : ¬ (body ++ rest).length < length + 2 := by
      rw [List.length_append]
      omega
    have hbody : ofBody type length (body ++ rest) = ofBody type length body := by
      rw [← ofBody_take, List.take_left' hb]
    rw [List.append_assoc, ← List.cons_append, decode_append ht hl, if_neg hlength, hbody]
    have hused : lengthOctets.length + 1 + (length + 2) = (lengthOctets ++ body).length + 1 := by
      rw [List.length_append]
      omega
    rw [hused]

theorem taken_of_decode {record : Bytes} {a : Address}
    (h : decode record = .ok (a, record.length)) :
    ∃ code octets, record = code :: octets ∧ Taken code (.ok a) octets := by
  obtain ⟨type, length, lengthOctets, body, rfl, hl, -, ha, hused⟩ := decode_eq_ok_iff.1 h
  have hb : body.length = length + 2 := by
    simp only [List.cons_append, List.length_cons, List.length_append] at hused
    omega
  exact ⟨type.code, lengthOctets ++ body, rfl, ha ▸ .record (AddressType.ofCode?_code type) hl hb⟩

end Address

def CommandRequest.Taken : Except Error CommandRequest → Bytes → Prop :=
  Versioned protocolVersion 3 .invalidVersion fun fields r octets =>
    ∃ r', Address.Taken (fields.getD 2 0) r' octets ∧
      r = r'.map fun target => ⟨.ofCode (fields.getD 0 0), target⟩

theorem CommandRequest.receive_reads :
    Reads (CommandRequest.receive scratchSize) CommandRequest.Taken := by
  apply reads_versioned (by decide)
  intro fields hl
  exact (Address.receive_reads _).map

theorem CommandRequest.Taken.frame {request : CommandRequest} {octets : Bytes}
    (h : Taken (.ok request) octets) : request.Frame octets := by
  rcases h with ⟨e, -, he⟩ | ⟨fields, rest, rfl, hl, r, ht, hr⟩
  · cases he
  · match fields, hl, r, hr with
    | [command, reserved, code], _, .ok target, hr =>
      cases hr
      have hdecode := ht.decode_eq []
      rw [List.append_nil] at hdecode
      exact ⟨command, reserved, code :: rest, rfl, rfl, hdecode⟩

theorem CommandRequest.Frame.taken {request : CommandRequest} {octets : Bytes}
    (h : request.Frame octets) : Taken (.ok request) octets := by
  obtain ⟨command, target⟩ := request
  obtain ⟨code, reserved, record, rfl, hc, hd⟩ := h
  obtain ⟨type, rest, rfl, ht⟩ := Address.taken_of_decode hd
  obtain rfl : command = .ofCode code := hc
  exact .inr ⟨[code, reserved, type], rest, rfl, rfl, .ok target, ht, rfl⟩

end SocksProxy
