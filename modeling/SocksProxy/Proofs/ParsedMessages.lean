import SocksProxy.Proofs.Messages

/-!
# What readers make of an input

Of the octets that have come a parser makes a result and leaves the rest, or it refuses them, or
they are too few. It decides what a reader takes if it comes to the same results with the same
octets. The parts in which the octets come do not matter to it.
-/

namespace SocksProxy

open OctetStream

/-- What a reader makes of an input: nothing if the input is too short, else a failure, or a result
with the rest of the input. -/
abbrev Parse (α : Type) := Bytes → Option (Except Error (α × Bytes))

namespace Parse

variable {α β : Type}

def result (r : Except Error α) : Parse α := fun input => some (r.map (·, input))

def bind (parse : Parse α) (f : α → Parse β) : Parse β := fun input =>
  match parse input with
  | none => none
  | some (.error e) => some (.error e)
  | some (.ok (a, rest)) => f a rest

structure Decides (parse : Parse α) (taken : Except Error α → Bytes → Prop) : Prop where
  whole : ∀ {r octets} rest, taken r octets → parse (octets ++ rest) = some (r.map (·, rest))
  short : ∀ {input}, Unsettled taken input → parse input = none

end Parse

def Greeting.parse? : Parse Greeting
  | version :: count :: rest =>
    if version ≠ protocolVersion then some (.error (.invalidVersion version))
    else if count.toNat ≤ rest.length then
      some (.ok (⟨rest.take count.toNat⟩, rest.drop count.toNat))
    else none
  | _ => none

def Credentials.parse? : Parse Credentials
  | version :: count :: rest =>
    if version ≠ subnegotiationVersion then some (.error (.invalidSubnegotiationVersion version))
    else match rest.drop count.toNat with
      | [] => none
      | length :: more =>
        if length.toNat ≤ more.length then
          some (.ok (⟨rest.take count.toNat, more.take length.toNat⟩, more.drop length.toNat))
        else none
  | _ => none

def Address.hostLength? : AddressType → Bytes → Option (Nat × Bytes)
  | .ipv4, input => some (4, input)
  | .ipv6, input => some (16, input)
  | .domain, [] => none
  | .domain, length :: input => some (length.toNat, input)

/-- The address whose record follows the code of its type. A name is refused only when all of the
record has come. -/
def Address.parse? (code : UInt8) : Parse Address := fun input =>
  match AddressType.ofCode? code with
  | none => some (.error (.addressTypeNotSupported code))
  | some type =>
    match hostLength? type input with
    | none => none
    | some (length, body) =>
      if length + 2 ≤ body.length then
        some ((ofBody type length body).map (·, body.drop (length + 2)))
      else none

/-- The request of a client. Its version and the type of its address decide before the rest has
come. -/
def CommandRequest.parse? : Parse CommandRequest
  | version :: command :: _ :: type :: rest =>
    if version ≠ protocolVersion then some (.error (.invalidVersion version))
    else (Address.parse? type).bind
      (fun target => Parse.result (.ok ⟨.ofCode command, target⟩)) rest
  | _ => none

/-- A wrong version is refused with the first part of a message. -/
theorem eq_version_of_unsettled {α : Type} {taken : Except Error α → Bytes → Prop}
    {version other : UInt8} (fields : Bytes) {rest : Bytes} {failure : UInt8 → Error}
    (ht : ∀ e frame, WrongVersion version fields.length failure e frame → taken (.error e) frame)
    (h : Unsettled taken (other :: fields ++ rest)) : other = version := by
  by_cases hv : other = version
  · exact hv
  · exact absurd (List.prefix_append _ rest) (h _ _ (ht _ _ (.intro hv rfl)))

theorem Greeting.parse?_decides : Parse.Decides Greeting.parse?
    (Outcome Greeting.Frame (WrongVersion protocolVersion 1 .invalidVersion)) := by
  constructor
  · rintro (e | greeting) octets rest h
    · obtain ⟨hv, hl⟩ := h
      obtain ⟨count, rfl⟩ := List.length_eq_one_iff.1 hl
      simp [Greeting.parse?, hv, Except.map]
    · obtain ⟨count, hl, rfl⟩ := h
      simp [Greeting.parse?, hl, Except.map]
  · intro input h
    match input, h with
    | [], _ => rfl
    | [_], _ => rfl
    | version :: count :: rest, h =>
      obtain rfl : version = protocolVersion :=
        eq_version_of_unsettled [count] (fun _ _ hw => hw) h
      have hl : ¬ count.toNat ≤ rest.length := by
        intro hl
        refine h (.ok ⟨rest.take count.toNat⟩) (protocolVersion :: count :: rest.take count.toNat)
          ⟨count, (List.length_take_of_le hl).symm, rfl⟩ ?_
        simpa using List.take_prefix count.toNat rest
      simp [Greeting.parse?, hl]

theorem Credentials.parse?_decides : Parse.Decides Credentials.parse?
    (Outcome Credentials.Frame
      (WrongVersion subnegotiationVersion 1 .invalidSubnegotiationVersion)) := by
  constructor
  · rintro (e | credentials) octets rest h
    · obtain ⟨hv, hl⟩ := h
      obtain ⟨count, rfl⟩ := List.length_eq_one_iff.1 hl
      simp [Credentials.parse?, hv, Except.map]
    · obtain ⟨first, second, hu, hp, rfl⟩ := h
      simp [Credentials.parse?, hu, hp, Except.map]
  · intro input h
    match input, h with
    | [], _ => rfl
    | [_], _ => rfl
    | version :: count :: rest, h =>
      obtain rfl : version = subnegotiationVersion :=
        eq_version_of_unsettled [count] (fun _ _ hw => hw) h
      cases hrest : rest.drop count.toNat with
      | nil => simp [Credentials.parse?, hrest]
      | cons length more =>
        have hl : ¬ length.toNat ≤ more.length := by
          intro hl
          have hu : (rest.take count.toNat).length = count.toNat := by
            have hpos := congrArg List.length hrest
            rw [List.length_drop, List.length_cons] at hpos
            exact List.length_take_of_le (by omega)
          refine h (.ok ⟨rest.take count.toNat, more.take length.toNat⟩) _
            ⟨count, length, hu.symm, (List.length_take_of_le hl).symm, rfl⟩ ?_
          rw [← List.take_append_drop count.toNat rest, hrest]
          simpa [hu] using List.take_prefix length.toNat more
        simp [Credentials.parse?, hrest, hl]

namespace Address

theorem hostLength?_append {type : AddressType} {length : Nat} {lengthOctets : Bytes}
    (h : LengthOctets type length lengthOctets) (input : Bytes) :
    hostLength? type (lengthOctets ++ input) = some (length, input) := by
  cases type with
  | ipv4 =>
    obtain ⟨rfl, rfl⟩ := h
    rfl
  | ipv6 =>
    obtain ⟨rfl, rfl⟩ := h
    rfl
  | domain =>
    obtain ⟨n, rfl, rfl⟩ := h
    rfl

theorem parse?_decides (code : UInt8) : Parse.Decides (parse? code) (Taken code) := by
  constructor
  · intro r octets rest h
    cases h with
    | unsupported h => simp [parse?, h, Except.map]
    | record ht hl hb =>
      simp only [parse?, ht, List.append_assoc, hostLength?_append hl]
      rw [if_pos (by rw [List.length_append]; omega), ← ofBody_take, List.take_left' hb,
        List.drop_left' hb]
  · intro input h
    unfold parse?
    cases ht : AddressType.ofCode? code with
    | none => exact absurd List.nil_prefix (h _ [] (.unsupported ht))
    | some type =>
      rcases exists_lengthOctets type input with ⟨rfl, rfl⟩ | ⟨length, octets, body, rfl, hl⟩
      · rfl
      · simp only [hostLength?_append hl]
        refine if_neg fun hb => h _ (octets ++ body.take (length + 2))
          (.record ht hl (List.length_take_of_le hb)) ?_
        exact (List.prefix_append_right_inj octets).2 (List.take_prefix _ body)

end Address

theorem CommandRequest.parse?_decides :
    Parse.Decides CommandRequest.parse? CommandRequest.Taken := by
  constructor
  · rintro r octets rest (⟨e, hw, rfl⟩ | ⟨fields, record, rfl, hl, r', ht, rfl⟩)
    · cases hw with
      | @intro other fields hv hl =>
        match fields, hl with
        | [command, reserved, type], _ => simp [CommandRequest.parse?, hv, Except.map]
    · match fields, hl with
      | [command, reserved, type], _ =>
        have hparse := (Address.parse?_decides type).whole rest ht
        cases r' <;> simp_all [CommandRequest.parse?, Parse.bind, Parse.result, Except.map]
  · intro input h
    match input, h with
    | [], _ => rfl
    | [_], _ => rfl
    | [_, _], _ => rfl
    | [_, _, _], _ => rfl
    | version :: command :: reserved :: type :: rest, h =>
      obtain rfl : version = protocolVersion :=
        eq_version_of_unsettled [command, reserved, type] (fun e _ hw => .inl ⟨e, hw, rfl⟩) h
      have hrest : Unsettled (Address.Taken type) rest := by
        intro r frame ht hp
        refine h _ (protocolVersion :: command :: reserved :: type :: frame)
          (.inr ⟨[command, reserved, type], frame, rfl, rfl, r, ht, rfl⟩) ?_
        simpa using hp
      simp [CommandRequest.parse?, Parse.bind, (Address.parse?_decides type).short hrest]

end SocksProxy
