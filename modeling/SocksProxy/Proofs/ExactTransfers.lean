import SocksProxy.Proofs.Transcript

/-!
# Receiving and sending exactly

What is received exactly has come from the stream octet for octet, and no more has been taken
than was asked for; what is sent exactly has been taken from its first octet on. A transfer that
fails does so at its last exchange, for the reason that this exchange gives.
-/

namespace SocksProxy.OctetStream

open SocksProxy.Action

/-- An exchange that ends a transfer, and the failure that it ends in. -/
def Fails : Exchange interface → Error → Prop
  | ⟨.receive _, .ok octets⟩, e => octets.val = [] ∧ e = .io (.raised .unexpectedEof)
  | ⟨.receive _, .error failure⟩, e => e = .io failure
  | ⟨.send _, .ok taken⟩, e => taken.val = 0 ∧ e = .io (.raised .writeZero)
  | ⟨.send _, .error failure⟩, e => e = .io failure

def Breaks (es : List (Exchange interface)) (e : Error) : Prop :=
  ∃ before last, es = before ++ [last] ∧ Flowing before ∧ Fails last e

theorem not_flows_of_fails {last : Exchange interface} {e : Error} (h : Fails last e) :
    ¬ Flows last := by
  obtain ⟨q, answer⟩ := last
  cases q <;> cases answer <;> simp_all [Fails, Flows]

theorem Breaks.not_flowing {es : List (Exchange interface)} {e : Error} (h : Breaks es e) :
    ¬ Flowing es := by
  obtain ⟨before, last, rfl, -, hl⟩ := h
  exact fun hf => not_flows_of_fails hl (hf last (by simp [Interface.Streamed.stream?]))

theorem accepting_cons_iff {e : Exchange interface} {es : List (Exchange interface)} :
    Accepting (e :: es) ↔ Accepted e ∧ Accepting es := by
  simp [Accepting, Interface.Streamed.stream?]

@[simp] theorem flowing_nil : Flowing ([] : List (Exchange interface)) := by
  simp [Flowing]

@[simp] theorem flowing_cons_iff {e : Exchange interface} {es : List (Exchange interface)} :
    Flowing (e :: es) ↔ Flows e ∧ Flowing es := by
  simp [Flowing, Interface.Streamed.stream?]

theorem Breaks.cons {d : Exchange interface} {es : List (Exchange interface)} {e : Error}
    (hd : Flows d) (h : Breaks es e) : Breaks (d :: es) e := by
  obtain ⟨before, last, rfl, hb, hl⟩ := h
  exact ⟨d :: before, last, rfl, flowing_cons_iff.2 ⟨hd, hb⟩, hl⟩

theorem breaks_singleton {last : Exchange interface} {e : Error} (h : Fails last e) :
    Breaks [last] e := ⟨[], last, rfl, flowing_nil, h⟩

theorem received_cons_eq (e : Exchange interface) (es : List (Exchange interface)) :
    received (e :: es) = octetsIn e ++ received es := rfl

theorem sent_cons_eq (e : Exchange interface) (es : List (Exchange interface)) :
    sent (e :: es) = octetsOut e ++ sent es := rfl

def Receiving (count : Nat) (es : List (Exchange interface)) (q : Request) : Prop :=
  Flowing es ∧ sent es = [] ∧ (received es).length < count ∧
    q = .receive (count - (received es).length)

def Received (count : Nat) (es : List (Exchange interface)) : Except Error Bytes → Prop
  | .ok octets => Flowing es ∧ sent es = [] ∧ received es = octets ∧ octets.length = count
  | .error e => Breaks es e ∧ sent es = [] ∧ (received es).length < count

theorem Receiving.cons {count : Nat} {octets : Bytes} {limit : Nat}
    {answer : { octets : Bytes // octets.length ≤ limit }} {es : List (Exchange interface)}
    {q : Request} (ha : answer.val = octets) (hn : octets ≠ [])
    (h : Receiving (count - octets.length) es q) :
    Receiving count (⟨.receive limit, .ok answer⟩ :: es) q := by
  obtain ⟨hf, hs, hl, rfl⟩ := h
  subst ha
  refine ⟨flowing_cons_iff.2 ⟨hn, hf⟩, hs, ?_, ?_⟩
  · simp only [received_cons_eq, octetsIn, List.length_append]
    omega
  · simp only [received_cons_eq, octetsIn, List.length_append]
    congr 1
    omega

theorem receiveMore_meets {requests count : Nat} (h : count ≤ requests) :
    (receiveMore requests count).Meets (Receiving count) (Received count) := by
  induction requests generalizing count with
  | zero =>
    obtain rfl : count = 0 := by omega
    exact meets_pure ⟨flowing_nil, rfl, rfl, rfl⟩
  | succ requests ih =>
    unfold receiveMore
    split
    case isTrue h0 =>
      subst h0
      exact meets_pure ⟨flowing_nil, rfl, rfl, rfl⟩
    case isFalse h0 =>
      refine meets_bind (meets_attempt ⟨flowing_nil, rfl, by simp; omega, by simp⟩ fun answer => ?_)
      cases answer with
      | error failure =>
        refine ⟨breaks_singleton rfl, rfl, ?_⟩
        simp [received_cons_eq, octetsIn]
        omega
      | ok answer =>
        obtain ⟨octets, hl⟩ := answer
        change Action.Meets _ _ _
        simp only
        split
        case isTrue he =>
          have hn : octets = [] := List.isEmpty_iff.1 he
          subst hn
          exact meets_throw ⟨breaks_singleton ⟨rfl, rfl⟩, rfl, by
            simp [received_cons_eq, octetsIn]; omega⟩
        case isFalse he =>
          have hn : octets ≠ [] := fun h => he (List.isEmpty_iff.2 h)
          have hpos : 0 < octets.length := List.length_pos_iff.2 hn
          have hle : count - octets.length ≤ requests := by omega
          refine meets_bind ((ih hle).mono ?_ ?_)
          · exact fun es q hq => hq.cons rfl hn
          · intro es r hr
            cases r with
            | error e =>
              obtain ⟨hb, hs, hl'⟩ := hr
              refine ⟨hb.cons hn, hs, ?_⟩
              simp only [List.singleton_append, received_cons_eq, octetsIn, List.length_append]
              omega
            | ok more =>
              obtain ⟨hf, hs, rfl, hl'⟩ := hr
              refine meets_pure ⟨flowing_cons_iff.2 ⟨hn, by simpa using hf⟩, ?_, ?_, ?_⟩
              · simpa [sent_cons_eq, octetsOut] using hs
              · simp [received_cons_eq, octetsIn]
              · simp only [List.length_append]
                omega

theorem receiveExactly_meets (count : Nat) :
    (receiveExactly count).Meets (Receiving count) (Received count) :=
  receiveMore_meets (Nat.le_refl count)

theorem receiveWithin_eq {capacity count : Nat} (h : count ≤ capacity) :
    receiveWithin capacity count = receiveExactly count := by
  rw [receiveWithin, if_neg (Nat.not_lt.2 h)]

theorem receiveWithin_meets {capacity count : Nat} (h : count ≤ capacity) :
    (receiveWithin capacity count).Meets (Receiving count) (Received count) := by
  rw [receiveWithin_eq h]
  exact receiveExactly_meets count

def ReceivedOctet (es : List (Exchange interface)) : Except Error UInt8 → Prop
  | .ok octet => Flowing es ∧ sent es = [] ∧ received es = [octet]
  | .error e => Breaks es e ∧ sent es = [] ∧ received es = []

theorem receiveOctet_meets : receiveOctet.Meets (Receiving 1) ReceivedOctet := by
  refine meets_bind ((receiveExactly_meets 1).mono (fun es q hq => hq) fun es r hr => ?_)
  cases r with
  | error e =>
    obtain ⟨hb, hs, hl⟩ := hr
    exact ⟨hb, hs, List.length_eq_zero_iff.1 (by omega)⟩
  | ok octets =>
    obtain ⟨hf, hs, rfl, hl⟩ := hr
    obtain ⟨octet, ho⟩ := List.length_eq_one_iff.1 hl
    refine meets_pure ?_
    rw [List.append_nil, ho]
    exact ⟨hf, hs, ho⟩

def Sending (octets : Bytes) (es : List (Exchange interface)) (q : Request) : Prop :=
  Flowing es ∧ received es = [] ∧ ∃ rest, rest ≠ [] ∧ sent es ++ rest = octets ∧ q = .send rest

def Sent (octets : Bytes) (es : List (Exchange interface)) : Except Error Unit → Prop
  | .ok () => Flowing es ∧ received es = [] ∧ sent es = octets
  | .error e => Breaks es e ∧ ¬ Accepting es ∧ received es = [] ∧
      ∃ rest, rest ≠ [] ∧ sent es ++ rest = octets

theorem sendMore_meets {requests : Nat} {octets : Bytes} (h : octets.length ≤ requests) :
    (sendMore requests octets).Meets (Sending octets) (Sent octets) := by
  induction requests generalizing octets with
  | zero =>
    obtain rfl : octets = [] := List.length_eq_zero_iff.1 (by omega)
    exact meets_pure ⟨flowing_nil, rfl, rfl⟩
  | succ requests ih =>
    unfold sendMore
    split
    case isTrue he =>
      obtain rfl : octets = [] := List.isEmpty_iff.1 he
      exact meets_pure ⟨flowing_nil, rfl, rfl⟩
    case isFalse he =>
      have hn : octets ≠ [] := fun h => he (List.isEmpty_iff.2 h)
      refine meets_bind (meets_attempt ⟨flowing_nil, rfl, octets, hn, rfl, rfl⟩ fun answer => ?_)
      cases answer with
      | error failure =>
        exact ⟨breaks_singleton rfl, fun h => (accepting_cons_iff.1 h).1, rfl, octets, hn, rfl⟩
      | ok answer =>
        obtain ⟨taken, ht⟩ := answer
        change Action.Meets _ _ _
        simp only
        split
        case isTrue h0 =>
          subst h0
          refine meets_throw ⟨breaks_singleton ⟨rfl, rfl⟩, ?_, rfl, octets, hn, rfl⟩
          exact fun h => Nat.lt_irrefl 0 (accepting_cons_iff.1 h).1
        case isFalse h0 =>
          have hflows : Flows ⟨.send octets, .ok ⟨taken, ht⟩⟩ := Nat.pos_of_ne_zero h0
          have hl : (octets.drop taken).length ≤ requests := by
            rw [List.length_drop]
            omega
          refine (ih hl).mono ?_ ?_
          · rintro es q ⟨hf, hr, rest, hrest, hs, rfl⟩
            refine ⟨flowing_cons_iff.2 ⟨hflows, hf⟩, hr, rest, hrest, ?_, rfl⟩
            rw [List.singleton_append, sent_cons_eq, List.append_assoc, hs]
            exact List.take_append_drop taken octets
          · intro es r hr
            cases r with
            | error e =>
              obtain ⟨hb, hc, hr, rest, hrest, hs⟩ := hr
              refine ⟨hb.cons hflows, fun h => hc (accepting_cons_iff.1 h).2, hr, rest, hrest, ?_⟩
              rw [List.singleton_append, sent_cons_eq, List.append_assoc, hs]
              exact List.take_append_drop taken octets
            | ok _ =>
              obtain ⟨hf, hr, hs⟩ := hr
              refine ⟨flowing_cons_iff.2 ⟨hflows, hf⟩, hr, ?_⟩
              rw [List.singleton_append, sent_cons_eq, hs]
              exact List.take_append_drop taken octets

theorem sendAll_meets (octets : Bytes) : (sendAll octets).Meets (Sending octets) (Sent octets) :=
  sendMore_meets (Nat.le_refl octets.length)

end SocksProxy.OctetStream
