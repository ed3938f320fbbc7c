import SocksProxy.Proofs.Actions

/-!
# What passes over the stream of a client

The exchanges of a connection and of a session contain those of the client's stream. `received`
and `sent` are the octets that have come from the client and gone to it, in order, whatever the
parts in which they were passed.
-/

namespace SocksProxy

/-- An interface of which some exchanges are those of an octet stream. -/
class Interface.Streamed (I : Interface) where
  request : OctetStream.Request → I.Request
  stream? : Exchange I → Option (Exchange OctetStream.interface)

namespace OctetStream

instance : Interface.Streamed interface := ⟨id, some⟩

def octetsIn : Exchange interface → Bytes
  | ⟨.receive _, .ok octets⟩ => octets.val
  | _ => []

def octetsOut : Exchange interface → Bytes
  | ⟨.send octets, .ok taken⟩ => octets.take taken.val
  | _ => []

def Flows : Exchange interface → Prop
  | ⟨.receive _, .ok octets⟩ => octets.val ≠ []
  | ⟨.send _, .ok taken⟩ => 0 < taken.val
  | _ => False

instance : DecidablePred Flows := fun
  | ⟨.receive _, .ok octets⟩ => inferInstanceAs (Decidable (octets.val ≠ []))
  | ⟨.send _, .ok taken⟩ => inferInstanceAs (Decidable (0 < taken.val))
  | ⟨.receive _, .error _⟩ | ⟨.send _, .error _⟩ => isFalse id

def Accepted : Exchange interface → Prop
  | ⟨.send _, .ok taken⟩ => 0 < taken.val
  | ⟨.send _, .error _⟩ => False
  | ⟨.receive _, _⟩ => True

instance : DecidablePred Accepted := fun
  | ⟨.send _, .ok taken⟩ => inferInstanceAs (Decidable (0 < taken.val))
  | ⟨.send _, .error _⟩ => isFalse id
  | ⟨.receive _, _⟩ => isTrue trivial

end OctetStream

namespace Connection

def ofStream : Exchange OctetStream.interface → Exchange interface :=
  Exchange.embed .stream fun _ answer => answer

instance : Interface.Streamed interface where
  request := .stream
  stream? := fun
    | ⟨.stream q, answer⟩ => some ⟨q, answer⟩
    | _ => none

end Connection

namespace Session

def ofConnection : Exchange Connection.interface → Exchange interface :=
  Exchange.embed .client fun _ answer => answer

instance : Interface.Streamed interface where
  request q := .client (.stream q)
  stream? := fun
    | ⟨.client (.stream q), answer⟩ => some ⟨q, answer⟩
    | _ => none

end Session

section

open Interface.Streamed

variable {I : Interface} [I.Streamed]

def received (exchanges : List (Exchange I)) : Bytes :=
  (exchanges.filterMap stream?).flatMap OctetStream.octetsIn

def sent (exchanges : List (Exchange I)) : Bytes :=
  (exchanges.filterMap stream?).flatMap OctetStream.octetsOut

/-- The client's stream neither ends nor fails, and refuses nothing that it is sent. -/
def Flowing (exchanges : List (Exchange I)) : Prop :=
  ∀ s ∈ exchanges.filterMap stream?, OctetStream.Flows s

instance (exchanges : List (Exchange I)) : Decidable (Flowing exchanges) :=
  inferInstanceAs (Decidable (∀ s ∈ exchanges.filterMap stream?, OctetStream.Flows s))

/-- The client's stream accepts all that it is sent. -/
def Accepting (exchanges : List (Exchange I)) : Prop :=
  ∀ s ∈ exchanges.filterMap stream?, OctetStream.Accepted s

instance (exchanges : List (Exchange I)) : Decidable (Accepting exchanges) :=
  inferInstanceAs (Decidable (∀ s ∈ exchanges.filterMap stream?, OctetStream.Accepted s))

@[simp] theorem received_nil : received ([] : List (Exchange I)) = [] := rfl

@[simp] theorem sent_nil : sent ([] : List (Exchange I)) = [] := rfl

@[simp] theorem received_append (before after : List (Exchange I)) :
    received (before ++ after) = received before ++ received after := by
  simp [received]

@[simp] theorem sent_append (before after : List (Exchange I)) :
    sent (before ++ after) = sent before ++ sent after := by
  simp [sent]

theorem Accepting.of_append {before after : List (Exchange I)}
    (h : Accepting (before ++ after)) : Accepting before ∧ Accepting after := by
  simp only [Accepting, List.filterMap_append, List.mem_append] at h
  exact ⟨fun s hs => h s (.inl hs), fun s hs => h s (.inr hs)⟩

theorem received_eq_nil_of_stream? {es : List (Exchange I)} (h : ∀ e ∈ es, stream? e = none) :
    received es = [] ∧ sent es = [] := by
  have hn : es.filterMap stream? = [] := List.filterMap_eq_nil_iff.2 h
  simp [received, sent, hn]

theorem filterMap_stream?_embed {J : Interface} [J.Streamed] {request : I.Request → J.Request}
    {back : ∀ q, I.Answer q → J.Answer (request q)}
    (hs : ∀ e : Exchange I, stream? (e.embed request back) = stream? e) (es : List (Exchange I)) :
    (es.map (Exchange.embed request back)).filterMap stream? = es.filterMap stream? := by
  rw [List.filterMap_map]
  exact congrArg (List.filterMap · es) (funext hs)

theorem received_embed {J : Interface} [J.Streamed] {request : I.Request → J.Request}
    {back : ∀ q, I.Answer q → J.Answer (request q)}
    (hs : ∀ e : Exchange I, stream? (e.embed request back) = stream? e) (es : List (Exchange I)) :
    received (es.map (Exchange.embed request back)) = received es := by
  rw [received, filterMap_stream?_embed hs, received]

theorem sent_embed {J : Interface} [J.Streamed] {request : I.Request → J.Request}
    {back : ∀ q, I.Answer q → J.Answer (request q)}
    (hs : ∀ e : Exchange I, stream? (e.embed request back) = stream? e) (es : List (Exchange I)) :
    sent (es.map (Exchange.embed request back)) = sent es := by
  rw [sent, filterMap_stream?_embed hs, sent]

theorem accepting_embed {J : Interface} [J.Streamed] {request : I.Request → J.Request}
    {back : ∀ q, I.Answer q → J.Answer (request q)}
    (hs : ∀ e : Exchange I, stream? (e.embed request back) = stream? e)
    {es : List (Exchange I)} :
    Accepting (es.map (Exchange.embed request back)) ↔ Accepting es := by
  rw [Accepting, filterMap_stream?_embed hs, Accepting]

end

@[simp] theorem received_ofStream (es : List (Exchange OctetStream.interface)) :
    received (es.map Connection.ofStream) = received es := received_embed (fun _ => rfl) es

@[simp] theorem sent_ofStream (es : List (Exchange OctetStream.interface)) :
    sent (es.map Connection.ofStream) = sent es := sent_embed (fun _ => rfl) es

theorem stream?_ofConnection (e : Exchange Connection.interface) :
    Interface.Streamed.stream? (Session.ofConnection e) = Interface.Streamed.stream? e := by
  obtain ⟨q, answer⟩ := e
  cases q <;> rfl

@[simp] theorem received_ofConnection (es : List (Exchange Connection.interface)) :
    received (es.map Session.ofConnection) = received es :=
  received_embed stream?_ofConnection es

@[simp] theorem sent_ofConnection (es : List (Exchange Connection.interface)) :
    sent (es.map Session.ofConnection) = sent es :=
  sent_embed stream?_ofConnection es

theorem accepting_ofConnection {es : List (Exchange Connection.interface)} :
    Accepting (es.map Session.ofConnection) ↔ Accepting es :=
  accepting_embed stream?_ofConnection

end SocksProxy
