import SocksProxy.Proofs.ClientInput
import SocksProxy.Proofs.ParsedMessages

/-!
# Transcripts of an input

A transcript gives the octets that are sent on each input of a client, up to where a run ends or
waits. `Transcribes` puts the transcript of a sequence together from those of its parts: a reader
sends nothing and decides by its input what follows, and what is said leaves the input as it is.
-/

namespace SocksProxy

open SocksProxy.Action OctetStream

section

variable {I : Interface} [I.Streamed] {α β : Type}

/-- On every input the octets sent are `transcript` of it, up to where the action waits. If it
ends, what is missing is what `next` tells of its result and of the rest of the input. -/
def Transcribes (x : Action I α) (transcript : Bytes → Bytes)
    (next : Except Error α → Bytes → Bytes) : Prop :=
  ∀ input, Course x input (· = transcript input)
    fun r said rest => transcript input = said ++ next r rest

variable {x : Action I α} {f : α → Action I β} {transcript : Bytes → Bytes}
  {next : Except Error α → Bytes → Bytes} {last : Except Error β → Bytes → Bytes}

theorem transcribes_result {r : Except Error α} (h : next r = transcript) :
    Transcribes (ExceptT.mk (.done r) : Action I α) transcript next :=
  h ▸ fun _ => course_result rfl

theorem transcribes_pure {a : α} (h : next (.ok a) = transcript) :
    Transcribes (pure a : Action I α) transcript next := transcribes_result h

theorem transcribes_throw {e : Error} (h : next (.error e) = transcript) :
    Transcribes (throw e : Action I α) transcript next := transcribes_result h

theorem Transcribes.continues {a : α} (hf : Transcribes (f a) transcript last)
    {whole said rest : Bytes} (h : whole = said ++ transcript rest) :
    Course.Continues f (· = whole) (fun r more left => whole = more ++ last r left) (.ok a) said
      rest := by
  refine (hf rest).mono ?_ ?_
  · rintro more rfl
    exact h.symm
  · intro r more left hmore
    change whole = said ++ more ++ last r left
    rw [h, hmore, List.append_assoc]

theorem Transcribes.bind (hx : Transcribes x transcript next)
    (he : ∀ e rest, next (.error e) rest = last (.error e) rest)
    (hf : ∀ a, Transcribes (f a) (next (.ok a)) last) : Transcribes (x >>= f) transcript last := by
  refine fun input => course_bind ((hx input).mono (fun _ h => h) ?_)
  rintro (e | a) said rest h
  · exact h.trans (congrArg (said ++ ·) (he e rest))
  · exact (hf a).continues h

theorem Transcribes.outcome_bind {g : Except Error α → Action I β}
    (hx : Transcribes x transcript next) (hg : ∀ r, Transcribes (g r) (next r) last) :
    Transcribes (x.outcome >>= g) transcript last :=
  fun input => course_bind (course_outcome ((hx input).mono (fun _ h => h)
    fun r _ _ h => (hg r).continues h))

theorem Transcribes.embed {J : Interface} [J.Streamed] {request : I.Request → J.Request}
    {answer : ∀ q, J.Answer (request q) → I.Answer q}
    {back : ∀ q, I.Answer q → J.Answer (request q)} (h : Transcribes x transcript next)
    (hb : ∀ q a, back q (answer q a) = a) (ha : ∀ q a, answer q (back q a) = a)
    (hs : ∀ e : Exchange I, Interface.Streamed.stream? (e.embed request back) =
      Interface.Streamed.stream? e)
    (hw : ∀ q, AwaitsInput (request q) → AwaitsInput q) :
    Transcribes (x.embed request answer) transcript next :=
  fun input => (h input).embed hb ha hs hw

/-- The action sends the octets, leaves the input as it is and ends well. -/
def Says (x : Action I Unit) (octets : Bytes) : Prop :=
  ∀ next, Transcribes x (fun input => octets ++ next (.ok ()) input) next

theorem Says.bind {x : Action I Unit} {f : Unit → Action I α} {octets : Bytes}
    (hx : Says x octets) (hf : Transcribes (f ()) transcript next) :
    Transcribes (x >>= f) (fun input => octets ++ transcript input) next :=
  (hx fun | .ok _ => transcript | .error e => next (.error e)).bind (fun _ _ => rfl) fun _ => hf

theorem Says.andThen {x : Action I Unit} {f : Unit → Action I Unit} {octets more : Bytes}
    (hx : Says x octets) (hf : Says (f ()) more) : Says (x >>= f) (octets ++ more) := by
  intro next
  simp only [List.append_assoc]
  exact hx.bind (hf next)

theorem Says.finally {x : Action I Unit} {octets : Bytes}
    {next : Except Error Unit → Bytes → Bytes} (h : Says x octets)
    (hn : next (.ok ()) = transcript) :
    Transcribes x (fun input => octets ++ transcript input) next := hn ▸ h next

def following (failure : Error → Bytes) (success : α → Bytes → Bytes) :
    Except Error α → Bytes → Bytes
  | .error e => fun _ => failure e
  | .ok a => success a

def told (failure : Error → Bytes) (success : α → Bytes → Bytes) :
    Option (Except Error (α × Bytes)) → Bytes
  | none => []
  | some (.error e) => failure e
  | some (.ok (a, rest)) => success a rest

end

namespace OctetStream

variable {α : Type} {failure : Error → Bytes} {success : α → Bytes → Bytes}

theorem dry_of_fails {last : Exchange interface} {e : Error} (h : Fails last e)
    (ha : Accepted last) : Dry last ∧ octetsIn last = [] ∧ ∃ failure, e = .io failure := by
  obtain ⟨q, answer⟩ := last
  cases q with
  | receive limit =>
    cases answer with
    | ok octets => exact ⟨h.1, h.1, _, h.2⟩
    | error failure => exact ⟨trivial, rfl, failure, h⟩
  | send octets =>
    cases answer with
    | ok taken => exact absurd h.1 (Nat.pos_iff_ne_zero.1 ha)
    | error failure => exact absurd ha id

theorem Breaks.received_eq {es : List (Exchange interface)} {e : Error} {input : Bytes}
    (h : Breaks es e) (hf : Fed input es) :
    received es = input ∧ ∃ failure, e = .io failure := by
  obtain ⟨before, last, rfl, -, hl⟩ := h
  have hacc : Accepted last := hf.accepting last (by simp [Interface.Streamed.stream?])
  obtain ⟨hd, hn, he⟩ := dry_of_fails hl hacc
  refine ⟨?_, he⟩
  have hlast : received [last] = [] := by rw [received_cons_eq, hn, received_nil, List.nil_append]
  rw [received_append, hlast, List.append_nil]
  exact hf.whole before last [] last rfl rfl hd

/-- Nothing is sent while a reader reads, nor after it if the input has ended. -/
theorem Reads.transcribes {x : Action interface α} {taken : Except Error α → Bytes → Prop}
    {parse : Parse α} (h : Reads x taken) (hp : parse.Decides taken)
    (hf : ∀ e, failure (.io e) = []) :
    Transcribes x (fun input => told failure success (parse input))
      (following failure success) := by
  refine fun input => ⟨fun es q hq _ _ hr => ?_, fun es r hr hfed => ?_⟩
  · obtain ⟨-, hs, hu, -⟩ := h.meets.1 es q hq
    change sent es = told failure success (parse input)
    rw [hs, hp.short (hr ▸ hu), told]
  · cases h.meets.2 es r hr with
    | took _ hs ht =>
      obtain ⟨rest, hrest⟩ := hfed.order
      refine ⟨rest, hrest, ?_⟩
      change told failure success (parse input) = sent es ++ following failure success r rest
      rw [hs, ← hrest, hp.whole rest ht]
      cases r <;> rfl
    | broke hb hs hu =>
      obtain ⟨hall, e, rfl⟩ := hb.received_eq hfed
      refine ⟨[], by rw [hall, List.append_nil], ?_⟩
      change told failure success (parse input) = sent es ++ failure (.io e)
      rw [hs, hp.short (hall ▸ hu), hf, told, List.append_nil]

theorem says_sendAll (octets : Bytes) : Says (sendAll octets) octets := by
  have hmeets := sendAll_meets octets
  refine fun next input => ⟨fun es q hq _ hi _ => ?_, fun es r hr hf => ?_⟩
  · obtain ⟨-, -, rest, -, -, rfl⟩ := hmeets.1 es q hq
    obtain ⟨limit, h⟩ := hi
    cases h
  · have hsent := hmeets.2 es r hr
    cases r with
    | error e => exact absurd hf.accepting hsent.2.1
    | ok u =>
      obtain ⟨-, hreceived, rfl⟩ := hsent
      exact ⟨input, by rw [hreceived, List.nil_append], rfl⟩

end OctetStream

end SocksProxy
