import SocksProxy.Proofs.SentReplies

/-!
# Dialogues

A dialogue is a run with a client that delivers what it has to say, in any parts, and takes what
it is sent, in any parts, while all else is answered as `fair` allows. `Dialogue` says that such a
run hears no more than `heard`, says no more than `said`, waits for the client only while `heard`
is incomplete, and reaches a milestone or its end only when all has been heard and said.
-/

namespace SocksProxy

open SocksProxy.Action

section

variable {I : Interface} [I.Streamed] {α β : Type}

/-- A request that is answered when the client has sent something. -/
def AwaitsInput (q : I.Request) : Prop :=
  ∃ limit, q = Interface.Streamed.request (.receive limit)

theorem awaitsInput_of_stream {q : OctetStream.Request}
    (h : @AwaitsInput Connection.interface _ (.stream q)) :
    @AwaitsInput OctetStream.interface _ q := by
  obtain ⟨limit, hq⟩ := h
  cases hq
  exact ⟨limit, rfl⟩

theorem awaitsInput_of_client {q : Connection.Request}
    (h : @AwaitsInput Session.interface _ (.client q)) :
    @AwaitsInput Connection.interface _ q := by
  obtain ⟨limit, hq⟩ := h
  cases hq
  exact ⟨limit, rfl⟩

structure Dialogue (fair : Exchange I → Prop) (milestone : I.Request → Prop) (x : Action I α)
    (heard said : Bytes) (outcome : Except Error α → Prop) : Prop where
  asks : ∀ tail es q, x.Asks es q → (∀ e ∈ es, fair e) → received es <+: heard ++ tail →
    received es <+: heard ∧ sent es <+: said ∧ (AwaitsInput q → received es ≠ heard) ∧
      (milestone q → received es = heard ∧ sent es = said)
  ends : ∀ tail es r, x.Ends es r → (∀ e ∈ es, fair e) → received es <+: heard ++ tail →
    outcome r ∧ received es = heard ∧ sent es = said

variable {fair : Exchange I → Prop} {milestone : I.Request → Prop} {x : Action I α}
  {f : α → Action I β} {heard said heard' said' : Bytes} {outcome : Except Error α → Prop}
  {outcome' : Except Error β → Prop}

theorem Dialogue.of_meets {during : List (Exchange I) → I.Request → Prop}
    {after : List (Exchange I) → Except Error α → Prop} (h : x.Meets during after)
    (hd : ∀ tail es q, during es q → (∀ e ∈ es, fair e) → received es <+: heard ++ tail →
      received es <+: heard ∧ sent es <+: said ∧ (AwaitsInput q → received es ≠ heard) ∧
        (milestone q → received es = heard ∧ sent es = said))
    (ha : ∀ tail es r, after es r → (∀ e ∈ es, fair e) → received es <+: heard ++ tail →
      outcome r ∧ received es = heard ∧ sent es = said) :
    Dialogue fair milestone x heard said outcome :=
  ⟨fun tail es q hq => hd tail es q (h.1 es q hq), fun tail es r hr => ha tail es r (h.2 es r hr)⟩

theorem Dialogue.mono {outcome' : Except Error α → Prop}
    (h : Dialogue fair milestone x heard said outcome) (ho : ∀ r, outcome r → outcome' r) :
    Dialogue fair milestone x heard said outcome' :=
  ⟨h.asks, fun tail es r hr hf hp => (h.ends tail es r hr hf hp).imp_left (ho r)⟩

theorem Dialogue.follows (h : Dialogue fair milestone x heard said outcome) {tail : Bytes}
    {es : List (Exchange I)} {rest : Program I (Except Error α)}
    (hr : Program.Follows x.run es rest) (hf : ∀ e ∈ es, fair e)
    (hp : received es <+: heard ++ tail) :
    received es <+: heard ∧ sent es <+: said := by
  cases rest with
  | done r =>
    obtain ⟨-, hh, hs⟩ := h.ends tail es r hr hf hp
    rw [hh, hs]
    exact ⟨List.prefix_rfl, List.prefix_rfl⟩
  | ask q next =>
    obtain ⟨hh, hs, -, -⟩ := h.asks tail es q ⟨next, hr⟩ hf hp
    exact ⟨hh, hs⟩

theorem Dialogue.after_milestone (h : Dialogue fair milestone x heard said outcome) {tail : Bytes}
    {before after : List (Exchange I)} {e : Exchange I} {rest : Program I (Except Error α)}
    (hr : Program.Follows x.run (before ++ e :: after) rest) (hm : milestone e.request)
    (hf : ∀ d ∈ before ++ e :: after, fair d)
    (hp : received (before ++ e :: after) <+: heard ++ tail) :
    received (before ++ e :: after) = heard ∧ sent (before ++ e :: after) = said := by
  have hbefore : received before <+: received (before ++ e :: after) := by
    rw [received_append]
    exact List.prefix_append _ _
  have hsbefore : sent before <+: sent (before ++ e :: after) := by
    rw [sent_append]
    exact List.prefix_append _ _
  obtain ⟨hh, hs⟩ := h.follows hr hf hp
  obtain ⟨-, -, -, hdone⟩ := h.asks tail before e.request hr.asks
    (fun d hd => hf d (List.mem_append_left _ hd)) (hbefore.trans hp)
  obtain ⟨hheard, hsaid⟩ := hdone hm
  have hle := hbefore.length_le
  have hsle := hsbefore.length_le
  rw [hheard] at hle
  rw [hsaid] at hsle
  exact ⟨hh.eq_of_length_le hle, hs.eq_of_length_le hsle⟩

theorem dialogue_result {r : Except Error α} (h : outcome r) :
    Dialogue fair milestone (ExceptT.mk (.done r)) [] [] outcome := by
  refine ⟨fun tail es q hq => absurd hq (Program.not_asks_done _ _ _), ?_⟩
  intro tail es r' hr _ _
  obtain ⟨rfl, rfl⟩ := Program.ends_done_iff.1 hr
  exact ⟨h, rfl, rfl⟩

theorem dialogue_pure {a : α} (h : outcome (.ok a)) :
    Dialogue fair milestone (pure a) [] [] outcome := dialogue_result h

/-- A dialogue goes on where its first part has ended. The first part may reach a milestone only
if nothing more is heard or said. -/
theorem Dialogue.bind (hx : Dialogue fair milestone x heard said outcome)
    (hm : x.Only (fun q => ¬ milestone q) ∨ heard' = [] ∧ said' = [])
    (he : ∀ e, outcome (.error e) → heard' = [] ∧ said' = [] ∧ outcome' (.error e))
    (hf : ∀ a, outcome (.ok a) → Dialogue fair milestone (f a) heard' said' outcome') :
    Dialogue fair milestone (x >>= f) (heard ++ heard') (said ++ said') outcome' := by
  constructor
  · intro tail es q hq hfair hp
    rcases asks_bind_iff.1 hq with hq | ⟨before, after, a, rfl, ha, hq⟩
    · rw [List.append_assoc] at hp
      obtain ⟨hr, hs, hw, hq'⟩ := hx.asks _ es q hq hfair hp
      refine ⟨hr.trans (List.prefix_append ..), hs.trans (List.prefix_append ..), ?_, ?_⟩
      · intro hi h
        have hl := hr.length_le
        rw [h, List.length_append] at hl
        have h' : heard' = [] := List.length_eq_zero_iff.1 (by omega)
        exact hw hi (by rw [h, h', List.append_nil])
      · intro hi
        rcases hm with hm | ⟨rfl, rfl⟩
        · exact absurd hi (hm es q hq)
        · simpa using hq' hi
    · rw [List.append_assoc] at hp
      have hp' : received before <+: heard ++ (heard' ++ tail) :=
        (received_append before after ▸ List.prefix_append ..).trans hp
      obtain ⟨ho, hr, hs⟩ := hx.ends _ before _ ha
        (fun e he => hfair e (List.mem_append_left _ he)) hp'
      rw [received_append, hr, List.prefix_append_right_inj] at hp
      obtain ⟨hr', hs', hw, hq'⟩ := (hf a ho).asks tail after q hq
        (fun e he => hfair e (List.mem_append_right _ he)) hp
      rw [received_append, sent_append, hr, hs]
      refine ⟨(List.prefix_append_right_inj _).2 hr', (List.prefix_append_right_inj _).2 hs',
        fun hi h => hw hi (List.append_cancel_left h), fun hi => ?_⟩
      rw [(hq' hi).1, (hq' hi).2]
      exact ⟨rfl, rfl⟩
  · intro tail es r hr hfair hp
    rw [List.append_assoc] at hp
    rcases ends_bind_iff.1 hr with ⟨e, hx', rfl⟩ | ⟨before, after, a, rfl, ha, hr⟩
    · obtain ⟨ho, hr', hs⟩ := hx.ends _ es _ hx' hfair hp
      obtain ⟨rfl, rfl, ho'⟩ := he e ho
      exact ⟨ho', by rw [hr', List.append_nil], by rw [hs, List.append_nil]⟩
    · have hp' : received before <+: heard ++ (heard' ++ tail) :=
        (received_append before after ▸ List.prefix_append ..).trans hp
      obtain ⟨ho, hr', hs⟩ := hx.ends _ before _ ha
        (fun e he => hfair e (List.mem_append_left _ he)) hp'
      rw [received_append, hr', List.prefix_append_right_inj] at hp
      obtain ⟨ho', hr'', hs'⟩ := (hf a ho).ends tail after r hr
        (fun e he => hfair e (List.mem_append_right _ he)) hp
      rw [received_append, sent_append, hr', hs, hr'', hs']
      exact ⟨ho', rfl, rfl⟩

theorem Dialogue.andThen {a : α} (hx : Dialogue fair milestone x heard said (· = .ok a))
    (hm : x.Only fun q => ¬ milestone q)
    (hf : Dialogue fair milestone (f a) heard' said' outcome') :
    Dialogue fair milestone (x >>= f) (heard ++ heard') (said ++ said') outcome' :=
  hx.bind (.inl hm) (fun _ h => nomatch h) fun b hb => by
    cases hb
    exact hf

theorem Dialogue.attempted (hx : Dialogue fair milestone x heard said outcome) :
    Dialogue fair milestone x.outcome heard said fun o => ∃ r, o = .ok r ∧ outcome r := by
  refine ⟨fun tail es q hq => hx.asks tail es q (asks_outcome_iff.1 hq), ?_⟩
  intro tail es o ho hfair hp
  obtain ⟨r, rfl, hr⟩ := ends_outcome_iff.1 ho
  obtain ⟨h, h'⟩ := hx.ends tail es r hr hfair hp
  exact ⟨⟨r, rfl, h⟩, h'⟩

theorem Dialogue.attempted_eq {r : Except Error α}
    (hx : Dialogue fair milestone x heard said (· = r)) :
    Dialogue fair milestone x.outcome heard said (· = .ok r) :=
  hx.attempted.mono fun _ ⟨_, ho, hr⟩ => ho.trans (congrArg _ hr)

theorem dialogue_silent
    (hs : ∀ es q, x.Asks es q → ¬ AwaitsInput q ∧ ∀ e ∈ es, Interface.Streamed.stream? e = none)
    (he : ∀ es r, x.Ends es r → ∀ e ∈ es, Interface.Streamed.stream? e = none)
    (ho : ∀ es r, x.Ends es r → (∀ e ∈ es, fair e) → outcome r) :
    Dialogue fair milestone x [] [] outcome := by
  constructor
  · intro tail es q hq _ _
    obtain ⟨hi, hn⟩ := hs es q hq
    obtain ⟨hr, hs⟩ := received_eq_nil_of_stream? hn
    rw [hr, hs]
    exact ⟨List.nil_prefix, List.nil_prefix, fun h => absurd h hi, fun _ => ⟨rfl, rfl⟩⟩
  · intro tail es r hr hfair _
    exact ⟨ho es r hr hfair, received_eq_nil_of_stream? (he es r hr)⟩

theorem Dialogue.andThenSilent {a : α} (hx : Dialogue fair milestone x heard said (· = .ok a))
    (hf : Dialogue fair milestone (f a) [] [] outcome') :
    Dialogue fair milestone (x >>= f) heard said outcome' := by
  have h := hx.bind (.inr ⟨rfl, rfl⟩) (fun _ h => nomatch h) fun b hb => by
    cases hb
    exact hf
  rwa [List.append_nil, List.append_nil] at h

theorem Dialogue.answered {a : α} (hx : Dialogue fair milestone x heard [] (· = .ok a))
    (hm : x.Only fun q => ¬ milestone q) (hf : Dialogue fair milestone (f a) [] said' outcome') :
    Dialogue fair milestone (x >>= f) heard said' outcome' := by
  have h := hx.andThen hm hf
  rwa [List.append_nil, List.nil_append] at h

theorem dialogue_ask {q : I.Request} (hw : ¬ AwaitsInput q)
    (hs : ∀ a, Interface.Streamed.stream? ⟨q, a⟩ = none) :
    Dialogue fair milestone (ask q) [] [] fun r => ∃ a, fair ⟨q, a⟩ ∧ r = .ok a := by
  have hx : (ask q).Meets (fun es r => es = [] ∧ r = q)
      fun es r => ∃ a, es = [⟨q, a⟩] ∧ r = .ok a :=
    meets_ask ⟨rfl, rfl⟩ fun a => ⟨a, rfl, rfl⟩
  refine dialogue_silent (fun es r hr => ?_) (fun es r hr => ?_) fun es r hr hf => ?_
  · obtain ⟨rfl, rfl⟩ := hx.1 es r hr
    exact ⟨hw, by simp⟩
  · obtain ⟨a, rfl, -⟩ := hx.2 es r hr
    simpa using hs a
  · obtain ⟨a, rfl, rfl⟩ := hx.2 es r hr
    exact ⟨a, hf _ (List.mem_singleton_self _), rfl⟩

theorem Dialogue.embed {J : Interface} [J.Streamed] {request : I.Request → J.Request}
    {answer : ∀ q, J.Answer (request q) → I.Answer q}
    {back : ∀ q, I.Answer q → J.Answer (request q)} {fair' : Exchange J → Prop}
    {milestone' : J.Request → Prop} (h : Dialogue fair milestone x heard said outcome)
    (hb : ∀ q a, back q (answer q a) = a) (ha : ∀ q a, answer q (back q a) = a)
    (hs : ∀ e : Exchange I, Interface.Streamed.stream? (e.embed request back) =
      Interface.Streamed.stream? e)
    (hf : ∀ e : Exchange I, fair' (e.embed request back) → fair e)
    (hm : ∀ q, milestone' (request q) → milestone q)
    (hw : ∀ q, AwaitsInput (request q) → AwaitsInput q) :
    Dialogue fair' milestone' (x.embed request answer) heard said outcome := by
  have hfair : ∀ es : List (Exchange I),
      (∀ e ∈ es.map (Exchange.embed request back), fair' e) → ∀ e ∈ es, fair e :=
    fun es hes e he => hf e (hes _ (List.mem_map_of_mem he))
  constructor
  · intro tail es q hq hes hp
    obtain ⟨inner, r, rfl, rfl, hi⟩ := (Program.asks_embed_iff hb ha).1 hq
    rw [received_embed hs] at hp ⊢
    rw [sent_embed hs]
    obtain ⟨h₁, h₂, h₃, h₄⟩ := h.asks tail inner r hi (hfair inner hes) hp
    exact ⟨h₁, h₂, fun h => h₃ (hw r h), fun h => h₄ (hm r h)⟩
  · intro tail es r he hes hp
    obtain ⟨inner, rfl, hi⟩ := (Program.ends_embed_iff hb ha).1 he
    rw [received_embed hs] at hp ⊢
    rw [sent_embed hs]
    exact h.ends tail inner r hi (hfair inner hes) hp

end

namespace OctetStream

abbrev Plain {α : Type} (x : Action interface α) (heard said : Bytes)
    (outcome : Except Error α → Prop) : Prop :=
  Dialogue Flows (fun _ => False) x heard said outcome

theorem flowing_of_fair {es : List (Exchange interface)} (h : ∀ e ∈ es, Flows e) :
    Flowing es := by
  intro s hs
  obtain ⟨e, he, h'⟩ := List.mem_filterMap.1 hs
  cases h'
  exact h _ he

/-- A reader that is sent what it takes for a result hears all of it and not one octet more, in
whatever parts it comes and whatever comes with its last part. -/
theorem Reads.plain {α : Type} {x : Action interface α} {taken : Except Error α → Bytes → Prop}
    (h : Reads x taken) {r : Except Error α} {octets : Bytes} (ht : taken r octets) :
    Plain x octets [] (· = r) := by
  refine Dialogue.of_meets h.meets ?_ ?_
  · rintro tail es q ⟨-, hs, hu, -⟩ _ hp
    rw [hs]
    refine ⟨?_, List.nil_prefix, fun _ hall => hu r octets ht (hall ▸ List.prefix_rfl), False.elim⟩
    exact (List.prefix_or_prefix_of_prefix hp (List.prefix_append octets tail)).resolve_right
      (hu r octets ht)
  · rintro tail es r' hr hfair hp
    cases hr with
    | broke hb _ _ => exact absurd (flowing_of_fair hfair) hb.not_flowing
    | took _ hs ht' =>
      obtain ⟨hres, hoctets⟩ := h.prefixFree.unique ht' ht hp (List.prefix_append octets tail)
      exact ⟨hres, hoctets, hs⟩

theorem plain_sendAll (octets : Bytes) : Plain (sendAll octets) [] octets (· = .ok ()) := by
  refine Dialogue.of_meets (sendAll_meets octets) ?_ ?_
  · rintro tail es q ⟨-, hr, rest, -, rfl, rfl⟩ _ _
    rw [hr]
    refine ⟨List.nil_prefix, List.prefix_append .., ?_, False.elim⟩
    rintro ⟨limit, h⟩
    cases h
  · intro tail es r h hfair _
    cases r with
    | error e => exact absurd (flowing_of_fair hfair) h.1.not_flowing
    | ok _ => exact ⟨rfl, h.2⟩

theorem plain_send {reply : Reply} {octets : Bytes} (h : reply.octets = .ok octets) :
    Plain reply.send [] octets (· = .ok ()) := by
  rw [Reply.send_eq, h]
  exact plain_sendAll octets

end OctetStream

end SocksProxy
