import SocksProxy.Proofs.ExactTransfers

/-!
# What a reader takes

A reader comes to each of its results with certain octets. It receives just these, or breaks off
before it has them. `Reads` relates the results to the octets, none of which begin others, and has
one rule for each way of making readers. Whatever else is said of a reader, in a dialogue, on an
input or in given circumstances, follows from it.
-/

namespace SocksProxy.OctetStream

open SocksProxy.Action

variable {α β : Type} {x : Action interface α} {f : α → Action interface β}
  {es before after : List (Exchange interface)} {octets : Bytes}
  {taken other : Except Error α → Bytes → Prop} {next : α → Except Error β → Bytes → Prop}

/-- The octets do not begin with any that are taken for a result. -/
def Unsettled (taken : Except Error α → Bytes → Prop) (octets : Bytes) : Prop :=
  ∀ r frame, taken r frame → ¬ frame <+: octets

def PrefixFree (taken : Except Error α → Bytes → Prop) : Prop :=
  ∀ r r' octets octets', taken r octets → taken r' octets' → octets <+: octets' →
    r = r' ∧ octets = octets'

structure Reading (taken : Except Error α → Bytes → Prop) (es : List (Exchange interface))
    (q : Request) : Prop where
  flowing : Flowing es
  sent_eq : sent es = []
  unsettled : Unsettled taken (received es)
  receives : ∃ limit, 0 < limit ∧ q = .receive limit

inductive Read (taken : Except Error α → Bytes → Prop) (es : List (Exchange interface)) :
    Except Error α → Prop where
  | took {r : Except Error α} (hf : Flowing es) (hs : sent es = []) (h : taken r (received es)) :
      Read taken es r
  | broke {e : Error} (hb : Breaks es e) (hs : sent es = []) (hu : Unsettled taken (received es)) :
      Read taken es (.error e)

/-- The results of a reader with the octets that it takes for them. -/
structure Reads (x : Action interface α) (taken : Except Error α → Bytes → Prop) : Prop where
  meets : x.Meets (Reading taken) (Read taken)
  prefixFree : PrefixFree taken

theorem Read.sent_eq {r : Except Error α} (h : Read taken es r) : sent es = [] := by
  cases h with
  | took _ hs _ => exact hs
  | broke _ hs _ => exact hs

theorem Reads.taken_of_ends (h : Reads x taken) {a : α} (he : x.Ends es (.ok a)) :
    taken (.ok a) (received es) := by
  cases h.meets.2 es _ he with
  | took _ _ ht => exact ht

theorem Reads.sent_of_follows (h : Reads x taken) {p : Program interface (Except Error α)}
    (hp : x.run.Follows es p) : sent es = [] := by
  have hsent : x.Meets (fun es _ => sent es = []) fun es _ => sent es = [] :=
    h.meets.mono (fun _ _ hq => hq.sent_eq) fun _ _ hr => hr.sent_eq
  exact hsent.of_follows hp

theorem PrefixFree.unique (h : PrefixFree taken) {r r' : Except Error α}
    {octets octets' input : Bytes} (ht : taken r octets) (ht' : taken r' octets')
    (hp : octets <+: input) (hp' : octets' <+: input) : r = r' ∧ octets = octets' := by
  rcases List.prefix_or_prefix_of_prefix hp hp' with hle | hle
  · exact h _ _ _ _ ht ht' hle
  · obtain ⟨hr, ho⟩ := h _ _ _ _ ht' ht hle
    exact ⟨hr.symm, ho.symm⟩

theorem Reads.congr (h : Reads x taken) (he : ∀ r octets, taken r octets ↔ other r octets) :
    Reads x other := by
  have hsame : taken = other := by
    funext r octets
    exact propext (he r octets)
  exact hsame ▸ h

theorem reads_result (r : Except Error α) :
    Reads (ExceptT.mk (.done r) : Action interface α) fun r' octets => r' = r ∧ octets = [] := by
  constructor
  · exact meets_result (.took flowing_nil rfl ⟨rfl, rfl⟩)
  · rintro r₁ r₂ _ _ ⟨rfl, rfl⟩ ⟨rfl, rfl⟩ -
    exact ⟨rfl, rfl⟩

theorem reads_pure (a : α) :
    Reads (pure a : Action interface α) fun r octets => r = .ok a ∧ octets = [] := reads_result _

theorem reads_throw (e : Error) :
    Reads (throw e : Action interface α) fun r octets => r = .error e ∧ octets = [] :=
  reads_result _

theorem reads_ite {c : Prop} [Decidable c] {y : Action interface α}
    (hx : c → Reads x taken) (hy : ¬ c → Reads y other) :
    Reads (if c then x else y) fun r octets => if c then taken r octets else other r octets := by
  by_cases hc : c
  · simpa only [if_pos hc] using hx hc
  · simpa only [if_neg hc] using hy hc

/-- The octets for the result of a sequence: those for a failure of the first action, or those of
the first followed by those of the second. -/
def Joined (taken : Except Error α → Bytes → Prop) (next : α → Except Error β → Bytes → Prop)
    (r : Except Error β) (octets : Bytes) : Prop :=
  (∃ e, taken (.error e) octets ∧ r = .error e) ∨
    ∃ a before after, octets = before ++ after ∧ taken (.ok a) before ∧ next a r after

theorem PrefixFree.joined (h : PrefixFree taken)
    (hn : ∀ a octets, taken (.ok a) octets → PrefixFree (next a)) :
    PrefixFree (Joined taken next) := by
  rintro r r' octets octets' (⟨e, ht, rfl⟩ | ⟨a, first, second, rfl, ht, hr⟩)
    (⟨e', ht', rfl⟩ | ⟨a', first', second', rfl, ht', hr'⟩) hp
  · obtain ⟨he, ho⟩ := h _ _ _ _ ht ht' hp
    cases he
    exact ⟨rfl, ho⟩
  · cases (h.unique ht ht' hp (List.prefix_append first' second')).1
  · cases (h.unique ht ht' ((List.prefix_append first second).trans hp) List.prefix_rfl).1
  · obtain ⟨ha, rfl⟩ := h.unique ht ht' ((List.prefix_append first second).trans hp)
      (List.prefix_append first' second')
    cases ha
    obtain ⟨rfl, rfl⟩ := hn a first ht _ _ _ _ hr hr' ((List.prefix_append_right_inj first).1 hp)
    exact ⟨rfl, rfl⟩

theorem Unsettled.joined (h : Unsettled taken octets) : Unsettled (Joined taken next) octets := by
  rintro r frame (⟨e, ht, rfl⟩ | ⟨a, first, second, rfl, ht, -⟩) hp
  · exact h _ frame ht hp
  · exact h _ first ht ((List.prefix_append first second).trans hp)

theorem Unsettled.joined_append {a : α} {first second : Bytes} (h : Unsettled (next a) second)
    (hp : PrefixFree taken) (ht : taken (.ok a) first) :
    Unsettled (Joined taken next) (first ++ second) := by
  rintro r frame (⟨e, ht', rfl⟩ | ⟨a', first', second', rfl, ht', hr⟩) hle
  · cases (hp.unique ht ht' (List.prefix_append first second) hle).1
  · obtain ⟨ha, rfl⟩ := hp.unique ht ht' (List.prefix_append first second)
      ((List.prefix_append first' second').trans hle)
    cases ha
    exact h r second' hr ((List.prefix_append_right_inj first).1 hle)

theorem flowing_append (hb : Flowing before) (ha : Flowing after) : Flowing (before ++ after) := by
  simp only [Flowing, List.filterMap_append, List.mem_append]
  rintro s (hs | hs)
  · exact hb s hs
  · exact ha s hs

theorem Breaks.append {e : Error} (hb : Flowing before) (ha : Breaks after e) :
    Breaks (before ++ after) e := by
  obtain ⟨more, last, rfl, hm, hl⟩ := ha
  exact ⟨before ++ more, last, by simp, flowing_append hb hm, hl⟩

theorem Reading.append {a : α} {q : Request} (h : Reading (next a) after q)
    (hp : PrefixFree taken) (hf : Flowing before) (hs : sent before = [])
    (ht : taken (.ok a) (received before)) : Reading (Joined taken next) (before ++ after) q := by
  refine ⟨flowing_append hf h.flowing, ?_, ?_, h.receives⟩
  · rw [sent_append, hs, h.sent_eq, List.nil_append]
  · rw [received_append]
    exact h.unsettled.joined_append hp ht

theorem Read.append {a : α} {r : Except Error β} (h : Read (next a) after r)
    (hp : PrefixFree taken) (hf : Flowing before) (hs : sent before = [])
    (ht : taken (.ok a) (received before)) : Read (Joined taken next) (before ++ after) r := by
  have hsent : sent (before ++ after) = [] := by
    rw [sent_append, hs, h.sent_eq, List.nil_append]
  cases h with
  | took hf' _ hr =>
    refine .took (flowing_append hf hf') hsent ?_
    rw [received_append]
    exact .inr ⟨a, _, _, rfl, ht, hr⟩
  | broke hb _ hu =>
    refine .broke (hb.append hf) hsent ?_
    rw [received_append]
    exact hu.joined_append hp ht

theorem Reads.bind (hx : Reads x taken)
    (hf : ∀ a octets, taken (.ok a) octets → Reads (f a) (next a)) :
    Reads (x >>= f) (Joined taken next) := by
  refine ⟨meets_bind (hx.meets.mono ?_ ?_), hx.prefixFree.joined fun a octets ht =>
    (hf a octets ht).prefixFree⟩
  · rintro es q ⟨hl, hs, hu, hq⟩
    exact ⟨hl, hs, hu.joined, hq⟩
  · rintro es r hr
    cases hr with
    | broke hb hs hu => exact .broke hb hs hu.joined
    | took hl hs ht =>
      cases r with
      | error e => exact .took hl hs (.inl ⟨e, ht, rfl⟩)
      | ok a =>
        exact (hf a _ ht).meets.mono (fun _ _ hq => hq.append hx.prefixFree hl hs ht)
          fun _ _ hr => hr.append hx.prefixFree hl hs ht

/-- So many octets, which are the result. -/
def Counted (count : Nat) (r : Except Error Bytes) (octets : Bytes) : Prop :=
  r = .ok octets ∧ octets.length = count

/-- A single octet, which is the result. -/
def Single (r : Except Error UInt8) (octets : Bytes) : Prop :=
  ∃ octet, r = .ok octet ∧ octets = [octet]

theorem unsettled_counted {count : Nat} (h : octets.length < count) :
    Unsettled (Counted count) octets := by
  rintro r frame ⟨-, hl⟩ hp
  have hle := hp.length_le
  omega

theorem reads_exactly (count : Nat) : Reads (receiveExactly count) (Counted count) := by
  constructor
  · refine (receiveExactly_meets count).mono ?_ ?_
    · rintro es q ⟨hf, hs, hl, rfl⟩
      exact ⟨hf, hs, unsettled_counted hl, _, Nat.sub_pos_of_lt hl, rfl⟩
    · rintro es r hr
      cases r with
      | error e => exact .broke hr.1 hr.2.1 (unsettled_counted hr.2.2)
      | ok octets =>
        obtain ⟨hf, hs, rfl, hl⟩ := hr
        exact .took hf hs ⟨rfl, hl⟩
  · rintro _ _ octets octets' ⟨rfl, hl⟩ ⟨rfl, hl'⟩ hp
    obtain rfl := hp.eq_of_length (hl.trans hl'.symm)
    exact ⟨rfl, rfl⟩

theorem reads_within {capacity count : Nat} (h : count ≤ capacity) :
    Reads (receiveWithin capacity count) (Counted count) := by
  rw [receiveWithin_eq h]
  exact reads_exactly count

/-- A reader that receives so many octets first. -/
theorem reads_within_bind {capacity count : Nat} {g : Bytes → Action interface β}
    {next : Bytes → Except Error β → Bytes → Prop} (h : count ≤ capacity)
    (hg : ∀ octets, octets.length = count → Reads (g octets) (next octets)) :
    Reads (receiveWithin capacity count >>= g) fun r octets =>
      ∃ before after, octets = before ++ after ∧ before.length = count ∧ next before r after := by
  have hjoined : Reads (receiveWithin capacity count >>= g) (Joined (Counted count) next) := by
    apply (reads_within h).bind
    rintro before _ ⟨hb, hl⟩
    cases hb
    exact hg before hl
  apply hjoined.congr
  intro r octets
  simp only [Joined, Counted, reduceCtorEq, false_and, exists_false, false_or]
  constructor
  · rintro ⟨before, _, after, rfl, ⟨hb, hl⟩, hn⟩
    cases hb
    exact ⟨before, after, rfl, hl, hn⟩
  · rintro ⟨before, after, rfl, hl, hn⟩
    exact ⟨before, before, after, rfl, ⟨rfl, hl⟩, hn⟩

theorem Reads.map {g : α → β} (hx : Reads x taken) :
    Reads (do return g (← x)) fun r octets => ∃ r', taken r' octets ∧ r = r'.map g := by
  have hjoined : Reads (do return g (← x)) (Joined taken fun a r octets =>
      r = .ok (g a) ∧ octets = []) := hx.bind fun a _ _ => reads_pure (g a)
  apply hjoined.congr
  intro r octets
  constructor
  · rintro (⟨e, ht, rfl⟩ | ⟨a, before, _, rfl, ht, rfl, rfl⟩)
    · exact ⟨.error e, ht, rfl⟩
    · rw [List.append_nil]
      exact ⟨.ok a, ht, rfl⟩
  · rintro ⟨r', ht, rfl⟩
    cases r' with
    | error e => exact .inl ⟨e, ht, rfl⟩
    | ok a => exact .inr ⟨a, octets, [], (List.append_nil octets).symm, ht, rfl, rfl⟩

/-- A reader that makes its result of so many octets. -/
theorem reads_within_result {capacity count : Nat} {g : Bytes → Except Error β}
    (h : count ≤ capacity) :
    Reads (do ExceptT.mk (.done (g (← receiveWithin capacity count)))) fun r octets =>
      octets.length = count ∧ r = g octets := by
  apply (reads_within_bind h fun octets _ => reads_result (g octets)).congr
  intro r octets
  constructor
  · rintro ⟨before, _, rfl, hl, rfl, rfl⟩
    rw [List.append_nil]
    exact ⟨hl, rfl⟩
  · rintro ⟨hl, rfl⟩
    exact ⟨octets, [], (List.append_nil octets).symm, hl, rfl, rfl⟩

theorem reads_within_map {capacity count : Nat} {g : Bytes → β} (h : count ≤ capacity) :
    Reads (do return g (← receiveWithin capacity count)) fun r octets =>
      octets.length = count ∧ r = .ok (g octets) := reads_within_result h

theorem reads_octet : Reads receiveOctet Single := by
  have hmapped : Reads receiveOctet fun r octets =>
      ∃ r', Counted 1 r' octets ∧ r = r'.map (List.headD · 0) := (reads_exactly 1).map
  apply hmapped.congr
  intro r octets
  constructor
  · rintro ⟨_, ⟨rfl, hl⟩, rfl⟩
    obtain ⟨octet, rfl⟩ := List.length_eq_one_iff.1 hl
    exact ⟨octet, rfl, rfl⟩
  · rintro ⟨octet, rfl, rfl⟩
    exact ⟨_, ⟨rfl, rfl⟩, rfl⟩

theorem reads_octet_bind {g : UInt8 → Action interface β}
    {next : UInt8 → Except Error β → Bytes → Prop} (hg : ∀ octet, Reads (g octet) (next octet)) :
    Reads (receiveOctet >>= g) fun r octets =>
      ∃ octet after, octets = octet :: after ∧ next octet r after := by
  have hjoined : Reads (receiveOctet >>= g) (Joined Single next) :=
    reads_octet.bind fun octet _ _ => hg octet
  apply hjoined.congr
  intro r octets
  simp only [Joined, Single, reduceCtorEq, false_and, exists_false, false_or]
  constructor
  · rintro ⟨a, _, after, rfl, ⟨_, ho, rfl⟩, hn⟩
    cases ho
    exact ⟨a, after, rfl, hn⟩
  · rintro ⟨octet, after, rfl, hn⟩
    exact ⟨octet, [octet], after, rfl, ⟨octet, rfl, rfl⟩, hn⟩

end SocksProxy.OctetStream
