import SocksProxy.Ipv6

/-!
# An IPv6 address is read back from its text

The text of an address is cut at its double colon, if it has one, into the words
before and after a run of zeros, and the run is as long as eight words require.
-/

namespace SocksProxy.Ipv6

theorem colon_not_mem_hex (n : Nat) : ':' ∉ Hex.text n := fun h =>
  absurd (Hex.value?_isSome_of_mem_text h) (by decide)

theorem point_not_mem_hex (n : Nat) : '.' ∉ Hex.text n := fun h =>
  absurd (Hex.value?_isSome_of_mem_text h) (by decide)

@[simp] theorem group?_hex (w : UInt16) : group? (Hex.text w.toNat) = some w := by
  have h : (Hex.text w.toNat).length ≤ 4 :=
    (Nat.length_toDigits_le_iff (by decide) (by decide)).2 w.toNat_lt
  simp [group?, Hex.parse?_text h]

theorem mapM_group?_hex (ws : List UInt16) :
    (ws.map fun w => Hex.text w.toNat).mapM group? = some ws := by
  induction ws with
  | nil => rfl
  | cons w ws ih => simp [ih]

theorem ipv4_parse?_hex (n : Nat) : Ipv4.parse? (Hex.text n) = none := by
  rw [Ipv4.parse?, fields_of_not_mem (point_not_mem_hex n)]
  cases h : Ipv4.octet? (Hex.text n) <;> simp [h]

theorem groups?_hex (ws : List UInt16) :
    groups? (ws.map fun w => Hex.text w.toNat) = some ws := by
  induction ws with
  | nil => rfl
  | cons w ws ih =>
    cases ws with
    | nil => simp [groups?, ipv4_parse?_hex]
    | cons v ws =>
      simp only [List.map_cons] at ih ⊢
      rw [groups?, ih]
      · simp
      · simp

theorem groupFields_groupsText (ws : List UInt16) :
    groupFields (groupsText ws) = ws.map fun w => Hex.text w.toNat := by
  cases ws with
  | nil => rfl
  | cons w ws =>
    have hf : fields ':' (groupsText (w :: ws)) = (w :: ws).map fun w => Hex.text w.toNat := by
      apply fields_joined
      intro p hp
      have : p ∈ (w :: ws).map fun w => Hex.text w.toNat := hp
      obtain ⟨v, -, rfl⟩ := List.mem_map.1 this
      exact colon_not_mem_hex _
    have hne : (groupsText (w :: ws)).isEmpty = false := by
      cases ht : groupsText (w :: ws) with
      | nil =>
        rw [ht] at hf
        simp [fields] at hf
        exact absurd hf.1 (Hex.text_ne_nil _)
      | cons => rfl
    rw [groupFields, hne, hf]
    rfl

theorem groupsText_cons_cons (w v : UInt16) (ws : List UInt16) :
    groupsText (w :: v :: ws) = Hex.text w.toNat ++ ':' :: groupsText (v :: ws) := by
  simp [groupsText, joined, List.intercalate]

theorem groupsText_singleton (w : UInt16) : groupsText [w] = Hex.text w.toNat := by
  simp [groupsText, joined, List.intercalate]

theorem cutGap_append {t : Text} (h : ':' ∉ t) (rest : Text) :
    cutGap (t ++ rest) = (cutGap rest).map fun (before, after) => (t ++ before, after) := by
  induction t with
  | nil => simp
  | cons c t ih =>
    simp only [List.mem_cons, not_or] at h
    have hstep : cutGap (c :: (t ++ rest)) =
        (cutGap (t ++ rest)).map fun (before, after) => (c :: before, after) := by
      rw [cutGap]
      rintro rest' rfl
      exact absurd rfl h.1
    rw [List.cons_append, hstep, ih h.2]
    cases cutGap rest <;> simp

theorem cutGap_colon {c : Char} (h : c ≠ ':') (rest : Text) :
    cutGap (':' :: c :: rest) =
      (cutGap (c :: rest)).map fun (before, after) => (':' :: before, after) := by
  rw [cutGap]
  rintro rest' - h'
  exact h (List.cons.inj h').1

theorem groupsText_head (w : UInt16) (ws : List UInt16) (rest : Text) :
    ∃ c t, groupsText (w :: ws) ++ rest = c :: t ∧ c ≠ ':' := by
  obtain ⟨c, u, hu⟩ := List.exists_cons_of_ne_nil (Hex.text_ne_nil w.toNat)
  have hc : c ≠ ':' := by
    rintro rfl
    exact colon_not_mem_hex w.toNat (by simp [hu])
  cases ws with
  | nil => exact ⟨c, u ++ rest, by simp [groupsText_singleton, hu], hc⟩
  | cons v ws => exact ⟨c, _, by rw [groupsText_cons_cons, hu]; rfl, hc⟩

theorem cutGap_groupsText (w : UInt16) (ws : List UInt16) (rest : Text) :
    cutGap (groupsText (w :: ws) ++ rest) =
      (cutGap rest).map fun (before, after) => (groupsText (w :: ws) ++ before, after) := by
  induction ws generalizing w with
  | nil =>
    rw [groupsText_singleton]
    exact cutGap_append (colon_not_mem_hex _) rest
  | cons v ws ih =>
    rw [groupsText_cons_cons, List.append_assoc, cutGap_append (colon_not_mem_hex _)]
    obtain ⟨c, t, ht, hc⟩ := groupsText_head v ws rest
    rw [List.cons_append, ht, cutGap_colon hc, ← ht, ih v]
    cases cutGap rest <;> simp

theorem cutGap_groupsText_eq_none (ws : List UInt16) : cutGap (groupsText ws) = none := by
  cases ws with
  | nil => rfl
  | cons w ws =>
    have h := cutGap_groupsText w ws []
    rw [List.append_nil] at h
    rw [h]
    rfl

theorem cutGap_gap (front : List UInt16) (rest : Text) :
    cutGap (groupsText front ++ ':' :: ':' :: rest) = some (groupsText front, rest) := by
  cases front with
  | nil => rfl
  | cons w ws =>
    rw [cutGap_groupsText]
    simp [cutGap]

/-- The run that is found lies within the words and holds zeros only. -/
theorem longestZeros_eq (ws : List UInt16) :
    ws = ws.take (longestZeros ws).1 ++ List.replicate (longestZeros ws).2 0 ++
      ws.drop ((longestZeros ws).1 + (longestZeros ws).2) := by
  have htake : ∀ ws : List UInt16,
      ws = List.replicate (ws.takeWhile (· = 0)).length 0 ++
        ws.drop (ws.takeWhile (· = 0)).length := by
    intro ws
    induction ws with
    | nil => rfl
    | cons w ws ih =>
      by_cases h : w = 0
      · subst h
        simp only [List.takeWhile_cons, decide_true, if_true, List.length_cons,
          List.replicate_succ, List.cons_append, List.drop_succ_cons]
        exact congrArg _ ih
      · simp [h]
  induction ws with
  | nil => rfl
  | cons w ws ih =>
    simp only [longestZeros]
    split
    · simpa using htake (w :: ws)
    · simp only [List.take_succ_cons, List.cons_append, Nat.add_right_comm _ 1,
        List.drop_succ_cons]
      exact congrArg _ ih

theorem ofWords?_words (ip : Ipv6) : ofWords? ip.words = some ip := by
  simp [ofWords?, ip.size]

theorem parse?_gap {front back : List UInt16} {ip : Ipv6}
    (h : ip.words = front ++ List.replicate (8 - front.length - back.length) 0 ++ back)
    (hl : front.length + back.length ≤ 7) :
    parse? (groupsText front ++ [':', ':'] ++ groupsText back) = some ip := by
  have hg : cutGap (groupsText front ++ [':', ':'] ++ groupsText back) =
      some (groupsText front, groupsText back) := by
    rw [List.append_assoc]
    exact cutGap_gap front (groupsText back)
  rw [parse?, hg]
  simp only [groupFields_groupsText, mapM_group?_hex, groups?_hex, Option.bind_eq_bind,
    Option.bind_some]
  rw [if_neg (by omega), ← h, ofWords?_words]

/-- An address that maps an IPv4 address consists of five zero words, a word of
ones and the octets of that address. -/
theorem words_of_mapped? {ip : Ipv6} {ipv4 : Ipv4} (h : ip.mapped? = some ipv4) :
    ip.words = List.replicate 5 0 ++
      [0xffff, Word.ofOctets ipv4.a ipv4.b, Word.ofOctets ipv4.c ipv4.d] := by
  obtain ⟨ws, hs⟩ := ip
  match ws, hs with
  | [w0, w1, w2, w3, w4, w5, w6, w7], _ =>
    simp only [mapped?] at h
    split at h
    case isFalse => cases h
    case isTrue ht =>
      simp only [octets, List.flatMap_cons, List.flatMap_nil, Word.octets, List.cons_append,
        List.nil_append, List.take_succ_cons, List.take_zero, List.replicate,
        List.cons.injEq, and_true] at ht
      obtain ⟨h0, h0', h1, h1', h2, h2', h3, h3', h4, h4', h5, h5'⟩ := ht
      injection h with h
      subst h
      have hw := Word.ofOctets_div_mod
      simp only [octets, List.flatMap_cons, List.flatMap_nil, Word.octets, List.cons_append,
        List.nil_append, List.drop_succ_cons, List.drop_zero, Ipv4.ofOctets, List.getD_cons_zero,
        List.getD_cons_succ, hw, List.replicate, List.cons.injEq, and_true]
      rw [← hw w0, ← hw w1, ← hw w2, ← hw w3, ← hw w4, ← hw w5, h0, h0', h1, h1', h2, h2', h3,
        h3', h4, h4', h5, h5']
      decide

theorem colon_not_mem_ipv4 (ipv4 : Ipv4) : ':' ∉ ipv4.text := by
  have hj : ∀ parts : List Text, (∀ p ∈ parts, ':' ∉ p) → ':' ∉ joined ['.'] parts := by
    intro parts h
    induction parts with
    | nil => simp [joined, List.intercalate]
    | cons p ps ih =>
      cases ps with
      | nil => simpa [joined, List.intercalate] using h
      | cons q qs =>
        have hq := ih fun p hp => h p (List.mem_cons_of_mem _ hp)
        simp only [joined, List.intercalate] at hq
        simpa [joined, List.intercalate, h p (by simp)] using hq
  apply hj
  intro p hp
  obtain ⟨o, -, rfl⟩ := List.mem_map.1 hp
  exact fun hmem => absurd (Decimal.isDigit_of_mem_text hmem) (by decide)

theorem parse?_mapped (ipv4 : Ipv4) :
    parse? ("::ffff:".toList ++ ipv4.text) = ofWords? (List.replicate 5 0 ++
      [0xffff, Word.ofOctets ipv4.a ipv4.b, Word.ofOctets ipv4.c ipv4.d]) := by
  have hf : groupFields ("ffff:".toList ++ ipv4.text) = ["ffff".toList, ipv4.text] := by
    have h := @fields_append ':' "ffff".toList ipv4.text (by decide)
    rw [fields_of_not_mem (colon_not_mem_ipv4 ipv4)] at h
    exact h
  have hg : group? "ffff".toList = some 0xffff := by decide
  have hgs : groups? ["ffff".toList, ipv4.text] =
      some [0xffff, Word.ofOctets ipv4.a ipv4.b, Word.ofOctets ipv4.c ipv4.d] := by
    rw [groups?, hg]
    · simp [groups?]
    · simp
  have hc : cutGap ("::ffff:".toList ++ ipv4.text) = some ([], "ffff:".toList ++ ipv4.text) := rfl
  rw [parse?, hc]
  simp only [hf, hgs]
  rfl

@[simp] theorem parse?_text (ip : Ipv6) : parse? ip.text = some ip := by
  unfold text
  split
  case h_1 ipv4 h => rw [parse?_mapped, ← words_of_mapped? h, ofWords?_words]
  case h_2 =>
    obtain ⟨start, length, hr⟩ : ∃ start length, longestZeros ip.words = (start, length) :=
      ⟨_, _, rfl⟩
    have hz := longestZeros_eq ip.words
    simp only [hr] at hz ⊢
    split
    case isTrue =>
      rw [parse?, cutGap_groupsText_eq_none]
      simp [groupFields_groupsText, groups?_hex, ofWords?_words]
    case isFalse hl =>
      have hn := congrArg List.length hz
      simp only [List.length_append, List.length_replicate] at hn
      apply parse?_gap
      · rw [show 8 - (ip.words.take start).length - (ip.words.drop (start + length)).length =
          length by have := ip.size; omega]
        exact hz
      · have := ip.size
        omega

end SocksProxy.Ipv6
