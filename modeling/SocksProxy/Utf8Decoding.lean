import SocksProxy.Utf8

/-!
# Strict decoding accepts exactly the octets of texts

Reading octets without a broken part forces each first octet to be followed by
octets in its ranges, and these are the octets of the character read. Hence a
string of octets is decoded to a text if and only if it is its encoding.
-/

namespace SocksProxy.Utf8

theorem toNat_ofNat {n : Nat} (h : n < 0xD800 ∨ 0xDFFF < n ∧ n < 0x110000) :
    (Char.ofNat n).toNat = n := by
  have hv : n.isValidChar := h
  rw [Char.ofNat, dif_pos hv]
  rfl

theorem decode?_eq_some_iff {bs : Bytes} {t : Text} :
    decode? bs = some t ↔ parts none bs = t.map some := by
  unfold decode?
  generalize parts none bs = ps
  induction ps generalizing t with
  | nil => cases t <;> simp
  | cons p ps ih =>
    cases p with
    | none => cases t <;> simp
    | some c =>
      simp only [List.mapM_cons, id_eq, Option.bind_eq_bind, Option.bind_some]
      cases t with
      | nil => cases ps.mapM id <;> simp
      | cons d t =>
        cases hr : ps.mapM id with
        | none =>
          have h : ps ≠ t.map some := fun h => by simp [ih.2 h] at hr
          simp [h]
        | some u =>
          have h : u = t ↔ ps = t.map some := by rw [← ih, hr, Option.some_inj]
          simp [h]

theorem next_inside {p : Begun} {b : UInt8} {rest : Bytes} {t : Text}
    (h : parts (some p) (b :: rest) = t.map some) : p.low ≤ b.toNat ∧ b.toNat ≤ p.high := by
  by_cases hr : p.low ≤ b.toNat ∧ b.toNat ≤ p.high
  · exact hr
  · rw [parts_cons, next, if_neg hr] at h
    cases t <;> simp at h

theorem parts_some_nil {p : Begun} {t : Text} : parts (some p) [] ≠ t.map some := by
  cases t <;> simp [parts]

theorem follow {p : Begun} {bs : Bytes} {t : Text} (h : parts (some p) bs = t.map some) :
    ∃ b rest, bs = b :: rest ∧ p.low ≤ b.toNat ∧ b.toNat ≤ p.high ∧
      if p.missing ≤ 1 then
        ∃ u, t = Char.ofNat (p.value * 64 + b.toNat % 64) :: u ∧ parts none rest = u.map some
      else
        parts (some ⟨p.value * 64 + b.toNat % 64, p.missing - 1, 0x80, 0xBF⟩) rest =
          t.map some := by
  cases bs with
  | nil => exact absurd h parts_some_nil
  | cons b rest =>
    have hr := next_inside h
    refine ⟨b, rest, rfl, hr.1, hr.2, ?_⟩
    rw [parts_cons, next, if_pos hr] at h
    split
    · rename_i hm
      rw [if_pos hm] at h
      cases t with
      | nil => simp at h
      | cons c u =>
        simp only [List.cons_append, List.nil_append, List.map_cons, List.cons.injEq,
          Option.some.injEq] at h
        exact ⟨u, by rw [h.1], h.2⟩
    · rename_i hm
      rw [if_neg hm] at h
      simpa using h

/-- A first octet is a character, breaks, or begins a character of two, three or four
octets. -/
theorem first_cases (b : UInt8) :
    (b.toNat < 0x80 ∧ first b = ([some (Char.ofNat b.toNat)], none)) ∨
    first b = ([none], none) ∨
    (∃ v, 2 ≤ v ∧ v < 32 ∧ b.toNat = 0xC0 + v ∧ first b = ([], some ⟨v, 1, 0x80, 0xBF⟩)) ∨
    (∃ v low high, v < 16 ∧ b.toNat = 0xE0 + v ∧ 0x80 ≤ low ∧ high ≤ 0xBF ∧
      (v = 0 → low = 0xA0) ∧ (v = 0xD → high = 0x9F) ∧
      first b = ([], some ⟨v, 2, low, high⟩)) ∨
    (∃ v low high, v ≤ 4 ∧ b.toNat = 0xF0 + v ∧ 0x80 ≤ low ∧ high ≤ 0xBF ∧
      (v = 0 → low = 0x90) ∧ (v = 4 → high = 0x8F) ∧
      first b = ([], some ⟨v, 3, low, high⟩)) := by
  generalize hr : first b = r
  unfold first at hr
  generalize b.toNat = n at hr ⊢
  dsimp only at hr
  split at hr
  · exact .inl ⟨by omega, hr.symm⟩
  split at hr
  · exact .inr (.inl hr.symm)
  split at hr
  · exact .inr (.inr (.inl ⟨n - 0xC0, by omega, by omega, by omega, hr.symm⟩))
  split at hr
  · exact .inr (.inr (.inr (.inl ⟨0, 0xA0, 0xBF, by omega, by omega, by omega, by omega,
      by omega, by omega, hr.symm⟩)))
  split at hr
  · exact .inr (.inr (.inr (.inl ⟨0xD, 0x80, 0x9F, by omega, by omega, by omega, by omega,
      by omega, by omega, hr.symm⟩)))
  split at hr
  · exact .inr (.inr (.inr (.inl ⟨n - 0xE0, 0x80, 0xBF, by omega, by omega, by omega, by omega,
      by omega, by omega, hr.symm⟩)))
  split at hr
  · exact .inr (.inr (.inr (.inr ⟨0, 0x90, 0xBF, by omega, by omega, by omega, by omega,
      by omega, by omega, hr.symm⟩)))
  split at hr
  · exact .inr (.inr (.inr (.inr ⟨n - 0xF0, 0x80, 0xBF, by omega, by omega, by omega, by omega,
      by omega, by omega, hr.symm⟩)))
  split at hr
  · exact .inr (.inr (.inr (.inr ⟨4, 0x80, 0x8F, by omega, by omega, by omega, by omega,
      by omega, by omega, hr.symm⟩)))
  · exact .inr (.inl hr.symm)

theorem eq_ofNat {b : UInt8} {n : Nat} (h : b.toNat = n) : b = UInt8.ofNat n := by
  rw [← h, UInt8.ofNat_toNat]

theorem encodeChar_one {n : Nat} (h : n < 0x80) :
    encodeChar (Char.ofNat n) = [UInt8.ofNat n] := by
  simp only [encodeChar, toNat_ofNat (show n < 0xD800 ∨ _ from .inl (by omega)), if_pos h]

theorem encodeChar_two {v m : Nat} (hv : 2 ≤ v) (hv' : v < 32) (hm : m < 64) :
    encodeChar (Char.ofNat (v * 64 + m)) = [UInt8.ofNat (0xC0 + v), UInt8.ofNat (0x80 + m)] := by
  have h := toNat_ofNat (n := v * 64 + m) (by omega)
  simp only [encodeChar, h]
  rw [if_neg (by omega), if_pos (by omega), show (v * 64 + m) / 64 = v by omega,
    show (v * 64 + m) % 64 = m by omega]

theorem encodeChar_three {v m k : Nat} (hv : v < 16) (hm : m < 64) (hk : k < 64)
    (h0 : v = 0 → 0x20 ≤ m) (hd : v = 0xD → m < 0x20) :
    encodeChar (Char.ofNat ((v * 64 + m) * 64 + k)) =
      [UInt8.ofNat (0xE0 + v), UInt8.ofNat (0x80 + m), UInt8.ofNat (0x80 + k)] := by
  have h := toNat_ofNat (n := (v * 64 + m) * 64 + k) (by omega)
  simp only [encodeChar, h]
  rw [if_neg (by omega), if_neg (by omega), if_pos (by omega),
    show ((v * 64 + m) * 64 + k) / 4096 = v by omega,
    show ((v * 64 + m) * 64 + k) / 64 % 64 = m by omega,
    show ((v * 64 + m) * 64 + k) % 64 = k by omega]

theorem encodeChar_four {v m k l : Nat} (hv : v ≤ 4) (hm : m < 64) (hk : k < 64) (hl : l < 64)
    (h0 : v = 0 → 0x10 ≤ m) (h4 : v = 4 → m < 0x10) :
    encodeChar (Char.ofNat (((v * 64 + m) * 64 + k) * 64 + l)) =
      [UInt8.ofNat (0xF0 + v), UInt8.ofNat (0x80 + m), UInt8.ofNat (0x80 + k),
        UInt8.ofNat (0x80 + l)] := by
  have h := toNat_ofNat (n := ((v * 64 + m) * 64 + k) * 64 + l) (by omega)
  simp only [encodeChar, h]
  rw [if_neg (by omega), if_neg (by omega), if_neg (by omega),
    show (((v * 64 + m) * 64 + k) * 64 + l) / 262144 = v by omega,
    show (((v * 64 + m) * 64 + k) * 64 + l) / 4096 % 64 = m by omega,
    show (((v * 64 + m) * 64 + k) * 64 + l) / 64 % 64 = k by omega,
    show (((v * 64 + m) * 64 + k) * 64 + l) % 64 = l by omega]

theorem encode_of_parts {bs : Bytes} {t : Text} (h : parts none bs = t.map some) :
    encode t = bs := by
  induction hn : bs.length using Nat.strongRecOn generalizing bs t with
  | ind n ih =>
    subst hn
    cases bs with
    | nil => cases t <;> simp_all [parts]
    | cons b rest =>
      rw [parts_cons, next_none] at h
      rcases first_cases b with ⟨hb, hf⟩ | hf | ⟨v, hv, hv', hb, hf⟩ |
        ⟨v, low, high, hv, hb, hlow, hhigh, h0, hd, hf⟩ |
        ⟨v, low, high, hv, hb, hlow, hhigh, h0, hd, hf⟩
      · rw [hf] at h
        cases t with
        | nil => simp at h
        | cons c u =>
          simp only [List.cons_append, List.nil_append, List.map_cons, List.cons.injEq,
            Option.some.injEq] at h
          obtain ⟨rfl, h⟩ := h
          rw [encode_cons, encodeChar_one hb, ih rest.length (by simp) h rfl,
            ← eq_ofNat rfl]
          rfl
      · rw [hf] at h
        cases t <;> simp at h
      · rw [hf, List.nil_append] at h
        obtain ⟨c, rest, rfl, h1, h2, hc⟩ := follow h
        clear h
        simp only at h1 h2
        rw [if_pos (by simp)] at hc
        obtain ⟨u, rfl, hu⟩ := hc
        rw [encode_cons, encodeChar_two hv hv' (by omega),
          ih rest.length (by simp only [List.length_cons]; omega) hu rfl, ← eq_ofNat hb,
          ← eq_ofNat (show c.toNat = _ by omega)]
        rfl
      · rw [hf, List.nil_append] at h
        obtain ⟨c, rest, rfl, h1, h2, hc⟩ := follow h
        clear h
        simp only at h1 h2
        rw [if_neg (by simp)] at hc
        obtain ⟨d, rest, rfl, h3, h4, hd'⟩ := follow hc
        clear hc
        simp only at h3 h4
        rw [if_pos (by simp)] at hd'
        obtain ⟨u, rfl, hu⟩ := hd'
        rw [encode_cons, encodeChar_three hv (by omega) (by omega) (by omega) (by omega),
          ih rest.length (by simp only [List.length_cons]; omega) hu rfl, ← eq_ofNat hb,
          ← eq_ofNat (show c.toNat = _ by omega), ← eq_ofNat (show d.toNat = _ by omega)]
        rfl
      · rw [hf, List.nil_append] at h
        obtain ⟨c, rest, rfl, h1, h2, hc⟩ := follow h
        clear h
        simp only at h1 h2
        rw [if_neg (by simp)] at hc
        obtain ⟨d, rest, rfl, h3, h4, hd'⟩ := follow hc
        clear hc
        simp only at h3 h4
        rw [if_neg (by simp)] at hd'
        obtain ⟨e, rest, rfl, h5, h6, he⟩ := follow hd'
        clear hd'
        simp only at h5 h6
        rw [if_pos (by simp)] at he
        obtain ⟨u, rfl, hu⟩ := he
        rw [encode_cons, encodeChar_four hv (by omega) (by omega) (by omega) (by omega) (by omega),
          ih rest.length (by simp only [List.length_cons]; omega) hu rfl, ← eq_ofNat hb,
          ← eq_ofNat (show c.toNat = _ by omega), ← eq_ofNat (show d.toNat = _ by omega),
          ← eq_ofNat (show e.toNat = _ by omega)]
        rfl

/-- Strict decoding accepts exactly the octets of texts. -/
theorem decode?_eq_some_iff_encode {bs : Bytes} {t : Text} :
    decode? bs = some t ↔ encode t = bs := by
  constructor
  · exact fun h => encode_of_parts (decode?_eq_some_iff.1 h)
  · rintro rfl
    exact decode?_encode t

end SocksProxy.Utf8
