import SocksProxy.Text

/-!
# UTF-8, strictly and with replacement

`Utf8.parts` reads octets one at a time. It yields each complete character, and
one mark for each maximal part that begins a character without completing it or
that begins none. Strict decoding refuses every mark, lossy decoding writes the
replacement character for it.
-/

namespace SocksProxy.Utf8

def encodeChar (c : Char) : Bytes :=
  let n := c.toNat
  if n < 0x80 then [UInt8.ofNat n]
  else if n < 0x800 then [UInt8.ofNat (0xC0 + n / 64), UInt8.ofNat (0x80 + n % 64)]
  else if n < 0x10000 then
    [UInt8.ofNat (0xE0 + n / 4096), UInt8.ofNat (0x80 + n / 64 % 64),
      UInt8.ofNat (0x80 + n % 64)]
  else
    [UInt8.ofNat (0xF0 + n / 262144), UInt8.ofNat (0x80 + n / 4096 % 64),
      UInt8.ofNat (0x80 + n / 64 % 64), UInt8.ofNat (0x80 + n % 64)]

def encode (t : Text) : Bytes := t.flatMap encodeChar

def size (t : Text) : Nat := (encode t).length

/-- A character begun: the value of its octets so far, how many are missing, and
the range in which the next one has to lie. -/
structure Begun where
  value : Nat
  missing : Nat
  low : Nat
  high : Nat

/-- What reading one more octet yields, and the character begun after it. -/
abbrev Reading := List (Option Char) × Option Begun

/-- Reads the first octet of a character. The ranges leave out overlong forms,
surrogates and values beyond the last code point. -/
def first (b : UInt8) : Reading :=
  let n := b.toNat
  if n < 0x80 then ([some (Char.ofNat n)], none)
  else if n < 0xC2 then ([none], none)
  else if n < 0xE0 then ([], some ⟨n - 0xC0, 1, 0x80, 0xBF⟩)
  else if n = 0xE0 then ([], some ⟨0, 2, 0xA0, 0xBF⟩)
  else if n = 0xED then ([], some ⟨0xD, 2, 0x80, 0x9F⟩)
  else if n < 0xF0 then ([], some ⟨n - 0xE0, 2, 0x80, 0xBF⟩)
  else if n = 0xF0 then ([], some ⟨0, 3, 0x90, 0xBF⟩)
  else if n < 0xF4 then ([], some ⟨n - 0xF0, 3, 0x80, 0xBF⟩)
  else if n = 0xF4 then ([], some ⟨4, 3, 0x80, 0x8F⟩)
  else ([none], none)

/-- Reads one octet. One that does not continue the character begun ends a broken
part and is read again as a first octet. -/
def next : Option Begun → UInt8 → Reading
  | none, b => first b
  | some p, b =>
    if p.low ≤ b.toNat ∧ b.toNat ≤ p.high then
      let value := p.value * 64 + b.toNat % 64
      if p.missing ≤ 1 then ([some (Char.ofNat value)], none)
      else ([], some ⟨value, p.missing - 1, 0x80, 0xBF⟩)
    else
      let (read, begun) := first b
      (none :: read, begun)

/-- The characters and the broken parts of a string of octets, in order. -/
def parts : Option Begun → Bytes → List (Option Char)
  | none, [] => []
  | some _, [] => [none]
  | begun, b :: rest =>
    let (read, begun') := next begun b
    read ++ parts begun' rest

def decode? (bs : Bytes) : Option Text := (parts none bs).mapM id

def decodeLossy (bs : Bytes) : Text := (parts none bs).map (·.getD '\uFFFD')

@[simp] theorem encode_nil : encode [] = [] := rfl

@[simp] theorem encode_cons (c : Char) (t : Text) :
    encode (c :: t) = encodeChar c ++ encode t := rfl

@[simp] theorem encode_append (s t : Text) : encode (s ++ t) = encode s ++ encode t := by
  simp [encode]

@[simp] theorem next_none (b : UInt8) : next none b = first b := rfl

theorem parts_cons (begun : Option Begun) (b : UInt8) (rest : Bytes) :
    parts begun (b :: rest) = (next begun b).1 ++ parts (next begun b).2 rest := by
  cases begun <;> rfl

theorem toNat_octet {n : Nat} (h : n < 256) : (UInt8.ofNat n).toNat = n := by
  rw [UInt8.toNat_ofNat', Nat.mod_eq_of_lt h]

theorem next_of_mem_range {p : Begun} {n : Nat} (hn : n < 64) (hp : 1 < p.missing)
    (hl : p.low ≤ 0x80 + n) (hh : 0x80 + n ≤ p.high) :
    next (some p) (UInt8.ofNat (0x80 + n)) =
      ([], some ⟨p.value * 64 + n, p.missing - 1, 0x80, 0xBF⟩) := by
  have hm : (0x80 + n) % 64 = n := by omega
  simp only [next, toNat_octet (show 0x80 + n < 256 by omega), hm]
  rw [if_pos ⟨hl, hh⟩, if_neg (Nat.not_le.2 hp)]

theorem next_of_last {p : Begun} {n : Nat} (hn : n < 64) (hp : p.missing = 1)
    (hl : p.low ≤ 0x80 + n) (hh : 0x80 + n ≤ p.high) :
    next (some p) (UInt8.ofNat (0x80 + n)) = ([some (Char.ofNat (p.value * 64 + n))], none) := by
  have hm : (0x80 + n) % 64 = n := by omega
  simp only [next, toNat_octet (show 0x80 + n < 256 by omega), hm]
  rw [if_pos ⟨hl, hh⟩, if_pos (by omega)]

theorem parts_encodeChar (c : Char) (rest : Bytes) :
    parts none (encodeChar c ++ rest) = some c :: parts none rest := by
  have hv : c.toNat < 0xD800 ∨ 0xDFFF < c.toNat ∧ c.toNat < 0x110000 := c.valid
  have hc : Char.ofNat c.toNat = c := Char.ofNat_toNat c
  generalize hn : c.toNat = n at hv hc
  have hd2 : n / 64 * 64 + n % 64 = n := by omega
  have hd3 : (n / 4096 * 64 + n / 64 % 64) * 64 + n % 64 = n := by omega
  have hd4 : ((n / 262144 * 64 + n / 4096 % 64) * 64 + n / 64 % 64) * 64 + n % 64 = n := by omega
  simp only [encodeChar, hn]
  split
  · rename_i h1
    simp [parts_cons, first, toNat_octet (show n < 256 by omega), h1, hc]
  split
  · rename_i h1 h2
    have hf : first (UInt8.ofNat (0xC0 + n / 64)) = ([], some ⟨n / 64, 1, 0x80, 0xBF⟩) := by
      simp only [first, toNat_octet (show 0xC0 + n / 64 < 256 by omega)]
      rw [if_neg (by omega), if_neg (by omega), if_pos (by omega), Nat.add_sub_cancel_left]
    have hl := next_of_last (p := ⟨n / 64, 1, 0x80, 0xBF⟩) (n := n % 64) (by omega) rfl
      (by simp) (by simp; omega)
    simp only [List.cons_append, List.nil_append, parts_cons, next_none, hf, hl, hd2, hc]
  split
  · rename_i h1 h2 h3
    have hf : ∃ low high, first (UInt8.ofNat (0xE0 + n / 4096)) =
        ([], some ⟨n / 4096, 2, low, high⟩) ∧
        low ≤ 0x80 + n / 64 % 64 ∧ 0x80 + n / 64 % 64 ≤ high := by
      simp only [first, toNat_octet (show 0xE0 + n / 4096 < 256 by omega)]
      rw [if_neg (by omega), if_neg (by omega), if_neg (by omega)]
      split
      · exact ⟨0xA0, 0xBF, by simp; omega, by omega, by omega⟩
      split
      · exact ⟨0x80, 0x9F, by simp; omega, by omega, by omega⟩
      rw [if_pos (by omega), Nat.add_sub_cancel_left]
      exact ⟨0x80, 0xBF, rfl, by omega, by omega⟩
    obtain ⟨low, high, hf, hlow, hhigh⟩ := hf
    have hm := next_of_mem_range (p := ⟨n / 4096, 2, low, high⟩) (n := n / 64 % 64) (by omega)
      (by simp) hlow hhigh
    have hl := next_of_last (p := ⟨n / 4096 * 64 + n / 64 % 64, 1, 0x80, 0xBF⟩) (n := n % 64)
      (by omega) rfl (by simp) (by simp; omega)
    simp only [List.cons_append, List.nil_append, parts_cons, next_none, hf, hm,
      show 2 - 1 = 1 from rfl, hl, hd3, hc]
  · rename_i h1 h2 h3
    have hf : ∃ low high, first (UInt8.ofNat (0xF0 + n / 262144)) =
        ([], some ⟨n / 262144, 3, low, high⟩) ∧
        low ≤ 0x80 + n / 4096 % 64 ∧ 0x80 + n / 4096 % 64 ≤ high := by
      simp only [first, toNat_octet (show 0xF0 + n / 262144 < 256 by omega)]
      rw [if_neg (by omega), if_neg (by omega), if_neg (by omega), if_neg (by omega),
        if_neg (by omega), if_neg (by omega)]
      split
      · exact ⟨0x90, 0xBF, by simp; omega, by omega, by omega⟩
      split
      · rw [Nat.add_sub_cancel_left]
        exact ⟨0x80, 0xBF, rfl, by omega, by omega⟩
      rw [if_pos (by omega)]
      exact ⟨0x80, 0x8F, by simp; omega, by omega, by omega⟩
    obtain ⟨low, high, hf, hlow, hhigh⟩ := hf
    have hm := next_of_mem_range (p := ⟨n / 262144, 3, low, high⟩) (n := n / 4096 % 64)
      (by omega) (by simp) hlow hhigh
    have hk := next_of_mem_range (p := ⟨n / 262144 * 64 + n / 4096 % 64, 2, 0x80, 0xBF⟩)
      (n := n / 64 % 64) (by omega) (by simp) (by simp) (by simp; omega)
    have hl := next_of_last
      (p := ⟨(n / 262144 * 64 + n / 4096 % 64) * 64 + n / 64 % 64, 1, 0x80, 0xBF⟩)
      (n := n % 64) (by omega) rfl (by simp) (by simp; omega)
    simp only [List.cons_append, List.nil_append, parts_cons, next_none, hf, hm,
      show 3 - 1 = 2 from rfl, hk, show 2 - 1 = 1 from rfl, hl, hd4, hc]

theorem parts_encode (t : Text) (rest : Bytes) :
    parts none (encode t ++ rest) = t.map some ++ parts none rest := by
  induction t with
  | nil => rfl
  | cons c t ih => simp [List.append_assoc, parts_encodeChar, ih]

@[simp] theorem decode?_encode (t : Text) : decode? (encode t) = some t := by
  have h := parts_encode t []
  rw [List.append_nil] at h
  simp only [decode?, h, parts, List.append_nil]
  clear h
  induction t with
  | nil => rfl
  | cons c t ih => simp [ih]

theorem decodeLossy_of_decode? {bs : Bytes} {t : Text} (h : decode? bs = some t) :
    decodeLossy bs = t := by
  unfold decode? at h
  unfold decodeLossy
  generalize parts none bs = ps at h
  induction ps generalizing t with
  | nil => simpa using h.symm
  | cons p ps ih =>
    cases p with
    | none => simp at h
    | some c =>
      simp only [List.mapM_cons, id_eq, Option.bind_eq_bind, Option.bind_some] at h
      cases hr : ps.mapM id with
      | none => simp [hr] at h
      | some u =>
        simp only [hr, Option.bind_some, pure, Option.some.injEq] at h
        simp [← h, ih hr]

end SocksProxy.Utf8
