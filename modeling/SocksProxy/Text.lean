/-!
# Text, numbers in text and the bytes of text

Text is a list of characters, cut at its first separator or split into fields
at all of them. Natural numbers are written in decimal or in lowercase
hexadecimal without leading zeros; reading a decimal number accepts any number
of leading zeros and checks an upper bound.
-/

namespace SocksProxy

abbrev Text := List Char

abbrev Bytes := List UInt8

def cut (stop : Char) : Text → Option (Text × Text)
  | [] => none
  | c :: rest =>
    if c = stop then some ([], rest)
    else (cut stop rest).map fun (before, after) => (c :: before, after)

theorem cut_eq_some_iff {stop : Char} {t before after : Text} :
    cut stop t = some (before, after) ↔ t = before ++ stop :: after ∧ stop ∉ before := by
  induction t generalizing before with
  | nil => simp [cut]
  | cons c rest ih =>
    by_cases hc : c = stop
    · subst hc
      cases before with
      | nil => simp [cut, eq_comm]
      | cons b bs => simp [cut]; rintro rfl; simp
    · cases before with
      | nil => simp [cut, hc]
      | cons b bs =>
        have hb : ∀ p : Text × Text, (c :: p.1 = b :: bs ∧ p.2 = after) ↔
            (c = b ∧ p = (bs, after)) := fun p => by
          constructor
          · rintro ⟨h, rfl⟩; injection h with h1 h2; exact ⟨h1, Prod.ext h2 rfl⟩
          · rintro ⟨rfl, rfl⟩; exact ⟨rfl, rfl⟩
        simp only [cut, hc, if_false, Option.map_eq_some_iff, Prod.mk.injEq, hb]
        constructor
        · rintro ⟨p, hp, rfl, rfl⟩
          obtain ⟨h1, h2⟩ := ih.1 hp
          refine ⟨by simp [h1], ?_⟩
          simp [h2, Ne.symm hc]
        · rintro ⟨h1, h2⟩
          simp only [List.cons_append, List.cons.injEq] at h1
          simp only [List.mem_cons, not_or] at h2
          exact ⟨(bs, after), ih.2 ⟨h1.2, h2.2⟩, h1.1, rfl⟩

/-- The parts of a text between separators. There is always one part more than
there are separators. -/
def fields (separator : Char) : Text → List Text
  | [] => [[]]
  | c :: rest =>
    if c = separator then [] :: fields separator rest
    else match fields separator rest with
      | [] => [[c]]
      | part :: parts => (c :: part) :: parts

def joined (separator : Text) (parts : List Text) : Text := separator.intercalate parts

theorem fields_of_not_mem {separator : Char} {t : Text} (h : separator ∉ t) :
    fields separator t = [t] := by
  induction t with
  | nil => rfl
  | cons c rest ih =>
    simp only [List.mem_cons, not_or] at h
    simp [fields, Ne.symm h.1, ih h.2]

theorem fields_append {separator : Char} {t rest : Text} (h : separator ∉ t) :
    fields separator (t ++ separator :: rest) = t :: fields separator rest := by
  induction t with
  | nil => simp [fields]
  | cons c t ih =>
    simp only [List.mem_cons, not_or] at h
    simp [fields, Ne.symm h.1, ih h.2]

theorem fields_joined {separator : Char} {part : Text} {parts : List Text}
    (h : ∀ p ∈ part :: parts, separator ∉ p) :
    fields separator (joined [separator] (part :: parts)) = part :: parts := by
  induction parts generalizing part with
  | nil => simpa [joined] using fields_of_not_mem (h part (by simp))
  | cons q qs ih =>
    have hq := @ih q fun p hp => h p (List.mem_cons_of_mem _ hp)
    have hj : joined [separator] (part :: q :: qs) =
        part ++ separator :: joined [separator] (q :: qs) := by
      simp [joined, List.intercalate, List.intersperse]
    rw [hj, fields_append (h part (by simp)), hq]

namespace Decimal

def text (n : Nat) : Text := Nat.toDigits 10 n

def value (t : Text) : Nat := Nat.ofDigitChars 10 t 0

/-- Reads a non-empty string of decimal digits whose value is at most `bound`. -/
def parse? (bound : Nat) (t : Text) : Option Nat :=
  if !t.isEmpty && t.all Char.isDigit && decide (value t ≤ bound) then some (value t) else none

@[simp] theorem value_text (n : Nat) : value (text n) = n :=
  Nat.ofDigitChars_ten_toDigits

theorem isDigit_of_mem_text {n : Nat} {c : Char} (h : c ∈ text n) : c.isDigit = true :=
  Nat.isDigit_of_mem_toDigits (by omega) (by omega) h

theorem text_ne_nil (n : Nat) : text n ≠ [] := Nat.toDigits_ne_nil

theorem parse?_text {bound n : Nat} (h : n ≤ bound) : parse? bound (text n) = some n := by
  have hd : (text n).all Char.isDigit = true :=
    List.all_eq_true.2 fun _ hc => isDigit_of_mem_text hc
  simp [parse?, hd, h, text_ne_nil]

end Decimal

namespace Hex

def value? (c : Char) : Option Nat :=
  if c.isDigit then some (c.toNat - 48)
  else if 'a' ≤ c ∧ c ≤ 'f' then some (c.toNat - 87)
  else if 'A' ≤ c ∧ c ≤ 'F' then some (c.toNat - 55)
  else none

def text (n : Nat) : Text := Nat.toDigits 16 n

/-- Reads one to `width` hexadecimal digits. -/
def parse? (width : Nat) (t : Text) : Option Nat :=
  if t.isEmpty || decide (width < t.length) then none
  else (t.mapM value?).map (List.foldl (fun sofar digit => 16 * sofar + digit) 0)

theorem value?_digitChar {d : Nat} (h : d < 16) : value? (Nat.digitChar d) = some d := by
  have hd : ∀ d : Fin 16, value? (Nat.digitChar d) = some d.val := by decide
  exact hd ⟨d, h⟩

theorem text_ne_nil (n : Nat) : text n ≠ [] := Nat.toDigits_ne_nil

theorem mapM_value?_text (n : Nat) :
    ∃ digits, (text n).mapM value? = some digits ∧
      digits.foldl (fun sofar digit => 16 * sofar + digit) 0 = n := by
  induction n using Nat.strongRecOn with
  | ind n ih =>
    by_cases h : n < 16
    · exact ⟨[n], by simp [text, Nat.toDigits_of_lt_base h, value?_digitChar h], by simp⟩
    · obtain ⟨digits, hd, hn⟩ := ih (n / 16) (by omega)
      have ht : text n = text (n / 16) ++ [Nat.digitChar (n % 16)] :=
        Nat.toDigits_of_base_le (by decide) (by omega)
      refine ⟨digits ++ [n % 16], ?_, ?_⟩
      · simp [ht, List.mapM_append, hd, value?_digitChar (Nat.mod_lt n (by decide))]
      · simp only [List.foldl_append, hn, List.foldl_cons, List.foldl_nil]
        omega

theorem parse?_text {n width : Nat} (h : (text n).length ≤ width) :
    parse? width (text n) = some n := by
  obtain ⟨digits, hd, hn⟩ := mapM_value?_text n
  simp [parse?, text_ne_nil, Nat.not_lt.2 h, hd, hn]

theorem value?_isSome_of_mem_text {n : Nat} {c : Char} (h : c ∈ text n) :
    (value? c).isSome := by
  induction n using Nat.strongRecOn with
  | ind n ih =>
    by_cases hn : n < 16
    · simp only [text, Nat.toDigits_of_lt_base hn, List.mem_singleton] at h
      simp [h, value?_digitChar hn]
    · have ht : text n = text (n / 16) ++ [Nat.digitChar (n % 16)] :=
        Nat.toDigits_of_base_le (by decide) (by omega)
      rw [ht, List.mem_append, List.mem_singleton] at h
      rcases h with h | rfl
      · exact ih (n / 16) (by omega) h
      · simp [value?_digitChar (Nat.mod_lt n (by decide))]

def octet (b : UInt8) : Text :=
  '0' :: 'x' :: [Nat.digitChar (b.toNat / 16), Nat.digitChar (b.toNat % 16)]

end Hex

end SocksProxy
