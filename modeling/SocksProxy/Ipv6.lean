import SocksProxy.Ipv4
import SocksProxy.Word

/-!
# IPv6 addresses

Eight words of sixteen bits. The text is the recommended one: lowercase
hexadecimal without leading zeros, the first longest run of two or more zero
words replaced by `::`, and the last two words in the form of an IPv4 address
where the address maps one. Reading accepts every usual form.
-/

namespace SocksProxy

structure Ipv6 where
  words : List UInt16
  size : words.length = 8
  deriving DecidableEq, Repr

namespace Ipv6

instance : Inhabited Ipv6 := ⟨⟨List.replicate 8 0, rfl⟩⟩

def ofWords? (ws : List UInt16) : Option Ipv6 :=
  if h : ws.length = 8 then some ⟨ws, h⟩ else none

def octets (ip : Ipv6) : Bytes := ip.words.flatMap Word.octets

def ofOctets (bs : Bytes) : Ipv6 :=
  ⟨(List.range 8).map fun i => Word.ofOctets (bs.getD (2 * i) 0) (bs.getD (2 * i + 1) 0), by simp⟩

@[simp] theorem length_octets (ip : Ipv6) : ip.octets.length = 16 := by
  have h : ∀ ws : List UInt16, (ws.flatMap Word.octets).length = 2 * ws.length := by
    intro ws
    induction ws with
    | nil => rfl
    | cons w ws ih => simp [List.flatMap_cons, ih, Word.octets]; omega
  simp [octets, h, ip.size]

theorem octets_ofOctets {bs : Bytes} (h : bs.length = 16) : (ofOctets bs).octets = bs := by
  match bs, h with
  | [_, _, _, _, _, _, _, _, _, _, _, _, _, _, _, _], _ =>
    simp [octets, ofOctets, List.range_succ, Word.octets_ofOctets]

@[simp] theorem ofOctets_octets (ip : Ipv6) : ofOctets ip.octets = ip := by
  obtain ⟨ws, hs⟩ := ip
  match ws, hs with
  | [_, _, _, _, _, _, _, _], _ =>
    simp [octets, ofOctets, List.range_succ, Word.octets, Word.ofOctets_div_mod]

/-- Where the first longest run of zero words begins, and its length. -/
def longestZeros : List UInt16 → Nat × Nat
  | [] => (0, 0)
  | w :: ws =>
    let here := ((w :: ws).takeWhile (· = 0)).length
    let (start, length) := longestZeros ws
    if length ≤ here then (0, here) else (start + 1, length)

def mapped? (ip : Ipv6) : Option Ipv4 :=
  if ip.octets.take 12 = List.replicate 10 0 ++ [0xff, 0xff] then
    some (Ipv4.ofOctets (ip.octets.drop 12))
  else none

def groupsText (ws : List UInt16) : Text := joined [':'] (ws.map fun w => Hex.text w.toNat)

def text (ip : Ipv6) : Text :=
  match ip.mapped? with
  | some ipv4 => "::ffff:".toList ++ ipv4.text
  | none =>
    let (start, length) := longestZeros ip.words
    if length ≤ 1 then groupsText ip.words
    else groupsText (ip.words.take start) ++ [':', ':'] ++
      groupsText (ip.words.drop (start + length))

def group? (t : Text) : Option UInt16 := (Hex.parse? 4 t).map UInt16.ofNat

/-- Reads groups of which the last may be an IPv4 address, which is two words. -/
def groups? : List Text → Option (List UInt16)
  | [] => some []
  | [last] =>
    match Ipv4.parse? last with
    | some ipv4 => some [Word.ofOctets ipv4.a ipv4.b, Word.ofOctets ipv4.c ipv4.d]
    | none => (group? last).map ([·])
  | g :: gs => do return (← group? g) :: (← groups? gs)

def cutGap : Text → Option (Text × Text)
  | [] => none
  | ':' :: ':' :: rest => some ([], rest)
  | c :: rest => (cutGap rest).map fun (before, after) => (c :: before, after)

def groupFields (t : Text) : List Text := if t.isEmpty then [] else fields ':' t

/-- Reads eight words, or at most seven around a double colon. -/
def parse? (t : Text) : Option Ipv6 :=
  match cutGap t with
  | none => do ofWords? (← groups? (groupFields t))
  | some (before, after) => do
    let head ← (groupFields before).mapM group?
    let tail ← groups? (groupFields after)
    if 7 < head.length + tail.length then none
    else ofWords? (head ++ List.replicate (8 - head.length - tail.length) 0 ++ tail)

end Ipv6

end SocksProxy
