import SocksProxy.Text

/-!
# IPv4 addresses

Four octets, written in decimal with points between them. An octet has one
written form, so a text stands for an address only if it is the text of one.
-/

namespace SocksProxy

structure Ipv4 where
  a : UInt8
  b : UInt8
  c : UInt8
  d : UInt8
  deriving DecidableEq, Repr

namespace Ipv4

def unspecified : Ipv4 := ⟨0, 0, 0, 0⟩

def octets (ip : Ipv4) : Bytes := [ip.a, ip.b, ip.c, ip.d]

def ofOctets (bs : Bytes) : Ipv4 := ⟨bs.getD 0 0, bs.getD 1 0, bs.getD 2 0, bs.getD 3 0⟩

@[simp] theorem length_octets (ip : Ipv4) : ip.octets.length = 4 := rfl

@[simp] theorem ofOctets_octets (ip : Ipv4) (rest : Bytes) :
    ofOctets (ip.octets ++ rest) = ip := rfl

theorem octets_ofOctets {bs : Bytes} (h : bs.length = 4) : (ofOctets bs).octets = bs := by
  match bs, h with
  | [_, _, _, _], _ => rfl

def text (ip : Ipv4) : Text := joined ['.'] (ip.octets.map fun o => Decimal.text o.toNat)

/-- Reads an octet in its only form, without leading zeros. -/
def octet? (t : Text) : Option UInt8 :=
  match Decimal.parse? 255 t with
  | some n => if Decimal.text n = t then some (UInt8.ofNat n) else none
  | none => none

def parse? (t : Text) : Option Ipv4 :=
  match (fields '.' t).mapM octet? with
  | some [a, b, c, d] => some ⟨a, b, c, d⟩
  | _ => none

@[simp] theorem octet?_text (o : UInt8) : octet? (Decimal.text o.toNat) = some o := by
  have h : o.toNat ≤ 255 := by have := o.toNat_lt; omega
  simp [octet?, Decimal.parse?_text h]

@[simp] theorem parse?_text (ip : Ipv4) : parse? ip.text = some ip := by
  have hf : fields '.' ip.text = ip.octets.map fun o => Decimal.text o.toNat := by
    apply fields_joined
    intro p hp hmem
    have : p ∈ ip.octets.map fun o => Decimal.text o.toNat := hp
    obtain ⟨o, -, rfl⟩ := List.mem_map.1 this
    exact absurd (Decimal.isDigit_of_mem_text hmem) (by decide)
  simp [parse?, hf, octets]

end Ipv4

end SocksProxy
