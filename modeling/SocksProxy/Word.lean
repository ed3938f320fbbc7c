import SocksProxy.Text

/-!
# Words of sixteen bits as octets

The more significant octet comes first.
-/

namespace SocksProxy.Word

def ofOctets (high low : UInt8) : UInt16 := UInt16.ofNat (high.toNat * 256 + low.toNat)

def octets (w : UInt16) : Bytes := [UInt8.ofNat (w.toNat / 256), UInt8.ofNat (w.toNat % 256)]

@[simp] theorem length_octets (w : UInt16) : (octets w).length = 2 := rfl

theorem ofOctets_div_mod (w : UInt16) :
    ofOctets (UInt8.ofNat (w.toNat / 256)) (UInt8.ofNat (w.toNat % 256)) = w := by
  have hw := w.toNat_lt
  apply UInt16.toNat_inj.1
  simp only [ofOctets, UInt8.toNat_ofNat', UInt16.toNat_ofNat']
  omega

theorem octets_ofOctets (high low : UInt8) : octets (ofOctets high low) = [high, low] := by
  have hh := high.toNat_lt
  have hl := low.toNat_lt
  have h : (ofOctets high low).toNat = high.toNat * 256 + low.toNat := by
    simp only [ofOctets, UInt16.toNat_ofNat']; omega
  simp only [octets, h, List.cons.injEq, and_true]
  constructor <;> apply UInt8.toNat_inj.1 <;> simp only [UInt8.toNat_ofNat'] <;> omega

end SocksProxy.Word
