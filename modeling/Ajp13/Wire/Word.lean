/-!
Sixteen-bit words as the wire carries them: two bytes, the high one first.

* `Word.ofBytes`, `Word.bytes`: reading and writing a word;
* `ofBytes_high_low`, `high_ofBytes`, `low_ofBytes`, `bytes_ofBytes`: the two are inverse, so a
  word has exactly one spelling.
-/

namespace Ajp13.Word

/-- The word with the high byte `hi` and the low byte `lo`. -/
def ofBytes (hi lo : UInt8) : UInt16 := UInt16.ofNat (hi.toNat * 256 + lo.toNat)

/-- The byte that is sent first. -/
def high (w : UInt16) : UInt8 := UInt8.ofNat (w.toNat / 256)

/-- The byte that is sent second. -/
def low (w : UInt16) : UInt8 := UInt8.ofNat w.toNat

/-- The two bytes of a word, in the order in which they are sent. -/
def bytes (w : UInt16) : List UInt8 := [high w, low w]

@[simp] theorem length_bytes (w : UInt16) : (bytes w).length = 2 := rfl

@[simp] theorem toNat_ofBytes (hi lo : UInt8) :
    (ofBytes hi lo).toNat = hi.toNat * 256 + lo.toNat := by
  have := hi.toNat_lt
  have := lo.toNat_lt
  rw [ofBytes, UInt16.toNat_ofNat']
  omega

@[simp] theorem high_ofBytes (hi lo : UInt8) : high (ofBytes hi lo) = hi := by
  have := lo.toNat_lt
  rw [high, toNat_ofBytes, show (hi.toNat * 256 + lo.toNat) / 256 = hi.toNat by omega,
    UInt8.ofNat_toNat]

@[simp] theorem low_ofBytes (hi lo : UInt8) : low (ofBytes hi lo) = lo := by
  apply UInt8.toNat_inj.1
  have := lo.toNat_lt
  rw [low, toNat_ofBytes, UInt8.toNat_ofNat']
  omega

@[simp] theorem ofBytes_high_low (w : UInt16) : ofBytes (high w) (low w) = w := by
  apply UInt16.toNat_inj.1
  have := w.toNat_lt
  rw [toNat_ofBytes, high, low, UInt8.toNat_ofNat', UInt8.toNat_ofNat']
  omega

@[simp] theorem bytes_ofBytes (hi lo : UInt8) : bytes (ofBytes hi lo) = [hi, lo] := by
  rw [bytes, high_ofBytes, low_ofBytes]

end Ajp13.Word
