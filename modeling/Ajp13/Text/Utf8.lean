/-!
UTF-8, in which strings are written.

* `Utf8.encode`: the bytes of a text, which are what its length is counted in on the wire;
* `encodeChar_of_ascii`, `le_of_mem_encodeChar`: a character below 128 is its own byte, and no byte of
  another is below 128;
* `fromUTF8?_encode`: they are read back as the text;
* `length_encode_le_and_eq_iff`: there are more of them than characters, unless the text is of ASCII.
-/

namespace Ajp13.Utf8

/-- The bytes of a text. -/
def encode (text : String) : List UInt8 := text.toList.flatMap String.utf8EncodeChar

/-- A character below 128 is its own byte. -/
theorem encodeChar_of_ascii {c : Char} (h : c.toNat < 128) :
    String.utf8EncodeChar c = [UInt8.ofNat c.toNat] := by
  have h' : c.val.toNat ≤ 127 := Nat.le_of_lt_succ h
  rw [String.utf8EncodeChar, if_pos h']
  rfl

/-- The bytes of any other character are all from 128 on. -/
theorem le_of_mem_encodeChar {c : Char} (hc : 128 ≤ c.toNat) {b : UInt8}
    (hb : b ∈ String.utf8EncodeChar c) : 128 ≤ b.toNat := by
  have hc' : ¬c.val.toNat ≤ 127 := Nat.not_le_of_lt hc
  simp only [String.utf8EncodeChar, if_neg hc'] at hb
  split at hb
  · simp only [List.mem_cons, List.not_mem_nil, or_false] at hb
    obtain rfl | rfl := hb <;> rw [UInt8.toNat_ofNat'] <;> omega
  split at hb
  · simp only [List.mem_cons, List.not_mem_nil, or_false] at hb
    obtain rfl | rfl | rfl := hb <;> rw [UInt8.toNat_ofNat'] <;> omega
  · simp only [List.mem_cons, List.not_mem_nil, or_false] at hb
    obtain rfl | rfl | rfl | rfl := hb <;> rw [UInt8.toNat_ofNat'] <;> omega

/-- The bytes of a text are those in which it is stored. -/
theorem toByteArray_encode (text : String) : (encode text).toByteArray = text.toByteArray :=
  String.utf8Encode_toList

theorem length_encode (text : String) : (encode text).length = text.utf8ByteSize := by
  rw [← List.size_toByteArray, toByteArray_encode, String.size_toByteArray]

/-- The bytes of a text are read back as the text. -/
theorem fromUTF8?_encode (text : String) :
    String.fromUTF8? (encode text).toByteArray = some text := by
  simp only [String.fromUTF8?, toByteArray_encode, dif_pos text.isValidUTF8]
  rfl

/-- A text has no fewer bytes than characters, and as many only if all of these are below 128. -/
theorem length_encode_le_and_eq_iff (text : String) :
    text.length ≤ (encode text).length ∧
      ((encode text).length = text.length ↔ ∀ c ∈ text.toList, c.toNat < 128) := by
  rw [← String.length_toList, encode]
  induction text.toList with
  | nil => simp
  | cons c chars ih =>
      have hpos := c.utf8Size_pos
      have hone : c.utf8Size = 1 ↔ c.toNat < 128 := by
        rw [Char.utf8Size_eq_one_iff, UInt32.le_iff_toNat_le]
        exact Nat.lt_succ_iff.symm
      rw [List.flatMap_cons, List.length_append, String.length_utf8EncodeChar, List.length_cons,
        List.forall_mem_cons, ← ih.2, ← hone]
      omega

end Ajp13.Utf8
