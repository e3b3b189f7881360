import Ajp13.Text.Utf8

/-!
ISO-8859-1, in which strings are read: byte `b` is the character with code point `b`.

* `Latin1.decode`: the text of a byte string, one character per byte;
* `decode_inj`: no two byte strings have the same text;
* `Latin1.read`: the same text, by a shortcut for bytes that are all of ASCII; `read_eq_decode`
  says that it is one, and `fromUTF8?_of_allAscii` that it never fails.
-/

namespace Ajp13.Latin1

/-- The character of a byte. -/
def char (b : UInt8) : Char := Char.ofNat b.toNat

/-- The text of a byte string. -/
def decode (bytes : List UInt8) : String := String.ofList (bytes.map char)

@[simp] theorem toList_decode (bytes : List UInt8) : (decode bytes).toList = bytes.map char :=
  String.toList_ofList

@[simp] theorem length_decode (bytes : List UInt8) : (decode bytes).length = bytes.length := by
  rw [← String.length_toList, toList_decode, List.length_map]

theorem toNat_char (b : UInt8) : (char b).toNat = b.toNat := by
  have := b.toNat_lt
  rw [char, Char.ofNat, dif_pos (Or.inl (by omega))]
  rfl

/-- The code points of a text are its bytes. -/
theorem map_toNat_decode (bytes : List UInt8) :
    (decode bytes).toList.map Char.toNat = bytes.map UInt8.toNat := by
  rw [toList_decode, List.map_map]
  exact List.map_congr_left fun b _ => toNat_char b

theorem char_inj {a b : UInt8} (h : char a = char b) : a = b := by
  apply UInt8.toNat_inj.1
  rw [← toNat_char, h, toNat_char]

theorem decode_inj {a b : List UInt8} (h : decode a = decode b) : a = b := by
  have h' : a.map char = b.map char := by rw [← toList_decode, h, toList_decode]
  exact (List.map_inj_right fun _ _ => char_inj).1 h'

/-! ### A shortcut -/

/-- Whether all bytes are below 128. -/
def allAscii (bytes : List UInt8) : Bool := bytes.all (· < 128)

/-- The text of a byte string. Bytes of ASCII are UTF-8 as they stand. -/
def read (bytes : List UInt8) : String :=
  if allAscii bytes then (String.fromUTF8? bytes.toByteArray).getD "" else decode bytes

/-- The character of a byte of ASCII is written as that byte. -/
theorem encodeChar_char {b : UInt8} (h : b < 128) : String.utf8EncodeChar (char b) = [b] := by
  have hb : (char b).toNat < 128 := by rwa [toNat_char]
  rw [Utf8.encodeChar_of_ascii hb, toNat_char, UInt8.ofNat_toNat]

/-- Bytes of ASCII are those of their text. -/
theorem encode_decode {bytes : List UInt8} (h : allAscii bytes = true) :
    Utf8.encode (decode bytes) = bytes := by
  rw [Utf8.encode, toList_decode]
  induction bytes with
  | nil => rfl
  | cons b bytes ih =>
      rw [allAscii, List.all_cons, Bool.and_eq_true, decide_eq_true_eq] at h
      rw [List.map_cons, List.flatMap_cons, encodeChar_char h.1, ih h.2, List.singleton_append]

/-- So they are read as UTF-8 without fail. -/
theorem fromUTF8?_of_allAscii {bytes : List UInt8} (h : allAscii bytes = true) :
    String.fromUTF8? bytes.toByteArray = some (decode bytes) := by
  have hread := Utf8.fromUTF8?_encode (decode bytes)
  rwa [encode_decode h] at hread

/-- The shortcut leads to the same text. -/
theorem read_eq_decode (bytes : List UInt8) : read bytes = decode bytes := by
  rw [read]
  split
  next h => rw [fromUTF8?_of_allAscii h, Option.getD_some]
  next => rfl

end Ajp13.Latin1
