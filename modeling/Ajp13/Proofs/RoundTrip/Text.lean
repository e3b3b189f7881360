import Ajp13.Http.Header
import Ajp13.Text.Utf8
import Mathlib.Tactic.Lemma

/-!
What arrives of a text. It is written in UTF-8 and read in ISO-8859-1, so each of its bytes arrives
as a character.

* `Text.arrival`: the text that arrives; `Text.IsAscii`: a text of characters below 128;
* `Text.arrival_of_ascii`: such a text arrives as it is, and so does each header name;
* `Text.arrival_eq_self_iff`: no other text does;
* `Text.arrival_inj`: no two texts arrive as the same one.
-/

namespace Ajp13

/-- No two texts have the same bytes. -/
lemma Utf8.encode_inj {s t : String} (h : Utf8.encode s = Utf8.encode t) : s = t := by
  apply String.toByteArray_inj.1
  rw [← Utf8.toByteArray_encode, h, Utf8.toByteArray_encode]

namespace Text

/-- All characters are below 128. -/
def IsAscii (text : String) : Prop := ∀ c ∈ text.toList, c.toNat < 128

instance (text : String) : Decidable (IsAscii text) :=
  List.decidableBAll (fun c : Char => c.toNat < 128) text.toList

/-- The text that arrives when the given one is sent. -/
def arrival (text : String) : String := Latin1.decode (Utf8.encode text)

lemma arrival_inj {s t : String} (h : arrival s = arrival t) : s = t :=
  Utf8.encode_inj (Latin1.decode_inj h)

/-- Characters below 128 are read as they were written. -/
lemma map_char_flatMap_encodeChar {chars : List Char} (h : ∀ c ∈ chars, c.toNat < 128) :
    (chars.flatMap String.utf8EncodeChar).map Latin1.char = chars := by
  induction chars with
  | nil => rfl
  | cons c chars ih =>
      obtain ⟨hc, hchars⟩ := List.forall_mem_cons.1 h
      have hbyte : Latin1.char (UInt8.ofNat c.toNat) = c := by
        rw [Latin1.char, UInt8.toNat_ofNat', Nat.mod_eq_of_lt (by omega), Char.ofNat_toNat]
      rw [List.flatMap_cons, Utf8.encodeChar_of_ascii hc, List.map_append, List.map_singleton,
        hbyte, ih hchars, List.singleton_append]

lemma arrival_of_ascii {text : String} (h : IsAscii text) : arrival text = text := by
  rw [arrival, Latin1.decode, Utf8.encode, map_char_flatMap_encodeChar h, String.ofList_toList]

/-- A character arrives of each byte. -/
lemma length_arrival (text : String) : (arrival text).length = text.utf8ByteSize := by
  rw [arrival, Latin1.length_decode, Utf8.length_encode]

/-- No other text arrives as it is: it has more bytes than characters. -/
lemma arrival_eq_self_iff {text : String} : arrival text = text ↔ IsAscii text := by
  refine ⟨fun h => ?_, arrival_of_ascii⟩
  rw [IsAscii, ← (Utf8.length_encode_le_and_eq_iff text).2, Utf8.length_encode, ← length_arrival, h]

/-- A text that arrives as it is, is what arrives of no other. -/
lemma arrival_eq_iff {s t : String} (ht : arrival t = t) : arrival s = t ↔ s = t :=
  ⟨fun h => arrival_inj (h.trans ht.symm), fun h => by rw [h, ht]⟩

end Text

/-! ### Header names -/

lemma toNat_lt_of_isTokenChar {c : Char} (h : isTokenChar c = true) : c.toNat < 128 := by
  rw [isTokenChar, Bool.or_eq_true] at h
  obtain h | h := h
  · delta Char.isAlphanum Char.isAlpha Char.isUpper Char.isLower Char.isDigit at h
    simp only [Bool.or_eq_true, Bool.and_eq_true, decide_eq_true_eq, ge_iff_le,
      UInt32.le_iff_toNat_le] at h
    have hupper : 'Z'.val.toNat = 90 := rfl
    have hlower : 'z'.val.toNat = 122 := rfl
    have hdigit : '9'.val.toNat = 57 := rfl
    have hc : c.toNat = c.val.toNat := rfl
    omega
  · have hall : ("!#$%&'*+-.^_`|~".toList.all fun d => decide (d.toNat < 128)) = true := by decide
    exact of_decide_eq_true (List.all_eq_true.1 hall c (List.contains_iff_mem.1 h))

/-- Each header name arrives as it is. -/
lemma HeaderName.arrival_text (n : HeaderName) : Text.arrival n.text = n.text :=
  Text.arrival_of_ascii fun _ hc => toNat_lt_of_isTokenChar (n.isTokenChar_of_mem hc)

/-- So it is the same name. -/
lemma HeaderName.ofBytes?_encode_text (n : HeaderName) :
    HeaderName.ofBytes? (Utf8.encode n.text) = some n := by
  rw [HeaderName.ofBytes?]
  exact (congrArg HeaderName.ofText? n.arrival_text).trans (HeaderName.ofText?_text n)

end Ajp13
