/-!
Decimal numerals of sixteen-bit words.

* `Decimal.write`: the numeral of a word, without leading zeros;
* `Decimal.read?`: the word of a numeral, which may have a plus sign and leading zeros;
* `value_eq_min`: a numeral of any length is valued exactly as far as a word can tell;
* `read?_write`: what is written reads back.
-/

namespace Ajp13.Decimal

/-- The numeral of a word, without leading zeros. -/
def write (w : UInt16) : String := String.ofList (Nat.toDigits 10 w.toNat)

/-- The value of a string of digits, or 65536 if it is greater than that. -/
def value (digits : List Char) : Nat :=
  digits.foldl (fun n c => min 65536 (10 * n + (c.toNat - '0'.toNat))) 0

/-- The word of a string of digits, if it has digits only, at least one, and fits. -/
def ofDigits? (digits : List Char) : Option UInt16 :=
  if digits ≠ [] ∧ digits.all Char.isDigit = true ∧ value digits < 65536 then
    some (UInt16.ofNat (value digits))
  else none

/-- The word of a numeral: an optional plus sign, then digits whose value fits sixteen bits. -/
def read? (text : String) : Option UInt16 :=
  match text.toList with
  | '+' :: digits => ofDigits? digits
  | digits => ofDigits? digits

example : read? "+00256" = some 256 := by decide
example : read? "65536" = none := by decide
example : read? "+" = none := by decide

theorem foldl_min_eq_min (digits : List Char) (n : Nat) :
    digits.foldl (fun n c => min 65536 (10 * n + (c.toNat - '0'.toNat))) (min 65536 n) =
      min 65536 (Nat.ofDigitChars 10 digits n) := by
  induction digits generalizing n with
  | nil => rw [List.foldl_nil, Nat.ofDigitChars_nil]
  | cons c digits ih =>
      rw [List.foldl_cons, Nat.ofDigitChars_cons, ← ih]
      congr 1
      omega

/-- The value is that of the numeral, cut off where a word ends. -/
theorem value_eq_min (digits : List Char) :
    value digits = min 65536 (Nat.ofDigitChars 10 digits 0) :=
  foldl_min_eq_min digits 0

theorem value_toDigits (w : UInt16) : value (Nat.toDigits 10 w.toNat) = w.toNat := by
  have := w.toNat_lt
  rw [value_eq_min, Nat.ofDigitChars_ten_toDigits]
  omega

theorem ofDigits?_toDigits (w : UInt16) : ofDigits? (Nat.toDigits 10 w.toNat) = some w := by
  have hall : (Nat.toDigits 10 w.toNat).all Char.isDigit = true :=
    List.all_eq_true.2 fun c hc => Nat.isDigit_of_mem_toDigits (by decide) (by decide) hc
  rw [ofDigits?, value_toDigits, if_pos ⟨Nat.toDigits_ne_nil, hall, w.toNat_lt⟩,
    UInt16.ofNat_toNat]

theorem read?_write (w : UInt16) : read? (write w) = some w := by
  rw [read?, write, String.toList_ofList]
  split
  next digits h =>
    have : '+'.isDigit = true :=
      Nat.isDigit_of_mem_toDigits (b := 10) (n := w.toNat) (by decide) (by decide) (by rw [h]; simp)
    exact absurd this (by decide)
  next => exact ofDigits?_toDigits w

end Ajp13.Decimal
