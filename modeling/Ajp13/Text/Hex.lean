/-!
Hexadecimal numerals with lower-case digits.
-/

namespace Ajp13.Hex

/-- The hexadecimal numeral of `n`, without leading zeros. -/
def digits (n : Nat) : String := String.ofList (Nat.toDigits 16 n)

/-- The hexadecimal numeral of `n`, filled up with zeros to at least `width` digits. -/
def padded (width n : Nat) : String :=
  String.ofList ((Nat.toDigits 16 n).leftpad width '0')

example : padded 4 0x1F = "001f" := by decide
example : padded 2 0xABC = "abc" := by decide

end Ajp13.Hex
