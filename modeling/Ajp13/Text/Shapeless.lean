import Ajp13.Text.CodePointSet

/-!
Characters that leave nothing to see.

* `CodePointSet.shapeless`: controls, blanks and separators other than the space, format
  characters, the four Hangul fillers, and what is reserved for private use.
-/

namespace Ajp13.CodePointSet

/-- Characters without a shape of their own: the general categories Cc, Cf, Zs (but for the
space), Zl, Zp and Co of Unicode 17.0, and its default-ignorable letters. -/
def shapeless : CodePointSet where
  ranges :=
    [(0x0, 0x1F), (0x7F, 0xA0), (0xAD, 0xAD), (0x600, 0x605), (0x61C, 0x61C), (0x6DD, 0x6DD),
      (0x70F, 0x70F), (0x890, 0x891), (0x8E2, 0x8E2), (0x115F, 0x1160), (0x1680, 0x1680),
      (0x180E, 0x180E), (0x2000, 0x200F), (0x2028, 0x202F), (0x205F, 0x2064), (0x2066, 0x206F),
      (0x3000, 0x3000), (0x3164, 0x3164), (0xE000, 0xF8FF), (0xFEFF, 0xFEFF), (0xFFA0, 0xFFA0),
      (0xFFF9, 0xFFFB), (0x110BD, 0x110BD), (0x110CD, 0x110CD), (0x13430, 0x1343F),
      (0x1BCA0, 0x1BCA3), (0x1D173, 0x1D17A), (0xE0001, 0xE0001), (0xE0020, 0xE007F),
      (0xF0000, 0xFFFFD), (0x100000, 0x10FFFD)]
  inOrder_ranges := by decide +kernel

example : shapeless.contains ' ' = false := by decide +kernel
example : "\t\n\r\x7f\u00a0\u200b\u3000\u3164".toList.all shapeless.contains = true := by
  decide +kernel

end Ajp13.CodePointSet
