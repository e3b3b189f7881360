import Ajp13.Text.Extending
import Ajp13.Text.Hex
import Ajp13.Text.Shapeless
import Ajp13.Text.Unassigned

/-!
Text between double quotes, so that every character of it can be seen.

* `Quoted.isHidden`: the characters that are not shown as themselves;
* `Quoted.encodeChar`, `Quoted.write`: how a character and a text are shown.
-/

namespace Ajp13.Quoted

/-- Whether a character is not shown as itself, since there would be nothing to see, or nothing
apart from the character before it. -/
def isHidden (c : Char) : Bool :=
  CodePointSet.shapeless.contains c || CodePointSet.extending.contains c ||
    CodePointSet.unassigned.contains c

/-- A character between quotes: the quote and the backslash behind a backslash, four controls by a
letter or digit, and what is hidden by its code point. -/
def encodeChar (c : Char) : String :=
  if c = '"' then "\\\""
  else if c = '\\' then "\\\\"
  else if c = '\t' then "\\t"
  else if c = '\r' then "\\r"
  else if c = '\n' then "\\n"
  else if c.toNat = 0 then "\\0"
  else if isHidden c then "\\u\x7b" ++ Hex.digits c.toNat ++ "\x7d"
  else String.singleton c

/-- A text between double quotes. -/
def write (text : String) : String :=
  "\"" ++ String.join (text.toList.map encodeChar) ++ "\""

example : write "a\"b\\c" = "\"a\\\"b\\\\c\"" := by decide
example : write "\x7f" = "\"\\u\x7b7f\x7d\"" := by decide

end Ajp13.Quoted
