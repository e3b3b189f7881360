import Ajp13.Text.Hex
import Ajp13.Wire.Marker

/-!
What can be wrong with a packet.

* `Fault`: the four fields that may hold a value without a meaning;
* `Fault.message`: the report of a fault.
-/

namespace Ajp13.Decoder

/-- A value without a meaning. -/
inductive Fault
  /-- The first word of a packet is not the magic one. -/
  | badMagic (found : UInt16)
  /-- No method has this code. -/
  | unknownMethod (code : UInt8)
  /-- No attribute has this code. -/
  | unknownAttribute (code : UInt8)
  /-- No header has this code. -/
  | unknownHeaderCode (code : UInt8)
deriving DecidableEq, Repr

/-- The report of a fault. -/
def Fault.message : Fault → String
  | .badMagic found =>
      "Wrong magic number: expected 0x" ++ Hex.padded 4 Marker.magic.toNat ++
        ", got 0x" ++ Hex.padded 4 found.toNat
  | .unknownMethod code => "Unknown method code " ++ code.toNat.repr
  | .unknownAttribute code => "Unknown attribute code 0x" ++ Hex.padded 2 code.toNat
  | .unknownHeaderCode code => "Unknown compressed header code 0x" ++ Hex.padded 2 code.toNat

end Ajp13.Decoder
