import Ajp13.Wire.Marker
import Ajp13.Wire.Word

/-!
The kind of a packet.

* `PrefixCode.ofByte`, `PrefixCode.byte`: from the wire and to it;
* `PrefixCode.signal`: the packet that says nothing but its kind.
-/

namespace Ajp13

/-- The kind of a packet, which the byte after the size announces. -/
inductive PrefixCode
  /-- A request follows. -/
  | forwardRequest
  /-- The server is asked to shut down. -/
  | shutdown
  /-- The answer to a liveness check. -/
  | cpong
  /-- A liveness check. -/
  | cping
  /-- A kind without a name here. -/
  | other (code : UInt8)
deriving DecidableEq, Repr

namespace PrefixCode

/-- The kind that a byte announces. -/
def ofByte (b : UInt8) : PrefixCode :=
  if b = 2 then .forwardRequest
  else if b = 7 then .shutdown
  else if b = 9 then .cpong
  else if b = 10 then .cping
  else .other b

/-- The byte that announces a kind. -/
def byte : PrefixCode → UInt8
  | forwardRequest => 2
  | shutdown => 7
  | cpong => 9
  | cping => 10
  | other code => code

@[simp] theorem byte_ofByte (b : UInt8) : (ofByte b).byte = b := by
  rw [ofByte]
  split
  · simp_all [byte]
  split
  · simp_all [byte]
  split
  · simp_all [byte]
  split
  · simp_all [byte]
  · rfl

theorem ofByte_eq_forwardRequest_iff {b : UInt8} : ofByte b = forwardRequest ↔ b = 2 :=
  ⟨fun h => by rw [← byte_ofByte b, h, byte], fun h => by rw [h]; rfl⟩

/-- The packet that announces its kind and ends there: the magic word, a size of one, and the
kind. -/
def signal (c : PrefixCode) : List UInt8 :=
  Word.bytes Marker.magic ++ Word.bytes 1 ++ [c.byte]

example : signal cping = [0x12, 0x34, 0x00, 0x01, 0x0A] := by decide

end PrefixCode

end Ajp13
