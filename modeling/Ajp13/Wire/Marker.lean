/-!
The fixed numbers that give a packet its shape.
-/

namespace Ajp13.Marker

/-- The first word of every packet. -/
def magic : UInt16 := 0x1234

/-- The length that stands for the null string: neither content nor terminator follows. -/
def nullLength : UInt16 := 0xFFFF

/-- The high byte which, in place of a header name's length, says that the low byte is the
code of a well-known header. -/
def headerCode : UInt8 := 0xA0

/-- The attribute tag after which the name is spelled out. -/
def customAttribute : UInt8 := 0x0A

/-- The tag that ends the attributes, and with them the packet. -/
def attributesEnd : UInt8 := 0xFF

end Ajp13.Marker
