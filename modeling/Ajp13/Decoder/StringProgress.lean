import Ajp13.Text.Utf8
import Ajp13.WellKnown
import Ajp13.Wire.Word

/-!
Strings, as they are received.

* `ReceivedString`: what a complete string says;
* `StringProgress`: what is known of a string of which only some bytes have come.
-/

namespace Ajp13.Decoder

/-- What a string is for. -/
inductive StringRole
  | plain
  /-- The name of a header, which may be sent as a code in place of a length. -/
  | headerName
deriving DecidableEq, Repr

/-- Whether a byte is one that a URL uses to encode others: a percent or a plus sign. -/
def isUrlByte (b : UInt8) : Bool := b == 0x25 || b == 0x2B

theorem any_isUrlByte_iff (bytes : List UInt8) :
    bytes.any isUrlByte = true ↔ 0x25 ∈ bytes ∨ 0x2B ∈ bytes := by
  simp only [List.any_eq_true, isUrlByte, Bool.or_eq_true, beq_iff_eq]
  constructor
  · rintro ⟨b, hb, rfl | rfl⟩
    · exact .inl hb
    · exact .inr hb
  · rintro (hb | hb)
    · exact ⟨_, hb, .inl rfl⟩
    · exact ⟨_, hb, .inr rfl⟩

/-! ### Complete strings -/

/-- A complete string. -/
inductive ReceivedString
  /-- A well-known header name, which came as its code. -/
  | coded (name : HeaderName)
  /-- Content, and whether it has bytes that a URL uses to encode others. -/
  | literal (content : List UInt8) (urlChars : Bool)
  /-- The null string. -/
  | null
deriving DecidableEq

namespace ReceivedString

/-- The content of a string; the null string has none, and a code stands for the name. -/
def content : ReceivedString → List UInt8
  | coded name => Utf8.encode name.text
  | literal content _ => content
  | null => []

/-- The content of a string as text. -/
def text (s : ReceivedString) : String := Latin1.read s.content

/-- Whether the content has bytes that a URL uses to encode others. -/
def urlChars : ReceivedString → Bool
  | literal _ urlChars => urlChars
  | _ => false

/-- The header that a string names, unless it is not a name. -/
def headerName? : ReceivedString → Option HeaderName
  | coded name => some name
  | s => HeaderName.ofBytes? s.content

/-- The header value that a string holds, unless it is not a value. -/
def headerValue? (s : ReceivedString) : Option HeaderValue := HeaderValue.ofBytes? s.content

end ReceivedString

/-! ### Strings in progress -/

/-- What is known of a string of which only some bytes have come. -/
inductive StringProgress
  /-- The length is not complete; its first byte may have come. -/
  | length (high : Option UInt8)
  /-- Some content is missing. The bytes held are in reverse order. -/
  | content (missing : Nat) (held : List UInt8) (urlChars : Bool)
  /-- Only the terminator is missing. The bytes held are in reverse order. -/
  | terminator (held : List UInt8) (urlChars : Bool)
deriving DecidableEq, Repr

namespace StringProgress

/-- No byte has come. -/
def start : StringProgress := length none

end StringProgress

end Ajp13.Decoder
