import Ajp13.PrefixCode
import Ajp13.WellKnown
import Ajp13.Wire.Word

/-!
The packets of AJP13, the protocol by which a web server in front passes requests on to an
application server, as they are written, byte for byte.

* `WireString`: a counted string with its terminator, or the null string;
* `WireHeaderName`: a header name, by its code or spelled out;
* `WireAttribute`: an attribute, whose name decides whether its value is a string or a word;
* `Packet`: a forward request, or a packet that ends after its kind;
* `Packet.bytes`: the bytes of a packet.

The types hold what the bytes hold, neither more nor less: a terminator may be any byte, the
announced size any word. What a length cannot say, or would say as something else, is excluded by
a proof in the constructor.
-/

namespace Ajp13

/-! ### Strings -/

/-- A string on the wire. -/
inductive WireString
  /-- No string: a length that stands for itself. -/
  | null
  /-- Content between its length and a terminator. -/
  | literal (content : List UInt8) (terminator : UInt8) (fits : content.length < 0xFFFF)
deriving DecidableEq

namespace WireString

/-- The content of a string; the null string has none. -/
def content : WireString → List UInt8
  | null => []
  | literal content _ _ => content

/-- The content of a string as text. -/
def text (s : WireString) : String := Latin1.decode s.content

/-- The bytes of a string. -/
def bytes : WireString → List UInt8
  | null => Word.bytes Marker.nullLength
  | literal content terminator _ =>
      Word.bytes (UInt16.ofNat content.length) ++ content ++ [terminator]

end WireString

/-! ### Headers -/

/-- A header name on the wire. -/
inductive WireHeaderName
  /-- The code of a well-known name. -/
  | coded (code : UInt8) (known : (HeaderName.ofCode? code).isSome = true)
  /-- A spelled name, whose length does not read as the mark of a code. -/
  | spelled (name : WireString) (unmarked : name.content.length / 256 ≠ 0xA0)
deriving DecidableEq

namespace WireHeaderName

/-- The bytes of a header name. -/
def bytes : WireHeaderName → List UInt8
  | coded code _ => [Marker.headerCode, code]
  | spelled name _ => name.bytes

/-- The header that is named, unless the name is not one. -/
def name? : WireHeaderName → Option HeaderName
  | coded code _ => HeaderName.ofCode? code
  | spelled name _ => HeaderName.ofBytes? name.content

end WireHeaderName

/-- A header on the wire. -/
structure WireHeader where
  name : WireHeaderName
  value : WireString
deriving DecidableEq

/-- The bytes of a header. -/
def WireHeader.bytes (h : WireHeader) : List UInt8 := h.name.bytes ++ h.value.bytes

/-! ### Attributes -/

/-- An attribute name on the wire. -/
inductive WireAttributeName
  /-- The code of a well-known name. -/
  | coded (code : UInt8) (known : (AttributeName.ofCode? code).isSome = true)
  /-- A spelled name. -/
  | custom (name : WireString)
deriving DecidableEq

namespace WireAttributeName

/-- The bytes of an attribute name. -/
def bytes : WireAttributeName → List UInt8
  | coded code _ => [code]
  | custom name => Marker.customAttribute :: name.bytes

/-- The name of the attribute. -/
def text : WireAttributeName → String
  | coded code known => (AttributeName.ofCode? code).get known
  | custom name => name.text

end WireAttributeName

/-- An attribute on the wire. -/
inductive WireAttribute
  /-- An attribute with a string for its value. -/
  | string (name : WireAttributeName) (value : WireString)
      (named : name.text ≠ AttributeName.sslKeySize)
  /-- The one attribute with a word for its value. -/
  | keySize (name : WireAttributeName) (size : UInt16)
      (named : name.text = AttributeName.sslKeySize)
deriving DecidableEq

/-- The bytes of an attribute. -/
def WireAttribute.bytes : WireAttribute → List UInt8
  | string name value _ => name.bytes ++ value.bytes
  | keySize name size _ => name.bytes ++ Word.bytes size

/-! ### Packets -/

/-- What a forward request holds after its kind. -/
structure ForwardBody where
  method : UInt8
  known_method : (Method.ofCode? method).isSome = true
  protocol : WireString
  requestUri : WireString
  remoteAddress : WireString
  remoteHost : WireString
  serverName : WireString
  serverPort : UInt16
  /-- Zero if the request came without encryption. -/
  ssl : UInt8
  headers : List WireHeader
  headers_fit : headers.length < 65536
  attributes : List WireAttribute
deriving DecidableEq

/-- The bytes of a forward request, from its kind to the end of its attributes. -/
def ForwardBody.bytes (b : ForwardBody) : List UInt8 :=
  [PrefixCode.forwardRequest.byte, b.method] ++
  b.protocol.bytes ++ b.requestUri.bytes ++ b.remoteAddress.bytes ++ b.remoteHost.bytes ++
  b.serverName.bytes ++ Word.bytes b.serverPort ++ [b.ssl] ++
  Word.bytes (UInt16.ofNat b.headers.length) ++ b.headers.flatMap WireHeader.bytes ++
  b.attributes.flatMap WireAttribute.bytes ++ [Marker.attributesEnd]

/-- A packet. The announced size is a word of its own and binds nothing. -/
inductive Packet
  /-- A packet that ends after its kind. -/
  | signal (size : UInt16) (kind : UInt8) (other : kind ≠ PrefixCode.forwardRequest.byte)
  /-- A forward request. -/
  | forward (size : UInt16) (body : ForwardBody)
deriving DecidableEq

/-- The bytes of a packet. -/
def Packet.bytes : Packet → List UInt8
  | signal size kind _ => Word.bytes Marker.magic ++ Word.bytes size ++ [kind]
  | forward size body => Word.bytes Marker.magic ++ Word.bytes size ++ body.bytes

end Ajp13
