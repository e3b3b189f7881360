import Ajp13.Draft.Basic
import Ajp13.Text.Decimal
import Ajp13.Text.Quoted
import Ajp13.Text.Utf8
import Ajp13.Wire.Packet

/-!
The packet of a draft.

* `EncodeError`: why a draft cannot be sent;
* `Draft.packet`: the packet of a draft, put together in the order of the wire, so that of several
  errors the one that comes first there is reported;
* `Draft.encode`: the bytes of that packet.
-/

namespace Ajp13

/-- Why a draft cannot be sent. -/
inductive EncodeError
  /-- The method has no code. -/
  | unknownMethod (method : Method)
  /-- A string is longer than its length prefix can say. -/
  | stringTooLong (length max : Nat)
  /-- There are more headers, or more bytes in all, than a word can count. -/
  | packetTooLong (length : Nat)
  /-- The key size is not the numeral of a word. -/
  | invalidKeySize (text : String)
deriving DecidableEq

/-- The report of an error. -/
def EncodeError.message : EncodeError → String
  | .unknownMethod m => "No method code for " ++ m.text
  | .stringTooLong length max =>
      "String too long: " ++ length.repr ++ " bytes, at most " ++ max.repr ++ " allowed"
  | .packetTooLong length => "Packet too long: " ++ length.repr ++ " bytes"
  | .invalidKeySize text => "Invalid ssl_key_size value " ++ Quoted.write text

/-! ### Strings and words -/

/-- The bytes as a string on the wire, with a zero for the terminator. -/
def WireString.ofBytes (bytes : List UInt8) : Except EncodeError WireString :=
  if h : bytes.length < 0xFFFF then .ok (.literal bytes 0 h)
  else .error (.stringTooLong bytes.length 0xFFFE)

/-- The text as a string on the wire. -/
def WireString.ofText (text : String) : Except EncodeError WireString :=
  ofBytes (Utf8.encode text)

/-- The text as a string on the wire, or the null string. -/
def WireString.ofText? : Option String → Except EncodeError WireString
  | none => .ok .null
  | some text => ofText text

/-- The word that a key size stands for. -/
def keySizeWord (text : String) : Except EncodeError UInt16 :=
  match Decimal.read? text with
  | some size => .ok size
  | none => .error (.invalidKeySize text)

/-! ### Headers and attributes -/

/-- A header name that is spelled out. -/
def WireHeaderName.ofBytes (bytes : List UInt8) : Except EncodeError WireHeaderName :=
  if h : bytes.length < 0xA000 then
    .ok (.spelled (.literal bytes 0 (by omega)) (by rw [WireString.content]; omega))
  else .error (.stringTooLong bytes.length 0x9FFF)

/-- The header name by its code if it has one, spelled out if not. -/
def DraftHeaderName.wire : DraftHeaderName → Except EncodeError WireHeaderName
  | known name =>
      match h : name.code? with
      | some code => .ok (.coded code (by rw [HeaderName.ofCode?_eq_some_iff.2 h]; rfl))
      | none => WireHeaderName.ofBytes (Utf8.encode name.text)
  | verbatim bytes => WireHeaderName.ofBytes bytes

/-- The header as it is sent. -/
def DraftHeader.wire (h : DraftHeader) : Except EncodeError WireHeader := do
  let name ← h.name.wire
  let value ← WireString.ofBytes h.value
  return ⟨name, value⟩

/-- The attribute name by its code if it has one, spelled out if not. -/
def WireAttributeName.ofText (name : String) : Except EncodeError WireAttributeName :=
  match h : AttributeName.code? name with
  | some code => .ok (.coded code (by rw [AttributeName.ofCode?_eq_some_iff.2 h]; rfl))
  | none => return .custom (← WireString.ofText name)

/-- The attribute as it is sent: the key size as a word, all others as strings. -/
def DraftAttribute.wire (a : DraftAttribute) : Except EncodeError WireAttribute := do
  let name ← WireAttributeName.ofText a.name
  if h : name.text = AttributeName.sslKeySize then
    return .keySize name (← keySizeWord a.value) h
  else
    return .string name (← WireString.ofText a.value) h

/-- A list is as long as the list it was made from. -/
theorem length_eq_of_mapM_eq_ok {ε α β : Type} {f : α → Except ε β} {l : List α} {r : List β}
    (h : l.mapM f = .ok r) : r.length = l.length := by
  induction l generalizing r with
  | nil =>
      rw [List.mapM_nil] at h
      cases h
      rfl
  | cons a l ih =>
      rw [List.mapM_cons] at h
      cases ha : f a with
      | error e =>
          rw [ha] at h
          cases h
      | ok b =>
          cases hl : l.mapM f with
          | error e =>
              rw [ha, hl] at h
              cases h
          | ok s =>
              rw [ha, hl] at h
              cases h
              rw [List.length_cons, List.length_cons, ih hl]

/-! ### Packets -/

namespace Draft

/-- The code of a method. -/
def methodCode (m : Method) :
    Except EncodeError { code : UInt8 // (Method.ofCode? code).isSome = true } :=
  match h : m.code? with
  | some code => .ok ⟨code, by rw [Method.ofCode?_eq_some_iff.2 h]; rfl⟩
  | none => .error (.unknownMethod m)

/-- The headers as they are sent, unless there are more than a word can count. -/
def wireHeaders (d : Draft) : Except EncodeError { hs : List WireHeader // hs.length < 65536 } :=
  if hsize : d.headers.size < 65536 then
    match h : d.headers.toList.mapM DraftHeader.wire with
    | .ok headers => .ok ⟨headers, by rw [length_eq_of_mapM_eq_ok h]; exact hsize⟩
    | .error e => .error e
  else .error (.packetTooLong d.headers.size)

/-- What the packet holds after its size. -/
def body (d : Draft) : Except EncodeError ForwardBody := do
  let ⟨method, known_method⟩ ← methodCode d.method
  let protocol ← WireString.ofText d.protocol
  let requestUri ← WireString.ofText d.requestUri
  let remoteAddress ← WireString.ofText d.remoteAddress
  let remoteHost ← WireString.ofText? d.remoteHost
  let serverName ← WireString.ofText d.serverName
  let ⟨headers, headers_fit⟩ ← d.wireHeaders
  let attributes ← d.attributes.toList.mapM DraftAttribute.wire
  return {
    method, known_method, protocol, requestUri, remoteAddress, remoteHost, serverName
    serverPort := d.serverPort
    ssl := if d.isSsl then 1 else 0
    headers, headers_fit, attributes }

/-- The packet of a draft, with the size of what follows the size. -/
def packet (d : Draft) : Except EncodeError Packet := do
  let body ← d.body
  let size := body.bytes.length
  if size < 65536 then return .forward (UInt16.ofNat size) body
  else .error (.packetTooLong size)

/-- The bytes of a draft's packet. -/
def encode (d : Draft) : Except EncodeError (List UInt8) := do
  return (← d.packet).bytes

end Draft

end Ajp13
