import Ajp13.Decoder.Run
import Ajp13.Proofs.Telling
import Ajp13.Wire.Packet
import Mathlib.Tactic.SplitIfs

/-!
What a packet says: the fields that a sink is told of, and what is kept in the state of a decoder.

* `WireHeader.accepted?`, `WireAttribute.told?`: a header with a name and a value, and an attribute
  that a sink is told of;
* `ForwardBody.message`, `Packet.callsTo`: what a sink is told of a packet, and by which calls;
* `Packet.fields`: the fields of a packet, in the order of the wire; `Packet.callsOf_fields`: these
  calls tell of them;
* `Packet.state`: the state of a decoder behind a packet.
-/

namespace Ajp13

open Decoder

/-! ### Strings -/

namespace WireString

/-- Whether the content has bytes that a URL uses to encode others. -/
def urlChars (w : WireString) : Bool := w.content.any isUrlByte

/-- A string as it is received: its terminator says nothing. -/
def received : WireString → ReceivedString
  | null => .null
  | literal content _ _ => .literal content (content.any isUrlByte)

@[simp] lemma content_received (w : WireString) : w.received.content = w.content := by
  cases w <;> rfl

@[simp] lemma text_received (w : WireString) : w.received.text = w.text := by
  rw [ReceivedString.text, content_received, Latin1.read_eq_decode, text]

@[simp] lemma urlChars_received (w : WireString) : w.received.urlChars = w.urlChars := by
  cases w <;> rfl

lemma headerName?_received (w : WireString) :
    w.received.headerName? = HeaderName.ofBytes? w.content := by
  cases w <;> rfl

end WireString

/-! ### Headers -/

/-- A header name as it is received. -/
def WireHeaderName.received : WireHeaderName → ReceivedString
  | coded code known => .coded ((HeaderName.ofCode? code).get known)
  | spelled name _ => name.received

lemma WireHeaderName.headerName?_received (n : WireHeaderName) :
    n.received.headerName? = n.name? := by
  cases n with
  | coded code known => exact Option.some_get known
  | spelled name unmarked => exact name.headerName?_received

/-- The name and the value of a header, if they are of the kind that headers have. -/
def WireHeader.accepted? (h : WireHeader) : Option (HeaderName × HeaderValue) :=
  match h.name.name?, HeaderValue.ofBytes? h.value.content with
  | some name, some value => some (name, value)
  | _, _ => none

/-- The field that a header is, if it is accepted. -/
def WireHeader.field? (h : WireHeader) : Option Field :=
  h.accepted?.map fun header => .header header.1 header.2

lemma headerField?_received (h : WireHeader) :
    headerField? (pending h.name.received) h.value.received = h.field? := by
  rw [pending, h.name.headerName?_received, WireHeader.field?, WireHeader.accepted?]
  cases h.name.name? with
  | none => rfl
  | some name =>
      rw [headerField?, ReceivedString.headerValue?, h.value.content_received]
      cases HeaderValue.ofBytes? h.value.content <;> rfl

/-! ### Attributes -/

/-- A sink is told of those attributes that have the names for it. -/
lemma attributeField?_eq (name value : String) :
    attributeField? name value = (ToldAttribute.ofName? name value).map ToldAttribute.field := by
  rw [attributeField?, ToldAttribute.ofName?]
  split_ifs <;> rfl

namespace WireAttribute

/-- The name of an attribute. -/
def name : WireAttribute → String
  | string name _ _ => name.text
  | keySize name _ _ => name.text

/-- The value of an attribute; that of the key size is a numeral. -/
def value : WireAttribute → String
  | string _ value _ => value.text
  | keySize _ size _ => Decimal.write size

/-- The attribute, if a sink is told of it. -/
def told? (a : WireAttribute) : Option ToldAttribute := ToldAttribute.ofName? a.name a.value

/-- The field that an attribute is for, if a sink is told of it. -/
def field? (a : WireAttribute) : Option Field := a.told?.map ToldAttribute.field

/-- The attributes that are kept, with one more unless a sink is told of that. The latest value of a
name counts. -/
def keep (attributes : NameMap String) (a : WireAttribute) : NameMap String :=
  match a.told? with
  | some _ => attributes
  | none => attributes.insert a.name a.value

end WireAttribute

/-! ### Packets -/

namespace ForwardBody

/-- What a sink is told of a forward request. -/
def message (b : ForwardBody) : Message where
  method := (Method.ofCode? b.method).get b.known_method
  protocol := b.protocol.text
  uri := b.requestUri.text
  urlChars := b.requestUri.urlChars
  scheme := if b.ssl = 0 then .http else .https
  headers := b.headers.filterMap WireHeader.accepted?
  attributes := b.attributes.filterMap WireAttribute.told?

/-- The fields of a forward request. -/
def fields (b : ForwardBody) : List Field :=
  [.method ((Method.ofCode? b.method).get b.known_method), .protocol b.protocol.text,
    .requestUri b.requestUri.text b.requestUri.urlChars,
    .scheme (if b.ssl = 0 then .http else .https)] ++
  b.headers.filterMap WireHeader.field? ++ b.attributes.filterMap WireAttribute.field?

lemma fields_message (b : ForwardBody) : b.message.fields = b.fields := by
  rw [Message.fields, message, List.map_filterMap, List.map_filterMap]
  rfl

/-- The state of a decoder behind a forward request of the given size. -/
def state (b : ForwardBody) (size : UInt16) : State where
  phase := .done
  dataSize := some size
  prefixCode := some .forwardRequest
  headerCount := UInt16.ofNat b.headers.length
  headersRead := b.headers.length
  attributes := b.attributes.foldl WireAttribute.keep .empty
  remoteAddress := some b.remoteAddress.text
  serverAddress := some b.serverName.text
  serverPort := some b.serverPort

end ForwardBody

namespace Packet

/-- The fields of a packet. -/
def fields : Packet → List Field
  | signal _ _ _ => []
  | forward _ body => body.fields

/-- The calls that tell a sink of a packet. -/
def callsTo {σ : Type} (conf : Conf) (sink : Sink σ) (fresh : σ) : Packet → List Call
  | signal _ _ _ => []
  | forward _ body => body.message.callsTo conf sink fresh

/-- They tell of its fields. -/
lemma callsOf_fields {σ : Type} (conf : Conf) (sink : Sink σ) (fresh : σ) (q : Packet) :
    sink.callsOf conf fresh q.fields = q.callsTo conf sink fresh := by
  cases q with
  | signal size kind other => rfl
  | forward size body => rw [fields, ← body.fields_message, Message.callsOf_fields, callsTo]

/-- The state of a decoder behind a packet. -/
def state : Packet → State
  | signal size kind _ =>
      { phase := .done, dataSize := some size, prefixCode := some (.ofByte kind) }
  | forward size body => body.state size

end Packet

end Ajp13
