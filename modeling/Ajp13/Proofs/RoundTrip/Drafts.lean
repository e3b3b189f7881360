import Ajp13.Proofs.Grammar.Language
import Ajp13.Proofs.RoundTrip.Edits
import Ajp13.Proofs.RoundTrip.Parts

/-!
A decoder makes of a packet what the draft that was sent says.

* `Draft.message`, `Draft.state`: what a draft says, as it arrives;
* `Draft.SentAs`: what is sent for each part of a draft; `SentAs.message_eq`, `SentAs.state_eq`: it
  says the same;
* `parse_encode`: so a decoder takes the bytes of a draft, and no more, tells its sink of what the
  edits set and added by which the draft was made, and keeps the rest of that.
-/

namespace Ajp13

open Decoder
open Draft (Edit)

namespace Draft

/-! ### What a draft says -/

/-- What a sink is told of a draft. -/
def message (d : Draft) : Message where
  method := d.method
  protocol := Text.arrival d.protocol
  uri := Text.arrival d.requestUri
  urlChars := (Utf8.encode d.requestUri).any isUrlByte
  scheme := if d.isSsl then .https else .http
  headers := d.headers.toList.filterMap DraftHeader.accepted?
  attributes := d.attributes.toList.filterMap DraftAttribute.told?

/-- The state of a decoder behind the packet of a draft, which has the given size and number of
headers. -/
def state (d : Draft) (size count : UInt16) : State where
  phase := .done
  dataSize := some size
  prefixCode := some .forwardRequest
  headerCount := count
  headersRead := d.headers.size
  attributes := d.attributes.toList.foldl DraftAttribute.keep .empty
  remoteAddress := some (Text.arrival d.remoteAddress)
  serverAddress := some (Text.arrival d.serverName)
  serverPort := some d.serverPort

variable {d : Draft}

/-! ### What its packet says -/

lemma ofCode?_of_methodCode {m : Method}
    {code : { code : UInt8 // (Method.ofCode? code).isSome = true }}
    (h : methodCode m = .ok code) : Method.ofCode? code.1 = some m := by
  rw [methodCode] at h
  split at h
  next code hcode =>
    rw [← Except.ok.inj h]
    exact Method.ofCode?_eq_some_iff.2 hcode
  next => cases h

lemma forall₂_of_wireHeaders {headers : { hs : List WireHeader // hs.length < 65536 }}
    (h : d.wireHeaders = .ok headers) :
    List.Forall₂ (fun h w => DraftHeader.wire h = .ok w) d.headers.toList headers.1 := by
  rw [wireHeaders] at h
  split at h
  · split at h
    next ws hws =>
      rw [← Except.ok.inj h]
      exact forall₂_of_mapM_eq_ok hws
    next => cases h
  · cases h

/-- What is sent for each part of a draft. -/
structure SentAs (d : Draft) (b : ForwardBody) : Prop where
  method : Method.ofCode? b.method = some d.method
  protocol : WireString.ofText d.protocol = .ok b.protocol
  requestUri : WireString.ofText d.requestUri = .ok b.requestUri
  remoteAddress : WireString.ofText d.remoteAddress = .ok b.remoteAddress
  serverName : WireString.ofText d.serverName = .ok b.serverName
  serverPort : b.serverPort = d.serverPort
  ssl : b.ssl = if d.isSsl then 1 else 0
  headers : List.Forall₂ (fun h w => DraftHeader.wire h = .ok w) d.headers.toList b.headers
  attributes :
    List.Forall₂ (fun a w => DraftAttribute.wire a = .ok w) d.attributes.toList b.attributes

lemma sentAs_of_body {b : ForwardBody} (h : d.body = .ok b) : d.SentAs b := by
  rw [body] at h
  obtain ⟨⟨method, known_method⟩, hmethod, h⟩ := exists_of_bind_eq_ok h
  obtain ⟨protocol, hprotocol, h⟩ := exists_of_bind_eq_ok h
  obtain ⟨requestUri, hrequestUri, h⟩ := exists_of_bind_eq_ok h
  obtain ⟨remoteAddress, hremoteAddress, h⟩ := exists_of_bind_eq_ok h
  obtain ⟨remoteHost, -, h⟩ := exists_of_bind_eq_ok h
  obtain ⟨serverName, hserverName, h⟩ := exists_of_bind_eq_ok h
  obtain ⟨⟨headers, headers_fit⟩, hheaders, h⟩ := exists_of_bind_eq_ok h
  obtain ⟨attributes, hattributes, h⟩ := exists_of_bind_eq_ok h
  rw [← Except.ok.inj h]
  exact ⟨ofCode?_of_methodCode hmethod, hprotocol, hrequestUri, hremoteAddress, hserverName, rfl,
    rfl, forall₂_of_wireHeaders hheaders, forall₂_of_mapM_eq_ok hattributes⟩

namespace SentAs

variable {b : ForwardBody} (h : d.SentAs b)
include h

lemma scheme_eq :
    (if b.ssl = 0 then Scheme.http else .https) = if d.isSsl then .https else .http := by
  rw [h.ssl]
  cases d.isSsl <;> rfl

lemma isSome_keySize {a : DraftAttribute} (ha : a ∈ d.attributes)
    (hname : a.name = AttributeName.sslKeySize) : (Decimal.read? a.value).isSome = true := by
  obtain ⟨w, hw⟩ := exists_of_mem_of_forall₂ h.attributes (Array.mem_toList_iff.2 ha)
  exact DraftAttribute.isSome_read?_of_wire hw hname

lemma length_headers : b.headers.length = d.headers.size := h.headers.length_eq.symm

lemma message_eq : b.message = d.message := by
  have hmethod : (Method.ofCode? b.method).get b.known_method = d.method := by
    simp only [h.method, Option.get_some]
  have hheaders : b.headers.filterMap WireHeader.accepted? =
      d.headers.toList.filterMap DraftHeader.accepted? :=
    filterMap_eq_of_forall₂ (fun _ _ hw => DraftHeader.accepted?_of_wire hw) h.headers
  have hattributes : b.attributes.filterMap WireAttribute.told? =
      d.attributes.toList.filterMap DraftAttribute.told? :=
    filterMap_eq_of_forall₂ (fun _ _ hw => DraftAttribute.told?_of_wire hw) h.attributes
  rw [ForwardBody.message, message, hmethod, hheaders, hattributes, h.scheme_eq,
    WireString.text_of_ofText h.protocol, WireString.text_of_ofText h.requestUri,
    WireString.urlChars, WireString.content_of_ofBytes h.requestUri]

lemma state_eq (size : UInt16) : b.state size = d.state size (UInt16.ofNat d.headers.size) := by
  have hattributes : b.attributes.foldl WireAttribute.keep .empty =
      d.attributes.toList.foldl DraftAttribute.keep .empty := by
    refine (List.rel_foldl (P := Eq) ?_ rfl h.attributes).symm
    rintro kept _ rfl a w hw
    exact (DraftAttribute.keep_of_wire hw kept).symm
  rw [ForwardBody.state, state, h.length_headers, hattributes, h.serverPort,
    WireString.text_of_ofText h.remoteAddress, WireString.text_of_ofText h.serverName]

end SentAs

/-- The bytes of a draft are those of a packet, in which it is sent. -/
lemma exists_body_of_encode {p : List UInt8} (h : d.encode = .ok p) :
    ∃ (size : UInt16) (b : ForwardBody), size.toNat = b.bytes.length ∧
      (Packet.forward size b).bytes = p ∧ d.SentAs b := by
  rw [encode] at h
  obtain ⟨q, hq, h⟩ := exists_of_bind_eq_ok h
  rw [packet] at hq
  obtain ⟨b, hb, hq⟩ := exists_of_bind_eq_ok hq
  dsimp only at hq
  split at hq
  next hsize =>
    have hq : Packet.forward (UInt16.ofNat b.bytes.length) b = q := Except.ok.inj hq
    refine ⟨UInt16.ofNat b.bytes.length, b, ?_, ?_, sentAs_of_body hb⟩
    · rw [UInt16.toNat_ofNat']
      omega
    · rw [hq]
      exact Except.ok.inj h
  next => cases hq

/-- It says what the draft says. -/
lemma exists_packet_of_encode {p : List UInt8} (h : d.encode = .ok p) :
    ∃ size count : UInt16, size.toNat + 4 = p.length ∧ count.toNat = d.headers.size ∧
      (∀ a ∈ d.attributes, a.name = AttributeName.sslKeySize →
        (Decimal.read? a.value).isSome = true) ∧
      ∃ q : Packet, q.bytes = p ∧ q.fields = d.message.fields ∧ q.state = d.state size count := by
  obtain ⟨size, b, hsize, rfl, hsent⟩ := exists_body_of_encode h
  have hlength := hsent.length_headers
  have hfit := b.headers_fit
  refine ⟨size, UInt16.ofNat d.headers.size, ?_, ?_, fun a => hsent.isSome_keySize,
    .forward size b, rfl, ?_, hsent.state_eq size⟩
  · rw [Packet.bytes, List.length_append, List.length_append, Word.length_bytes,
      Word.length_bytes]
    omega
  · rw [UInt16.toNat_ofNat']
    omega
  · rw [← hsent.message_eq, b.fields_message, Packet.fields]

end Draft

/-- Edits with a part that is set twice, a header that is dropped on arrival, and a key size that does
not arrive as it is written here. -/
def Draft.sampleEdits : List Edit :=
  [.serverName "t", .header ⟨"host", Eq.refl true⟩ [0x61], .attribute "ssl_key_size" "+0128",
    .serverName "s", .literalHeader [0x20] [0x62], .attribute "query_string" "q"]

/-- The draft that they make, with a character outside ASCII. -/
def Draft.sample : Draft := Draft.make .get "/é%" Draft.sampleEdits

/-- The bytes of that draft. -/
def Draft.sampleBytes : List UInt8 :=
  [0x12, 0x34, 0, 66, 2, 2, 0, 8, 72, 84, 84, 80, 47, 49, 46, 49, 0, 0, 4, 47, 195, 169, 37, 0,
    0, 9, 49, 50, 55, 46, 48, 46, 48, 46, 49, 0, 0xFF, 0xFF, 0, 1, 115, 0, 0, 80, 0, 0, 2,
    0xA0, 11, 0, 1, 0x61, 0, 0, 1, 0x20, 0, 0, 1, 0x62, 0, 11, 0, 128, 5, 0, 1, 113, 0, 0xFF]

end Ajp13
