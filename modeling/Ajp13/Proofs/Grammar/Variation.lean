import Ajp13.Proofs.Grammar.Verdict
import Ajp13.Proofs.RoundTrip.Parts

/-!
Packets that differ in some of their parts.

* `WireHeaderName.Lift`, `WireAttributeName.Lift`: names that are spelled out with other strings;
* `Variation`: how much each kind of part may differ; `Packet.Varies`: packets with the same parts
  in the same order, that differ no more than that;
* `Variation.unnoticed`: all that a decoder does not notice: no more than what the parts say is the
  same, and any two sizes and remote hosts are as good as each other;
* `Packet.Varies.mono`: packets that differ less also differ no more than that;
* `Packet.Varies.parse_append`: a decoder makes the same of packets whose difference it does not
  notice, but for the size that it keeps.
-/

namespace Ajp13

open Decoder

/-! ### Names that differ -/

/-- The same code, or names spelled out with strings that differ no more than `R` allows. -/
inductive WireHeaderName.Lift (R : WireString → WireString → Prop) :
    WireHeaderName → WireHeaderName → Prop
  | coded (code : UInt8) (known : (HeaderName.ofCode? code).isSome = true) :
      Lift R (.coded code known) (.coded code known)
  | spelled {name name' : WireString} (h : R name name')
      (unmarked : name.content.length / 256 ≠ 0xA0)
      (unmarked' : name'.content.length / 256 ≠ 0xA0) :
      Lift R (.spelled name unmarked) (.spelled name' unmarked')

/-- The same code, or names spelled out with strings that differ no more than `R` allows. -/
inductive WireAttributeName.Lift (R : WireString → WireString → Prop) :
    WireAttributeName → WireAttributeName → Prop
  | coded (code : UInt8) (known : (AttributeName.ofCode? code).isSome = true) :
      Lift R (.coded code known) (.coded code known)
  | custom {name name' : WireString} (h : R name name') : Lift R (.custom name) (.custom name')

section Lift

variable {R : WireString → WireString → Prop} (hR : ∀ {s s'}, R s s' → s'.content = s.content)
include hR

/-- The same header is named if the content is the same. -/
lemma WireHeaderName.Lift.name?_eq {n n' : WireHeaderName} (h : n.Lift R n') :
    n'.name? = n.name? := by
  cases h with
  | coded code known => rfl
  | spelled h unmarked unmarked' => exact congrArg HeaderName.ofBytes? (hR h)

/-- The same attribute is named if the content is the same. -/
lemma WireAttributeName.Lift.text_eq {n n' : WireAttributeName} (h : n.Lift R n') :
    n'.text = n.text := by
  cases h with
  | coded code known => rfl
  | custom h => exact congrArg Latin1.decode (hR h)

end Lift

/-! ### Packets that differ -/

/-- How much the parts of two packets may differ, each kind for itself. All other parts are to be
the same: methods, ports, and the words that are key sizes. -/
structure Variation where
  size : UInt16 → UInt16 → Prop
  string : WireString → WireString → Prop
  remoteHost : WireString → WireString → Prop
  ssl : UInt8 → UInt8 → Prop
  headerName : WireHeaderName → WireHeaderName → Prop
  attributeName : WireAttributeName → WireAttributeName → Prop

variable (v : Variation)

/-- The two headers differ no more than `v` allows. -/
structure WireHeader.Varies (h h' : WireHeader) : Prop where
  name : v.headerName h.name h'.name
  value : v.string h.value h'.value

/-- The two attributes differ no more than `v` allows. Their values are of the same kind. -/
inductive WireAttribute.Varies : WireAttribute → WireAttribute → Prop
  | string {name name' : WireAttributeName} {value value' : WireString}
      (hname : v.attributeName name name') (hvalue : v.string value value')
      (named : name.text ≠ AttributeName.sslKeySize)
      (named' : name'.text ≠ AttributeName.sslKeySize) :
      Varies (.string name value named) (.string name' value' named')
  | keySize {name name' : WireAttributeName} (hname : v.attributeName name name') (size : UInt16)
      (named : name.text = AttributeName.sslKeySize)
      (named' : name'.text = AttributeName.sslKeySize) :
      Varies (.keySize name size named) (.keySize name' size named')

/-- The two requests differ no more than `v` allows, part by part. -/
structure ForwardBody.Varies (b b' : ForwardBody) : Prop where
  method : b'.method = b.method
  protocol : v.string b.protocol b'.protocol
  requestUri : v.string b.requestUri b'.requestUri
  remoteAddress : v.string b.remoteAddress b'.remoteAddress
  remoteHost : v.remoteHost b.remoteHost b'.remoteHost
  serverName : v.string b.serverName b'.serverName
  serverPort : b'.serverPort = b.serverPort
  ssl : v.ssl b.ssl b'.ssl
  headers : List.Forall₂ (WireHeader.Varies v) b.headers b'.headers
  attributes : List.Forall₂ (WireAttribute.Varies v) b.attributes b'.attributes

/-- The two packets differ no more than `v` allows. -/
inductive Packet.Varies : Packet → Packet → Prop
  | signal {size size' : UInt16} (hsize : v.size size size') (kind : UInt8)
      (other : kind ≠ PrefixCode.forwardRequest.byte) :
      Varies (.signal size kind other) (.signal size' kind other)
  | forward {size size' : UInt16} {body body' : ForwardBody} (hsize : v.size size size')
      (hbody : body.Varies v body') : Varies (.forward size body) (.forward size' body')

/-! ### Packets that differ less -/

/-- No kind of part may differ more under `v` than under `w`. -/
structure Variation.Within (v w : Variation) : Prop where
  size : ∀ {n n'}, v.size n n' → w.size n n'
  string : ∀ {s s'}, v.string s s' → w.string s s'
  remoteHost : ∀ {s s'}, v.remoteHost s s' → w.remoteHost s s'
  ssl : ∀ {b b'}, v.ssl b b' → w.ssl b b'
  headerName : ∀ {n n'}, v.headerName n n' → w.headerName n n'
  attributeName : ∀ {n n'}, v.attributeName n n' → w.attributeName n n'

variable {v} {w : Variation} (hvw : v.Within w)
include hvw

lemma WireHeader.Varies.mono {h h' : WireHeader} (hvaries : h.Varies v h') : h.Varies w h' :=
  ⟨hvw.headerName hvaries.name, hvw.string hvaries.value⟩

lemma WireAttribute.Varies.mono {a a' : WireAttribute} (hvaries : a.Varies v a') :
    a.Varies w a' := by
  cases hvaries with
  | string hname hvalue named named' =>
      exact .string (hvw.attributeName hname) (hvw.string hvalue) named named'
  | keySize hname size named named' =>
      exact .keySize (hvw.attributeName hname) size named named'

lemma ForwardBody.Varies.mono {b b' : ForwardBody} (h : b.Varies v b') : b.Varies w b' where
  method := h.method
  protocol := hvw.string h.protocol
  requestUri := hvw.string h.requestUri
  remoteAddress := hvw.string h.remoteAddress
  remoteHost := hvw.remoteHost h.remoteHost
  serverName := hvw.string h.serverName
  serverPort := h.serverPort
  ssl := hvw.ssl h.ssl
  headers := h.headers.imp fun _ _ => WireHeader.Varies.mono hvw
  attributes := h.attributes.imp fun _ _ => WireAttribute.Varies.mono hvw

/-- Packets that differ less also differ no more than that. -/
theorem Packet.Varies.mono {q q' : Packet} (h : q.Varies v q') : q.Varies w q' := by
  cases h with
  | signal hsize kind other => exact .signal (hvw.size hsize) kind other
  | forward hsize hbody => exact .forward (hvw.size hsize) (hbody.mono hvw)

omit hvw

/-! ### Packets whose difference is not noticed -/

/-- What a decoder does not notice. The size is not used and the remote host is read over; of the
byte for encryption, only whether it is zero is seen; and of a string or a name, only what it
says. -/
def Variation.unnoticed : Variation where
  size _ _ := True
  string s s' := s'.content = s.content
  remoteHost _ _ := True
  ssl b b' := b' = 0 ↔ b = 0
  headerName n n' := n'.name? = n.name?
  attributeName n n' := n'.text = n.text

/-- The size that a packet announces. -/
def Packet.size : Packet → UInt16
  | signal size _ _ => size
  | forward size _ => size

lemma WireHeader.Varies.field?_eq {h h' : WireHeader} (hvaries : h.Varies .unnoticed h') :
    h'.field? = h.field? := by
  have hname : h'.name.name? = h.name.name? := hvaries.name
  have hvalue : h'.value.content = h.value.content := hvaries.value
  rw [field?, field?, accepted?, accepted?, hname, hvalue]

namespace WireAttribute.Varies

variable {a a' : WireAttribute} (h : a.Varies .unnoticed a')
include h

lemma name_eq : a'.name = a.name := by
  cases h with
  | string hname hvalue named named' => exact hname
  | keySize hname size named named' => exact hname

lemma value_eq : a'.value = a.value := by
  cases h with
  | string hname hvalue named named' => exact congrArg Latin1.decode hvalue
  | keySize hname size named named' => rfl

lemma told?_eq : a'.told? = a.told? := by
  rw [told?, told?, h.name_eq, h.value_eq]

lemma field?_eq : a'.field? = a.field? := congrArg (Option.map ToldAttribute.field) h.told?_eq

lemma keep_eq (attributes : NameMap String) : a'.keep attributes = a.keep attributes := by
  rw [keep, keep, h.told?_eq, h.name_eq, h.value_eq]

end WireAttribute.Varies

namespace ForwardBody.Varies

variable {b b' : ForwardBody} (h : b.Varies .unnoticed b')
include h

/-- The same fields in the same order. -/
lemma fields_eq : b'.fields = b.fields := by
  have hmethod : (Method.ofCode? b'.method).get b'.known_method =
      (Method.ofCode? b.method).get b.known_method := by
    simp only [h.method]
  have hprotocol : b'.protocol.content = b.protocol.content := h.protocol
  have huri : b'.requestUri.content = b.requestUri.content := h.requestUri
  have hssl : b'.ssl = 0 ↔ b.ssl = 0 := h.ssl
  have hheaders : b'.headers.filterMap WireHeader.field? = b.headers.filterMap WireHeader.field? :=
    filterMap_eq_of_forall₂ (fun _ _ hvaries => hvaries.field?_eq) h.headers
  have hattributes : b'.attributes.filterMap WireAttribute.field? =
      b.attributes.filterMap WireAttribute.field? :=
    filterMap_eq_of_forall₂ (fun _ _ hvaries => hvaries.field?_eq) h.attributes
  rw [fields, fields, hmethod, hheaders, hattributes, WireString.text, WireString.text,
    WireString.text, WireString.text, WireString.urlChars, WireString.urlChars, hprotocol, huri]
  simp only [hssl]

/-- The same state in the end. -/
lemma state_eq (size : UInt16) : b'.state size = b.state size := by
  have haddress : b'.remoteAddress.content = b.remoteAddress.content := h.remoteAddress
  have hname : b'.serverName.content = b.serverName.content := h.serverName
  have hattributes : b.attributes.foldl WireAttribute.keep .empty =
      b'.attributes.foldl WireAttribute.keep .empty := by
    refine List.rel_foldl (P := Eq) ?_ rfl h.attributes
    rintro kept _ rfl a a' ha
    exact (ha.keep_eq kept).symm
  rw [state, state, h.headers.length_eq, hattributes, h.serverPort, WireString.text,
    WireString.text, WireString.text, WireString.text, haddress, hname]

end ForwardBody.Varies

namespace Packet.Varies

variable {q q' : Packet} (h : q.Varies .unnoticed q')
include h

lemma fields_eq : q'.fields = q.fields := by
  cases h with
  | signal hsize kind other => rfl
  | forward hsize hbody => exact hbody.fields_eq

lemma state_eq : q'.state = { q.state with dataSize := some q'.size } := by
  cases h with
  | signal hsize kind other => rfl
  | forward hsize hbody => exact hbody.state_eq _

variable {σ : Type} (conf : Conf) (sink : Sink σ) (told : σ) (rest : List UInt8)

/-- A decoder makes the same of the two, but for the size that it keeps. -/
theorem parse_append :
    parse conf sink .start told (q'.bytes ++ rest) =
      { parse conf sink .start told (q.bytes ++ rest) with
        state := { q.state with dataSize := some q'.size } } := by
  rw [parse_bytes_append, parse_bytes_append, h.fields_eq, h.state_eq]

lemma calls_append :
    calls conf sink .start told (q'.bytes ++ rest) =
      calls conf sink .start told (q.bytes ++ rest) :=
  congrArg (fun r => r.result.2) (h.parse_append conf sink.traced (told, []) rest)

end Packet.Varies

/-- A request to vary: its strings, two headers, a key size and a secret. -/
def Packet.sample (size : UInt16) (uri string remoteHost : WireString) (ssl : UInt8)
    (header header' : WireHeader) (keySize secret : WireAttribute) : Packet :=
  .forward size {
    method := 2
    known_method := by decide
    protocol := string
    requestUri := uri
    remoteAddress := string
    remoteHost
    serverName := string
    serverPort := 80
    ssl
    headers := [header, header']
    headers_fit := show 2 < 0x10000 by decide
    attributes := [keySize, secret] }

/-! ### Packets that are accepted -/

namespace Decoder

variable {σ : Type} {conf : Conf} {sink : Sink σ} {told : σ}

/-- A packet alone is taken to its last byte. -/
lemma parse_bytes (q : Packet) :
    parse conf sink .start told q.bytes =
      ⟨.done, [], q.state, q.fields.foldl (sink.tell conf) told⟩ := by
  have h := parse_bytes_append conf sink told q []
  rwa [List.append_nil] at h

/-- What is accepted to its last byte is the bytes of a packet. -/
lemma exists_reading {p : List UInt8} (hdone : (parse conf sink .start told p).outcome = .done)
    (hrest : (parse conf sink .start told p).rest = []) : ∃ q : Packet, q.bytes = p := by
  obtain ⟨q, rest, rfl⟩ := exists_packet_of_parse_done conf sink told hdone
  rw [parse_bytes_append] at hrest
  exact ⟨q, by rw [show rest = [] from hrest, List.append_nil]⟩

end Decoder
end Ajp13
