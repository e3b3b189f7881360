import Ajp13.Proofs.Grammar.Language

/-!
Packets, field by field.

* `Primitive`: a field that has no other fields in it;
* `Packet.primitives`: the fields of a packet in the order of the wire, which are all of its bytes;
* `WholeFields`: the bytes of the first fields of some packet, each of them whole;
* `eq_or_exists_cut`: any beginning of some fields is whole fields, and a part of the next one.
-/

namespace Ajp13

/-- A field that has no other fields in it. -/
inductive Primitive
  | byte (b : UInt8)
  | word (w : UInt16)
  | string (w : WireString)
  | headerName (n : WireHeaderName)
deriving DecidableEq

/-- The bytes of a field. -/
def Primitive.bytes : Primitive → List UInt8
  | byte b => [b]
  | word w => Word.bytes w
  | string w => w.bytes
  | headerName n => n.bytes

lemma Primitive.bytes_ne_nil (f : Primitive) : f.bytes ≠ [] := by
  have hstring : ∀ w : WireString, w.bytes ≠ [] := fun w => by
    cases w <;> exact List.cons_ne_nil _ _
  cases f with
  | byte b => exact List.cons_ne_nil b []
  | word w => exact List.cons_ne_nil _ _
  | string w => exact hstring w
  | headerName n =>
      cases n with
      | coded code known => exact List.cons_ne_nil _ _
      | spelled name unmarked => exact hstring name

/-! ### The fields of a packet -/

/-- The fields of a head. -/
def Head.primitives (d : Head) : List Primitive :=
  [.word Marker.magic, .word d.size, .byte PrefixCode.forwardRequest.byte, .byte d.method,
    .string d.protocol, .string d.requestUri, .string d.remoteAddress, .string d.remoteHost,
    .string d.serverName, .word d.serverPort, .byte d.ssl, .word d.headerCount]

/-- The fields of a header. -/
def WireHeader.primitives (h : WireHeader) : List Primitive := [.headerName h.name, .string h.value]

/-- The fields of an attribute name: the tag, and the name if that is spelled out. -/
def WireAttributeName.primitives : WireAttributeName → List Primitive
  | coded code _ => [.byte code]
  | custom name => [.byte Marker.customAttribute, .string name]

/-- The fields of an attribute. -/
def WireAttribute.primitives : WireAttribute → List Primitive
  | string name value _ => name.primitives ++ [.string value]
  | keySize name size _ => name.primitives ++ [.word size]

/-- The fields of a packet, in the order of the wire. -/
def Packet.primitives : Packet → List Primitive
  | signal size kind _ => [.word Marker.magic, .word size, .byte kind]
  | forward size b => (b.head size).primitives ++ b.headers.flatMap WireHeader.primitives ++
      b.attributes.flatMap WireAttribute.primitives ++ [.byte Marker.attributesEnd]

lemma Head.flatMap_bytes_primitives (d : Head) :
    d.primitives.flatMap Primitive.bytes = d.bytes := by
  simp only [primitives, bytes, Opening.bytes, Primitive.bytes, List.flatMap_cons, List.flatMap_nil,
    List.append_assoc, List.cons_append, List.nil_append, List.append_nil]

lemma WireHeader.flatMap_bytes_primitives (h : WireHeader) :
    h.primitives.flatMap Primitive.bytes = h.bytes := by
  simp only [primitives, bytes, Primitive.bytes, List.flatMap_cons, List.flatMap_nil,
    List.append_nil]

lemma WireAttributeName.flatMap_bytes_primitives (n : WireAttributeName) :
    n.primitives.flatMap Primitive.bytes = n.bytes := by
  cases n with
  | coded code known => rfl
  | custom name =>
      simp only [primitives, bytes, Primitive.bytes, List.flatMap_cons, List.flatMap_nil,
        List.append_nil, List.cons_append, List.nil_append]

lemma WireAttribute.flatMap_bytes_primitives (a : WireAttribute) :
    a.primitives.flatMap Primitive.bytes = a.bytes := by
  cases a <;>
    rw [primitives, bytes, List.flatMap_append, WireAttributeName.flatMap_bytes_primitives,
      List.flatMap_singleton, Primitive.bytes]

/-- The fields of a packet are all of its bytes. -/
theorem Packet.flatMap_bytes_primitives (q : Packet) :
    q.primitives.flatMap Primitive.bytes = q.bytes := by
  cases q with
  | signal size kind other =>
      simp only [primitives, bytes, Primitive.bytes, List.flatMap_cons, List.flatMap_nil,
        List.append_assoc, List.append_nil]
  | forward size b =>
      simp only [primitives, bytes_forward, List.flatMap_append, List.flatMap_singleton,
        List.flatMap_assoc, Head.flatMap_bytes_primitives, WireHeader.flatMap_bytes_primitives,
        WireAttribute.flatMap_bytes_primitives, Primitive.bytes, List.append_assoc]

/-! ### Whole fields -/

/-- The bytes are those of the first fields of some packet, each of them whole. -/
def WholeFields (bytes : List UInt8) : Prop :=
  ∃ (q : Packet) (fields : List Primitive), fields <+: q.primitives ∧
    bytes = fields.flatMap Primitive.bytes

/-- Any beginning of some fields is all of them, or the first ones and a part of the next. -/
lemma eq_or_exists_cut {bytes : List UInt8} {fields : List Primitive}
    (h : bytes <+: fields.flatMap Primitive.bytes) :
    bytes = fields.flatMap Primitive.bytes ∨
      ∃ (before : List Primitive) (f : Primitive) (after : List Primitive) (part : List UInt8),
        fields = before ++ f :: after ∧ part <+: f.bytes ∧ part ≠ f.bytes ∧
          bytes = before.flatMap Primitive.bytes ++ part := by
  induction fields generalizing bytes with
  | nil => exact .inl (List.prefix_nil.1 h)
  | cons f fields ih =>
      rw [List.flatMap_cons] at h ⊢
      by_cases hf : f.bytes <+: bytes
      · obtain ⟨bytes, rfl⟩ := hf
        obtain rfl | ⟨before, f', after, part, rfl, hpart, hne, rfl⟩ :=
          ih ((List.prefix_append_right_inj _).1 h)
        · exact .inl rfl
        · exact .inr ⟨f :: before, f', after, part, rfl, hpart, hne,
            by rw [List.flatMap_cons, List.append_assoc]⟩
      · have hpart : bytes <+: f.bytes :=
          (List.prefix_or_prefix_of_prefix h (List.prefix_append _ _)).resolve_right hf
        refine .inr ⟨[], f, fields, bytes, rfl, hpart, ?_, rfl⟩
        rintro rfl
        exact hf List.prefix_rfl

end Ajp13
