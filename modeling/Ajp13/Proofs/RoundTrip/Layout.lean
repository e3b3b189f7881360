import Ajp13.Proofs.Grammar.PrefixFree
import Ajp13.Proofs.RoundTrip.Parts
import Mathlib.Algebra.GroupWithZero.Nat

/-!
How a draft is laid out in bytes.

* `Counted`: content behind its length, which is exact, and with a zero for the terminator;
* `Spelling`: a name as it is sent, by its code or spelled out;
* `DraftHeader.Layout`, `DraftAttribute.Layout`, `Draft.BodyLayout`, `Draft.Layout`: the bytes of a
  header, of an attribute, and of a whole draft, with nothing said of how they are computed;
* `Draft.bodySize`: how many bytes there are behind the size, whether or not they can be sent;
* `Draft.BodyLayout.length_eq`: it is what it says.
-/

namespace Ajp13

/-! ### Strings -/

/-- The content behind its length and ahead of a zero. The length is the number of the bytes, not
only a word that stands for it. -/
def Counted (content bytes : List UInt8) : Prop :=
  ∃ length : UInt16, length.toNat = content.length ∧ bytes = Word.bytes length ++ content ++ [0]

/-- How many bytes content takes. -/
def countedSize (content : List UInt8) : Nat := content.length + 3

lemma Counted.length_eq {content bytes : List UInt8} (h : Counted content bytes) :
    bytes.length = countedSize content := by
  obtain ⟨length, -, rfl⟩ := h
  rw [List.length_append, List.length_append, Word.length_bytes, List.length_singleton, countedSize]
  omega

/-- A string is laid out as its bytes say, for all content that fits. -/
lemma counted_bytes {content : List UInt8} (fits : content.length < 0xFFFF) :
    Counted content (WireString.literal content 0 fits).bytes :=
  ⟨UInt16.ofNat content.length, toNat_ofNat_length fits, rfl⟩

/-! ### Names -/

/-- A name as it is sent. -/
inductive Spelling
  | code (code : UInt8)
  | literal (content : List UInt8)

namespace Spelling

/-- The bytes of a name. There is a mark ahead of a code, and another one ahead of what is spelled
out. -/
inductive Layout (mark literalMark : List UInt8) : Spelling → List UInt8 → Prop
  | code (code : UInt8) : Layout mark literalMark (.code code) (mark ++ [code])
  | literal {content bytes : List UInt8} (h : Counted content bytes) :
      Layout mark literalMark (.literal content) (literalMark ++ bytes)

/-- How many bytes a name takes. -/
def size (mark literalMark : List UInt8) : Spelling → Nat
  | code _ => mark.length + 1
  | literal content => literalMark.length + countedSize content

lemma Layout.length_eq {mark literalMark : List UInt8} {spelling : Spelling} {bytes : List UInt8}
    (h : spelling.Layout mark literalMark bytes) :
    bytes.length = spelling.size mark literalMark := by
  cases h with
  | code code => rw [List.length_append, List.length_singleton, size]
  | literal h => rw [List.length_append, h.length_eq, size]

end Spelling

/-- A name is sent by its code if it has one. -/
def DraftHeaderName.spelling : DraftHeaderName → Spelling
  | known name => name.code?.elim (.literal (Utf8.encode name.text)) .code
  | verbatim bytes => .literal bytes

/-- A name is sent by its code if it has one. -/
def DraftAttribute.spelling (a : DraftAttribute) : Spelling :=
  (AttributeName.code? a.name).elim (.literal (Utf8.encode a.name)) .code

/-! ### Headers and attributes -/

/-- The bytes of a header: its name, and its value. -/
def DraftHeader.Layout (h : DraftHeader) (bytes : List UInt8) : Prop :=
  ∃ name value, h.name.spelling.Layout [Marker.headerCode] [] name ∧ Counted h.value value ∧
    bytes = name ++ value

/-- How many bytes a header takes. -/
def DraftHeader.size (h : DraftHeader) : Nat :=
  h.name.spelling.size [Marker.headerCode] [] + countedSize h.value

lemma DraftHeader.Layout.length_eq {h : DraftHeader} {bytes : List UInt8}
    (hlayout : h.Layout bytes) : bytes.length = h.size := by
  obtain ⟨name, value, hname, hvalue, rfl⟩ := hlayout
  rw [List.length_append, hname.length_eq, hvalue.length_eq, size]

namespace DraftAttribute

/-- The bytes of an attribute's value. -/
def ValueLayout (a : DraftAttribute) (bytes : List UInt8) : Prop :=
  if a.name = AttributeName.sslKeySize then
    ∃ size, Decimal.read? a.value = some size ∧ bytes = Word.bytes size
  else Counted (Utf8.encode a.value) bytes

/-- The bytes of an attribute: its name, and its value. -/
def Layout (a : DraftAttribute) (bytes : List UInt8) : Prop :=
  ∃ name value, a.spelling.Layout [] [Marker.customAttribute] name ∧ a.ValueLayout value ∧
    bytes = name ++ value

/-- How many bytes an attribute takes. -/
def size (a : DraftAttribute) : Nat :=
  a.spelling.size [] [Marker.customAttribute] +
    if a.name = AttributeName.sslKeySize then 2 else countedSize (Utf8.encode a.value)

lemma Layout.length_eq {a : DraftAttribute} {bytes : List UInt8} (h : a.Layout bytes) :
    bytes.length = a.size := by
  obtain ⟨name, value, hname, hvalue, rfl⟩ := h
  rw [List.length_append, hname.length_eq, size]
  rw [ValueLayout] at hvalue
  split at hvalue
  next hkeySize =>
    obtain ⟨size, -, rfl⟩ := hvalue
    rw [if_pos hkeySize, Word.length_bytes]
  next hkeySize => rw [if_neg hkeySize, hvalue.length_eq]

end DraftAttribute

/-! ### Drafts -/

namespace Draft

/-- The bytes of the remote host: those of the null string if there is none. -/
def HostLayout : Option String → List UInt8 → Prop
  | none, bytes => bytes = Word.bytes Marker.nullLength
  | some host, bytes => Counted (Utf8.encode host) bytes

/-- The bytes of a draft behind the size. The number of the headers is exact. -/
inductive BodyLayout (d : Draft) : List UInt8 → Prop
  | intro {method : UInt8} {protocol uri address host server : List UInt8} {count : UInt16}
      {headers attributes : List (List UInt8)}
      (hmethod : d.method.code? = some method)
      (hprotocol : Counted (Utf8.encode d.protocol) protocol)
      (huri : Counted (Utf8.encode d.requestUri) uri)
      (haddress : Counted (Utf8.encode d.remoteAddress) address)
      (hhost : HostLayout d.remoteHost host)
      (hserver : Counted (Utf8.encode d.serverName) server)
      (hcount : count.toNat = d.headers.size)
      (hheaders : List.Forall₂ DraftHeader.Layout d.headers.toList headers)
      (hattributes : List.Forall₂ DraftAttribute.Layout d.attributes.toList attributes) :
      BodyLayout d ([PrefixCode.forwardRequest.byte, method] ++
        protocol ++ uri ++ address ++ host ++ server ++ Word.bytes d.serverPort ++
        [if d.isSsl then 1 else 0] ++ Word.bytes count ++ headers.flatten ++ attributes.flatten ++
        [Marker.attributesEnd])

/-- The bytes of a draft. The size is that of the body, and exact. -/
def Layout (d : Draft) (bytes : List UInt8) : Prop :=
  ∃ (size : UInt16) (body : List UInt8), size.toNat = body.length ∧ d.BodyLayout body ∧
    bytes = Word.bytes Marker.magic ++ Word.bytes size ++ body

/-- How many bytes the remote host takes. -/
def hostSize : Option String → Nat
  | none => 2
  | some host => countedSize (Utf8.encode host)

/-- How many bytes the body takes: seven for the kind, the method, the port, the encryption and the
number of headers, one for the end of the attributes, and those of the strings and lists. -/
def bodySize (d : Draft) : Nat :=
  7 + countedSize (Utf8.encode d.protocol) + countedSize (Utf8.encode d.requestUri) +
  countedSize (Utf8.encode d.remoteAddress) + hostSize d.remoteHost +
  countedSize (Utf8.encode d.serverName) + (d.headers.toList.map DraftHeader.size).sum +
  (d.attributes.toList.map DraftAttribute.size).sum + 1

lemma HostLayout.length_eq {host : Option String} {bytes : List UInt8} (h : HostLayout host bytes) :
    bytes.length = hostSize host := by
  cases host with
  | none =>
      rw [show bytes = Word.bytes Marker.nullLength from h, Word.length_bytes, hostSize]
  | some host => exact Counted.length_eq h

/-- Parts take as many bytes as they take each. -/
lemma length_flatten_of_forall₂ {α : Type} {R : α → List UInt8 → Prop} {size : α → Nat}
    {l : List α} {parts : List (List UInt8)} (h : List.Forall₂ R l parts)
    (hsize : ∀ a bytes, R a bytes → bytes.length = size a) :
    parts.flatten.length = (l.map size).sum := by
  induction h with
  | nil => rfl
  | cons ha _ ih =>
      rw [List.flatten_cons, List.length_append, hsize _ _ ha, ih, List.map_cons, List.sum_cons]

/-- There are as many bytes behind the size as their number says. -/
lemma BodyLayout.length_eq {d : Draft} {bytes : List UInt8} (h : d.BodyLayout bytes) :
    bytes.length = d.bodySize := by
  cases h with
  | intro hmethod hprotocol huri haddress hhost hserver hcount hheaders hattributes =>
      have hheaders := length_flatten_of_forall₂ hheaders fun _ _ => DraftHeader.Layout.length_eq
      have hattributes :=
        length_flatten_of_forall₂ hattributes fun _ _ => DraftAttribute.Layout.length_eq
      simp only [List.length_append, List.length_cons, List.length_nil, Word.length_bytes,
        hprotocol.length_eq, huri.length_eq, haddress.length_eq, hhost.length_eq, hserver.length_eq,
        hheaders, hattributes]
      rw [bodySize]
      omega

end Draft

end Ajp13
