import Ajp13.Wire.Packet
import Mathlib.Tactic.Lemma

/-!
Nothing on the wire can be read in two ways.

* `PrefixFree`: what has been written can be cut off the front of a list in one way only;
* `WireString.bytes_prefixFree`, `WireHeader.bytes_prefixFree`, `WireAttribute.bytes_prefixFree`:
  the parts of a packet;
* `PrefixFree.flatMap`: a list of parts whose number is known; `attributes_append_inj`: the
  attributes, whose number is not, up to the tag that ends them;
* `Packet.bytes_prefixFree`: so two packets with the same bytes are the same packet.
-/

namespace Ajp13

/-- What has been written can be cut off the front of a list in one way only. -/
def PrefixFree {α : Type} (write : α → List UInt8) : Prop :=
  ∀ {a b : α} {s t : List UInt8}, write a ++ s = write b ++ t → a = b ∧ s = t

lemma PrefixFree.injective {α : Type} {write : α → List UInt8} (h : PrefixFree write) {a b : α}
    (hab : write a = write b) : a = b :=
  (h (s := []) (t := []) (by rw [hab])).1

/-- A list of a known number of parts. -/
lemma PrefixFree.flatMap {α : Type} {write : α → List UInt8} (h : PrefixFree write)
    {as bs : List α} {s t : List UInt8} (hlength : as.length = bs.length)
    (heq : as.flatMap write ++ s = bs.flatMap write ++ t) : as = bs ∧ s = t := by
  induction as generalizing bs with
  | nil =>
      cases bs with
      | nil => exact ⟨rfl, heq⟩
      | cons b bs => cases hlength
  | cons a as ih =>
      cases bs with
      | nil => cases hlength
      | cons b bs =>
          simp only [List.flatMap_cons, List.append_assoc] at heq
          obtain ⟨hab, heq⟩ := h heq
          obtain ⟨hrest, hst⟩ := ih (Nat.succ.inj hlength) heq
          exact ⟨by rw [hab, hrest], hst⟩

theorem Word.bytes_prefixFree : PrefixFree Word.bytes := by
  intro v w s t h
  simp only [Word.bytes, List.cons_append, List.nil_append, List.cons.injEq] at h
  obtain ⟨hhigh, hlow, hst⟩ := h
  refine ⟨?_, hst⟩
  rw [← Word.ofBytes_high_low v, ← Word.ofBytes_high_low w, hhigh, hlow]

/-! ### Strings -/

lemma toNat_ofNat_length {content : List UInt8} (fits : content.length < 0xFFFF) :
    (UInt16.ofNat content.length).toNat = content.length := by
  rw [UInt16.toNat_ofNat']
  omega

/-- No length of content stands for the null string. -/
lemma ofNat_length_ne_nullLength {content : List UInt8} (fits : content.length < 0xFFFF) :
    UInt16.ofNat content.length ≠ Marker.nullLength := by
  intro h
  have hlength := congrArg UInt16.toNat h
  rw [toNat_ofNat_length fits] at hlength
  have : Marker.nullLength.toNat = 0xFFFF := rfl
  omega

theorem WireString.bytes_prefixFree : PrefixFree WireString.bytes := by
  intro a b s t h
  cases a with
  | null =>
      cases b with
      | null => exact ⟨rfl, (Word.bytes_prefixFree h).2⟩
      | literal content terminator fits =>
          simp only [bytes, List.append_assoc] at h
          exact absurd (Word.bytes_prefixFree h).1.symm (ofNat_length_ne_nullLength fits)
  | literal content terminator fits =>
      cases b with
      | null =>
          simp only [bytes, List.append_assoc] at h
          exact absurd (Word.bytes_prefixFree h).1 (ofNat_length_ne_nullLength fits)
      | literal content' terminator' fits' =>
          simp only [bytes, List.append_assoc] at h
          obtain ⟨hlength, hrest⟩ := Word.bytes_prefixFree h
          have hlength : content.length = content'.length := by
            rw [← toNat_ofNat_length fits, ← toNat_ofNat_length fits', hlength]
          obtain ⟨hcontent, hrest⟩ := List.append_inj hrest hlength
          obtain ⟨hterminator, hst⟩ := List.cons.inj hrest
          subst hcontent hterminator
          exact ⟨rfl, hst⟩

/-! ### Headers -/

/-- A length that does not read as the mark of a code does not begin with that mark. -/
lemma high_ofNat_length_ne_headerCode {content : List UInt8} (fits : content.length < 0xFFFF)
    (unmarked : content.length / 256 ≠ 0xA0) :
    Word.high (UInt16.ofNat content.length) ≠ Marker.headerCode := by
  intro hhigh
  have hnat := congrArg UInt8.toNat hhigh
  rw [Word.high, toNat_ofNat_length fits, UInt8.toNat_ofNat'] at hnat
  have hcode : Marker.headerCode.toNat = 0xA0 := rfl
  omega

lemma WireString.bytes_append_ne_headerCode {name : WireString} {s t : List UInt8}
    (unmarked : name.content.length / 256 ≠ 0xA0) :
    name.bytes ++ s ≠ Marker.headerCode :: t := by
  intro h
  cases name with
  | null => exact absurd (List.cons.inj h).1 (by decide)
  | literal content terminator fits =>
      exact high_ofNat_length_ne_headerCode fits unmarked (List.cons.inj h).1

theorem WireHeaderName.bytes_prefixFree : PrefixFree WireHeaderName.bytes := by
  intro a b s t h
  cases a with
  | coded code known =>
      cases b with
      | coded code' known' =>
          obtain ⟨hcode, hst⟩ := List.cons.inj (List.cons.inj h).2
          subst hcode
          exact ⟨rfl, hst⟩
      | spelled name unmarked =>
          exact absurd h.symm (WireString.bytes_append_ne_headerCode unmarked)
  | spelled name unmarked =>
      cases b with
      | coded code known => exact absurd h (WireString.bytes_append_ne_headerCode unmarked)
      | spelled name' unmarked' =>
          obtain ⟨hname, hst⟩ := WireString.bytes_prefixFree h
          subst hname
          exact ⟨rfl, hst⟩

theorem WireHeader.bytes_prefixFree : PrefixFree WireHeader.bytes := by
  rintro ⟨name, value⟩ ⟨name', value'⟩ s t h
  simp only [bytes, List.append_assoc] at h
  obtain ⟨hname, h⟩ := WireHeaderName.bytes_prefixFree h
  obtain ⟨hvalue, hst⟩ := WireString.bytes_prefixFree h
  exact ⟨by rw [hname, hvalue], hst⟩

/-! ### Attributes -/

/-- The tag of a spelled name is the code of no name. -/
lemma ne_customAttribute_of_isSome {code : UInt8}
    (known : (AttributeName.ofCode? code).isSome = true) : code ≠ Marker.customAttribute := by
  rintro rfl
  exact absurd known (by decide)

/-- The tag that ends the attributes is the code of no name. -/
lemma ne_attributesEnd_of_isSome {code : UInt8}
    (known : (AttributeName.ofCode? code).isSome = true) : code ≠ Marker.attributesEnd := by
  rintro rfl
  exact absurd known (by decide)

theorem WireAttributeName.bytes_prefixFree : PrefixFree WireAttributeName.bytes := by
  intro a b s t h
  cases a with
  | coded code known =>
      cases b with
      | coded code' known' =>
          obtain ⟨hcode, hst⟩ := List.cons.inj h
          subst hcode
          exact ⟨rfl, hst⟩
      | custom name => exact absurd (List.cons.inj h).1 (ne_customAttribute_of_isSome known)
  | custom name =>
      cases b with
      | coded code known =>
          exact absurd (List.cons.inj h).1.symm (ne_customAttribute_of_isSome known)
      | custom name' =>
          obtain ⟨hname, hst⟩ := WireString.bytes_prefixFree (List.cons.inj h).2
          exact ⟨by rw [hname], hst⟩

/-- The name decides of which kind the value is. -/
theorem WireAttribute.bytes_prefixFree : PrefixFree WireAttribute.bytes := by
  intro a b s t h
  cases a with
  | string name value named =>
      cases b with
      | string name' value' named' =>
          simp only [bytes, List.append_assoc] at h
          obtain ⟨hname, h⟩ := WireAttributeName.bytes_prefixFree h
          obtain ⟨hvalue, hst⟩ := WireString.bytes_prefixFree h
          subst hname hvalue
          exact ⟨rfl, hst⟩
      | keySize name' size named' =>
          simp only [bytes, List.append_assoc] at h
          obtain ⟨hname, -⟩ := WireAttributeName.bytes_prefixFree h
          exact absurd (hname ▸ named') named
  | keySize name size named =>
      cases b with
      | string name' value named' =>
          simp only [bytes, List.append_assoc] at h
          obtain ⟨hname, -⟩ := WireAttributeName.bytes_prefixFree h
          exact absurd (hname ▸ named) named'
      | keySize name' size' named' =>
          simp only [bytes, List.append_assoc] at h
          obtain ⟨hname, h⟩ := WireAttributeName.bytes_prefixFree h
          obtain ⟨hsize, hst⟩ := Word.bytes_prefixFree h
          subst hname hsize
          exact ⟨rfl, hst⟩

lemma WireAttribute.length_bytes_pos (a : WireAttribute) : 0 < a.bytes.length := by
  have hname : ∀ n : WireAttributeName, 0 < n.bytes.length := by
    intro n
    cases n <;> exact Nat.succ_pos _
  cases a with
  | string name value named =>
      have := hname name
      rw [bytes, List.length_append]
      omega
  | keySize name size named =>
      have := hname name
      rw [bytes, List.length_append]
      omega

/-- No attribute begins with the tag that ends them. -/
lemma WireAttribute.bytes_append_ne_attributesEnd (a : WireAttribute) (s t : List UInt8) :
    a.bytes ++ s ≠ Marker.attributesEnd :: t := by
  intro h
  have hname : ∀ (name : WireAttributeName) (rest : List UInt8),
      name.bytes ++ rest ≠ Marker.attributesEnd :: t := by
    intro name rest h
    cases name with
    | coded code known => exact absurd (List.cons.inj h).1 (ne_attributesEnd_of_isSome known)
    | custom name => exact absurd (List.cons.inj h).1 (by decide)
  cases a with
  | string name value named =>
      rw [bytes, List.append_assoc] at h
      exact hname name _ h
  | keySize name size named =>
      rw [bytes, List.append_assoc] at h
      exact hname name _ h

/-- The tag that ends the attributes tells how many there are. -/
lemma attributes_append_inj {as bs : List WireAttribute} {s t : List UInt8}
    (h : as.flatMap WireAttribute.bytes ++ Marker.attributesEnd :: s =
      bs.flatMap WireAttribute.bytes ++ Marker.attributesEnd :: t) : as = bs ∧ s = t := by
  induction as generalizing bs with
  | nil =>
      cases bs with
      | nil => exact ⟨rfl, (List.cons.inj h).2⟩
      | cons b bs =>
          rw [List.flatMap_cons, List.append_assoc] at h
          exact absurd h.symm (b.bytes_append_ne_attributesEnd _ _)
  | cons a as ih =>
      cases bs with
      | nil =>
          rw [List.flatMap_cons, List.append_assoc] at h
          exact absurd h (a.bytes_append_ne_attributesEnd _ _)
      | cons b bs =>
          simp only [List.flatMap_cons, List.append_assoc] at h
          obtain ⟨hab, h⟩ := WireAttribute.bytes_prefixFree h
          obtain ⟨hrest, hst⟩ := ih h
          exact ⟨by rw [hab, hrest], hst⟩

/-! ### Packets -/

theorem ForwardBody.bytes_prefixFree : PrefixFree ForwardBody.bytes := by
  intro a b s t h
  simp only [bytes, List.append_assoc, List.cons_append, List.nil_append, List.cons.injEq,
    true_and] at h
  obtain ⟨hmethod, h⟩ := h
  obtain ⟨hprotocol, h⟩ := WireString.bytes_prefixFree h
  obtain ⟨huri, h⟩ := WireString.bytes_prefixFree h
  obtain ⟨haddress, h⟩ := WireString.bytes_prefixFree h
  obtain ⟨hhost, h⟩ := WireString.bytes_prefixFree h
  obtain ⟨hserver, h⟩ := WireString.bytes_prefixFree h
  obtain ⟨hport, h⟩ := Word.bytes_prefixFree h
  obtain ⟨hssl, h⟩ := List.cons.inj h
  obtain ⟨hcount, h⟩ := Word.bytes_prefixFree h
  have hlength : a.headers.length = b.headers.length := by
    have hcount := congrArg UInt16.toNat hcount
    have ha := a.headers_fit
    have hb := b.headers_fit
    rw [UInt16.toNat_ofNat', UInt16.toNat_ofNat'] at hcount
    omega
  obtain ⟨hheaders, h⟩ := WireHeader.bytes_prefixFree.flatMap hlength h
  obtain ⟨hattributes, hst⟩ := attributes_append_inj h
  cases a
  cases b
  simp_all

theorem Packet.bytes_prefixFree : PrefixFree Packet.bytes := by
  intro a b s t h
  cases a with
  | signal size kind other =>
      cases b with
      | signal size' kind' other' =>
          simp only [bytes, List.append_assoc] at h
          obtain ⟨hsize, h⟩ := Word.bytes_prefixFree (Word.bytes_prefixFree h).2
          obtain ⟨hkind, hst⟩ := List.cons.inj h
          subst hsize hkind
          exact ⟨rfl, hst⟩
      | forward size' body =>
          simp only [bytes, List.append_assoc] at h
          obtain ⟨-, h⟩ := Word.bytes_prefixFree (Word.bytes_prefixFree h).2
          exact absurd (List.cons.inj h).1 other
  | forward size body =>
      cases b with
      | signal size' kind' other' =>
          simp only [bytes, List.append_assoc] at h
          obtain ⟨-, h⟩ := Word.bytes_prefixFree (Word.bytes_prefixFree h).2
          exact absurd (List.cons.inj h).1.symm other'
      | forward size' body' =>
          simp only [bytes, List.append_assoc] at h
          obtain ⟨hsize, h⟩ := Word.bytes_prefixFree (Word.bytes_prefixFree h).2
          obtain ⟨hbody, hst⟩ := ForwardBody.bytes_prefixFree h
          exact ⟨by rw [hsize, hbody], hst⟩

end Ajp13
