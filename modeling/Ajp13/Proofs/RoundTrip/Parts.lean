import Ajp13.Draft.Encode
import Ajp13.Proofs.Grammar.Meaning
import Ajp13.Proofs.RoundTrip.Text
import Mathlib.Data.List.Forall2

/-!
What arrives of the parts of a draft.

* `DraftHeader.accepted?`, `DraftAttribute.told?`: a header and an attribute as a sink is told of
  them, if it is;
* `DraftAttribute.arrival`: the value of an attribute as it arrives;
* `DraftHeader.accepted?_of_wire`, `DraftAttribute.told?_of_wire`: what is sent for a part says just
  this;
* `forall₂_of_mapM_eq_ok`: a list of parts, each of which can be sent.
-/

namespace Ajp13

open Decoder

/-- A step of a computation that came to an end did so itself. -/
lemma exists_of_bind_eq_ok {ε α β : Type} {x : Except ε α} {f : α → Except ε β} {b : β}
    (h : x >>= f = .ok b) : ∃ a, x = .ok a ∧ f a = .ok b := by
  cases x with
  | error e => cases h
  | ok a => exact ⟨a, rfl, h⟩

/-- Where a list is sent, each of its parts is. -/
lemma forall₂_of_mapM_eq_ok {ε α β : Type} {f : α → Except ε β} {l : List α} {r : List β}
    (h : l.mapM f = .ok r) : List.Forall₂ (fun a b => f a = .ok b) l r := by
  induction l generalizing r with
  | nil =>
      rw [List.mapM_nil] at h
      cases h
      exact .nil
  | cons a l ih =>
      rw [List.mapM_cons] at h
      obtain ⟨b, hb, h⟩ := exists_of_bind_eq_ok h
      obtain ⟨s, hs, h⟩ := exists_of_bind_eq_ok h
      cases h
      exact .cons hb (ih hs)

/-- Each part has been sent as something. -/
lemma exists_of_mem_of_forall₂ {α β : Type} {R : α → β → Prop} {l : List α} {r : List β}
    (h : List.Forall₂ R l r) {a : α} (ha : a ∈ l) : ∃ b, R a b := by
  induction h with
  | nil => cases ha
  | cons hab _ ih =>
      obtain rfl | ha := List.mem_cons.1 ha
      · exact ⟨_, hab⟩
      · exact ih ha

/-- Parts that say the same, one by one, say the same in all. -/
lemma filterMap_eq_of_forall₂ {α β γ : Type} {R : α → β → Prop} {f : α → Option γ}
    {g : β → Option γ} (hfg : ∀ a b, R a b → g b = f a) {l : List α} {r : List β}
    (h : List.Forall₂ R l r) : r.filterMap g = l.filterMap f := by
  induction h with
  | nil => rfl
  | cons hab _ ih => rw [List.filterMap_cons, List.filterMap_cons, hfg _ _ hab, ih]

/-! ### Strings -/

lemma WireString.content_of_ofBytes {bytes : List UInt8} {w : WireString}
    (h : WireString.ofBytes bytes = .ok w) : w.content = bytes := by
  rw [ofBytes] at h
  split at h
  · rw [← Except.ok.inj h]
    rfl
  · cases h

lemma WireString.text_of_ofText {text : String} {w : WireString}
    (h : WireString.ofText text = .ok w) : w.text = Text.arrival text := by
  rw [WireString.text, content_of_ofBytes h, Text.arrival]

/-! ### Headers -/

/-- The header that is named in a draft, unless the name is not one. -/
def DraftHeaderName.name? : DraftHeaderName → Option HeaderName
  | known name => some name
  | verbatim bytes => HeaderName.ofBytes? bytes

/-- The name and the value of a header, if they are of the kind that headers have. -/
def DraftHeader.accepted? (h : DraftHeader) : Option (HeaderName × HeaderValue) :=
  match h.name.name?, HeaderValue.ofBytes? h.value with
  | some name, some value => some (name, value)
  | _, _ => none

lemma WireHeaderName.name?_of_ofBytes {bytes : List UInt8} {n : WireHeaderName}
    (h : WireHeaderName.ofBytes bytes = .ok n) : n.name? = HeaderName.ofBytes? bytes := by
  rw [ofBytes] at h
  split at h
  · rw [← Except.ok.inj h]
    rfl
  · cases h

/-- A name arrives as it is, whether it was sent by its code or spelled out. -/
lemma DraftHeaderName.name?_of_wire {n : DraftHeaderName} {w : WireHeaderName}
    (h : n.wire = .ok w) : w.name? = n.name? := by
  cases n with
  | verbatim bytes => exact WireHeaderName.name?_of_ofBytes h
  | known name =>
      rw [wire] at h
      split at h
      next code hcode =>
        rw [← Except.ok.inj h]
        exact HeaderName.ofCode?_eq_some_iff.2 hcode
      next =>
        rw [WireHeaderName.name?_of_ofBytes h, HeaderName.ofBytes?_encode_text, name?]

lemma DraftHeader.accepted?_of_wire {h : DraftHeader} {w : WireHeader} (hw : h.wire = .ok w) :
    w.accepted? = h.accepted? := by
  rw [wire] at hw
  obtain ⟨name, hname, hw⟩ := exists_of_bind_eq_ok hw
  obtain ⟨value, hvalue, hw⟩ := exists_of_bind_eq_ok hw
  rw [← Except.ok.inj hw, WireHeader.accepted?, DraftHeaderName.name?_of_wire hname,
    WireString.content_of_ofBytes hvalue]
  rfl

/-! ### Attributes -/

namespace DraftAttribute

/-- The value of an attribute as it arrives: that of the key size is the numeral of the word that it
stands for. -/
def arrival (a : DraftAttribute) : String :=
  if a.name = AttributeName.sslKeySize then Decimal.write ((Decimal.read? a.value).getD 0)
  else Text.arrival a.value

/-- The attribute, if a sink is told of it. -/
def told? (a : DraftAttribute) : Option ToldAttribute := ToldAttribute.ofName? a.name a.arrival

/-- The field that an attribute is for, if a sink is told of it. -/
def field? (a : DraftAttribute) : Option Field := a.told?.map ToldAttribute.field

/-- The attributes that are kept, with one more unless a sink is told of that. The latest value of a
name counts. -/
def keep (attributes : NameMap String) (a : DraftAttribute) : NameMap String :=
  match a.told? with
  | some _ => attributes
  | none => attributes.insert (Text.arrival a.name) a.arrival

/-- The entry that is kept of an attribute, unless a sink is told of it. -/
def stored? (a : DraftAttribute) : Option (String × String) :=
  if a.told?.isSome then none else some (Text.arrival a.name, a.arrival)

/-- The attributes that are kept are the entries, put in one after the other. -/
lemma foldl_keep (l : List DraftAttribute) (m : NameMap String) :
    l.foldl keep m = (l.filterMap stored?).foldl (fun m e => m.insert e.1 e.2) m := by
  rw [List.foldl_filterMap]
  congr 1
  funext m a
  rw [keep, stored?]
  cases a.told? <;> rfl

end DraftAttribute

/-- The names in the table arrive as they are. -/
lemma AttributeName.arrival_of_mem {name : String} (h : name ∈ AttributeName.table.entries) :
    Text.arrival name = name := by
  have hall : ∀ name ∈ AttributeName.table.entries, Text.arrival name = name := by decide +kernel
  exact hall name h

lemma AttributeName.mem_of_ofCode? {code : UInt8} {name : String}
    (h : AttributeName.ofCode? code = some name) : name ∈ AttributeName.table.entries := by
  rw [ofCode?] at h
  split at h
  · cases h
  rw [CodeTable.get?] at h
  split at h
  · cases h
  · exact List.mem_of_getElem? h

/-- A name arrives, whether it was sent by its code or spelled out. -/
lemma WireAttributeName.text_of_ofText {name : String} {w : WireAttributeName}
    (h : WireAttributeName.ofText name = .ok w) : w.text = Text.arrival name := by
  rw [ofText] at h
  split at h
  next code hcode =>
    have hname := AttributeName.ofCode?_eq_some_iff.2 hcode
    rw [← Except.ok.inj h, AttributeName.arrival_of_mem (AttributeName.mem_of_ofCode? hname)]
    simp only [text, hname, Option.get_some]
  next =>
    obtain ⟨string, hstring, h⟩ := exists_of_bind_eq_ok h
    rw [← Except.ok.inj h]
    exact WireString.text_of_ofText hstring

namespace DraftAttribute

variable {a : DraftAttribute} {w : WireAttribute} (hw : a.wire = .ok w)
include hw

/-- What is sent for an attribute: its name, and a value of the kind that goes with the name. -/
lemma name_and_value_of_wire : w.name = Text.arrival a.name ∧ w.value = a.arrival := by
  rw [wire] at hw
  obtain ⟨name, hname, hw⟩ := exists_of_bind_eq_ok hw
  have htext := WireAttributeName.text_of_ofText hname
  have hkey : name.text = AttributeName.sslKeySize ↔ a.name = AttributeName.sslKeySize := by
    rw [htext]
    exact Text.arrival_eq_iff (AttributeName.arrival_of_mem (by decide))
  split at hw
  next named =>
    obtain ⟨size, hsize, hw⟩ := exists_of_bind_eq_ok hw
    rw [keySizeWord] at hsize
    split at hsize
    next size' hread =>
      rw [← Except.ok.inj hw, arrival, if_pos (hkey.1 named), hread, Except.ok.inj hsize]
      exact ⟨htext, rfl⟩
    next => cases hsize
  next named =>
    obtain ⟨value, hvalue, hw⟩ := exists_of_bind_eq_ok hw
    rw [← Except.ok.inj hw, arrival, if_neg (fun h => named (hkey.2 h))]
    exact ⟨htext, WireString.text_of_ofText hvalue⟩

/-- A key size that is sent is the numeral of a word. -/
lemma isSome_read?_of_wire (hname : a.name = AttributeName.sslKeySize) :
    (Decimal.read? a.value).isSome = true := by
  rw [wire] at hw
  obtain ⟨name, hname', hw⟩ := exists_of_bind_eq_ok hw
  have named : name.text = AttributeName.sslKeySize := by
    rw [WireAttributeName.text_of_ofText hname', hname]
    exact AttributeName.arrival_of_mem (by decide)
  rw [dif_pos named] at hw
  obtain ⟨size, hsize, -⟩ := exists_of_bind_eq_ok hw
  rw [keySizeWord] at hsize
  split at hsize
  next hread => rw [hread]; rfl
  next => cases hsize

lemma told?_of_wire : w.told? = a.told? := by
  obtain ⟨hname, hvalue⟩ := name_and_value_of_wire hw
  have hiff : ∀ name ∈ AttributeName.table.entries,
      (Text.arrival a.name = name ↔ a.name = name) :=
    fun name hmem => Text.arrival_eq_iff (AttributeName.arrival_of_mem hmem)
  rw [WireAttribute.told?, hname, hvalue, told?, ToldAttribute.ofName?, ToldAttribute.ofName?]
  simp only [hiff AttributeName.queryString (by decide), hiff AttributeName.remoteUser (by decide),
    hiff AttributeName.authType (by decide)]

lemma field?_of_wire : w.field? = a.field? :=
  congrArg (Option.map ToldAttribute.field) (told?_of_wire hw)

lemma keep_of_wire (attributes : NameMap String) :
    w.keep attributes = keep attributes a := by
  obtain ⟨hname, hvalue⟩ := name_and_value_of_wire hw
  rw [WireAttribute.keep, told?_of_wire hw, hname, hvalue]
  rfl

end DraftAttribute

end Ajp13
