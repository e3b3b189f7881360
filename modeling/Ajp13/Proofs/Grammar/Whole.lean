import Ajp13.Proofs.Bytewise.Order
import Ajp13.Proofs.Grammar.Meaning
import Ajp13.Proofs.Requests

/-!
What is held behind a forward request.

* `ForwardBody.whole`: the request has all its parts;
* `Kept`: attributes that no sink is told of, with numerals for key sizes; `ForwardBody.kept`: the
  state of a decoder holds such.
-/

namespace Ajp13

open Decoder

/-! ### The request -/

/-- The fields that come before the headers make a whole request. -/
lemma ForwardRequest.whole_of_first {m : Method} (hm : m.code?.isSome = true)
    (protocol uri : String) (urlChars : Bool) (scheme : Scheme) :
    ([.method m, .protocol protocol, .requestUri uri urlChars, .scheme scheme].foldl
      ForwardRequest.learn {}).Whole where
  method := hm
  path := RequestUri.not_mem_path uri
  plain := ⟨rfl, rfl⟩
  scheme := rfl
  headers key values h := by cases h

/-- Headers and attributes leave a whole request whole. -/
lemma ForwardRequest.Whole.foldl {r : ForwardRequest} (hr : r.Whole) {fields : List Field}
    (h : ∀ field ∈ fields, field.phase = .headers ∨ field.phase = .attributes) :
    (fields.foldl ForwardRequest.learn r).Whole := by
  refine List.foldlRecOn fields _ hr fun r hr field hfield => hr.learn ?_
  rintro method rfl
  obtain hphase | hphase := h _ hfield
  · cases hphase
  · cases hphase

lemma WireHeader.phase_of_field? {h : WireHeader} {field : Field} (hfield : h.field? = some field) :
    field.phase = .headers :=
  phase_of_headerField? ((headerField?_received h).trans hfield)

lemma WireAttribute.phase_of_field? {a : WireAttribute} {field : Field}
    (hfield : a.field? = some field) : field.phase = .attributes :=
  phase_of_attributeField? ((attributeField?_eq a.name a.value).trans hfield)

namespace ForwardBody

variable (b : ForwardBody)

/-- The method of a forward request has a code. -/
lemma isSome_code?_method :
    ((Method.ofCode? b.method).get b.known_method).code?.isSome = true := by
  have hmethod := (Option.some_get b.known_method).symm
  rw [Method.ofCode?_eq_some_iff] at hmethod
  rw [hmethod]
  rfl

/-- Behind a forward request, the request has all its parts. -/
theorem whole : (b.fields.foldl ForwardRequest.learn {}).Whole := by
  rw [fields, List.append_assoc, List.foldl_append]
  refine (ForwardRequest.whole_of_first b.isSome_code?_method _ _ _ _).foldl fun field hfield => ?_
  obtain hheader | hattribute := List.mem_append.1 hfield
  · obtain ⟨h, -, hh⟩ := List.mem_filterMap.1 hheader
    exact .inl (WireHeader.phase_of_field? hh)
  · obtain ⟨a, -, ha⟩ := List.mem_filterMap.1 hattribute
    exact .inr (WireAttribute.phase_of_field? ha)

end ForwardBody

/-! ### The attributes -/

/-- Attributes that no sink is told of, with numerals for key sizes. -/
def Kept (attributes : NameMap String) : Prop :=
  ∀ name value, attributes.get? name = some value → ToldAttribute.ofName? name value = none ∧
    (name = AttributeName.sslKeySize → ∃ size, value = Decimal.write size)

/-- One more attribute that is kept. -/
lemma Kept.keep {attributes : NameMap String} (h : Kept attributes) (a : WireAttribute) :
    Kept (a.keep attributes) := by
  rw [WireAttribute.keep]
  split
  · exact h
  next htold =>
    intro name value hvalue
    rw [NameMap.get?_insert] at hvalue
    split at hvalue
    next hname =>
      subst hname
      obtain rfl := Option.some.inj hvalue
      refine ⟨htold, fun hkey => ?_⟩
      cases a with
      | string name value named => exact absurd hkey named
      | keySize name size named => exact ⟨size, rfl⟩
    next => exact h name value hvalue

/-- Behind a forward request, the state of a decoder holds such attributes. -/
theorem ForwardBody.kept (b : ForwardBody) (size : UInt16) : Kept (b.state size).attributes := by
  refine List.foldlRecOn b.attributes WireAttribute.keep ?_ fun m hm a _ => hm.keep a
  intro name value h
  cases h

end Ajp13
