import Ajp13.WellKnown
import Mathlib.Tactic.Lemma

/-!
The codes that have a meaning.

* `CodeTable.isSome_get?_iff`: a table has an entry for the codes from one to its length;
* `Method.isSome_ofCode?_iff`, `HeaderName.isSome_ofCode?_iff`, `AttributeName.isSome_ofCode?_iff`:
  the codes of methods, headers and attributes;
* `AttributeName.ofCode?_eq_sslKeySize_iff`: the code after which a word comes.
-/

namespace Ajp13

theorem CodeTable.isSome_get?_iff {α : Type} (t : CodeTable α) (code : UInt8) :
    (t.get? code).isSome = true ↔ 1 ≤ code.toNat ∧ code.toNat ≤ t.entries.length := by
  rw [get?]
  split
  next h =>
    rw [h]
    simp
  next h =>
    have hpos : code.toNat ≠ 0 := fun hzero => h (UInt8.toNat_inj.1 hzero)
    rw [isSome_getElem?]
    omega

lemma Method.isSome_ofCode?_iff (code : UInt8) :
    (Method.ofCode? code).isSome = true ↔ 1 ≤ code.toNat ∧ code.toNat ≤ 27 :=
  Method.table.isSome_get?_iff code

lemma HeaderName.isSome_ofCode?_iff (code : UInt8) :
    (HeaderName.ofCode? code).isSome = true ↔ 1 ≤ code.toNat ∧ code.toNat ≤ 14 :=
  HeaderName.table.isSome_get?_iff code

/-- One of the codes in the range announces a custom name. -/
lemma AttributeName.isSome_ofCode?_iff (code : UInt8) :
    (AttributeName.ofCode? code).isSome = true ↔
      (1 ≤ code.toNat ∧ code.toNat ≤ 13) ∧ code ≠ Marker.customAttribute := by
  rw [AttributeName.ofCode?]
  split
  next h => simp [h]
  next h =>
    rw [and_iff_left h]
    exact AttributeName.table.isSome_get?_iff code

lemma AttributeName.ofCode?_eq_sslKeySize_iff (code : UInt8) :
    AttributeName.ofCode? code = some AttributeName.sslKeySize ↔ code = 0x0B := by
  have hcode : AttributeName.code? AttributeName.sslKeySize = some 0x0B := by decide
  rw [AttributeName.ofCode?_eq_some_iff, hcode, Option.some_inj]
  exact eq_comm

end Ajp13
