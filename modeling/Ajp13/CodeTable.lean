/-!
Tables of one-byte codes: the entries are numbered in order, from one.

* `CodeTable.get?`, `CodeTable.code?`: from a code to its entry and back;
* `get?_eq_some_iff`: the two are inverse to each other.
-/

namespace Ajp13

/-- Distinct entries with the codes one, two, three, and so on, all in one byte. -/
structure CodeTable (α : Type) where
  entries : List α
  nodup_entries : entries.Nodup
  length_lt : entries.length < 256

namespace CodeTable

variable {α : Type} (t : CodeTable α)

/-- The entry with the given code. -/
def get? (code : UInt8) : Option α :=
  if code = 0 then none else t.entries[code.toNat - 1]?

/-- The code of an entry. -/
def code? [DecidableEq α] (a : α) : Option UInt8 :=
  (t.entries.idxOf? a).map fun i => UInt8.ofNat (i + 1)

/-- A code has an entry if and only if that entry has the code. -/
theorem get?_eq_some_iff [DecidableEq α] {code : UInt8} {a : α} :
    t.get? code = some a ↔ t.code? a = some code := by
  have hlen := t.length_lt
  rw [get?, code?, Option.map_eq_some_iff]
  constructor
  · intro h
    split at h
    · cases h
    next hcode =>
      obtain ⟨hi, rfl⟩ := List.getElem?_eq_some_iff.1 h
      refine ⟨code.toNat - 1, ?_, ?_⟩
      · rw [List.idxOf?_eq_some_iff]
        refine ⟨hi, by simp, fun j hj => ?_⟩
        have := List.pairwise_iff_getElem.1 t.nodup_entries j (code.toNat - 1) (by omega) hi hj
        simpa using this
      · have : code.toNat ≠ 0 := fun h0 => hcode (UInt8.toNat_inj.1 h0)
        rw [show code.toNat - 1 + 1 = code.toNat by omega, UInt8.ofNat_toNat]
  · rintro ⟨i, hi, rfl⟩
    obtain ⟨hlt, ha, -⟩ := List.idxOf?_eq_some_iff.1 hi
    have hnat : (UInt8.ofNat (i + 1)).toNat = i + 1 := by
      rw [UInt8.toNat_ofNat']; omega
    rw [if_neg (fun h => ?_), hnat, Nat.add_sub_cancel, List.getElem?_eq_getElem hlt]
    · simpa using ha
    · have := congrArg UInt8.toNat h
      rw [hnat] at this
      exact absurd this (Nat.succ_ne_zero i)

end CodeTable

end Ajp13
