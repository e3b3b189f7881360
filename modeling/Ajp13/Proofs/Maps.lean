import Ajp13.NameMap
import Mathlib.Data.List.Sort
import Mathlib.Tactic.Lemma

/-!
Finite maps by the values of their names.

* `get?_eq_some_iff`: a name has the value of its entry;
* `ext_get?`: maps with the same values are the same;
* `isSome_get?_insert`: no entry gets lost;
* `get?_foldl_insert`: of several entries of a name, the last counts;
* `foldl_insert_of_perm`: a map is made of its entries, in whatever order they are inserted.
-/

namespace Ajp13.NameMap

variable {α : Type} {m m' : NameMap α} {name : String} {value : α}

/-- No two entries have the same name. -/
lemma nodup_names (m : NameMap α) : (m.entries.map Prod.fst).Nodup := by
  rw [List.Nodup, List.pairwise_map]
  refine m.sorted.imp fun {a b} hlt heq => ?_
  rw [heq] at hlt
  exact String.lt_irrefl _ hlt

/-- Of entries with different names, a name has the value of its own. -/
lemma lookup_eq_some_iff_of_nodup {l : List (String × α)} (hnodup : (l.map Prod.fst).Nodup) :
    l.lookup name = some value ↔ (name, value) ∈ l := by
  rw [List.lookup_eq_some_iff]
  constructor
  · rintro ⟨before, after, rfl, -⟩
    simp
  · intro h
    obtain ⟨before, after, rfl⟩ := List.append_of_mem h
    refine ⟨before, after, rfl, fun e he => bne_iff_ne.2 fun hname => ?_⟩
    rw [List.map_append, List.nodup_append] at hnodup
    exact hnodup.2.2 e.1 (List.mem_map_of_mem he) name (by simp) hname.symm

/-- A name has the value of its entry. -/
theorem get?_eq_some_iff : m.get? name = some value ↔ (name, value) ∈ m.entries :=
  lookup_eq_some_iff_of_nodup m.nodup_names

/-- Maps with the same values are the same. -/
theorem ext_get? (h : ∀ name, m.get? name = m'.get? name) : m = m' := by
  have : Std.Irrefl fun a b : String × α => a.1 < b.1 := ⟨fun a => String.lt_irrefl a.1⟩
  have : Std.Antisymm fun a b : String × α => a.1 < b.1 :=
    ⟨fun a b hab hba => absurd (String.lt_trans hab hba) (String.lt_irrefl a.1)⟩
  have hentries : m.entries = m'.entries := by
    refine m.sorted.eq_of_mem_iff m'.sorted fun e => ?_
    rw [← Prod.mk.eta (p := e), ← get?_eq_some_iff, ← get?_eq_some_iff, h]
  cases m
  cases m'
  cases hentries
  rfl

lemma get?_insert (m : NameMap α) (name : String) (value : α) (other : String) :
    (m.insert name value).get? other = if other = name then some value else m.get? other := by
  rw [insert]
  split
  next h => rw [h, get?_alter_self]
  next h => exact get?_alter_of_ne m h _

/-- A map with one more entry has the names that it had. -/
lemma isSome_get?_insert (h : (m.get? name).isSome = true) (name' : String) (value : α) :
    ((m.insert name' value).get? name).isSome = true := by
  rw [get?_insert]
  split
  · rfl
  · exact h

/-- A name has the value that was inserted last, or the one that it had. -/
lemma get?_foldl_insert (l : List (String × α)) (m : NameMap α) (name : String) :
    (l.foldl (fun m e => m.insert e.1 e.2) m).get? name =
      (l.reverse.lookup name).or (m.get? name) := by
  induction l generalizing m with
  | nil => rfl
  | cons e l ih =>
      obtain ⟨n, v⟩ := e
      rw [List.foldl_cons, ih, get?_insert, List.reverse_cons, List.lookup_append, Option.or_assoc,
        List.lookup_cons, List.lookup_nil]
      by_cases hname : name = n
      · simp [hname]
      · simp [hname, beq_eq_false_iff_ne.2 hname]

/-- A map is made of its entries, in whatever order they are inserted. -/
theorem foldl_insert_of_perm {l : List (String × α)} (h : l.Perm m.entries) :
    l.foldl (fun m e => m.insert e.1 e.2) .empty = m := by
  have hnodup : (l.reverse.map Prod.fst).Nodup :=
    ((l.reverse_perm.trans h).map Prod.fst).nodup_iff.2 m.nodup_names
  have hempty : ∀ name, (empty : NameMap α).get? name = none := fun _ => rfl
  refine ext_get? fun name => Option.ext fun value => ?_
  rw [get?_foldl_insert, hempty, Option.or_none, lookup_eq_some_iff_of_nodup hnodup,
    List.mem_reverse, h.mem_iff, get?_eq_some_iff]

end Ajp13.NameMap
