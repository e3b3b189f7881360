/-!
Finite maps from names, in the order of the names.

* `NameMap`: entries with strictly increasing names, so that maps with equal contents are equal;
* `NameMap.alter`, `NameMap.insert`: change the entry of one name;
* `get?_alter_self`, `get?_alter_of_ne`: what a change does to each entry.
-/

namespace Ajp13

/-- A finite map from names to values. -/
structure NameMap (α : Type) where
  entries : List (String × α)
  sorted : entries.Pairwise fun a b => a.1 < b.1
deriving DecidableEq

namespace NameMap

variable {α : Type}

/-! ### Entries in order -/

/-- The entries after `f` has been applied to the value of `name`, which gets an entry in its place
if it had none. -/
def alterEntries (name : String) (f : Option α → α) : List (String × α) → List (String × α)
  | [] => [(name, f none)]
  | (n, v) :: rest =>
      if name < n then (name, f none) :: (n, v) :: rest
      else if name = n then (n, f (some v)) :: rest
      else (n, v) :: alterEntries name f rest

/-- No entries are made but that of `name`. -/
theorem mem_alterEntries {name : String} {f : Option α → α} {e : String × α}
    {l : List (String × α)} (he : e ∈ alterEntries name f l) : e.1 = name ∨ e ∈ l := by
  induction l with
  | nil =>
      rw [alterEntries, List.mem_singleton] at he
      exact .inl (by rw [he])
  | cons entry rest ih =>
      obtain ⟨n, v⟩ := entry
      rw [alterEntries] at he
      split at he
      · rcases List.mem_cons.1 he with rfl | he
        · exact .inl rfl
        · exact .inr he
      split at he
      next hn =>
        rcases List.mem_cons.1 he with rfl | he
        · exact .inl hn.symm
        · exact .inr (List.mem_cons_of_mem _ he)
      · rcases List.mem_cons.1 he with rfl | he
        · exact .inr List.mem_cons_self
        · exact (ih he).imp_right (List.mem_cons_of_mem _)

/-- The entries stay in order. -/
theorem sorted_alterEntries (name : String) (f : Option α → α) {l : List (String × α)}
    (h : l.Pairwise fun a b => a.1 < b.1) :
    (alterEntries name f l).Pairwise fun a b => a.1 < b.1 := by
  induction l with
  | nil => exact List.pairwise_singleton _ _
  | cons entry rest ih =>
      obtain ⟨n, v⟩ := entry
      obtain ⟨hhead, htail⟩ := List.pairwise_cons.1 h
      rw [alterEntries]
      split
      next hlt =>
        refine List.pairwise_cons.2 ⟨fun e he => ?_, h⟩
        rcases List.mem_cons.1 he with rfl | he
        · exact hlt
        · exact String.lt_trans hlt (hhead e he)
      next hnlt =>
        split
        · exact List.pairwise_cons.2 ⟨hhead, htail⟩
        next hne =>
          refine List.pairwise_cons.2 ⟨fun e he => ?_, ih htail⟩
          rcases mem_alterEntries he with he | he
          · rw [he]
            by_cases hlt : n < name
            · exact hlt
            · exact absurd (String.le_antisymm (String.not_lt.1 hlt) (String.not_lt.1 hnlt)) hne
          · exact hhead e he

/-! ### Maps -/

/-- The map without entries. -/
def empty : NameMap α := ⟨[], .nil⟩

/-- The value of a name. -/
def get? (m : NameMap α) (name : String) : Option α := m.entries.lookup name

/-- The map in which `f` has been applied to the value of `name`. -/
def alter (m : NameMap α) (name : String) (f : Option α → α) : NameMap α :=
  ⟨alterEntries name f m.entries, sorted_alterEntries name f m.sorted⟩

/-- The map in which `name` has the given value. -/
def insert (m : NameMap α) (name : String) (value : α) : NameMap α := m.alter name fun _ => value

/-- A name before all others has no value. -/
theorem lookup_eq_none_of_lt {name : String} {l : List (String × α)}
    (h : ∀ e ∈ l, name < e.1) : l.lookup name = none := by
  rw [List.lookup_eq_none_iff]
  intro e he
  have hlt := h e he
  rw [bne_iff_ne]
  rintro rfl
  exact String.lt_irrefl _ hlt

theorem lookup_alterEntries_self (name : String) (f : Option α → α) {l : List (String × α)}
    (h : l.Pairwise fun a b => a.1 < b.1) :
    (alterEntries name f l).lookup name = some (f (l.lookup name)) := by
  induction l with
  | nil => simp [alterEntries]
  | cons entry rest ih =>
      obtain ⟨n, v⟩ := entry
      obtain ⟨hhead, htail⟩ := List.pairwise_cons.1 h
      rw [alterEntries]
      split
      next hlt =>
        have : ((n, v) :: rest).lookup name = none := lookup_eq_none_of_lt fun e he => by
          rcases List.mem_cons.1 he with rfl | he
          · exact hlt
          · exact String.lt_trans hlt (hhead e he)
        rw [this, List.lookup_cons_self]
      split
      next heq => simp [heq]
      next hne =>
        rw [List.lookup_cons, List.lookup_cons, beq_eq_false_iff_ne.2 hne]
        exact ih htail

theorem lookup_alterEntries_of_ne {name other : String} (hne : other ≠ name)
    (f : Option α → α) (l : List (String × α)) :
    (alterEntries name f l).lookup other = l.lookup other := by
  have hbeq : (other == name) = false := beq_eq_false_iff_ne.2 hne
  induction l with
  | nil => simp [alterEntries, List.lookup_cons, hbeq]
  | cons entry rest ih =>
      obtain ⟨n, v⟩ := entry
      rw [alterEntries]
      split
      · simp [List.lookup_cons, hbeq]
      split
      next heq => simp [List.lookup_cons, ← heq, hbeq]
      · rw [List.lookup_cons, List.lookup_cons, ih]

/-- The changed entry. -/
theorem get?_alter_self (m : NameMap α) (name : String) (f : Option α → α) :
    (m.alter name f).get? name = some (f (m.get? name)) :=
  lookup_alterEntries_self name f m.sorted

/-- All others stay. -/
theorem get?_alter_of_ne (m : NameMap α) {name other : String} (hne : other ≠ name)
    (f : Option α → α) : (m.alter name f).get? other = m.get? other :=
  lookup_alterEntries_of_ne hne f m.entries

end NameMap

end Ajp13
