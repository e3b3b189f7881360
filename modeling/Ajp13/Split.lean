/-!
Cutting a list at the first occurrence of a separator.

* `Split.before`, `Split.after?`: the two parts; there is a second one only if there is a
  separator;
* `before_append_after?`: they are all of the list;
* `before_append`, `after?_append`: parts of which the first has no separator are these two;
* `before_flatMap`, `after?_flatMap`: where each element is written out, and only a separator as one,
  the parts are written out; `before_map`, `after?_map`: so it is with a map.
-/

namespace Ajp13.Split

variable {α : Type} [DecidableEq α]

/-- The elements before the first separator, or all if there is none. -/
def before (sep : α) (l : List α) : List α := l.takeWhile (· ≠ sep)

/-- The elements after the first separator, if there is one. -/
def after? (sep : α) (l : List α) : Option (List α) :=
  match l.dropWhile (· ≠ sep) with
  | [] => none
  | _ :: rest => some rest

/-- The first part holds no separator. -/
theorem not_mem_before (sep : α) (l : List α) : sep ∉ before sep l := by
  intro h
  have := List.all_eq_true.1 List.all_takeWhile sep h
  simp at this

/-- Nothing but the first separator is cut out. -/
theorem before_append_after? (sep : α) (l : List α) :
    before sep l ++ ((after? sep l).elim [] (sep :: ·)) = l := by
  induction l with
  | nil => rfl
  | cons a l ih =>
      by_cases h : a = sep
      · simp [before, after?, h]
      · rw [before, after?] at ih ⊢
        rw [List.takeWhile_cons_of_pos (by simpa using h),
          List.dropWhile_cons_of_pos (by simpa using h), List.cons_append, ih]

section Parts

variable {sep : α} {l : List α} (h : sep ∉ l) (rest? : Option (List α))
include h

/-- What comes before a separator is the first part, unless it has one itself. -/
theorem before_append : before sep (l ++ rest?.elim [] (sep :: ·)) = l := by
  induction l with
  | nil => cases rest? <;> simp [before]
  | cons a l ih =>
      obtain ⟨hne, hl⟩ := List.ne_and_not_mem_of_not_mem_cons h
      rw [before] at ih ⊢
      rw [List.cons_append, List.takeWhile_cons_of_pos (by simpa using Ne.symm hne), ih hl]

/-- And what comes after it is the second. -/
theorem after?_append : after? sep (l ++ rest?.elim [] (sep :: ·)) = rest? := by
  induction l with
  | nil => cases rest? <;> simp [after?]
  | cons a l ih =>
      obtain ⟨hne, hl⟩ := List.ne_and_not_mem_of_not_mem_cons h
      rw [after?] at ih ⊢
      rw [List.cons_append, List.dropWhile_cons_of_pos (by simpa using Ne.symm hne), ih hl]

end Parts

section Images

variable {β : Type} {f : α → List β} {sep : α} {sep' : β}

theorem not_mem_flatMap_before (hne : ∀ a, a ≠ sep → sep' ∉ f a) (l : List α) :
    sep' ∉ (before sep l).flatMap f := by
  intro h
  obtain ⟨a, ha, hsep'⟩ := List.mem_flatMap.1 h
  refine hne a ?_ hsep'
  rintro rfl
  exact not_mem_before a l ha

theorem flatMap_eq_parts (hsep : f sep = [sep']) (l : List α) :
    l.flatMap f =
      (before sep l).flatMap f ++ ((after? sep l).map (List.flatMap f)).elim [] (sep' :: ·) := by
  have h := congrArg (List.flatMap f) (before_append_after? sep l)
  rw [List.flatMap_append] at h
  rw [← h]
  cases after? sep l with
  | none => rfl
  | some rest => rw [Option.elim, List.flatMap_cons, hsep]; rfl

variable [DecidableEq β] (hsep : f sep = [sep']) (hne : ∀ a, a ≠ sep → sep' ∉ f a)
include hsep hne

/-- What is written before the first separator is the first part. -/
theorem before_flatMap (l : List α) : before sep' (l.flatMap f) = (before sep l).flatMap f := by
  rw [flatMap_eq_parts hsep, before_append (not_mem_flatMap_before hne l)]

/-- And what is written after it is the second. -/
theorem after?_flatMap (l : List α) :
    after? sep' (l.flatMap f) = (after? sep l).map (List.flatMap f) := by
  rw [flatMap_eq_parts hsep, after?_append (not_mem_flatMap_before hne l)]

end Images

section Maps

variable {β : Type} [DecidableEq β] {f : α → β} {sep : α} {sep' : β}
  (hf : ∀ a, f a = sep' ↔ a = sep)
include hf

theorem before_map (l : List α) : before sep' (l.map f) = (before sep l).map f := by
  rw [List.map_eq_flatMap, List.map_eq_flatMap]
  refine before_flatMap (f := fun a => [f a]) (congrArg List.singleton ((hf sep).2 rfl)) ?_ l
  exact fun a ha h => ha ((hf a).1 (List.mem_singleton.1 h).symm)

theorem after?_map (l : List α) : after? sep' (l.map f) = (after? sep l).map (List.map f) := by
  have hmap : (List.map f : List α → List β) = List.flatMap fun a => [f a] :=
    funext fun l => List.map_eq_flatMap
  rw [hmap]
  refine after?_flatMap (f := fun a => [f a]) (congrArg List.singleton ((hf sep).2 rfl)) ?_ l
  exact fun a ha h => ha ((hf a).1 (List.mem_singleton.1 h).symm)

end Maps

end Ajp13.Split
