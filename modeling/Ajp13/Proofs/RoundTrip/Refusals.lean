import Ajp13.Proofs.RoundTrip.Checks

/-!
Why a draft cannot be sent.

* `EncodeError.OfLength`: something is too long;
* `Draft.Refused`: what may be wrong with a draft: a length, its method, or a key size;
* `Draft.refused_of_mem_checks`: a check that does not pass has found one of these;
* `Draft.refused_of_encode`: what is reported is wrong with the draft.
-/

namespace Ajp13

/-! ### Lengths -/

/-- Something is too long. -/
def EncodeError.OfLength : EncodeError → Prop
  | stringTooLong _ _ | packetTooLong _ => True
  | unknownMethod _ | invalidKeySize _ => False

variable {c : Check}

lemma Spelling.ofLength_of_mem_checks {spelling : Spelling} {max : Nat}
    (hc : c ∈ spelling.checks max) : c.error.OfLength := by
  cases spelling with
  | code code => cases hc
  | literal content =>
      rw [List.mem_singleton.1 hc]
      trivial

/-- A header is sent unless it is too long. -/
lemma DraftHeader.ofLength_of_mem_checks {h : DraftHeader} (hc : c ∈ h.checks) :
    c.error.OfLength := by
  obtain hc | hc := List.mem_append.1 hc
  · exact Spelling.ofLength_of_mem_checks hc
  · rw [List.mem_singleton.1 hc]
    trivial

/-! ### Drafts -/

/-- What may be wrong with a draft. -/
inductive Draft.Refused (d : Draft) : EncodeError → Prop
  | length {e : EncodeError} (h : e.OfLength) : Refused d e
  | unknownMethod (h : d.method.code? = none) : Refused d (.unknownMethod d.method)
  | invalidKeySize {a : DraftAttribute} (ha : a ∈ d.attributes)
      (hname : a.name = AttributeName.sslKeySize) (hvalue : Decimal.read? a.value = none) :
      Refused d (.invalidKeySize a.value)

namespace Draft

variable {d : Draft}

/-- Of the attributes, only a key size has more than its length to be wrong. -/
lemma refused_of_mem_attribute_checks {a : DraftAttribute} (ha : a ∈ d.attributes)
    (hc : c ∈ a.checks) (hfailed : c.passed = false) : d.Refused c.error := by
  obtain hc | hc := List.mem_append.1 hc
  · exact .length (Spelling.ofLength_of_mem_checks hc)
  · obtain rfl := List.mem_singleton.1 hc
    rw [DraftAttribute.valueCheck] at hfailed ⊢
    split at hfailed
    next named =>
      rw [if_pos named]
      have hvalue := Option.isNone_iff_eq_none.1 (Option.isSome_eq_false_iff.1 hfailed)
      exact .invalidKeySize ha named hvalue
    next named =>
      rw [if_neg named]
      exact .length trivial

/-- A check that does not pass has found something wrong. -/
lemma refused_of_mem_checks (hc : c ∈ d.checks) (hfailed : c.passed = false) :
    d.Refused c.error := by
  obtain hc | hc := List.mem_append.1 hc
  · simp only [partChecks, List.mem_append, List.mem_cons, List.mem_map, List.mem_flatMap] at hc
    rcases hc with rfl | rfl | rfl | rfl | ⟨host, -, rfl⟩ | rfl | (rfl | ⟨h, -, hc⟩) | ⟨a, ha, hc⟩
    · exact .unknownMethod (Option.isNone_iff_eq_none.1 (Option.isSome_eq_false_iff.1 hfailed))
    · exact .length trivial
    · exact .length trivial
    · exact .length trivial
    · exact .length trivial
    · exact .length trivial
    · exact .length trivial
    · exact .length (DraftHeader.ofLength_of_mem_checks hc)
    · exact refused_of_mem_attribute_checks (Array.mem_toList_iff.1 ha) hc hfailed
  · rw [List.mem_singleton.1 hc]
    exact .length trivial

/-- What is reported is wrong with the draft. -/
theorem refused_of_encode {e : EncodeError} (h : d.encode = .error e) : d.Refused e := by
  obtain ⟨before, c, after, hchecks, -, hfailed, rfl⟩ := d.guard_encode.eq_error_iff.1 h
  refine refused_of_mem_checks ?_ hfailed
  rw [hchecks]
  exact List.mem_append_right before List.mem_cons_self

end Draft

end Ajp13
