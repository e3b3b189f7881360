import Ajp13.Proofs.Bytewise.Effect
import Ajp13.Proofs.Chunks
import Mathlib.Data.List.Induction

/-!
Where a scan stops, and what the bytes up to there come to.

* `exists_taken`: what a scan has taken, it takes if nothing comes behind;
* `length_rest_scan_lt`: a scan that ended has taken a byte;
* `outcome_scan_eq`: a scan without a fault is done where its state is;
* `exists_last_of_failed`: a scan with a fault was suspended up to the last byte that it took;
* `State.Coherent.exists_before_begun`: a scan that was suspended within a field was suspended ahead
  of that field too, and the bytes between are those of the field that have come;
* `State.Coherent.exists_spared_of_failed`: so a scan with a fault was suspended ahead of the field
  at fault, in the state and with the result that the fault has left.
-/

namespace Ajp13.Decoder

variable {σ : Type} {put : σ → Field → σ} {s t : State} {acc acc' : σ}

/-! ### The bytes that are taken -/

/-- The way in which a scan ends that has no more bytes to take. -/
lemma scan_nil_eq (put : σ → Field → σ) (s : State) (acc : σ) :
    scan put s acc [] = ⟨if s.isDone then .done else .suspended, [], s, acc⟩ := rfl

/-- What a scan has taken, it takes if nothing comes behind. -/
theorem exists_taken (put : σ → Field → σ) (s : State) (acc : σ) (bytes : List UInt8) :
    ∃ taken, bytes = taken ++ (scan put s acc bytes).rest ∧
      scan put s acc taken = { scan put s acc bytes with rest := [] } := by
  induction bytes generalizing s acc with
  | nil => exact ⟨[], rfl, rfl⟩
  | cons b bytes ih =>
      by_cases hdone : s.phase = .done
      · refine ⟨[], ?_, ?_⟩
        · rw [scan_done hdone, List.nil_append]
        · rw [scan_done hdone, scan_done hdone]
      rw [scan_cons hdone]
      cases hstep : s.step b with
      | refuse u fault =>
          refine ⟨[b], rfl, ?_⟩
          rw [scan_cons hdone, hstep]
          rfl
      | move u field =>
          obtain ⟨taken, hbytes, htaken⟩ := ih u (field.elim acc (put acc))
          refine ⟨b :: taken, congrArg (b :: ·) hbytes, ?_⟩
          rw [scan_cons hdone, hstep]
          exact htaken

/-- A scan that ended has taken a byte, unless it had nothing to do. -/
lemma length_rest_scan_lt {bytes : List UInt8} (hdone : s.phase ≠ .done)
    (h : (scan put s acc bytes).outcome ≠ .suspended) :
    (scan put s acc bytes).rest.length < bytes.length := by
  obtain ⟨taken, hbytes, htaken⟩ := exists_taken put s acc bytes
  cases taken with
  | nil =>
      rw [scan_nil hdone] at htaken
      exact absurd (congrArg Run.outcome htaken).symm h
  | cons b taken =>
      have hlength := congrArg List.length hbytes
      rw [List.cons_append, List.length_cons, List.length_append] at hlength
      omega

/-- A scan without a fault is done where its state is, and suspended elsewhere. -/
lemma outcome_scan_eq {bytes : List UInt8}
    (h : ∀ fault, (scan put s acc bytes).outcome ≠ .failed fault) :
    (scan put s acc bytes).outcome =
      if (scan put s acc bytes).state.isDone then .done else .suspended := by
  induction bytes generalizing s acc with
  | nil => rfl
  | cons b bytes ih =>
      by_cases hdone : s.phase = .done
      · rw [scan_done hdone, State.isDone, hdone]
        rfl
      rw [scan_cons hdone] at h ⊢
      cases hstep : s.step b with
      | refuse u fault =>
          rw [hstep] at h
          exact absurd rfl (h fault)
      | move u field =>
          rw [hstep] at h
          exact ih h

/-- A scan that was suspended was so one byte earlier, and took that byte. -/
lemma exists_step_of_suspended {bytes : List UInt8} {b : UInt8}
    (h : scan put s acc (bytes ++ [b]) = ⟨.suspended, [], t, acc'⟩) :
    ∃ (u : State) (acc₀ : σ) (field : Option Field),
      scan put s acc bytes = ⟨.suspended, [], u, acc₀⟩ ∧ u.phase ≠ .done ∧
      u.step b = .move t field ∧ field.elim acc₀ (put acc₀) = acc' := by
  rw [scan_append] at h
  dsimp only at h
  split at h
  next hsuspended =>
    have hrest := rest_eq_nil_of_suspended hsuspended
    generalize scan put s acc bytes = r at h hsuspended hrest ⊢
    obtain ⟨outcome, rest, u, acc₀⟩ := r
    dsimp only at h hsuspended hrest
    have hdone : u.phase ≠ .done := by
      intro hdone
      rw [scan_done hdone] at h
      cases congrArg Run.outcome h
    rw [scan_cons hdone] at h
    cases hstep : u.step b with
    | refuse v fault =>
        rw [hstep] at h
        cases congrArg Run.outcome h
    | move v field =>
        rw [hstep, Step.scan, scan_nil_eq] at h
        have hstate : v = t := congrArg Run.state h
        have hresult : field.elim acc₀ (put acc₀) = acc' := congrArg Run.result h
        subst hstate hsuspended hrest
        exact ⟨u, acc₀, field, rfl, hdone, hstep, hresult⟩
  next =>
    have hrest := congrArg (fun r => r.rest.length) h
    simp at hrest

/-- A scan with a fault was suspended up to the last byte that it took, which was refused. -/
theorem exists_last_of_failed {bytes rest : List UInt8} {fault : Fault}
    (h : scan put s acc bytes = ⟨.failed fault, rest, t, acc'⟩) :
    ∃ (before : List UInt8) (b : UInt8) (u : State),
      bytes = before ++ b :: rest ∧ scan put s acc before = ⟨.suspended, [], u, acc'⟩ ∧
      u.step b = .refuse t fault := by
  induction bytes generalizing s acc with
  | nil =>
      rw [scan_nil_eq] at h
      have houtcome := congrArg Run.outcome h
      dsimp only at houtcome
      split at houtcome <;> cases houtcome
  | cons b bytes ih =>
      have hdone : s.phase ≠ .done := by
        intro hdone
        rw [scan_done hdone] at h
        cases congrArg Run.outcome h
      rw [scan_cons hdone] at h
      cases hstep : s.step b with
      | refuse u fault' =>
          rw [hstep] at h
          obtain ⟨hfault, rfl, rfl, rfl⟩ := Run.mk.inj h
          cases hfault
          exact ⟨[], b, s, rfl, scan_nil hdone acc, hstep⟩
      | move u field =>
          rw [hstep] at h
          obtain ⟨before, b', v, hbytes, hbefore, hlast⟩ := ih h
          refine ⟨b :: before, b', v, congrArg (b :: ·) hbytes, ?_, hlast⟩
          rw [scan_cons hdone, hstep]
          exact hbefore

/-! ### Fields -/

namespace State.Coherent

variable (h : s.Coherent)
include h

lemma phase_scan_ne_magic (hmagic : s.phase ≠ .magic) (bytes : List UInt8) :
    (Decoder.scan put s acc bytes).state.phase ≠ .magic := by
  induction bytes generalizing s acc with
  | nil => exact hmagic
  | cons b bytes ih =>
      by_cases hdone : s.phase = .done
      · rw [scan_done hdone]
        exact hmagic
      have hcoherent := h.step b
      have hphase := h.phase_step_ne_magic hmagic b
      rw [scan_cons hdone]
      cases hstep : s.step b with
      | refuse u fault =>
          rw [hstep] at hphase
          exact hphase
      | move u field =>
          rw [hstep] at hcoherent hphase
          exact ih hcoherent hphase

/-- A scan that was suspended was so ahead of the field in progress. The bytes between are those of
the field that have come. -/
theorem exists_before_begun (hs : s.scratch = {}) {bytes : List UInt8}
    (hscan : Decoder.scan put s acc bytes = ⟨.suspended, [], t, acc'⟩) :
    ∃ before, bytes = before ++ t.begun ∧
      Decoder.scan put s acc before = ⟨.suspended, [], t.cleared, acc'⟩ := by
  induction bytes using List.reverseRecOn generalizing t acc' with
  | nil =>
      have hstate : s = t := congrArg Run.state hscan
      subst hstate
      exact ⟨[], (begun_of_scratch hs).symm, by rw [cleared_of_scratch hs, hscan]⟩
  | append_singleton bytes b ih =>
      obtain ⟨u, acc₀, field, hbytes, hdone, hstep, hresult⟩ := exists_step_of_suspended hscan
      have hcoherent : u.Coherent := by
        have := h.scan put acc bytes
        rwa [hbytes] at this
      obtain ⟨hbegun, hcleared, rfl⟩ | hscratch := hcoherent.move_cases hdone hstep
      · -- within the field
        obtain ⟨before, rfl, hbefore⟩ := ih hbytes
        refine ⟨before, ?_, ?_⟩
        · rw [hbegun, List.append_assoc]
        · rw [hcleared, ← show acc₀ = acc' from hresult]
          exact hbefore
      · -- at the end of one
        refine ⟨bytes ++ [b], ?_, ?_⟩
        · rw [begun_of_scratch hscratch, List.append_nil]
        · rw [cleared_of_scratch hscratch, hscan]

/-- A scan with a fault has taken the field at fault to its end, and nothing behind it. Ahead of
that field, it was suspended where the fault has left it. -/
theorem exists_spared_of_failed (hs : s.scratch = {}) {bytes rest : List UInt8} {fault : Fault}
    (hscan : Decoder.scan put s acc bytes = ⟨.failed fault, rest, t, acc'⟩) :
    ∃ spared, bytes = spared ++ fault.bytes ++ rest ∧
      Decoder.scan put s acc spared = ⟨.suspended, [], t, acc'⟩ ∧
      t.phase = fault.phase ∧ t.scratch = {} := by
  obtain ⟨before, b, u, rfl, hbefore, hstep⟩ := exists_last_of_failed hscan
  have hcoherent : u.Coherent := by
    have := h.scan put acc before
    rwa [hbefore] at this
  obtain ⟨rfl, hphase, hbytes⟩ := hcoherent.refuse_cases hstep
  obtain ⟨spared, rfl, hspared⟩ := h.exists_before_begun hs hbefore
  refine ⟨spared, ?_, hspared, hphase, rfl⟩
  rw [← hbytes]
  simp only [List.append_assoc, List.singleton_append]

end State.Coherent

end Ajp13.Decoder
