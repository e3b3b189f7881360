import Ajp13.Proofs.Calls

/-!
How a stream is cut into pieces does not matter.

* `parsePieces`: pieces one after another, until the packet is complete or something is wrong;
* `parse_append_of_suspended`, `parse_append_of_ended`: a stream in two pieces;
* `parse_in_pieces`: from any reachable state, a stream in any number of pieces has the same effect
  as the stream in one, whatever the sink.
-/

namespace Ajp13.Decoder

variable {σ : Type}

/-- Takes the pieces of a stream, of which there is at least one. What comes after the end of the
packet, or after a fault, is left over. -/
def parsePieces (conf : Conf) (sink : Sink σ) (s : State) (told : σ) (piece : List UInt8) :
    List (List UInt8) → Run σ
  | [] => parse conf sink s told piece
  | piece' :: pieces =>
      let r := parse conf sink s told piece
      if r.outcome = .suspended then parsePieces conf sink r.state r.result piece' pieces
      else { r with rest := r.rest ++ (piece' :: pieces).flatten }

section Scan

variable {put : σ → Field → σ} {s : State}

/-- A scan that was suspended has taken all bytes. -/
lemma rest_eq_nil_of_suspended {acc : σ} {bytes : List UInt8}
    (h : (scan put s acc bytes).outcome = .suspended) : (scan put s acc bytes).rest = [] := by
  induction bytes generalizing s acc with
  | nil => rfl
  | cons b bytes ih =>
      rw [scan] at h ⊢
      split at h
      · cases h
      next hdone =>
        rw [if_neg hdone]
        cases hstep : s.step b with
        | move s' field =>
            rw [hstep] at h
            exact ih h
        | refuse s' fault =>
            rw [hstep] at h
            cases h

end Scan

variable {s : State} (hs : Reachable s) (conf : Conf) (sink : Sink σ) (told : σ)
include hs

/-- A run that was suspended has taken the whole buffer. -/
lemma rest_parse_of_suspended {a : List UInt8}
    (h : (parse conf sink s told a).outcome = .suspended) :
    (parse conf sink s told a).rest = [] := by
  rw [parse_eq_scan hs.coherent] at h ⊢
  exact rest_eq_nil_of_suspended h

/-- A run that was suspended goes on as if the bytes had come at once. -/
lemma parse_append_of_suspended {a : List UInt8} (b : List UInt8)
    (h : (parse conf sink s told a).outcome = .suspended) :
    parse conf sink s told (a ++ b) =
      parse conf sink (parse conf sink s told a).state (parse conf sink s told a).result b := by
  have hs' := (Reachable.parse conf sink hs told a).coherent
  rw [parse_eq_scan hs', parse_eq_scan hs.coherent, scan_append, ← parse_eq_scan hs.coherent]
  exact if_pos h

/-- A run that has ended leaves what comes after it. -/
lemma parse_append_of_ended {a : List UInt8} (b : List UInt8)
    (h : (parse conf sink s told a).outcome ≠ .suspended) :
    parse conf sink s told (a ++ b) =
      { parse conf sink s told a with rest := (parse conf sink s told a).rest ++ b } := by
  rw [parse_eq_scan hs.coherent, scan_append, ← parse_eq_scan hs.coherent]
  exact if_neg h

/-- Nothing that comes after a fault mends it. -/
lemma parse_append_of_failed {a : List UInt8} {fault : Fault} (b : List UInt8)
    (h : (parse conf sink s told a).outcome = .failed fault) :
    parse conf sink s told (a ++ b) =
      ⟨.failed fault, (parse conf sink s told a).rest ++ b, (parse conf sink s told a).state,
        (parse conf sink s told a).result⟩ := by
  have hended : (parse conf sink s told a).outcome ≠ .suspended := by
    rw [h]
    exact Outcome.noConfusion
  rw [parse_append_of_ended hs conf sink told b hended, ← h]

lemma calls_append_of_suspended {a : List UInt8} (b : List UInt8)
    (h : (parse conf sink s told a).outcome = .suspended) :
    calls conf sink s told (a ++ b) = calls conf sink s told a ++
      calls conf sink (parse conf sink s told a).state (parse conf sink s told a).result b := by
  have hs' := (Reachable.parse conf sink hs told a).coherent
  have hrun := parse_traced hs.coherent conf sink told [] a
  have ha : (parse conf sink.traced s (told, []) a).outcome = .suspended := by rw [hrun]; exact h
  rw [calls, parse_append_of_suspended hs conf sink.traced (told, []) b ha, hrun]
  exact congrArg (fun r => r.result.2) (parse_traced hs' conf sink _ _ b)

lemma calls_append_of_ended {a : List UInt8} (b : List UInt8)
    (h : (parse conf sink s told a).outcome ≠ .suspended) :
    calls conf sink s told (a ++ b) = calls conf sink s told a := by
  have hrun := parse_traced hs.coherent conf sink told [] a
  have ha : (parse conf sink.traced s (told, []) a).outcome ≠ .suspended := by rw [hrun]; exact h
  rw [calls, parse_append_of_ended hs conf sink.traced (told, []) b ha]
  rfl

/-- Pieces have the same effect as the stream that they make up. -/
lemma parsePieces_eq_parse (piece : List UInt8) (pieces : List (List UInt8)) :
    parsePieces conf sink s told piece pieces =
      parse conf sink s told (piece ++ pieces.flatten) := by
  induction pieces generalizing s told piece with
  | nil => rw [parsePieces, List.flatten_nil, List.append_nil]
  | cons piece' pieces ih =>
      rw [parsePieces, List.flatten_cons]
      split
      next h =>
        rw [parse_append_of_suspended hs conf sink told _ h]
        exact ih (.parse conf sink hs told piece) _ piece'
      next h =>
        rw [parse_append_of_ended hs conf sink told _ h]

/-- From any reachable state and for any sink, it does not matter how a stream is cut. A piece after
which the packet is not complete is taken whole, and the next one is dealt with as if the two had
come at once, with its calls behind those of the first. A piece that completes the packet, or has a
fault, leaves what comes after it untouched. So any number of pieces, which may be empty, come to
the same as the stream that they make up. -/
theorem parse_in_pieces :
    (∀ a b : List UInt8, (parse conf sink s told a).outcome = .suspended →
      (parse conf sink s told a).rest = [] ∧
      parse conf sink s told (a ++ b) =
        parse conf sink (parse conf sink s told a).state (parse conf sink s told a).result b ∧
      calls conf sink s told (a ++ b) = calls conf sink s told a ++
        calls conf sink (parse conf sink s told a).state (parse conf sink s told a).result b) ∧
    (∀ a b : List UInt8, (parse conf sink s told a).outcome ≠ .suspended →
      parse conf sink s told (a ++ b) =
        { parse conf sink s told a with rest := (parse conf sink s told a).rest ++ b } ∧
      calls conf sink s told (a ++ b) = calls conf sink s told a) ∧
    ∀ (piece : List UInt8) (pieces : List (List UInt8)),
      parsePieces conf sink s told piece pieces =
        parse conf sink s told (piece ++ pieces.flatten) ∧
      (parsePieces conf sink.traced s (told, []) piece pieces).result.2 =
        calls conf sink s told (piece ++ pieces.flatten) := by
  refine ⟨fun a b h => ?_, fun a b h => ?_, fun piece pieces => ?_⟩
  · exact ⟨rest_parse_of_suspended hs conf sink told h,
      parse_append_of_suspended hs conf sink told b h,
      calls_append_of_suspended hs conf sink told b h⟩
  · exact ⟨parse_append_of_ended hs conf sink told b h,
      calls_append_of_ended hs conf sink told b h⟩
  · refine ⟨parsePieces_eq_parse hs conf sink told piece pieces, ?_⟩
    rw [parsePieces_eq_parse hs conf sink.traced (told, []) piece pieces, calls]

omit hs in
/-- A liveness check in four pieces, one of them empty, cut within both words; the byte behind it is
left. -/
theorem parse_ping_in_pieces :
    parsePieces {} Sink.setterRecorder .start [] [0x12] [[0x34, 0], [], [1, 0x0A, 0xFF]] =
      ⟨.done, [0xFF], { phase := .done, dataSize := some 1, prefixCode := some .cping }, []⟩ := by
  rw [((parse_in_pieces .start {} Sink.setterRecorder []).2.2 _ _).1,
    parse_eq_scan State.start_coherent]
  rfl

end Ajp13.Decoder
