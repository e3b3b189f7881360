import Ajp13.Proofs.Reachable
import Ajp13.Proofs.Telling

/-!
The calls that a sink gets.

* `Sink.traced`: a sink that also notes down each call;
* `calls`: what it has noted down when a buffer has been dealt with;
* `Sink.foldl_tell_traced`: of some fields, it notes down the calls that tell of them;
* `scan_map`: a scan does not depend on what is made of the fields;
* `parse_traced`: noting calls down changes nothing else, and adds to what was noted before.
-/

namespace Ajp13

variable {σ τ : Type}

/-- The same sink, with each call noted down, the latest last. -/
def Sink.traced (sink : Sink σ) : Sink (σ × List Call) where
  accept state call := (sink.accept state.1 call, state.2 ++ [call])
  decoded state := sink.decoded state.1

namespace Decoder

/-- The calls that a sink gets while a buffer is dealt with. -/
def calls (conf : Conf) (sink : Sink σ) (s : State) (told : σ) (buffer : List UInt8) : List Call :=
  (parse conf sink.traced s (told, []) buffer).result.2

end Decoder

open Decoder

/-! ### Telling of fields -/

namespace Sink

lemma foldl_accept_traced (sink : Sink σ) (told : σ × List Call) (calls : List Call) :
    calls.foldl sink.traced.accept told = (calls.foldl sink.accept told.1, told.2 ++ calls) := by
  induction calls generalizing told with
  | nil => simp
  | cons call calls ih =>
      rw [List.foldl_cons, ih]
      simp [traced]

lemma tell_traced (sink : Sink σ) (conf : Conf) (told : σ × List Call) (field : Field) :
    sink.traced.tell conf told field =
      (sink.tell conf told.1 field, told.2 ++ field.calls conf (sink.decoded told.1)) :=
  foldl_accept_traced sink told _

/-- What is noted down of some fields are the calls that tell of them. -/
theorem foldl_tell_traced (sink : Sink σ) (conf : Conf) (told : σ × List Call)
    (fields : List Field) :
    fields.foldl (sink.traced.tell conf) told =
      (fields.foldl (sink.tell conf) told.1, told.2 ++ sink.callsOf conf told.1 fields) := by
  induction fields generalizing told with
  | nil => simp [callsOf]
  | cons field fields ih =>
      rw [List.foldl_cons, tell_traced, ih]
      simp [callsOf]

end Sink

/-! ### Scans and what is made of their fields -/

namespace Decoder

/-- The same run with another result. -/
def Run.map (f : σ → τ) (r : Run σ) : Run τ := ⟨r.outcome, r.rest, r.state, f r.result⟩

/-- A scan does not depend on what is made of the fields. -/
theorem scan_map {put : σ → Field → σ} {put' : τ → Field → τ} {f : σ → τ}
    (hf : ∀ acc field, f (put acc field) = put' (f acc) field) (s : State) (acc : σ)
    (bytes : List UInt8) : scan put' s (f acc) bytes = (scan put s acc bytes).map f := by
  induction bytes generalizing s acc with
  | nil => rfl
  | cons b bytes ih =>
      rw [scan, scan]
      split
      · rfl
      cases s.step b with
      | refuse s' fault => rfl
      | move s' field =>
          cases field with
          | none => exact ih s' acc
          | some field =>
              dsimp only [Option.elim]
              rw [← hf]
              exact ih s' (put acc field)

variable {s : State}

/-- Noting calls down changes nothing else. -/
lemma map_fst_parse_traced (hs : s.Coherent) (conf : Conf) (sink : Sink σ) (told : σ)
    (noted : List Call) (buffer : List UInt8) :
    (parse conf sink.traced s (told, noted) buffer).map Prod.fst =
      parse conf sink s told buffer := by
  rw [parse_eq_scan hs, parse_eq_scan hs]
  refine (scan_map (f := Prod.fst) (fun told field => ?_) s (told, noted) buffer).symm
  rw [Sink.tell_traced]

/-- Calls are noted down behind those that were noted before. -/
lemma parse_traced_append (hs : s.Coherent) (conf : Conf) (sink : Sink σ) (told : σ)
    (noted : List Call) (buffer : List UInt8) :
    parse conf sink.traced s (told, noted) buffer =
      (parse conf sink.traced s (told, []) buffer).map fun told => (told.1, noted ++ told.2) := by
  rw [parse_eq_scan hs, parse_eq_scan hs]
  have hput : ∀ (told : σ × List Call) (field : Field),
      ((sink.traced.tell conf told field).1, noted ++ (sink.traced.tell conf told field).2) =
        sink.traced.tell conf (told.1, noted ++ told.2) field := by
    intro told field
    rw [Sink.tell_traced, Sink.tell_traced]
    simp
  have hscan := scan_map (f := fun told : σ × List Call => (told.1, noted ++ told.2)) hput s
    (told, []) buffer
  rwa [List.append_nil] at hscan

/-- A run for a sink that notes its calls down. -/
theorem parse_traced (hs : s.Coherent) (conf : Conf) (sink : Sink σ) (told : σ)
    (noted : List Call) (buffer : List UInt8) :
    parse conf sink.traced s (told, noted) buffer =
      (parse conf sink s told buffer).map fun told' =>
        (told', noted ++ calls conf sink s told buffer) := by
  rw [parse_traced_append hs, ← map_fst_parse_traced hs conf sink told [] buffer]
  rfl

end Decoder

end Ajp13
