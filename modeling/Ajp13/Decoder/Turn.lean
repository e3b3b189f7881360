import Ajp13.Decoder.Field
import Ajp13.Decoder.Reading

/-!
The loops of a decoder. Each of them takes one turn after another until the buffer or its own part
of the packet ends, or something is wrong.

* `Run`: the result of a loop;
* `Turn`: what one turn of a loop does;
* `Reading.turn`: a turn that reads a field and cannot do without it;
* `loop`: one turn after another.
-/

namespace Ajp13.Decoder

/-- How a loop ended. -/
inductive Outcome
  /-- The buffer ended first. -/
  | suspended
  /-- The loop's part of the packet is complete. -/
  | done
  /-- A field had a value without a meaning. -/
  | failed (fault : Fault)
deriving DecidableEq, Repr

/-- The result of a loop. -/
structure Run (σ : Type) where
  outcome : Outcome
  /-- The bytes that were not taken. -/
  rest : List UInt8
  state : State
  /-- What was made of the fields. -/
  result : σ

/-- What one turn of a loop does. -/
inductive Turn (σ : Type)
  /-- The loop goes on with the rest of the buffer. -/
  | go (state : State) (acc : σ) (rest : List UInt8)
  /-- The loop ends. -/
  | stop (run : Run σ)

variable {σ α : Type}

/-- A turn that goes on with the field that was read, and ends the loop if there is none. -/
def Reading.turn (r : Reading State (Except Fault (Option α))) (acc : σ)
    (next : α → State → List UInt8 → Turn σ) : Turn σ :=
  match r.value with
  | .ok (some a) => next a r.kept r.rest
  | .ok none => .stop ⟨.suspended, r.rest, r.kept, acc⟩
  | .error fault => .stop ⟨.failed fault, r.rest, r.kept, acc⟩

/-- A loop goes on behind a field only if that has been read. -/
theorem Reading.turn_eq_go {r : Reading State (Except Fault (Option α))} {acc acc' : σ}
    {next : α → State → List UInt8 → Turn σ} {s : State} {rest : List UInt8}
    (h : r.turn acc next = .go s acc' rest) :
    ∃ a, r.value = .ok (some a) ∧ next a r.kept r.rest = .go s acc' rest := by
  rw [Reading.turn] at h
  split at h
  next a ha => exact ⟨a, ha, h⟩
  next => cases h
  next => cases h

/-- Takes turns until one of them ends the loop. A measure of what is left to do, which no turn
leaves as it is, bounds their number. -/
def loop (turn : State → σ → List UInt8 → Turn σ) (measure : State → List UInt8 → Nat)
    (h : ∀ {s acc buffer s' acc' rest}, turn s acc buffer = .go s' acc' rest →
      measure s' rest < measure s buffer)
    (s : State) (acc : σ) (buffer : List UInt8) : Run σ :=
  match _hturn : turn s acc buffer with
  | .go s' acc' rest => loop turn measure h s' acc' rest
  | .stop run => run
termination_by measure s buffer
decreasing_by exact h ‹_›

/-- What holds of the turn that ends a loop, and of a turn if it holds of those after it, holds of
the whole loop. -/
theorem loop_induct {turn : State → σ → List UInt8 → Turn σ} {measure : State → List UInt8 → Nat}
    {h : ∀ {s acc buffer s' acc' rest}, turn s acc buffer = .go s' acc' rest →
      measure s' rest < measure s buffer}
    {P : State → σ → List UInt8 → Run σ → Prop}
    (hstop : ∀ {s acc buffer run}, turn s acc buffer = .stop run → P s acc buffer run)
    (hgo : ∀ {s acc buffer s' acc' rest run}, turn s acc buffer = .go s' acc' rest →
      P s' acc' rest run → P s acc buffer run)
    (s : State) (acc : σ) (buffer : List UInt8) :
    P s acc buffer (loop turn measure h s acc buffer) := by
  induction s, acc, buffer using loop.induct turn measure h with
  | case1 s acc buffer s' acc' rest hturn ih =>
      rw [loop]
      split
      next s'' acc'' rest' hturn' =>
        rw [hturn] at hturn'
        injection hturn' with hs hacc hrest
        subst hs hacc hrest
        exact hgo hturn ih
      next run hturn' => rw [hturn] at hturn'; cases hturn'
  | case2 s acc buffer run hturn =>
      rw [loop]
      split
      next hturn' => rw [hturn] at hturn'; cases hturn'
      next run' hturn' =>
        rw [hturn] at hturn'
        injection hturn' with hrun
        subst hrun
        exact hstop hturn

end Ajp13.Decoder
