import Ajp13.Proofs.Bytewise.Step
import Mathlib.Tactic.Lemma

/-!
Streams through the automaton that takes one byte at a time.

* `StringProgress.feed`: a string out of a buffer, byte by byte; `read_eq_feed` says that reading
  it in larger pieces comes to the same, from any progress at which a piece of a string can end
  (`StringProgress.Open`);
* `scan`: takes bytes up to the end of the packet, the first fault, or the last byte;
* `scan_append`: a scan that was suspended goes on as if the bytes had come at once, and one that
  ended leaves what comes after untouched.
-/

namespace Ajp13.Decoder

/-! ### Strings -/

namespace StringProgress

/-- Reads a string byte by byte. -/
def feed (role : StringRole) : StringProgress → List UInt8 → StringReading
  | p, [] => ⟨.ok none, p, []⟩
  | p, b :: rest =>
      match p.step role b with
      | .more p => feed role p rest
      | .whole string => ⟨.ok (some string), .start, rest⟩
      | .unknownCode code => ⟨.error (.unknownHeaderCode code), .start, rest⟩

/-- Some content is missing wherever content is said to be missing. -/
def Open : StringProgress → Prop
  | content missing _ _ => missing ≠ 0
  | _ => True

lemma readTerminator_eq_feed (role : StringRole) (held : List UInt8) (urlChars : Bool)
    (buffer : List UInt8) :
    readTerminator held urlChars buffer = (terminator held urlChars).feed role buffer := by
  cases buffer <;> rfl

/-- A piece of content is taken as its bytes are one by one. -/
lemma readContent_eq_feed (role : StringRole) (missing : Nat) (held : List UInt8)
    (urlChars : Bool) (buffer : List UInt8) :
    readContent missing held urlChars buffer =
      (awaiting missing held urlChars).feed role buffer := by
  induction buffer generalizing missing held urlChars with
  | nil =>
      rw [readContent, awaiting]
      cases missing with
      | zero => simp [readTerminator, feed]
      | succ missing => simp [feed]
  | cons b buffer ih =>
      cases missing with
      | zero =>
          rw [readContent, awaiting, if_pos rfl, ← readTerminator_eq_feed]
          simp
      | succ missing =>
          have hfeed : (awaiting (missing + 1) held urlChars).feed role (b :: buffer) =
              (awaiting missing (b :: held) (urlChars || isUrlByte b)).feed role buffer := by
            rw [awaiting, if_neg (Nat.succ_ne_zero missing)]
            rfl
          rw [hfeed, ← ih, readContent, readContent]
          simp [Bool.or_assoc]

/-- Reading a string in pieces comes to the same as reading it byte by byte. -/
theorem read_eq_feed (role : StringRole) {p : StringProgress} (hp : p.Open)
    (buffer : List UInt8) : p.read role buffer = p.feed role buffer := by
  cases p with
  | content missing held urlChars =>
      rw [read, readContent_eq_feed role, awaiting, if_neg hp]
  | terminator held urlChars => exact readTerminator_eq_feed role held urlChars buffer
  | length high =>
      -- with the high byte at hand, one more byte completes the length
      have hlow : ∀ (high : UInt8) (buffer : List UInt8),
          (length (some high)).read role buffer = (length (some high)).feed role buffer := by
        intro high buffer
        cases buffer with
        | nil => rfl
        | cons low buffer =>
            rw [read, readLength, feed, step, afterLength]
            simp only [readWord]
            split
            · split <;> simp_all [start]
            split
            · rfl
            · exact readContent_eq_feed role _ _ _ _
      cases high with
      | some high => exact hlow high buffer
      | none =>
          cases buffer with
          | nil => rfl
          | cons high buffer =>
              calc (length none).read role (high :: buffer)
                  = (length (some high)).read role buffer := by cases buffer <;> rfl
                _ = (length (some high)).feed role buffer := hlow high buffer
                _ = (length none).feed role (high :: buffer) := rfl

end StringProgress

/-! ### Packets -/

variable {σ : Type}

/-- Takes bytes up to the end of the packet, the first fault, or the last byte; `put` is what is
made of a field. -/
def scan (put : σ → Field → σ) : State → σ → List UInt8 → Run σ
  | s, acc, [] => ⟨if s.isDone then .done else .suspended, [], s, acc⟩
  | s, acc, b :: bytes =>
      if s.isDone then ⟨.done, b :: bytes, s, acc⟩
      else
        match s.step b with
        | .move s field => scan put s (field.elim acc (put acc)) bytes
        | .refuse s fault => ⟨.failed fault, bytes, s, acc⟩

lemma scan_of_isDone (put : σ → Field → σ) {s : State} (hs : s.isDone = true) (acc : σ)
    (bytes : List UInt8) : scan put s acc bytes = ⟨.done, bytes, s, acc⟩ := by
  cases bytes <;> simp [scan, hs]

/-- A scan over two pieces: the second is for a scan that the first suspended, or else left
over. -/
theorem scan_append (put : σ → Field → σ) (s : State) (acc : σ) (a b : List UInt8) :
    scan put s acc (a ++ b) =
      let r := scan put s acc a
      if r.outcome = .suspended then scan put r.state r.result b
      else { r with rest := r.rest ++ b } := by
  induction a generalizing s acc with
  | nil =>
      by_cases h : s.isDone = true
      · simp [scan_of_isDone put h]
      · simp [scan, h]
  | cons x a ih =>
      by_cases h : s.isDone = true
      · simp [scan_of_isDone put h]
      · simp only [List.cons_append, scan, h]
        cases s.step x with
        | move s' field => simpa using ih s' _
        | refuse s' fault => simp

end Ajp13.Decoder
