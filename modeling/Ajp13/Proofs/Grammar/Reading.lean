import Ajp13.Proofs.Grammar.Meaning
import Ajp13.Proofs.Grammar.PrefixFree
import Ajp13.Proofs.Reachable

/-!
Fields that a buffer holds as a whole.

* `read_bytes`, `read_headerName_bytes`: the bytes of a string, and of a header name, are read as
  what they were written for;
* `exists_of_read`, `exists_of_read_headerName`: nothing else is read as one;
* `Turn.andThen`, `loop_eq`: a loop is its first turn, and the loop behind it if that goes on;
* `exists_string_or_halted`, `exists_word_or_halted`, `exists_byte_or_halted`: a buffer holds the
  field that the first turn of a loop reads, or the loop is `Halted` within that.
-/

namespace Ajp13.Decoder

/-! ### Strings -/

namespace StringProgress

/-- Content and a terminator, both at hand. -/
lemma readContent_append (content : List UInt8) (terminator : UInt8) (rest : List UInt8) :
    readContent content.length [] false (content ++ terminator :: rest) =
      ⟨.ok (some (.literal content (content.any isUrlByte))), .start, rest⟩ := by
  rw [readContent]
  simp [readTerminator]

/-- The bytes of a string are read as that string, unless its length is the mark of a code. -/
lemma readLength_bytes {role : StringRole} {w : WireString}
    (h : role = .headerName → w.content.length / 256 ≠ 0xA0) (rest : List UInt8) :
    readLength role none (w.bytes ++ rest) = ⟨.ok (some w.received), .start, rest⟩ := by
  cases w with
  | null =>
      simp only [WireString.bytes, Word.bytes, List.cons_append, List.nil_append, readLength,
        readWord, Word.ofBytes_high_low]
      rw [if_neg (fun hcode => absurd hcode.2 (by decide)), if_pos trivial]
      rfl
  | literal content terminator fits =>
      have hcode : ¬(role = .headerName ∧
          Word.high (UInt16.ofNat content.length) = Marker.headerCode) :=
        fun hboth => high_ofNat_length_ne_headerCode fits (h hboth.1) hboth.2
      simp only [WireString.bytes, Word.bytes, List.cons_append, List.nil_append, readLength,
        readWord, Word.ofBytes_high_low, List.append_assoc]
      rw [if_neg hcode, if_neg (ofNat_length_ne_nullLength fits), toNat_ofNat_length fits]
      exact readContent_append content terminator rest

lemma read_bytes (w : WireString) (rest : List UInt8) :
    start.read .plain (w.bytes ++ rest) = ⟨.ok (some w.received), .start, rest⟩ :=
  readLength_bytes (by simp) rest

lemma read_headerName_bytes (n : WireHeaderName) (rest : List UInt8) :
    start.read .headerName (n.bytes ++ rest) = ⟨.ok (some n.received), .start, rest⟩ := by
  cases n with
  | spelled name unmarked => exact readLength_bytes (fun _ => unmarked) rest
  | coded code known =>
      have hname : HeaderName.ofCode? code = some ((HeaderName.ofCode? code).get known) :=
        (Option.some_get known).symm
      simp only [start, read, readLength, WireHeaderName.bytes, List.cons_append, List.nil_append,
        readWord, Word.high_ofBytes, Word.low_ofBytes]
      rw [if_pos ⟨trivial, trivial⟩, hname]
      rfl

/-- What is read as content has all that was missing, and a terminator. -/
lemma exists_of_readContent {missing : Nat} {buffer : List UInt8} {s : ReceivedString}
    (h : (readContent missing [] false buffer).value = .ok (some s)) :
    ∃ (content : List UInt8) (terminator : UInt8) (rest : List UInt8),
      content.length = missing ∧ buffer = content ++ terminator :: rest := by
  rw [readContent] at h
  split at h
  next hshort => cases h
  next hwhole =>
    have hlength : (buffer.take missing).length = missing := by
      have := List.length_take_le missing buffer
      omega
    cases hdrop : buffer.drop missing with
    | nil =>
        rw [hdrop] at h
        cases h
    | cons terminator rest =>
        refine ⟨buffer.take missing, terminator, rest, hlength, ?_⟩
        rw [← hdrop, List.take_append_drop]

/-- What is read as a string is the bytes of one, or the code of a header where that may stand. -/
lemma exists_of_readLength {role : StringRole} {buffer : List UInt8} {s : ReceivedString}
    (h : (readLength role none buffer).value = .ok (some s)) :
    (role = .headerName ∧ ∃ code rest, (HeaderName.ofCode? code).isSome = true ∧
      buffer = [Marker.headerCode, code] ++ rest) ∨
    ∃ (w : WireString) (rest : List UInt8),
      (role = .headerName → w.content.length / 256 ≠ 0xA0) ∧ buffer = w.bytes ++ rest := by
  rcases buffer with _ | ⟨high, _ | ⟨low, rest⟩⟩
  · cases h
  · cases h
  · simp only [readLength, readWord] at h
    have hbytes : high :: low :: rest = Word.bytes (Word.ofBytes high low) ++ rest := by
      rw [Word.bytes_ofBytes]
      rfl
    rw [hbytes]
    split at h
    next hcode =>
      refine .inl ⟨hcode.1, low, rest, ?_, ?_⟩
      · rw [Word.low_ofBytes] at h
        split at h
        next name hname => rw [hname]; rfl
        next => cases h
      · rw [Word.bytes_ofBytes, ← hcode.2, Word.high_ofBytes]
    next hcode =>
      refine .inr ?_
      split at h
      next hnull => exact ⟨.null, rest, fun _ => by decide, by rw [hnull]; rfl⟩
      next hnull =>
        obtain ⟨content, terminator, rest, hlength, rfl⟩ := exists_of_readContent h
        have hfits := lengthFits_toNat hcode hnull
        rw [← hlength] at hfits
        refine ⟨.literal content terminator hfits.lt, rest, hfits.unmarked, ?_⟩
        rw [WireString.bytes, hlength, UInt16.ofNat_toNat]
        simp

lemma exists_of_read {buffer : List UInt8} {s : ReceivedString}
    (h : (start.read .plain buffer).value = .ok (some s)) :
    ∃ (w : WireString) (rest : List UInt8), buffer = w.bytes ++ rest := by
  obtain ⟨hrole, -⟩ | ⟨w, rest, -, hbuffer⟩ := exists_of_readLength h
  · cases hrole
  · exact ⟨w, rest, hbuffer⟩

lemma exists_of_read_headerName {buffer : List UInt8} {s : ReceivedString}
    (h : (start.read .headerName buffer).value = .ok (some s)) :
    ∃ (n : WireHeaderName) (rest : List UInt8), buffer = n.bytes ++ rest := by
  obtain ⟨-, code, rest, known, hbuffer⟩ | ⟨w, rest, unmarked, hbuffer⟩ := exists_of_readLength h
  · exact ⟨.coded code known, rest, hbuffer⟩
  · exact ⟨.spelled w (unmarked rfl), rest, hbuffer⟩

end StringProgress

/-! ### Fields in a state -/

namespace State

variable {s : State} (hs : s.scratch = {})
include hs

lemma withString_start : s.withString .start = s := by
  rw [withString, hs, ← hs]

lemma withCarry_none : s.withCarry none = s := by
  rw [withCarry, hs, ← hs]

lemma readString_bytes (w : WireString) (rest : List UInt8) :
    s.readString .plain (w.bytes ++ rest) = ⟨.ok (some w.received), s, rest⟩ := by
  rw [readString, hs, StringProgress.read_bytes, withString_start hs]

lemma readString_headerName_bytes (n : WireHeaderName) (rest : List UInt8) :
    s.readString .headerName (n.bytes ++ rest) = ⟨.ok (some n.received), s, rest⟩ := by
  rw [readString, hs, StringProgress.read_headerName_bytes, withString_start hs]

lemma readWord_bytes (w : UInt16) (rest : List UInt8) :
    s.readWord (Word.bytes w ++ rest) = ⟨.ok (some w), s, rest⟩ := by
  have hword : Decoder.readWord none (Word.bytes w ++ rest) = ⟨some w, none, rest⟩ := by
    simp [Word.bytes, Decoder.readWord]
  rw [readWord, hs, hword, withCarry_none hs]

end State

/-! ### Loops -/

variable {σ α : Type}

/-- What a turn leads to, if `next` is what follows a turn that goes on. -/
def Turn.andThen (next : State → σ → List UInt8 → Run σ) : Turn σ → Run σ
  | .go s acc rest => next s acc rest
  | .stop r => r

/-- A loop is its first turn, and the loop behind it if that goes on. -/
theorem loop_eq {turn : State → σ → List UInt8 → Turn σ} {measure : State → List UInt8 → Nat}
    {h : ∀ {s acc buffer s' acc' rest}, turn s acc buffer = .go s' acc' rest →
      measure s' rest < measure s buffer}
    (s : State) (acc : σ) (buffer : List UInt8) :
    loop turn measure h s acc buffer = (turn s acc buffer).andThen (loop turn measure h) := by
  rw [loop]
  split
  next hturn => rw [hturn, Turn.andThen]
  next hturn => rw [hturn, Turn.andThen]

/-- A loop that ends within the field that it begins with. -/
structure Halted (s : State) (acc : σ) (r : Run σ) : Prop where
  outcome : r.outcome ≠ .done
  phase : r.state.phase = s.phase
  headersRead : r.state.headersRead = s.headersRead
  result : r.result = acc

section Fields

variable {next : State → σ → List UInt8 → Run σ} {s : State} {acc : σ}

/-- There is a field for the first turn, or the loop ends with that. -/
lemma Reading.exists_or_halted (r : Reading State (Except Fault (Option α)))
    (turn : α → State → List UInt8 → Turn σ) (hphase : r.kept.phase = s.phase)
    (hread : r.kept.headersRead = s.headersRead) :
    (∃ a, r.value = .ok (some a)) ∨ Halted s acc ((r.turn acc turn).andThen next) := by
  rw [Reading.turn]
  cases hvalue : r.value with
  | error fault => exact .inr ⟨Outcome.noConfusion, hphase, hread, rfl⟩
  | ok value =>
      cases value with
      | none => exact .inr ⟨Outcome.noConfusion, hphase, hread, rfl⟩
      | some a => exact .inl ⟨a, rfl⟩

variable {buffer : List UInt8}

lemma exists_byte_or_halted {turn : UInt8 → State → List UInt8 → Turn σ} :
    (∃ (b : UInt8) (rest : List UInt8), buffer = b :: rest) ∨
      Halted s acc (((s.readByte buffer).turn acc turn).andThen next) := by
  refine (Reading.exists_or_halted (s := s) (s.readByte buffer) turn rfl rfl).imp_left ?_
  rintro ⟨b, hb⟩
  cases buffer with
  | nil => cases hb
  | cons b rest => exact ⟨b, rest, rfl⟩

lemma exists_byte_of_done {turn : UInt8 → State → List UInt8 → Turn σ}
    (h : (((s.readByte buffer).turn acc turn).andThen next).outcome = .done) :
    ∃ (b : UInt8) (rest : List UInt8), buffer = b :: rest :=
  exists_byte_or_halted.resolve_right fun hhalted => hhalted.outcome h

variable (hs : s.scratch = {})
include hs

lemma exists_word_or_halted {turn : UInt16 → State → List UInt8 → Turn σ} :
    (∃ (w : UInt16) (rest : List UInt8), buffer = Word.bytes w ++ rest) ∨
      Halted s acc (((s.readWord buffer).turn acc turn).andThen next) := by
  refine (Reading.exists_or_halted (s := s) (s.readWord buffer) turn rfl rfl).imp_left ?_
  rintro ⟨w, hw⟩
  rw [State.readWord, hs] at hw
  rcases buffer with _ | ⟨high, _ | ⟨low, rest⟩⟩
  · cases hw
  · cases hw
  · refine ⟨Word.ofBytes high low, rest, ?_⟩
    rw [Word.bytes_ofBytes]
    rfl

lemma exists_word_of_done {turn : UInt16 → State → List UInt8 → Turn σ}
    (h : (((s.readWord buffer).turn acc turn).andThen next).outcome = .done) :
    ∃ (w : UInt16) (rest : List UInt8), buffer = Word.bytes w ++ rest :=
  (exists_word_or_halted hs).resolve_right fun hhalted => hhalted.outcome h

lemma exists_string_or_halted {turn : ReceivedString → State → List UInt8 → Turn σ} :
    (∃ (w : WireString) (rest : List UInt8), buffer = w.bytes ++ rest) ∨
      Halted s acc (((s.readString .plain buffer).turn acc turn).andThen next) := by
  refine (Reading.exists_or_halted (s := s) (s.readString .plain buffer) turn rfl rfl).imp_left ?_
  rintro ⟨string, hstring⟩
  rw [State.readString, hs] at hstring
  exact StringProgress.exists_of_read hstring

lemma exists_string_of_done {turn : ReceivedString → State → List UInt8 → Turn σ}
    (h : (((s.readString .plain buffer).turn acc turn).andThen next).outcome = .done) :
    ∃ (w : WireString) (rest : List UInt8), buffer = w.bytes ++ rest :=
  (exists_string_or_halted hs).resolve_right fun hhalted => hhalted.outcome h

end Fields

end Ajp13.Decoder
