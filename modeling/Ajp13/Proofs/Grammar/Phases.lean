import Ajp13.Proofs.Grammar.Attributes
import Ajp13.Proofs.Grammar.Codes
import Ajp13.Proofs.Grammar.Headers

/-!
The phases of a decoder, one at a time.

* `run_magic` to `run_attributes`: the bytes of what a phase is about are taken, and the run goes on
  behind them;
* `Ahead`: a run that ends ahead of a phase;
* `exists_byte_of_not_ahead` to `exists_attributes_of_run_done`: so the bytes begin with what a phase
  is about, if the run does not end ahead of the next one.
-/

namespace Ajp13.Decoder

variable {σ : Type} {put : σ → Field → σ}

lemma run_eq (s : State) (acc : σ) (buffer : List UInt8) :
    run put s acc buffer = (phaseTurn put s acc buffer).andThen (run put) :=
  loop_eq s acc buffer

/-! ### One phase -/

section Phases

variable {s : State} {acc : σ}

lemma run_done (hphase : s.phase = .done) (rest : List UInt8) :
    run put s acc rest = ⟨.done, rest, s, acc⟩ := by
  rw [run_eq, phaseTurn, hphase]
  rfl

lemma run_ssl (hphase : s.phase = .ssl) (b : UInt8) (rest : List UInt8) :
    run put s acc (b :: rest) =
      run put s.advance (put acc (.scheme (if b = 0 then .http else .https))) rest := by
  rw [run_eq, phaseTurn, hphase]
  rfl

lemma run_method (hphase : s.phase = .method) {code : UInt8}
    (known : (Method.ofCode? code).isSome = true) (rest : List UInt8) :
    run put s acc (code :: rest) =
      run put s.advance (put acc (.method ((Method.ofCode? code).get known))) rest := by
  obtain ⟨method, hmethod⟩ := Option.isSome_iff_exists.1 known
  rw [run_eq, phaseTurn, hphase]
  simp only [State.readByte, Reading.turn, List.head?_cons, List.tail_cons, hmethod,
    Option.get_some]
  rfl

lemma run_forwardRequest (hphase : s.phase = .prefixCode) (rest : List UInt8) :
    run put s acc (PrefixCode.forwardRequest.byte :: rest) =
      run put { s with prefixCode := some .forwardRequest }.advance acc rest := by
  rw [run_eq, phaseTurn, hphase]
  dsimp only
  rw [← hphase]
  rfl

lemma run_signal (hphase : s.phase = .prefixCode) {kind : UInt8}
    (other : kind ≠ PrefixCode.forwardRequest.byte) (rest : List UInt8) :
    run put s acc (kind :: rest) =
      run put { s with prefixCode := some (.ofByte kind) }.finish acc rest := by
  have hkind : PrefixCode.ofByte kind ≠ .forwardRequest := fun h =>
    other (PrefixCode.ofByte_eq_forwardRequest_iff.1 h)
  rw [run_eq, phaseTurn, hphase]
  simp only [State.readByte, Reading.turn, List.head?_cons, List.tail_cons]
  rw [if_neg hkind]
  simp only [Turn.andThen, hphase]

variable (hs : s.scratch = {})
include hs

lemma run_magic (hphase : s.phase = .magic) (rest : List UInt8) :
    run put s acc (Word.bytes Marker.magic ++ rest) = run put s.advance acc rest := by
  rw [run_eq, phaseTurn, hphase]
  dsimp only
  rw [State.readWord_bytes hs]
  rfl

lemma run_dataSize (hphase : s.phase = .dataSize) (size : UInt16) (rest : List UInt8) :
    run put s acc (Word.bytes size ++ rest) =
      run put { s with dataSize := some size }.advance acc rest := by
  rw [run_eq, phaseTurn, hphase]
  dsimp only
  rw [State.readWord_bytes hs, ← hphase]
  rfl

lemma run_serverPort (hphase : s.phase = .serverPort) (port : UInt16) (rest : List UInt8) :
    run put s acc (Word.bytes port ++ rest) =
      run put { s with serverPort := some port }.advance acc rest := by
  rw [run_eq, phaseTurn, hphase]
  dsimp only
  rw [State.readWord_bytes hs, ← hphase]
  rfl

lemma run_headerCount (hphase : s.phase = .headerCount) (count : UInt16) (rest : List UInt8) :
    run put s acc (Word.bytes count ++ rest) =
      run put { s with headerCount := count }.advance acc rest := by
  rw [run_eq, phaseTurn, hphase]
  dsimp only
  rw [State.readWord_bytes hs, ← hphase]
  rfl

lemma run_protocol (hphase : s.phase = .protocol) (w : WireString) (rest : List UInt8) :
    run put s acc (w.bytes ++ rest) = run put s.advance (put acc (.protocol w.text)) rest := by
  rw [run_eq, phaseTurn, hphase]
  dsimp only
  rw [State.readString_bytes hs, ← w.text_received]
  rfl

lemma run_requestUri (hphase : s.phase = .requestUri) (w : WireString) (rest : List UInt8) :
    run put s acc (w.bytes ++ rest) =
      run put s.advance (put acc (.requestUri w.text w.urlChars)) rest := by
  rw [run_eq, phaseTurn, hphase]
  dsimp only
  rw [State.readString_bytes hs, ← w.text_received, ← w.urlChars_received]
  rfl

lemma run_remoteAddress (hphase : s.phase = .remoteAddress) (w : WireString) (rest : List UInt8) :
    run put s acc (w.bytes ++ rest) =
      run put { s with remoteAddress := some w.text }.advance acc rest := by
  rw [run_eq, phaseTurn, hphase]
  dsimp only
  rw [State.readString_bytes hs, ← w.text_received, ← hphase]
  rfl

lemma run_remoteHost (hphase : s.phase = .remoteHost) (w : WireString) (rest : List UInt8) :
    run put s acc (w.bytes ++ rest) = run put s.advance acc rest := by
  rw [run_eq, phaseTurn, hphase]
  dsimp only
  rw [State.readString_bytes hs]
  rfl

lemma run_serverName (hphase : s.phase = .serverName) (w : WireString) (rest : List UInt8) :
    run put s acc (w.bytes ++ rest) =
      run put { s with serverAddress := some w.text }.advance acc rest := by
  rw [run_eq, phaseTurn, hphase]
  dsimp only
  rw [State.readString_bytes hs, ← w.text_received, ← hphase]
  rfl

lemma run_headers (hphase : s.phase = .headers) (hpending : s.pendingHeader = none)
    {headers : List WireHeader} (hcount : s.headersRead + headers.length = s.headerCount.toNat)
    (rest : List UInt8) :
    run put s acc (headers.flatMap WireHeader.bytes ++ rest) =
      run put { s with phase := .attributes, headersRead := s.headerCount.toNat }
        ((headers.filterMap WireHeader.field?).foldl put acc) rest := by
  rw [run_eq, phaseTurn, hphase]
  dsimp only
  rw [readHeaders_bytes ⟨hpending, hs⟩ acc headers hcount]
  rfl

lemma run_attributes (hphase : s.phase = .attributes) (hcursor : s.cursor = .idle)
    (attributes : List WireAttribute) (rest : List UInt8) :
    run put s acc (attributes.flatMap WireAttribute.bytes ++ Marker.attributesEnd :: rest) =
      ⟨.done, rest, { s with
          phase := .done, attributes := attributes.foldl WireAttribute.keep s.attributes },
        (attributes.filterMap WireAttribute.field?).foldl put acc⟩ := by
  rw [run_eq, phaseTurn, hphase]
  dsimp only
  rw [readAttributes_bytes ⟨hcursor, hs⟩ acc attributes, Run.turn, if_pos rfl, Turn.andThen,
    run_done rfl]

end Phases

/-! ### Where a run ends -/

/-- What a phase reads, if that is a single field. -/
def Phase.reads? : Phase → Option Expected
  | .magic | .dataSize | .serverPort | .headerCount => some .word
  | .prefixCode | .method | .ssl => some .byte
  | .protocol | .requestUri | .remoteAddress | .remoteHost | .serverName => some (.string .plain)
  | .headers | .attributes | .done => none

/-- A run that ends ahead of a phase, and not with the end of a packet. -/
structure Ahead (p : Phase) (r : Run σ) : Prop where
  outcome : r.outcome ≠ .done
  phase : p.remaining < r.state.phase.remaining

lemma Ahead.mono {p q : Phase} {r : Run σ} (h : Ahead p r) (hpq : q.remaining ≤ p.remaining) :
    Ahead q r :=
  ⟨h.outcome, Nat.lt_of_le_of_lt hpq h.phase⟩

lemma Halted.ahead {s : State} {acc : σ} {r : Run σ} (h : Halted s acc r) {p : Phase}
    (hp : p.remaining < s.phase.remaining) : Ahead p r :=
  ⟨h.outcome, h.phase.symm ▸ hp⟩

section Fields

variable {p q : Phase} {s : State} {acc : σ} {buffer : List UInt8}
  (h : ¬Ahead p (run put s acc buffer)) (hphase : s.phase = q) (hp : p.remaining < q.remaining)
include h hphase hp

lemma exists_byte_of_not_ahead (hreads : q.reads? = some .byte) :
    ∃ (b : UInt8) (rest : List UInt8), buffer = b :: rest := by
  have hor : (∃ (b : UInt8) (rest : List UInt8), buffer = b :: rest) ∨
      Halted s acc (run put s acc buffer) := by
    rw [run_eq, phaseTurn, hphase]
    cases q with
    | prefixCode | method | ssl => exact exists_byte_or_halted
    | _ => cases hreads
  exact hor.resolve_right fun hhalted => h (hhalted.ahead (hphase.symm ▸ hp))

variable (hs : s.scratch = {})
include hs

lemma exists_word_of_not_ahead (hreads : q.reads? = some .word) :
    ∃ (w : UInt16) (rest : List UInt8), buffer = Word.bytes w ++ rest := by
  have hor : (∃ (w : UInt16) (rest : List UInt8), buffer = Word.bytes w ++ rest) ∨
      Halted s acc (run put s acc buffer) := by
    rw [run_eq, phaseTurn, hphase]
    cases q with
    | magic | dataSize | serverPort | headerCount => exact exists_word_or_halted hs
    | _ => cases hreads
  exact hor.resolve_right fun hhalted => h (hhalted.ahead (hphase.symm ▸ hp))

lemma exists_string_of_not_ahead (hreads : q.reads? = some (.string .plain)) :
    ∃ (w : WireString) (rest : List UInt8), buffer = w.bytes ++ rest := by
  have hor : (∃ (w : WireString) (rest : List UInt8), buffer = w.bytes ++ rest) ∨
      Halted s acc (run put s acc buffer) := by
    rw [run_eq, phaseTurn, hphase]
    cases q with
    | protocol | requestUri | remoteAddress | remoteHost | serverName =>
        exact exists_string_or_halted hs
    | _ => cases hreads
  exact hor.resolve_right fun hhalted => h (hhalted.ahead (hphase.symm ▸ hp))

end Fields

section Values

variable {p : Phase} {s : State} {acc : σ} {rest : List UInt8}

/-- A run does not get past another first word. -/
lemma eq_magic_of_not_ahead {w : UInt16}
    (h : ¬Ahead p (run put .start acc (Word.bytes w ++ rest)))
    (hp : p.remaining < Phase.magic.remaining) : w = Marker.magic := by
  by_cases hw : w = Marker.magic
  · exact hw
  · refine absurd ?_ h
    rw [run_eq, phaseTurn]
    dsimp only [State.start]
    rw [State.readWord_bytes rfl]
    simp only [Reading.turn, if_neg hw]
    exact ⟨Outcome.noConfusion, hp⟩

/-- A run does not get past a method without a meaning. -/
lemma isSome_of_not_ahead (hphase : s.phase = .method) {code : UInt8}
    (h : ¬Ahead p (run put s acc (code :: rest))) (hp : p.remaining < Phase.method.remaining) :
    (Method.ofCode? code).isSome = true := by
  cases hmethod : Method.ofCode? code with
  | some method => rfl
  | none =>
      refine absurd ?_ h
      rw [run_eq, phaseTurn, hphase]
      simp only [State.readByte, Reading.turn, List.head?_cons, List.tail_cons]
      rw [hmethod]
      exact ⟨Outcome.noConfusion, hphase.symm ▸ hp⟩

end Values

/-! ### Headers that do not come -/

lemma Run.turn_andThen_of_ne_done {r : Run σ} (h : r.outcome ≠ .done) (next : Phase)
    (f : State → σ → List UInt8 → Run σ) : (r.turn next).andThen f = r := by
  rw [Run.turn, if_neg h]
  rfl

/-- A run halts behind some headers, if more were announced and no other comes. -/
lemma run_headers_halted {s : State} (hs : s.BetweenHeaders) (hphase : s.phase = .headers)
    {headers : List WireHeader} (hcount : s.headersRead + headers.length < s.headerCount.toNat)
    (acc : σ) {rest : List UInt8} (hnone : ∀ w : WireHeader, ¬w.bytes <+: rest) :
    Halted { s with headersRead := s.headersRead + headers.length }
      ((headers.filterMap WireHeader.field?).foldl put acc)
      (run put s acc (headers.flatMap WireHeader.bytes ++ rest)) := by
  have hhalted : Halted { s with headersRead := s.headersRead + headers.length }
      ((headers.filterMap WireHeader.field?).foldl put acc)
      (readHeaders put s acc (headers.flatMap WireHeader.bytes ++ rest)) := by
    rw [readHeaders_append hs acc headers (Nat.le_of_lt hcount)]
    exact readHeaders_halted (s := { s with headersRead := s.headersRead + headers.length })
      ⟨hs.pendingHeader, hs.scratch⟩ hcount _ hnone
  have hrun : run put s acc (headers.flatMap WireHeader.bytes ++ rest) =
      readHeaders put s acc (headers.flatMap WireHeader.bytes ++ rest) := by
    rw [run_eq, phaseTurn, hphase]
    exact Run.turn_andThen_of_ne_done hhalted.outcome _ _
  rw [hrun]
  exact hhalted

/-! ### What is taken to an end -/

lemma Run.done_of_turn_done {r : Run σ} {next : Phase} {f : State → σ → List UInt8 → Run σ}
    (h : ((r.turn next).andThen f).outcome = .done) : r.outcome = .done := by
  rw [Run.turn] at h
  split at h
  next hdone => exact hdone
  next => exact h

section Done

variable {s : State} {acc : σ} {buffer : List UInt8} (h : (run put s acc buffer).outcome = .done)
include h

lemma exists_headers_of_run_done (hs : s.BetweenHeaders) (hphase : s.phase = .headers)
    (hread : s.headersRead = 0) :
    ∃ (headers : List WireHeader) (rest : List UInt8),
      headers.length = s.headerCount.toNat ∧ buffer = headers.flatMap WireHeader.bytes ++ rest := by
  rw [run_eq, phaseTurn, hphase] at h
  have hcount : s.headersRead + s.headerCount.toNat = s.headerCount.toNat := by omega
  exact exists_headers_of_done hs hcount (Run.done_of_turn_done h)

lemma exists_attributes_of_run_done (hs : s.BetweenAttributes) (hphase : s.phase = .attributes) :
    ∃ (attributes : List WireAttribute) (rest : List UInt8),
      buffer = attributes.flatMap WireAttribute.bytes ++ Marker.attributesEnd :: rest := by
  rw [run_eq, phaseTurn, hphase] at h
  exact exists_attributes_of_done hs (Run.done_of_turn_done h)

end Done

end Ajp13.Decoder
