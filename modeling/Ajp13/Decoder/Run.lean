import Ajp13.Decoder.Attributes
import Ajp13.Decoder.Headers

/-!
What a buffer of bytes does to a decoder of AJP13 packets.

* `phaseTurn`: the current phase, as far as the buffer goes;
* `run`: one phase after another, handing the fields on as they are complete;
* `parse`: a run that tells a sink.
-/

namespace Ajp13.Decoder

variable {σ : Type}

/-- The turn that goes on to the next phase once a loop is done. -/
def Run.turn (r : Run σ) (next : Phase) : Turn σ :=
  if r.outcome = .done then .go { r.state with phase := next } r.result r.rest else .stop r

theorem Run.phase_of_turn_eq_go {r : Run σ} {next : Phase} {s : State} {acc : σ}
    {rest : List UInt8} (h : r.turn next = .go s acc rest) : s.phase = next := by
  rw [Run.turn] at h
  split at h
  · rw [← (Turn.go.inj h).1]
  · cases h

/-- Reads what the current phase is about; `put` is what is made of a field. A field whose value
has no meaning is taken and leaves no trace. -/
def phaseTurn (put : σ → Field → σ) (s : State) (acc : σ) (buffer : List UInt8) : Turn σ :=
  match s.phase with
  | .magic =>
      (s.readWord buffer).turn acc fun found s rest =>
        if found = Marker.magic then .go s.advance acc rest
        else .stop ⟨.failed (.badMagic found), rest, s, acc⟩
  | .dataSize =>
      (s.readWord buffer).turn acc fun size s rest =>
        .go { s with dataSize := some size }.advance acc rest
  | .prefixCode =>
      (s.readByte buffer).turn acc fun b s rest =>
        let code := PrefixCode.ofByte b
        let s := { s with prefixCode := some code }
        .go (if code = .forwardRequest then s.advance else s.finish) acc rest
  | .method =>
      (s.readByte buffer).turn acc fun code s rest =>
        match Method.ofCode? code with
        | some method => .go s.advance (put acc (.method method)) rest
        | none => .stop ⟨.failed (.unknownMethod code), rest, s, acc⟩
  | .protocol =>
      (s.readString .plain buffer).turn acc fun text s rest =>
        .go s.advance (put acc (.protocol text.text)) rest
  | .requestUri =>
      (s.readString .plain buffer).turn acc fun uri s rest =>
        .go s.advance (put acc (.requestUri uri.text uri.urlChars)) rest
  | .remoteAddress =>
      (s.readString .plain buffer).turn acc fun address s rest =>
        .go { s with remoteAddress := some address.text }.advance acc rest
  | .remoteHost =>
      (s.readString .plain buffer).turn acc fun _ s rest => .go s.advance acc rest
  | .serverName =>
      (s.readString .plain buffer).turn acc fun name s rest =>
        .go { s with serverAddress := some name.text }.advance acc rest
  | .serverPort =>
      (s.readWord buffer).turn acc fun port s rest =>
        .go { s with serverPort := some port }.advance acc rest
  | .ssl =>
      (s.readByte buffer).turn acc fun b s rest =>
        .go s.advance (put acc (.scheme (if b = 0 then .http else .https))) rest
  | .headerCount =>
      (s.readWord buffer).turn acc fun count s rest =>
        .go { s with headerCount := count }.advance acc rest
  | .headers => (readHeaders put s acc buffer).turn .attributes
  | .attributes => (readAttributes put s acc buffer).turn .done
  | .done => .stop ⟨.done, buffer, s, acc⟩

/-- No phase is left out, but for the end of a packet that holds nothing after its kind. -/
theorem phase_of_phaseTurn_eq_go {put : σ → Field → σ} {s s' : State} {acc acc' : σ}
    {buffer rest : List UInt8} (h : phaseTurn put s acc buffer = .go s' acc' rest) :
    s.phase ≠ .done ∧ (s'.phase = s.phase.next ∨ s.phase = .prefixCode ∧ s'.phase = .done) := by
  rw [phaseTurn] at h
  split at h
  case h_1 hphase =>
    obtain ⟨found, -, h⟩ := Reading.turn_eq_go h
    split at h
    · rw [← (Turn.go.inj h).1]
      exact ⟨by rw [hphase]; decide, .inl rfl⟩
    · cases h
  case h_3 hphase =>
    obtain ⟨b, -, h⟩ := Reading.turn_eq_go h
    rw [← (Turn.go.inj h).1]
    refine ⟨by rw [hphase]; decide, ?_⟩
    split
    · exact .inl rfl
    · exact .inr ⟨hphase, rfl⟩
  case h_4 hphase =>
    obtain ⟨code, -, h⟩ := Reading.turn_eq_go h
    split at h
    · rw [← (Turn.go.inj h).1]
      exact ⟨by rw [hphase]; decide, .inl rfl⟩
    · cases h
  case h_13 hphase =>
    exact ⟨by rw [hphase]; decide, .inl (by rw [hphase, Run.phase_of_turn_eq_go h]; rfl)⟩
  case h_14 hphase =>
    exact ⟨by rw [hphase]; decide, .inl (by rw [hphase, Run.phase_of_turn_eq_go h]; rfl)⟩
  case h_15 => cases h
  all_goals
    next hphase =>
      obtain ⟨a, -, h⟩ := Reading.turn_eq_go h
      rw [← (Turn.go.inj h).1]
      exact ⟨by rw [hphase]; decide, .inl rfl⟩

/-- Each turn that goes on leaves fewer phases. -/
theorem remaining_lt_of_phaseTurn_eq_go {put : σ → Field → σ} {s s' : State} {acc acc' : σ}
    {buffer rest : List UInt8} (h : phaseTurn put s acc buffer = .go s' acc' rest) :
    s'.phase.remaining < s.phase.remaining := by
  obtain ⟨hs, h | ⟨hkind, h⟩⟩ := phase_of_phaseTurn_eq_go h
  · rw [h]
    exact Phase.remaining_next_lt hs
  · rw [hkind, h]
    decide

/-- Takes bytes up to the end of the packet, the first fault, or the end of the buffer. -/
def run (put : σ → Field → σ) : State → σ → List UInt8 → Run σ :=
  loop (phaseTurn put) (fun s _ => s.phase.remaining) remaining_lt_of_phaseTurn_eq_go

/-- Takes what the buffer holds of the packet, and tells the sink of each field. -/
def parse (conf : Conf) (sink : Sink σ) (state : State) (acc : σ) (buffer : List UInt8) : Run σ :=
  run (sink.tell conf) state acc buffer

end Ajp13.Decoder
