import Ajp13.Proofs.Bytewise.Scan

/-!
Reading a buffer field by field comes to the same as taking its bytes one by one.

* `Simulates`: a turn of a loop does what a scan does with the same bytes;
* `simulates_readString`, `simulates_readWord`, `simulates_readByte`: turns that read a field;
* `scan_eq_exit_loop`: a loop whose turns all do so does so itself;
* `run_eq_scan`: this is the case for the loop over the phases, and the loops over headers and
  attributes within it, from any state in which no string has been left without missing content.
-/

namespace Ajp13.Decoder

variable {σ : Type} {put : σ → Field → σ}

/-! ### Steps and scans -/

/-- The scan that follows a step. -/
def Step.scan (put : σ → Field → σ) (acc : σ) (rest : List UInt8) : Step → Run σ
  | .move s field => Decoder.scan put s (field.elim acc (put acc)) rest
  | .refuse s fault => ⟨.failed fault, rest, s, acc⟩

lemma isDone_eq_false {s : State} (h : s.phase ≠ .done) : s.isDone = false := by
  simp [State.isDone, h]

lemma scan_done {s : State} (h : s.phase = .done) (acc : σ) (bytes : List UInt8) :
    scan put s acc bytes = ⟨.done, bytes, s, acc⟩ :=
  scan_of_isDone put (by simp [State.isDone, h]) acc bytes

lemma scan_nil {s : State} (h : s.phase ≠ .done) (acc : σ) :
    scan put s acc [] = ⟨.suspended, [], s, acc⟩ := by
  simp [scan, isDone_eq_false h]

lemma scan_cons {s : State} (h : s.phase ≠ .done) (acc : σ) (b : UInt8) (rest : List UInt8) :
    scan put s acc (b :: rest) = (s.step b).scan put acc rest := by
  rw [scan, isDone_eq_false h, if_neg Bool.false_ne_true]
  cases s.step b <;> rfl

lemma State.step_headers {s : State} (h : s.phase = .headers) (b : UInt8) :
    s.step b = s.stepHeader b := by
  rw [State.step, h]

lemma State.step_attributes {s : State} (h : s.phase = .attributes) (b : UInt8) :
    s.step b = s.stepAttribute b := by
  rw [State.step, h]

lemma State.settle_of_phase_ne {s : State} (h : s.phase ≠ .headers) : s.settle = s :=
  if_neg fun hs => h hs.1

lemma State.settle_of_lt {s : State} (h : s.headersRead < s.headerCount.toNat) : s.settle = s :=
  if_neg fun hs => absurd hs.2 (by omega)

/-! ### Turns and scans -/

/-- A turn does what a scan does with the same bytes, if `exit` is what follows the loop: a turn
that goes on leaves the rest of the scan to do, in a state in which `I` holds. -/
def Simulates (put : σ → Field → σ) (I : State → Prop) (exit : Run σ → Run σ) (whole : Run σ) :
    Turn σ → Prop
  | .go s acc rest => I s ∧ whole = scan put s.settle acc rest
  | .stop r => whole = exit r ∧ (r.outcome = .done → r.state.scratch.string.Open)

/-- What follows a loop is up to the loop unless that is done. -/
def IsExit (exit : Run σ → Run σ) : Prop := ∀ r, r.outcome ≠ .done → exit r = r

lemma IsExit.stop {I : State → Prop} {exit : Run σ → Run σ} (h : IsExit exit) {r : Run σ}
    (hr : r.outcome ≠ .done) : Simulates put I exit r (.stop r) :=
  ⟨(h r hr).symm, fun hdone => absurd hdone hr⟩

/-- A loop whose turns do what a scan does comes to the same as the scan. -/
theorem scan_eq_exit_loop {turn : State → σ → List UInt8 → Turn σ}
    {measure : State → List UInt8 → Nat}
    {h : ∀ {s acc buffer s' acc' rest}, turn s acc buffer = .go s' acc' rest →
      measure s' rest < measure s buffer}
    {I : State → Prop} {exit : Run σ → Run σ}
    (hturn : ∀ s acc buffer, I s →
      Simulates put I exit (scan put s.settle acc buffer) (turn s acc buffer))
    {s : State} (hs : I s) (acc : σ) (buffer : List UInt8) :
    scan put s.settle acc buffer = exit (loop turn measure h s acc buffer) ∧
      ((loop turn measure h s acc buffer).outcome = .done →
        (loop turn measure h s acc buffer).state.scratch.string.Open) := by
  refine loop_induct (P := fun s acc buffer r => I s → scan put s.settle acc buffer = exit r ∧
    (r.outcome = .done → r.state.scratch.string.Open)) ?_ ?_ s acc buffer hs
  · intro s acc buffer r hstop hs
    have hsim := hturn s acc buffer hs
    rwa [hstop] at hsim
  · intro s acc buffer s' acc' rest r hgo ih hs
    have hsim := hturn s acc buffer hs
    rw [hgo] at hsim
    rw [hsim.2]
    exact ih hsim.1

section Reading

variable {I : State → Prop} {exit : Run σ → Run σ} {s : State} {acc : σ}

/-- A turn that reads a string does what a scan does, if what it does with the string does. -/
lemma simulates_readString {role : StringRole} (next : State → ReceivedString → Step)
    {next' : ReceivedString → State → List UInt8 → Turn σ} (hexit : IsExit exit)
    (hphase : s.phase ≠ .done) (hopen : s.scratch.string.Open)
    (hstep : ∀ p b, (s.withString p).step b = (s.withString p).stepString role b next)
    (hnext : ∀ string rest, Simulates put I exit
      ((next (s.withString .start) string).scan put acc rest)
      (next' string (s.withString .start) rest)) (buffer : List UInt8) :
    Simulates put I exit (scan put s acc buffer) ((s.readString role buffer).turn acc next') := by
  -- the induction is over the bytes, and the progress changes on the way
  suffices h : ∀ p : StringProgress, Simulates put I exit (scan put (s.withString p) acc buffer)
      (Reading.turn ⟨(p.feed role buffer).value, s.withString (p.feed role buffer).kept,
        (p.feed role buffer).rest⟩ acc next') by
    have := h s.scratch.string
    rwa [← StringProgress.read_eq_feed role hopen] at this
  induction buffer with
  | nil =>
      intro p
      have hp : (s.withString p).phase ≠ .done := hphase
      rw [scan_nil hp]
      exact hexit.stop (by simp)
  | cons b buffer ih =>
      intro p
      have hp : (s.withString p).phase ≠ .done := hphase
      have hstring : (s.withString p).scratch.string = p := rfl
      rw [scan_cons hp, hstep, State.stepString, StringProgress.feed, hstring]
      cases p.step role b with
      | more p => exact ih p
      | whole string => exact hnext string buffer
      | unknownCode code => exact hexit.stop (by simp [Step.scan])

/-- A turn that reads a word does what a scan does, if what it does with the word does. -/
lemma simulates_readWord (next : State → UInt16 → Step)
    {next' : UInt16 → State → List UInt8 → Turn σ} (hexit : IsExit exit)
    (hphase : s.phase ≠ .done)
    (hstep : ∀ c b, (s.withCarry c).step b = (s.withCarry c).stepWord b next)
    (hnext : ∀ w rest, Simulates put I exit ((next (s.withCarry none) w).scan put acc rest)
      (next' w (s.withCarry none) rest)) (buffer : List UInt8) :
    Simulates put I exit (scan put s acc buffer) ((s.readWord buffer).turn acc next') := by
  -- with the high byte at hand, one more byte completes the word
  have hlow : ∀ (high : UInt8) (buffer : List UInt8),
      Simulates put I exit (scan put (s.withCarry (some high)) acc buffer)
        (Reading.turn ⟨.ok (readWord (some high) buffer).value,
          s.withCarry (readWord (some high) buffer).kept, (readWord (some high) buffer).rest⟩
          acc next') := by
    intro high buffer
    have hp : (s.withCarry (some high)).phase ≠ .done := hphase
    cases buffer with
    | nil =>
        rw [scan_nil hp]
        exact hexit.stop (by simp)
    | cons low buffer =>
        rw [scan_cons hp, hstep]
        exact hnext (Word.ofBytes high low) buffer
  rw [State.readWord]
  cases hcarry : s.scratch.carry with
  | some high =>
      have : s = s.withCarry (some high) := by rw [← hcarry]; rfl
      rw [congrArg (fun t => scan put t acc buffer) this]
      exact hlow high buffer
  | none =>
      have hs : s = s.withCarry none := by rw [← hcarry]; rfl
      have hp : (s.withCarry none).phase ≠ .done := hphase
      rw [congrArg (fun t => scan put t acc buffer) hs]
      cases buffer with
      | nil =>
          rw [scan_nil hp]
          exact hexit.stop (by simp)
      | cons high buffer =>
          rw [scan_cons hp, hstep]
          cases buffer with
          | nil => exact hlow high []
          | cons low buffer => exact hlow high (low :: buffer)

/-- A turn that reads a byte does what a scan does, if what it does with the byte does. -/
lemma simulates_readByte {next' : UInt8 → State → List UInt8 → Turn σ} (hexit : IsExit exit)
    (hphase : s.phase ≠ .done)
    (hnext : ∀ b rest, Simulates put I exit ((s.step b).scan put acc rest) (next' b s rest))
    (buffer : List UInt8) :
    Simulates put I exit (scan put s acc buffer) ((s.readByte buffer).turn acc next') := by
  cases buffer with
  | nil =>
      rw [scan_nil hphase]
      exact hexit.stop (by simp)
  | cons b buffer =>
      rw [scan_cons hphase]
      exact hnext b buffer

end Reading

/-! ### Loops within the loop over the phases -/

/-- The scan that follows a turn of the loop over the phases. -/
def Turn.finish (put : σ → Field → σ) : Turn σ → Run σ
  | .go s acc rest => scan put s.settle acc rest
  | .stop r => r

lemma isExit_turn (next : Phase) : IsExit fun r : Run σ => (r.turn next).finish put := by
  intro r hr
  dsimp only
  rw [Run.turn, if_neg hr, Turn.finish]

/-- No string has been left without missing content. -/
def OpenString (s : State) : Prop := s.scratch.string.Open

lemma simulates_turn {r : Run σ} {next : Phase} {whole : Run σ}
    (h : whole = (r.turn next).finish put ∧ (r.outcome = .done → OpenString r.state)) :
    Simulates put OpenString id whole (r.turn next) := by
  obtain ⟨hwhole, hopen⟩ := h
  rw [Run.turn] at hwhole ⊢
  split at hwhole
  next hdone =>
    rw [if_pos hdone]
    exact ⟨hopen hdone, hwhole⟩
  next hdone =>
    rw [if_neg hdone]
    exact ⟨hwhole, fun h => absurd h hdone⟩

/-! ### Headers -/

/-- No value of a plain string is without a meaning. -/
lemma StringProgress.value_read_plain_ne_error (p : StringProgress) (buffer : List UInt8)
    (fault : Fault) : (p.read .plain buffer).value ≠ .error fault := by
  have hterminator : ∀ held urlChars buffer,
      (readTerminator held urlChars buffer).value ≠ .error fault := by
    intro held urlChars buffer
    cases buffer <;> simp [readTerminator]
  have hcontent : ∀ missing held urlChars buffer,
      (readContent missing held urlChars buffer).value ≠ .error fault := by
    intro missing held urlChars buffer
    rw [readContent]
    split
    · simp
    · exact hterminator _ _ _
  cases p with
  | content missing held urlChars => exact hcontent _ _ _ _
  | terminator held urlChars => exact hterminator _ _ _
  | length high =>
      rw [read, readLength]
      simp only [reduceCtorEq, false_and, if_false]
      split
      · simp
      split
      · simp
      · exact hcontent _ _ _ _

section Headers

/-- The loop over the headers is at work. -/
structure AtHeaders (s : State) : Prop where
  phase : s.phase = .headers
  openString : OpenString s

variable {exit : Run σ → Run σ} {s : State} (acc : σ) (buffer : List UInt8)

lemma simulates_headerValueTurn (hexit : IsExit exit) {header : PendingHeader} (hs : AtHeaders s)
    (hpending : s.pendingHeader = some header) :
    Simulates put AtHeaders exit (scan put s acc buffer)
      (headerValueTurn put acc header { s with pendingHeader := none } buffer) := by
  -- a value is read whether or not the state shows that its name has come
  have hturn : headerValueTurn put acc header { s with pendingHeader := none } buffer =
      (s.readString .plain buffer).turn acc fun value s rest =>
        .go { s with pendingHeader := none, headersRead := s.headersRead + 1 }
          ((headerField? header value).elim acc (put acc)) rest := by
    rw [headerValueTurn, Reading.turn]
    have hne := s.scratch.string.value_read_plain_ne_error buffer
    simp only [State.readString]
    split
    next value hvalue => rw [hvalue]; rfl
    next hvalue =>
      rw [hvalue]
      simp only [State.withString, ← hpending]
    next fault hvalue => exact absurd hvalue (hne fault)
  rw [hturn]
  refine simulates_readString (fun s value =>
    .move { s with pendingHeader := none, headersRead := s.headersRead + 1 }.settle
      (headerField? header value)) hexit (by rw [hs.phase]; decide) hs.openString ?_ ?_ buffer
  · intro p b
    have hphase : (s.withString p).phase = .headers := hs.phase
    have hheader : (s.withString p).pendingHeader = some header := hpending
    rw [State.step_headers hphase, State.stepHeader, hheader]
  · intro value rest
    exact ⟨⟨hs.phase, trivial⟩, rfl⟩

/-- What is made of a field before the turn goes on may as well be made in the turn. -/
lemma Reading.turn_map {α β : Type} (f : α → β)
    (r : Reading State (Except Fault (Option α))) {next : β → State → List UInt8 → Turn σ} :
    Reading.turn ⟨r.value.map (Option.map f), r.kept, r.rest⟩ acc next =
      r.turn acc fun a => next (f a) := by
  rw [Reading.turn, Reading.turn]
  dsimp only
  cases r.value with
  | error fault => rfl
  | ok a => cases a <;> rfl

lemma simulates_headerName (hexit : IsExit exit) (hs : AtHeaders s)
    (hpending : s.pendingHeader = none) :
    Simulates put AtHeaders exit (scan put s acc buffer)
      ((s.readString .headerName buffer).turn acc fun name =>
        headerValueTurn put acc (pending name)) := by
  refine simulates_readString
    (fun s name => .move { s with pendingHeader := some (pending name) } none)
    hexit (by rw [hs.phase]; decide) hs.openString ?_ ?_ buffer
  · intro p b
    have hphase : (s.withString p).phase = .headers := hs.phase
    have hnone : (s.withString p).pendingHeader = none := hpending
    rw [State.step_headers hphase, State.stepHeader, hnone]
  · intro name rest
    have hstart : { s.withString .start with pendingHeader := none } = s.withString .start := by
      simp only [State.withString, ← hpending]
    rw [← hstart]
    exact simulates_headerValueTurn acc rest hexit
      (s := { s.withString .start with pendingHeader := some (pending name) })
      ⟨hs.phase, trivial⟩ rfl

/-- With no header missing, the loop is done and the next phase begins. -/
lemma scan_settle_of_le (hphase : s.phase = .headers)
    (hle : s.headerCount.toNat ≤ s.headersRead) :
    scan put s.settle acc buffer =
      ((⟨.done, buffer, s, acc⟩ : Run σ).turn .attributes).finish put := by
  have hsettle : s.settle = { s with phase := .attributes } := by
    rw [State.settle, if_pos ⟨hphase, by omega⟩, State.advance, hphase]
    rfl
  have hnext : ({ s with phase := .attributes } : State).settle =
      { s with phase := .attributes } :=
    State.settle_of_phase_ne (by simp)
  rw [hsettle, Run.turn, if_pos rfl, Turn.finish, hnext]

lemma simulates_headerTurn (hs : AtHeaders s) :
    Simulates put AtHeaders (fun r => (r.turn .attributes).finish put)
      (scan put s.settle acc buffer) (headerTurn put s acc buffer) := by
  have hexit : IsExit fun r : Run σ => (r.turn .attributes).finish put := isExit_turn .attributes
  rw [headerTurn]
  split
  next hlt =>
    rw [State.settle_of_lt hlt, State.takeName]
    cases hpending : s.pendingHeader with
    | some header => exact simulates_headerValueTurn acc buffer hexit hs hpending
    | none =>
        dsimp only
        rw [Reading.turn_map]
        exact simulates_headerName acc buffer hexit hs hpending
  next hge =>
    exact ⟨scan_settle_of_le acc buffer hs.phase (Nat.le_of_not_lt hge), fun _ => hs.openString⟩

end Headers

/-! ### Attributes -/

section Attributes

/-- The loop over the attributes is at work. -/
structure AtAttributes (s : State) : Prop where
  phase : s.phase = .attributes
  openString : OpenString s

variable {exit : Run σ → Run σ} {s : State} (acc : σ) (rest : List UInt8)

lemma AtAttributes.settle (hs : AtAttributes s) : s.settle = s :=
  State.settle_of_phase_ne (by rw [hs.phase]; decide)

lemma AtAttributes.simulates_go (hs : AtAttributes s) :
    Simulates put AtAttributes exit (scan put s acc rest) (.go s acc rest) :=
  ⟨hs, by rw [hs.settle]⟩

lemma simulates_endAttribute (hs : AtAttributes s) (name value : String) :
    Simulates put AtAttributes exit ((s.stepAttributeEnd name value).scan put acc rest)
      (endAttribute put name value s acc rest) := by
  rw [endAttribute, State.stepAttributeEnd]
  cases attributeField? name value with
  | some field => exact AtAttributes.simulates_go _ rest ⟨hs.phase, hs.openString⟩
  | none => exact AtAttributes.simulates_go _ rest ⟨hs.phase, hs.openString⟩

lemma simulates_tag (hs : AtAttributes s) (tag : UInt8) :
    Simulates put AtAttributes (fun r => (r.turn .done).finish put)
      ((s.stepTag tag).scan put acc rest)
      (if tag = Marker.attributesEnd then .stop ⟨.done, rest, s, acc⟩
        else if tag = Marker.customAttribute then
          .go { s with cursor := .readingCustomName } acc rest
        else
          match AttributeName.ofCode? tag with
          | some name => .go { s with cursor := .named name } acc rest
          | none => .stop ⟨.failed (.unknownAttribute tag), rest, s, acc⟩) := by
  rw [State.stepTag]
  split
  · refine ⟨?_, fun _ => hs.openString⟩
    have hadvance : s.advance = { s with phase := .done } := by
      rw [State.advance, hs.phase]
      rfl
    have hsettle : ({ s with phase := .done } : State).settle = { s with phase := .done } :=
      State.settle_of_phase_ne (by simp)
    dsimp only
    rw [Run.turn, if_pos rfl, Turn.finish, hsettle, ← hadvance]
    rfl
  split
  · exact AtAttributes.simulates_go acc rest ⟨hs.phase, hs.openString⟩
  cases AttributeName.ofCode? tag with
  | some name => exact AtAttributes.simulates_go acc rest ⟨hs.phase, hs.openString⟩
  | none => exact (isExit_turn .done).stop (by simp [Step.scan])

lemma simulates_attributeTurn (hs : AtAttributes s) (buffer : List UInt8) :
    Simulates put AtAttributes (fun r => (r.turn .done).finish put)
      (scan put s.settle acc buffer) (attributeTurn put s acc buffer) := by
  have hexit : IsExit fun r : Run σ => (r.turn .done).finish put := isExit_turn .done
  have hdone : s.phase ≠ .done := by rw [hs.phase]; decide
  rw [hs.settle, attributeTurn]
  cases hcursor : s.cursor with
  | idle =>
      refine simulates_readByte hexit hdone (fun tag rest => ?_) buffer
      have hstep : s.step tag = s.stepTag tag := by
        rw [State.step_attributes hs.phase, State.stepAttribute, hcursor]
      rw [hstep]
      exact simulates_tag acc rest hs tag
  | readingCustomName =>
      refine simulates_readString (fun s name => .move { s with cursor := .named name.text } none)
        hexit hdone hs.openString ?_ ?_ buffer
      · intro p b
        have hphase : (s.withString p).phase = .attributes := hs.phase
        have hcustom : (s.withString p).cursor = .readingCustomName := hcursor
        rw [State.step_attributes hphase, State.stepAttribute, hcustom]
      · intro name rest
        exact AtAttributes.simulates_go acc rest ⟨hs.phase, trivial⟩
  | named name =>
      dsimp only
      split
      next hname =>
        refine simulates_readWord (fun s size => s.stepAttributeEnd name (Decimal.write size))
          hexit hdone ?_ ?_ buffer
        · intro c b
          have hphase : (s.withCarry c).phase = .attributes := hs.phase
          have hnamed : (s.withCarry c).cursor = .named name := hcursor
          rw [State.step_attributes hphase, State.stepAttribute, hnamed]
          exact if_pos hname
        · intro size rest
          exact simulates_endAttribute (s := s.withCarry none) acc rest ⟨hs.phase, hs.openString⟩
            name _
      next hname =>
        refine simulates_readString (fun s value => s.stepAttributeEnd name value.text)
          hexit hdone hs.openString ?_ ?_ buffer
        · intro p b
          have hphase : (s.withString p).phase = .attributes := hs.phase
          have hnamed : (s.withString p).cursor = .named name := hcursor
          rw [State.step_attributes hphase, State.stepAttribute, hnamed]
          exact if_neg hname
        · intro value rest
          exact simulates_endAttribute (s := s.withString .start) acc rest ⟨hs.phase, trivial⟩
            name _

end Attributes

/-! ### Phases -/

section Phases

variable {s : State} (acc : σ) (buffer : List UInt8)

/-- On to a phase that needs no settling. -/
lemma simulates_go {rest : List UInt8} (hs : OpenString s) (hphase : s.phase ≠ .headers) :
    Simulates put OpenString id (scan put s acc rest) (.go s acc rest) :=
  ⟨hs, by rw [State.settle_of_phase_ne hphase]⟩

/-- A phase that reads a string and goes on to the next one. -/
lemma simulates_stringPhase {phase : Phase} (hp : phase ≠ .done ∧ phase.next ≠ .headers)
    (next : State → ReceivedString → State) (field : ReceivedString → Option Field)
    (hphase : s.phase = phase) (hs : OpenString s)
    (hstep : ∀ p b, (s.withString p).step b = (s.withString p).stepString .plain b
      fun s string => .move (next s string) (field string))
    (hnext : ∀ string, (next (s.withString .start) string).scratch.string = .start ∧
      (next (s.withString .start) string).phase = s.phase.next) :
    Simulates put OpenString id (scan put s acc buffer)
      ((s.readString .plain buffer).turn acc fun string s rest =>
        .go (next s string) ((field string).elim acc (put acc)) rest) := by
  subst hphase
  refine simulates_readString _ (fun _ _ => rfl) hp.1 hs hstep (fun string rest => ?_) buffer
  obtain ⟨hstart, hnext⟩ := hnext string
  exact simulates_go _ (by rw [OpenString, hstart]; trivial) (hnext ▸ hp.2)

/-- A phase that reads a word and goes on to the next one. -/
lemma simulates_wordPhase {phase : Phase} (hp : phase ≠ .done ∧ phase.next ≠ .headers)
    (next : State → UInt16 → State) (hphase : s.phase = phase)
    (hstep : ∀ c b, (s.withCarry c).step b = (s.withCarry c).stepWord b
      fun s w => .move (next s w) none)
    (hs : OpenString s)
    (hnext : ∀ w, (next (s.withCarry none) w).scratch.string = s.scratch.string ∧
      (next (s.withCarry none) w).phase = s.phase.next) :
    Simulates put OpenString id (scan put s acc buffer)
      ((s.readWord buffer).turn acc fun w s rest => .go (next s w) acc rest) := by
  subst hphase
  refine simulates_readWord _ (fun _ _ => rfl) hp.1 hstep (fun w rest => ?_) buffer
  obtain ⟨hstring, hnext⟩ := hnext w
  exact simulates_go _ (by rw [OpenString, hstring]; exact hs) (hnext ▸ hp.2)

lemma simulates_magic (hphase : s.phase = .magic) (hs : OpenString s) :
    Simulates put OpenString id (scan put s acc buffer)
      ((s.readWord buffer).turn acc fun found s rest =>
        if found = Marker.magic then .go s.advance acc rest
        else .stop ⟨.failed (.badMagic found), rest, s, acc⟩) := by
  refine simulates_readWord (fun s found =>
    if found = Marker.magic then .move s.advance none else .refuse s (.badMagic found))
    (fun _ _ => rfl) (by rw [hphase]; decide) ?_ ?_ buffer
  · intro c b
    have : (s.withCarry c).phase = .magic := hphase
    rw [State.step, this]
  · intro found rest
    split
    · refine simulates_go (s := (s.withCarry none).advance) acc hs ?_
      rw [State.advance, State.withCarry, hphase]
      simp [Phase.next]
    · exact ⟨rfl, by simp⟩

lemma simulates_headerCount (hphase : s.phase = .headerCount) (hs : OpenString s) :
    Simulates put OpenString id (scan put s acc buffer)
      ((s.readWord buffer).turn acc fun count s rest =>
        .go { s with headerCount := count }.advance acc rest) := by
  refine simulates_readWord
    (fun s count => .move { s with headerCount := count }.advance.settle none)
    (fun _ _ => rfl) (by rw [hphase]; decide) ?_ ?_ buffer
  · intro c b
    have : (s.withCarry c).phase = .headerCount := hphase
    rw [State.step, this]
  · intro count rest
    exact ⟨hs, rfl⟩

lemma simulates_headers (hs : AtHeaders s) :
    Simulates put OpenString id (scan put s.settle acc buffer)
      ((readHeaders put s acc buffer).turn .attributes) := by
  apply simulates_turn
  exact scan_eq_exit_loop (h := missing_lt_of_headerTurn_eq_go)
    (fun _ acc buffer hs => simulates_headerTurn acc buffer hs) hs acc buffer

lemma simulates_attributes (hs : AtAttributes s) :
    Simulates put OpenString id (scan put s.settle acc buffer)
      ((readAttributes put s acc buffer).turn .done) := by
  apply simulates_turn
  exact scan_eq_exit_loop (h := length_lt_of_attributeTurn_eq_go)
    (fun _ acc buffer hs => simulates_attributeTurn acc hs buffer) hs acc buffer

lemma simulates_prefixCode (hphase : s.phase = .prefixCode) (hs : OpenString s) :
    Simulates put OpenString id (scan put s acc buffer)
      ((s.readByte buffer).turn acc fun b s rest =>
        let code := PrefixCode.ofByte b
        let s := { s with prefixCode := some code }
        .go (if code = .forwardRequest then s.advance else s.finish) acc rest) := by
  refine simulates_readByte (fun _ _ => rfl) (by rw [hphase]; decide) (fun b rest => ?_) buffer
  rw [State.step, hphase]
  dsimp only
  split
  · exact simulates_go acc hs (show Phase.method ≠ .headers by decide)
  · exact simulates_go acc hs (show Phase.done ≠ .headers by decide)

lemma simulates_method (hphase : s.phase = .method) (hs : OpenString s) :
    Simulates put OpenString id (scan put s acc buffer)
      ((s.readByte buffer).turn acc fun code s rest =>
        match Method.ofCode? code with
        | some method => .go s.advance (put acc (.method method)) rest
        | none => .stop ⟨.failed (.unknownMethod code), rest, s, acc⟩) := by
  refine simulates_readByte (fun _ _ => rfl) (by rw [hphase]; decide) (fun code rest => ?_) buffer
  rw [State.step, hphase]
  dsimp only
  cases Method.ofCode? code with
  | some method =>
      refine simulates_go (s := s.advance) (put acc (.method method)) hs ?_
      rw [State.advance, hphase]
      simp [Phase.next]
  | none => exact ⟨rfl, by simp⟩

/-- One phase does what a scan does. -/
theorem simulates_phaseTurn (hs : OpenString s) :
    Simulates put OpenString id (scan put s.settle acc buffer) (phaseTurn put s acc buffer) := by
  by_cases hheaders : s.phase = .headers
  · rw [phaseTurn, hheaders]
    exact simulates_headers acc buffer ⟨hheaders, hs⟩
  rw [State.settle_of_phase_ne hheaders, phaseTurn]
  cases hphase : s.phase with
  | magic => exact simulates_magic acc buffer hphase hs
  | dataSize =>
      refine simulates_wordPhase acc buffer (by decide)
        (fun s size => { s with dataSize := some size }.advance) hphase (fun c b => ?_) hs
        fun _ => ⟨rfl, rfl⟩
      rw [State.step, show (s.withCarry c).phase = .dataSize from hphase]
  | prefixCode => exact simulates_prefixCode acc buffer hphase hs
  | method => exact simulates_method acc buffer hphase hs
  | protocol =>
      refine simulates_stringPhase acc buffer (by decide) (fun s _ => s.advance)
        (fun text => some (.protocol text.text)) hphase hs (fun p b => ?_) fun _ => ⟨rfl, rfl⟩
      rw [State.step, show (s.withString p).phase = .protocol from hphase]
  | requestUri =>
      refine simulates_stringPhase acc buffer (by decide) (fun s _ => s.advance)
        (fun uri => some (.requestUri uri.text uri.urlChars)) hphase hs (fun p b => ?_)
        fun _ => ⟨rfl, rfl⟩
      rw [State.step, show (s.withString p).phase = .requestUri from hphase]
  | remoteAddress =>
      refine simulates_stringPhase acc buffer (by decide)
        (fun s address => { s with remoteAddress := some address.text }.advance) (fun _ => none)
        hphase hs (fun p b => ?_) fun _ => ⟨rfl, rfl⟩
      rw [State.step, show (s.withString p).phase = .remoteAddress from hphase]
  | remoteHost =>
      refine simulates_stringPhase acc buffer (by decide) (fun s _ => s.advance) (fun _ => none)
        hphase hs (fun p b => ?_) fun _ => ⟨rfl, rfl⟩
      rw [State.step, show (s.withString p).phase = .remoteHost from hphase]
  | serverName =>
      refine simulates_stringPhase acc buffer (by decide)
        (fun s name => { s with serverAddress := some name.text }.advance) (fun _ => none)
        hphase hs (fun p b => ?_) fun _ => ⟨rfl, rfl⟩
      rw [State.step, show (s.withString p).phase = .serverName from hphase]
  | serverPort =>
      refine simulates_wordPhase acc buffer (by decide)
        (fun s port => { s with serverPort := some port }.advance) hphase (fun c b => ?_) hs
        fun _ => ⟨rfl, rfl⟩
      rw [State.step, show (s.withCarry c).phase = .serverPort from hphase]
  | ssl =>
      refine simulates_readByte (fun _ _ => rfl) (by rw [hphase]; decide) (fun b rest => ?_) buffer
      rw [State.step, hphase]
      refine simulates_go (s := s.advance) _ hs ?_
      rw [State.advance, hphase]
      simp [Phase.next]
  | headerCount => exact simulates_headerCount acc buffer hphase hs
  | headers => exact absurd hphase hheaders
  | attributes =>
      have h : Simulates put OpenString id _ _ := simulates_attributes acc buffer ⟨hphase, hs⟩
      rwa [State.settle_of_phase_ne hheaders] at h
  | done =>
      have hdone : s.isDone = true := by simp [State.isDone, hphase]
      exact ⟨scan_of_isDone put hdone acc buffer, fun _ => hs⟩

end Phases

/-- Reading a buffer phase by phase comes to the same as taking its bytes one by one. -/
theorem run_eq_scan {s : State} (hs : OpenString s) (acc : σ) (buffer : List UInt8) :
    run put s acc buffer = scan put s.settle acc buffer :=
  (scan_eq_exit_loop (h := remaining_lt_of_phaseTurn_eq_go)
    (fun _ acc buffer hs => simulates_phaseTurn acc buffer hs) hs acc buffer).1.symm

end Ajp13.Decoder
