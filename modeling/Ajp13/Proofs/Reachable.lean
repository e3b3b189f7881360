import Ajp13.Proofs.Bytewise.Agreement

/-!
The states in which a decoder can be between two pieces of a stream.

* `Reachable`: the states after any sequence of pieces and resets;
* `State.Coherent`: what is kept of the packet and of the field in progress agrees with the phase;
* `State.Coherent.step`: one byte preserves this, whether it completes a field, is refused, or
  neither;
* `Reachable.coherent`: so it holds in every reachable state;
* `parse_eq_scan`: from such a state, a buffer is taken as its bytes are one by one.
-/

namespace Ajp13.Decoder

variable {σ : Type}

/-- The states after any sequence of pieces and resets, whatever came of them. Each piece may be for
another sink. -/
inductive Reachable : State → Prop
  | start : Reachable .start
  | parse {σ : Type} (conf : Conf) (sink : Sink σ) {s : State} (hs : Reachable s) (told : σ)
      (buffer : List UInt8) : Reachable (parse conf sink s told buffer).state
  | reset {s : State} (hs : Reachable s) : Reachable s.reset

/-! ### Strings -/

/-- A length that does not stand for something else where a string of the given role is read. -/
structure LengthFits (role : StringRole) (len : Nat) : Prop where
  lt : len < 0xFFFF
  unmarked : role = .headerName → len / 256 ≠ 0xA0

namespace StringProgress

/-- What is known of a string agrees with the bytes that are held. -/
def Fits (role : StringRole) : StringProgress → Prop
  | length _ => True
  | content missing held urlChars =>
      0 < missing ∧ LengthFits role (missing + held.length) ∧ urlChars = held.any isUrlByte
  | terminator held urlChars => LengthFits role held.length ∧ urlChars = held.any isUrlByte

lemma Fits.open {role : StringRole} {p : StringProgress} (hp : p.Fits role) : p.Open := by
  cases p with
  | length high => trivial
  | content missing held urlChars => exact Nat.ne_of_gt hp.1
  | terminator held urlChars => trivial

lemma awaiting_fits {role : StringRole} {missing : Nat} {held : List UInt8} {urlChars : Bool}
    (hlen : LengthFits role (missing + held.length)) (hurl : urlChars = held.any isUrlByte) :
    (awaiting missing held urlChars).Fits role := by
  rw [awaiting]
  split
  next hmissing =>
    rw [hmissing, Nat.zero_add] at hlen
    exact ⟨hlen, hurl⟩
  next hmissing => exact ⟨Nat.pos_of_ne_zero hmissing, hlen, hurl⟩

lemma lengthFits_toNat {role : StringRole} {len : UInt16}
    (hcode : ¬(role = .headerName ∧ Word.high len = Marker.headerCode))
    (hnull : len ≠ Marker.nullLength) : LengthFits role len.toNat := by
  have hlt := len.toNat_lt
  constructor
  · have : len.toNat ≠ Marker.nullLength.toNat := fun h => hnull (UInt16.toNat_inj.1 h)
    have hmax : Marker.nullLength.toNat = 0xFFFF := rfl
    omega
  · intro hrole hhigh
    refine hcode ⟨hrole, ?_⟩
    rw [Word.high, hhigh]
    rfl

/-- Each byte of a string is counted, and seen. -/
lemma Fits.step {role : StringRole} {p q : StringProgress} {b : UInt8} (hp : p.Fits role)
    (h : p.step role b = .more q) : q.Fits role := by
  cases p with
  | terminator held urlChars => cases h
  | content missing held urlChars =>
      obtain ⟨hmissing, hlen, hurl⟩ := hp
      rw [← StringStep.more.inj h]
      refine awaiting_fits ?_ ?_
      · have hsum : missing - 1 + (held.length + 1) = missing + held.length := by omega
        rwa [List.length_cons, hsum]
      · rw [hurl, List.any_cons, Bool.or_comm]
  | length high =>
      cases high with
      | none =>
          rw [← StringStep.more.inj h]
          trivial
      | some high =>
          rw [StringProgress.step, afterLength] at h
          split at h
          · split at h <;> cases h
          next hcode =>
            split at h
            · cases h
            next hnull =>
              rw [← StringStep.more.inj h]
              exact awaiting_fits (lengthFits_toNat hcode hnull) rfl

end StringProgress

/-! ### Coherence -/

/-- What a decoder is reading, or will read next. -/
inductive Expected
  /-- A single byte, or nothing: no part of a field can be in progress. -/
  | byte
  | word
  | string (role : StringRole)

/-- What of a word or a string may have come. -/
def Scratch.Fits (scratch : Scratch) : Expected → Prop
  | .byte => scratch = {}
  | .word => scratch.string = .start
  | .string role => scratch.carry = none ∧ scratch.string.Fits role

lemma Scratch.empty_fits (e : Expected) : ({} : Scratch).Fits e := by
  cases e with
  | byte => rfl
  | word => rfl
  | string role => exact ⟨rfl, trivial⟩

lemma Scratch.Fits.open {scratch : Scratch} {e : Expected} (h : scratch.Fits e) :
    scratch.string.Open := by
  cases e with
  | byte =>
      rw [show scratch = {} from h]
      trivial
  | word =>
      rw [show scratch.string = .start from h]
      trivial
  | string role => exact h.2.open

namespace State

/-- What is read in the given state. -/
def expected (s : State) : Expected :=
  match s.phase with
  | .magic | .dataSize | .serverPort | .headerCount => .word
  | .prefixCode | .method | .ssl | .done => .byte
  | .protocol | .requestUri | .remoteAddress | .remoteHost | .serverName => .string .plain
  | .headers => .string (if s.pendingHeader = none then .headerName else .plain)
  | .attributes =>
      match s.cursor with
      | .idle => .byte
      | .readingCustomName => .string .plain
      | .named name => if name = AttributeName.sslKeySize then .word else .string .plain

/-- What is kept of the headers and of the attribute in progress agrees with the phase. -/
def Placed (s : State) : Prop :=
  match s.phase with
  | .headers => s.headersRead < s.headerCount.toNat ∧ s.cursor = .idle
  | .attributes => s.headersRead = s.headerCount.toNat ∧ s.pendingHeader = none
  | .done =>
      s.headersRead = s.headerCount.toNat ∧ s.pendingHeader = none ∧ s.cursor = .idle
  | _ => s.headersRead = 0 ∧ s.headerCount = 0 ∧ s.pendingHeader = none ∧ s.cursor = .idle

/-- What is kept agrees with the phase. -/
structure Coherent (s : State) : Prop where
  placed : s.Placed
  scratch : s.scratch.Fits s.expected

lemma start_coherent : start.Coherent := ⟨⟨rfl, rfl, rfl, rfl⟩, rfl⟩

variable {s t : State}

/-- Before the headers, there is neither a header nor an attribute. -/
lemma placed_iff_of_early (hs : Phase.headers.remaining < s.phase.remaining) :
    s.Placed ↔
      s.headersRead = 0 ∧ s.headerCount = 0 ∧ s.pendingHeader = none ∧ s.cursor = .idle := by
  rw [Placed]
  cases hphase : s.phase with
  | headers => rw [hphase] at hs; exact absurd hs (by decide)
  | attributes => rw [hphase] at hs; exact absurd hs (by decide)
  | done => rw [hphase] at hs; exact absurd hs (by decide)
  | _ => exact Iff.rfl

lemma placed_headers_iff (hs : s.phase = .headers) :
    s.Placed ↔ s.headersRead < s.headerCount.toNat ∧ s.cursor = .idle := by
  rw [Placed, hs]

lemma placed_attributes_iff (hs : s.phase = .attributes) :
    s.Placed ↔ s.headersRead = s.headerCount.toNat ∧ s.pendingHeader = none := by
  rw [Placed, hs]

lemma placed_done_iff (hs : s.phase = .done) :
    s.Placed ↔ s.headersRead = s.headerCount.toNat ∧ s.pendingHeader = none ∧ s.cursor = .idle := by
  rw [Placed, hs]

namespace Coherent

/-- Between two fields, nothing of a field is kept. -/
lemma of_placed (hs : s.Placed) (hscratch : s.scratch = {}) : s.Coherent :=
  ⟨hs, hscratch ▸ Scratch.empty_fits _⟩

lemma of_headers (hphase : s.phase = .headers) (hread : s.headersRead < s.headerCount.toNat)
    (hcursor : s.cursor = .idle) (hscratch : s.scratch = {}) : s.Coherent :=
  of_placed ((placed_headers_iff hphase).2 ⟨hread, hcursor⟩) hscratch

lemma of_attributes (hphase : s.phase = .attributes) (hread : s.headersRead = s.headerCount.toNat)
    (hpending : s.pendingHeader = none) (hscratch : s.scratch = {}) : s.Coherent :=
  of_placed ((placed_attributes_iff hphase).2 ⟨hread, hpending⟩) hscratch

lemma of_done (hphase : s.phase = .done) (hread : s.headersRead = s.headerCount.toNat)
    (hpending : s.pendingHeader = none) (hcursor : s.cursor = .idle) (hscratch : s.scratch = {}) :
    s.Coherent :=
  of_placed ((placed_done_iff hphase).2 ⟨hread, hpending, hcursor⟩) hscratch

lemma openString (h : s.Coherent) : OpenString s := h.scratch.open

lemma settle_eq (h : s.Coherent) : s.settle = s := by
  by_cases hs : s.phase = .headers
  · exact settle_of_lt ((placed_headers_iff hs).1 h.placed).1
  · exact settle_of_phase_ne hs

lemma scratch_withCarry_none (h : s.Coherent) (he : s.expected = .word) :
    (s.withCarry none).scratch = {} := by
  have hstring := h.scratch
  rw [he] at hstring
  exact congrArg (Scratch.mk none) hstring

lemma scratch_withString_start {role : StringRole} (h : s.Coherent)
    (he : s.expected = .string role) : (s.withString .start).scratch = {} := by
  have hcarry := h.scratch
  rw [he] at hcarry
  exact congrArg (Scratch.mk · .start) hcarry.1

lemma withString {role : StringRole} {p : StringProgress} (h : s.Coherent)
    (he : s.expected = .string role) (hp : p.Fits role) : (s.withString p).Coherent := by
  have hfits := h.scratch
  rw [he] at hfits
  refine ⟨h.placed, ?_⟩
  rw [show (s.withString p).expected = .string role from he]
  exact ⟨hfits.1, hp⟩

lemma withCarry {carry : Option UInt8} (h : s.Coherent) (he : s.expected = .word) :
    (s.withCarry carry).Coherent := by
  have hfits := h.scratch
  rw [he] at hfits
  refine ⟨h.placed, ?_⟩
  rw [show (s.withCarry carry).expected = .word from he]
  exact hfits

/-- On to a phase that still comes before the headers. -/
lemma moveOn (hs : s.Placed) (hphase : t.phase = s.phase.next)
    (hearly : Phase.headers.remaining < s.phase.next.remaining)
    (hread : t.headersRead = s.headersRead) (hcount : t.headerCount = s.headerCount)
    (hpending : t.pendingHeader = s.pendingHeader) (hcursor : t.cursor = s.cursor)
    (hscratch : t.scratch = {}) : t.Coherent := by
  have hne : s.phase ≠ .done := by
    rintro hdone
    rw [hdone] at hearly
    exact absurd hearly (by decide)
  have hlt := Phase.remaining_next_lt hne
  have hzero := (placed_iff_of_early (by omega)).1 hs
  refine of_placed ((placed_iff_of_early (by rwa [hphase])).2 ?_) hscratch
  rwa [hread, hcount, hpending, hcursor]

end Coherent

/-! ### One byte -/

end State

/-- The state that a step leads to. -/
def Step.state : Step → State
  | .move s _ => s
  | .refuse s _ => s

namespace State

variable {s : State}

namespace Coherent

lemma stepWord {next : State → UInt16 → Step} (h : s.Coherent) (he : s.expected = .word)
    (hnext : ∀ w, (next (s.withCarry none) w).state.Coherent) (b : UInt8) :
    (s.stepWord b next).state.Coherent := by
  rw [State.stepWord]
  cases s.scratch.carry with
  | none => exact h.withCarry he
  | some high => exact hnext _

lemma stepString {role : StringRole} {next : State → ReceivedString → Step} (h : s.Coherent)
    (he : s.expected = .string role)
    (hnext : ∀ string, (next (s.withString .start) string).state.Coherent) (b : UInt8) :
    (s.stepString role b next).state.Coherent := by
  have hfits := h.scratch
  rw [he] at hfits
  rw [State.stepString]
  cases hstep : s.scratch.string.step role b with
  | more p => exact h.withString he (hfits.2.step hstep)
  | whole string => exact hnext string
  | unknownCode code => exact h.withString he trivial

lemma stepHeader (h : s.Coherent) (hphase : s.phase = .headers) (b : UInt8) :
    (s.stepHeader b).state.Coherent := by
  obtain ⟨hread, hcursor⟩ := (placed_headers_iff hphase).1 h.placed
  rw [State.stepHeader]
  cases hpending : s.pendingHeader with
  | none =>
      have he : s.expected = .string .headerName := by
        rw [expected, hphase, hpending]
        rfl
      refine h.stepString he (fun name => ?_) b
      exact of_headers hphase hread hcursor (h.scratch_withString_start he)
  | some header =>
      have he : s.expected = .string .plain := by
        rw [expected, hphase, hpending]
        rfl
      refine h.stepString he (fun value => ?_) b
      have hscratch := h.scratch_withString_start he
      rw [Step.state, settle]
      split
      next hlast =>
        -- the last of the headers that were announced
        have hphase' : s.phase.next = .attributes := by rw [hphase]; rfl
        exact of_attributes hphase' (Nat.le_antisymm hread hlast.2) rfl hscratch
      next hmore =>
        have hread' : s.headersRead + 1 < s.headerCount.toNat :=
          Nat.lt_of_not_le fun hle => hmore ⟨hphase, hle⟩
        exact of_headers hphase hread' hcursor hscratch

lemma stepAttributeEnd (hphase : s.phase = .attributes) (hs : s.Placed) (hscratch : s.scratch = {})
    (name value : String) : (s.stepAttributeEnd name value).state.Coherent := by
  obtain ⟨hread, hpending⟩ := (placed_attributes_iff hphase).1 hs
  rw [State.stepAttributeEnd]
  cases attributeField? name value with
  | some field => exact of_attributes hphase hread hpending hscratch
  | none => exact of_attributes hphase hread hpending hscratch

lemma stepTag (hphase : s.phase = .attributes) (hcursor : s.cursor = .idle) (hs : s.Placed)
    (hscratch : s.scratch = {}) (tag : UInt8) : (s.stepTag tag).state.Coherent := by
  obtain ⟨hread, hpending⟩ := (placed_attributes_iff hphase).1 hs
  rw [State.stepTag]
  split
  · have hphase' : s.phase.next = .done := by rw [hphase]; rfl
    exact of_done hphase' hread hpending hcursor hscratch
  split
  · exact of_attributes hphase hread hpending hscratch
  cases AttributeName.ofCode? tag with
  | some name => exact of_attributes hphase hread hpending hscratch
  | none => exact of_placed hs hscratch

lemma stepAttribute (h : s.Coherent) (hphase : s.phase = .attributes) (b : UInt8) :
    (s.stepAttribute b).state.Coherent := by
  obtain ⟨hread, hpending⟩ := (placed_attributes_iff hphase).1 h.placed
  rw [State.stepAttribute]
  cases hcursor : s.cursor with
  | idle =>
      have hscratch := h.scratch
      simp only [expected, hphase, hcursor] at hscratch
      exact stepTag hphase hcursor h.placed hscratch b
  | readingCustomName =>
      have he : s.expected = .string .plain := by simp only [expected, hphase, hcursor]
      refine h.stepString he (fun name => ?_) b
      exact of_attributes hphase hread hpending (h.scratch_withString_start he)
  | named name =>
      dsimp only
      split
      next hname =>
        have he : s.expected = .word := by simp only [expected, hphase, hcursor, if_pos hname]
        refine h.stepWord he (fun size => ?_) b
        exact stepAttributeEnd (s := s.withCarry none) hphase h.placed
          (h.scratch_withCarry_none he) _ _
      next hname =>
        have he : s.expected = .string .plain := by
          simp only [expected, hphase, hcursor, if_neg hname]
        refine h.stepString he (fun value => ?_) b
        exact stepAttributeEnd (s := s.withString .start) hphase h.placed
          (h.scratch_withString_start he) _ _

lemma stepHeaderCount (h : s.Coherent) (hphase : s.phase = .headerCount) (b : UInt8) :
    (s.stepWord b fun s count =>
      .move { s with headerCount := count }.advance.settle none).state.Coherent := by
  have hearly : Phase.headers.remaining < s.phase.remaining := by rw [hphase]; decide
  obtain ⟨hread, -, hpending, hcursor⟩ := (placed_iff_of_early hearly).1 h.placed
  have he : s.expected = .word := by rw [expected, hphase]
  refine h.stepWord he (fun count => ?_) b
  have hscratch := h.scratch_withCarry_none he
  have hphase' : s.phase.next = .headers := by rw [hphase]; rfl
  rw [Step.state, settle]
  split
  next hnone =>
    have hphase'' : s.phase.next.next = .attributes := by rw [hphase']; rfl
    have hcount : count.toNat ≤ s.headersRead := hnone.2
    have hread' : s.headersRead = count.toNat := by omega
    exact of_attributes hphase'' hread' hpending hscratch
  next hsome =>
    have hread' : s.headersRead < count.toNat := Nat.lt_of_not_le fun hle => hsome ⟨hphase', hle⟩
    exact of_headers hphase' hread' hcursor hscratch

/-- What is kept agrees with the phase after each byte, whether that completes a field, is refused,
or neither. -/
theorem step (h : s.Coherent) (b : UInt8) : (s.step b).state.Coherent := by
  rw [State.step]
  cases hphase : s.phase with
  | magic =>
      have he : s.expected = .word := by rw [expected, hphase]
      refine h.stepWord he (fun found => ?_) b
      have hscratch := h.scratch_withCarry_none he
      split
      · exact moveOn h.placed rfl (by rw [hphase]; decide) rfl rfl rfl rfl hscratch
      · exact of_placed h.placed hscratch
  | dataSize | serverPort =>
      have he : s.expected = .word := by rw [expected, hphase]
      refine h.stepWord he (fun _ => ?_) b
      exact moveOn h.placed rfl (by rw [hphase]; decide) rfl rfl rfl rfl
        (h.scratch_withCarry_none he)
  | prefixCode =>
      have hscratch := h.scratch
      rw [expected, hphase] at hscratch
      have hearly : Phase.headers.remaining < s.phase.remaining := by rw [hphase]; decide
      obtain ⟨hread, hcount, hpending, hcursor⟩ := (placed_iff_of_early hearly).1 h.placed
      dsimp only
      split
      · have hphase' : Phase.method = s.phase.next := by rw [hphase]; rfl
        exact moveOn h.placed hphase' (by rw [hphase]; decide) rfl rfl rfl rfl hscratch
      · have hread' : s.headersRead = s.headerCount.toNat := by rw [hread, hcount]; rfl
        exact of_done rfl hread' hpending hcursor hscratch
  | method =>
      have hscratch := h.scratch
      rw [expected, hphase] at hscratch
      dsimp only
      cases Method.ofCode? b with
      | some method =>
          exact moveOn h.placed rfl (by rw [hphase]; decide) rfl rfl rfl rfl hscratch
      | none => exact of_placed h.placed hscratch
  | protocol | requestUri | remoteAddress | remoteHost | serverName =>
      have he : s.expected = .string .plain := by rw [expected, hphase]
      refine h.stepString he (fun _ => ?_) b
      exact moveOn h.placed rfl (by rw [hphase]; decide) rfl rfl rfl rfl
        (h.scratch_withString_start he)
  | ssl =>
      have hscratch := h.scratch
      rw [expected, hphase] at hscratch
      exact moveOn h.placed rfl (by rw [hphase]; decide) rfl rfl rfl rfl hscratch
  | headerCount => exact h.stepHeaderCount hphase b
  | headers => exact h.stepHeader hphase b
  | attributes => exact h.stepAttribute hphase b
  | done => exact h

end Coherent

/-! ### All bytes -/

/-- What is kept agrees with the phase after any number of bytes. -/
theorem Coherent.scan (h : s.Coherent) (put : σ → Field → σ) (acc : σ) (bytes : List UInt8) :
    (scan put s acc bytes).state.Coherent := by
  induction bytes generalizing s acc with
  | nil => exact h
  | cons b bytes ih =>
      rw [Decoder.scan]
      split
      · exact h
      have hstep := h.step b
      cases hs : s.step b with
      | move s' field =>
          rw [hs] at hstep
          exact ih hstep _
      | refuse s' fault =>
          rw [hs] at hstep
          exact hstep

end State

/-- From a state in which what is kept agrees with the phase, a buffer is taken as its bytes are one
by one. -/
theorem parse_eq_scan {s : State} (h : s.Coherent) (conf : Conf) (sink : Sink σ) (told : σ)
    (buffer : List UInt8) :
    parse conf sink s told buffer = scan (sink.tell conf) s told buffer := by
  rw [parse, run_eq_scan h.openString, h.settle_eq]

/-- What is kept agrees with the phase whenever a piece of a stream has been dealt with. -/
theorem Reachable.coherent {s : State} (hs : Reachable s) : s.Coherent := by
  induction hs with
  | start => exact State.start_coherent
  | parse conf sink hs told buffer ih =>
      rw [parse_eq_scan ih]
      exact ih.scan _ told buffer
  | reset hs ih => exact State.start_coherent

end Ajp13.Decoder
