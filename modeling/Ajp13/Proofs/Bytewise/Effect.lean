import Ajp13.Proofs.Reachable

/-!
What one byte can do to a decoder, said once.

* `State.begun`, `State.cleared`: the bytes of the field in progress, and the state without them;
* `Inside`: the byte is within a field, and joins those of the field that have come;
* `Effect`: the byte completes a field, with the effect of such a field on a decoder that holds
  nothing of it; a field without a meaning has none;
* `State.Coherent.step_cases`: there is no third, but for the bytes behind a packet;
  `State.Coherent.step_quiet_or_effect` does not look at the field in progress;
* `State.Coherent.remaining_step_le`: so phases only move forward;
* `State.Coherent.refuse_cases`: what is refused, and what that leaves.
-/

namespace Ajp13.Decoder

/-! ### Faults -/

namespace Fault

/-- The phase whose field holds the value without a meaning. -/
def phase : Fault → Phase
  | badMagic _ => .magic
  | unknownMethod _ => .method
  | unknownAttribute _ => .attributes
  | unknownHeaderCode _ => .headers

/-- The bytes of the field that holds the value without a meaning. -/
def bytes : Fault → List UInt8
  | badMagic found => Word.bytes found
  | unknownMethod code => [code]
  | unknownAttribute code => [code]
  | unknownHeaderCode code => [Marker.headerCode, code]

end Fault

/-! ### Fields in progress -/

/-- The bytes of a string that have come. -/
def StringProgress.begun : StringProgress → List UInt8
  | length high => high.toList
  | content missing held _ => Word.bytes (UInt16.ofNat (missing + held.length)) ++ held.reverse
  | terminator held _ => Word.bytes (UInt16.ofNat held.length) ++ held.reverse

namespace State

/-- The bytes of the field in progress that have come. -/
def begun (s : State) : List UInt8 := s.scratch.carry.toList ++ s.scratch.string.begun

/-- The state without what is kept of the field in progress. -/
def cleared (s : State) : State := { s with scratch := {} }

lemma begun_of_scratch {s : State} (hs : s.scratch = {}) : s.begun = [] := by
  rw [begun, hs]
  rfl

lemma cleared_of_scratch {s : State} (hs : s.scratch = {}) : s.cleared = s := by
  rw [cleared, ← hs]

namespace Coherent

variable {s : State}

lemma withCarry_none_eq (h : s.Coherent) (he : s.expected = .word) :
    s.withCarry none = s.cleared := by
  rw [cleared, ← h.scratch_withCarry_none he]
  rfl

lemma withString_start_eq {role : StringRole} (h : s.Coherent) (he : s.expected = .string role) :
    s.withString .start = s.cleared := by
  rw [cleared, ← h.scratch_withString_start he]
  rfl

end Coherent
end State

/-! ### What a byte can do -/

/-- A byte within a field: it is neither the last of the field, nor is a sink told anything. -/
inductive Inside (s : State) (b : UInt8) : Step → Prop
  | word (he : s.expected = .word) (hcarry : s.scratch.carry = none) :
      Inside s b (.move (s.withCarry (some b)) none)
  | string {role : StringRole} {p : StringProgress} (he : s.expected = .string role)
      (hp : s.scratch.string.step role b = .more p) : Inside s b (.move (s.withString p) none)

/-- The effect of a field with the given bytes on a decoder that holds nothing of it. -/
inductive Effect (s : State) (bytes : List UInt8) : Step → Prop
  | refuse (fault : Fault) (hphase : s.phase = fault.phase) (hbytes : bytes = fault.bytes) :
      Effect s bytes (.refuse s fault)
  | magic (hphase : s.phase = .magic) : Effect s bytes (.move s.advance none)
  | dataSize (hphase : s.phase = .dataSize) (size : UInt16) :
      Effect s bytes (.move { s with dataSize := some size }.advance none)
  | forwardRequest (hphase : s.phase = .prefixCode) :
      Effect s bytes (.move { s with prefixCode := some .forwardRequest }.advance none)
  | signal (hphase : s.phase = .prefixCode) (code : PrefixCode) (hcode : code ≠ .forwardRequest) :
      Effect s bytes (.move { s with prefixCode := some code }.finish none)
  | method (hphase : s.phase = .method) (method : Method) :
      Effect s bytes (.move s.advance (some (.method method)))
  | protocol (hphase : s.phase = .protocol) (text : String) :
      Effect s bytes (.move s.advance (some (.protocol text)))
  | requestUri (hphase : s.phase = .requestUri) (text : String) (urlChars : Bool) :
      Effect s bytes (.move s.advance (some (.requestUri text urlChars)))
  | remoteAddress (hphase : s.phase = .remoteAddress) (text : String) :
      Effect s bytes (.move { s with remoteAddress := some text }.advance none)
  | remoteHost (hphase : s.phase = .remoteHost) : Effect s bytes (.move s.advance none)
  | serverName (hphase : s.phase = .serverName) (text : String) :
      Effect s bytes (.move { s with serverAddress := some text }.advance none)
  | serverPort (hphase : s.phase = .serverPort) (port : UInt16) :
      Effect s bytes (.move { s with serverPort := some port }.advance none)
  | ssl (hphase : s.phase = .ssl) (scheme : Scheme) :
      Effect s bytes (.move s.advance (some (.scheme scheme)))
  | headerCount (hphase : s.phase = .headerCount) (count : UInt16) :
      Effect s bytes (.move { s with headerCount := count }.advance.settle none)
  | headerName (hphase : s.phase = .headers) (header : PendingHeader) :
      Effect s bytes (.move { s with pendingHeader := some header } none)
  | headerValue (hphase : s.phase = .headers) (header : PendingHeader) (value : ReceivedString) :
      Effect s bytes
        (.move { s with pendingHeader := none, headersRead := s.headersRead + 1 }.settle
          (headerField? header value))
  | attributesEnd (hphase : s.phase = .attributes) : Effect s bytes (.move s.advance none)
  | attributeName (hphase : s.phase = .attributes) (cursor : AttributeCursor) :
      Effect s bytes (.move { s with cursor } none)
  | attributeTold (hphase : s.phase = .attributes) {name value : String} {field : Field}
      (hfield : attributeField? name value = some field) :
      Effect s bytes (.move { s with cursor := .idle } (some field))
  | attributeKept (hphase : s.phase = .attributes) {name value : String}
      (hfield : attributeField? name value = none) :
      Effect s bytes
        (.move { s with cursor := .idle, attributes := s.attributes.insert name value } none)

/-- The end of an attribute, whether a sink is told of that or not. -/
lemma effect_stepAttributeEnd {s : State} (hphase : s.phase = .attributes) (bytes : List UInt8)
    (name value : String) : Effect s bytes (s.stepAttributeEnd name value) := by
  rw [State.stepAttributeEnd]
  cases hfield : attributeField? name value with
  | some field => exact .attributeTold hphase hfield
  | none => exact .attributeKept hphase hfield

/-- A byte is within a field, or completes one. -/
def Taken (s : State) (b : UInt8) (step : Step) : Prop :=
  Inside s b step ∨ Effect s.cleared (s.begun ++ [b]) step

namespace State.Coherent

variable {s : State} (h : s.Coherent) (b : UInt8)
include h

lemma taken_of_byte (he : s.expected = .byte) {step : Step} (hstep : Effect s [b] step) :
    Taken s b step := by
  have hscratch := h.scratch
  rw [he] at hscratch
  right
  rwa [cleared_of_scratch hscratch, begun_of_scratch hscratch, List.nil_append]

lemma taken_stepWord (he : s.expected = .word) {next : State → UInt16 → Step}
    (hnext : ∀ high, Effect s.cleared [high, b] (next s.cleared (Word.ofBytes high b))) :
    Taken s b (s.stepWord b next) := by
  have hstring := h.scratch
  rw [he] at hstring
  rw [State.stepWord]
  cases hcarry : s.scratch.carry with
  | none => exact .inl (.word he hcarry)
  | some high =>
      have hbegun : s.begun = [high] := by
        rw [begun, hcarry, show s.scratch.string = .start from hstring]
        rfl
      right
      rw [h.withCarry_none_eq he, hbegun]
      exact hnext high

/-- A string is complete, or it is the code of no header. -/
lemma taken_stepString {role : StringRole} (he : s.expected = .string role)
    (hphase : role = .headerName → s.phase = .headers) {next : State → ReceivedString → Step}
    (hnext : ∀ string bytes, Effect s.cleared bytes (next s.cleared string)) :
    Taken s b (s.stepString role b next) := by
  have hcarry := h.scratch
  rw [he] at hcarry
  rw [State.stepString, h.withString_start_eq he]
  cases hstep : s.scratch.string.step role b with
  | more p => exact .inl (.string he hstep)
  | whole string => exact .inr (hnext string _)
  | unknownCode code =>
      -- only the second byte of a length can be the code of no header
      obtain ⟨high, hstring⟩ : ∃ high, s.scratch.string = .length (some high) := by
        cases hstring : s.scratch.string with
        | content missing held urlChars => rw [hstring] at hstep; cases hstep
        | terminator held urlChars => rw [hstring] at hstep; cases hstep
        | length high =>
            cases high with
            | none => rw [hstring] at hstep; cases hstep
            | some high => exact ⟨high, rfl⟩
      rw [hstring, StringProgress.step, StringProgress.afterLength, Word.high_ofBytes,
        Word.low_ofBytes] at hstep
      split at hstep
      next hcode =>
        have hbegun : s.begun = [Marker.headerCode] := by
          rw [begun, hcarry.1, hstring, ← hcode.2]
          rfl
        split at hstep
        · cases hstep
        · cases hstep
          right
          rw [hbegun]
          exact .refuse _ (hphase hcode.1) rfl
      next => split at hstep <;> cases hstep

lemma taken_stepPlain (he : s.expected = .string .plain) {next : State → ReceivedString → Step}
    (hnext : ∀ string bytes, Effect s.cleared bytes (next s.cleared string)) :
    Taken s b (s.stepString .plain b next) :=
  h.taken_stepString b he (by simp) hnext

lemma taken_stepHeader (hphase : s.phase = .headers) : Taken s b (s.stepHeader b) := by
  have hcleared : s.cleared.phase = .headers := hphase
  rw [State.stepHeader]
  cases hpending : s.pendingHeader with
  | none =>
      have he : s.expected = .string .headerName := by
        rw [expected, hphase, hpending]
        rfl
      exact h.taken_stepString b he (fun _ => hphase) fun name _ =>
        .headerName hcleared (pending name)
  | some header =>
      have he : s.expected = .string .plain := by
        rw [expected, hphase, hpending]
        rfl
      exact h.taken_stepPlain b he fun value _ => .headerValue hcleared header value

lemma taken_stepAttribute (hphase : s.phase = .attributes) : Taken s b (s.stepAttribute b) := by
  have hcleared : s.cleared.phase = .attributes := hphase
  rw [State.stepAttribute]
  cases hcursor : s.cursor with
  | idle =>
      refine h.taken_of_byte b (by simp only [expected, hphase, hcursor]) ?_
      dsimp only
      rw [State.stepTag]
      split
      · exact .attributesEnd hphase
      split
      · exact .attributeName hphase _
      split
      · exact .attributeName hphase _
      · exact .refuse _ hphase rfl
  | readingCustomName =>
      have he : s.expected = .string .plain := by simp only [expected, hphase, hcursor]
      exact h.taken_stepPlain b he fun name _ => .attributeName hcleared (.named name.text)
  | named name =>
      dsimp only
      split
      next hname =>
        have he : s.expected = .word := by simp only [expected, hphase, hcursor, if_pos hname]
        exact h.taken_stepWord b he fun _ => effect_stepAttributeEnd hcleared _ _ _
      next hname =>
        have he : s.expected = .string .plain := by
          simp only [expected, hphase, hcursor, if_neg hname]
        exact h.taken_stepPlain b he fun _ _ => effect_stepAttributeEnd hcleared _ _ _

/-- A byte of a packet is within a field, or completes one. -/
theorem step_cases (hdone : s.phase ≠ .done) : Taken s b (s.step b) := by
  have hcleared : s.cleared.phase = s.phase := rfl
  rw [State.step]
  cases hphase : s.phase with
  | magic =>
      refine h.taken_stepWord b (by rw [expected, hphase]) fun high => ?_
      split
      · exact .magic (hcleared.trans hphase)
      · exact .refuse _ (hcleared.trans hphase) (Word.bytes_ofBytes high b).symm
  | dataSize =>
      exact h.taken_stepWord b (by rw [expected, hphase])
        fun _ => .dataSize (hcleared.trans hphase) _
  | prefixCode =>
      refine h.taken_of_byte b (by rw [expected, hphase]) ?_
      dsimp only
      split
      next hcode =>
        rw [hcode, ← hphase]
        exact .forwardRequest hphase
      next hcode => exact .signal hphase _ hcode
  | method =>
      refine h.taken_of_byte b (by rw [expected, hphase]) ?_
      dsimp only
      split
      · exact .method hphase _
      · exact .refuse _ hphase rfl
  | protocol =>
      exact h.taken_stepPlain b (by rw [expected, hphase])
        fun _ _ => .protocol (hcleared.trans hphase) _
  | requestUri =>
      exact h.taken_stepPlain b (by rw [expected, hphase])
        fun _ _ => .requestUri (hcleared.trans hphase) _ _
  | remoteAddress =>
      exact h.taken_stepPlain b (by rw [expected, hphase])
        fun _ _ => .remoteAddress (hcleared.trans hphase) _
  | remoteHost =>
      exact h.taken_stepPlain b (by rw [expected, hphase])
        fun _ _ => .remoteHost (hcleared.trans hphase)
  | serverName =>
      exact h.taken_stepPlain b (by rw [expected, hphase])
        fun _ _ => .serverName (hcleared.trans hphase) _
  | serverPort =>
      exact h.taken_stepWord b (by rw [expected, hphase])
        fun _ => .serverPort (hcleared.trans hphase) _
  | ssl => exact h.taken_of_byte b (by rw [expected, hphase]) (.ssl hphase _)
  | headerCount =>
      exact h.taken_stepWord b (by rw [expected, hphase])
        fun _ => .headerCount (hcleared.trans hphase) _
  | headers => exact h.taken_stepHeader b hphase
  | attributes => exact h.taken_stepAttribute b hphase
  | done => exact absurd hphase hdone

end State.Coherent

/-! ### Phases -/

lemma Phase.remaining_next_le (p : Phase) : p.next.remaining ≤ p.remaining := by
  cases p <;> decide

lemma Phase.eq_magic_of_le {p : Phase} (h : magic.remaining ≤ p.remaining) : p = magic := by
  cases p <;> first | rfl | exact absurd h (by decide)

lemma State.remaining_settle_le (s : State) :
    s.settle.phase.remaining ≤ s.phase.remaining := by
  rw [settle]
  split
  · exact s.phase.remaining_next_le
  · exact Nat.le_refl _

/-- No field leads back to a phase that is over. -/
lemma Effect.remaining_le {s : State} {bytes : List UInt8} {step : Step} (h : Effect s bytes step) :
    step.state.phase.remaining ≤ s.phase.remaining := by
  cases h with
  | refuse | headerName | attributeName | attributeTold | attributeKept => exact Nat.le_refl _
  | signal => exact Nat.zero_le _
  | headerCount =>
      exact Nat.le_trans (State.remaining_settle_le _) s.phase.remaining_next_le
  | headerValue => exact State.remaining_settle_le _
  | _ => exact s.phase.remaining_next_le

namespace State.Coherent

variable {s : State} (h : s.Coherent)
include h

/-- A byte completes a field, or leaves all as it was but what is kept of the field in progress. -/
theorem step_quiet_or_effect (b : UInt8) :
    (∃ t, s.step b = .move t none ∧ t.cleared = s.cleared) ∨
      Effect s.cleared (s.begun ++ [b]) (s.step b) := by
  by_cases hdone : s.phase = .done
  · exact .inl ⟨s, by rw [State.step, hdone], rfl⟩
  refine (h.step_cases b hdone).imp_left fun hinside => ?_
  generalize s.step b = step at hinside
  cases hinside <;> exact ⟨_, rfl, rfl⟩

/-- Phases only move forward. -/
theorem remaining_step_le (b : UInt8) :
    (s.step b).state.phase.remaining ≤ s.phase.remaining := by
  obtain ⟨t, hstep, ht⟩ | heffect := h.step_quiet_or_effect b
  · rw [hstep]
    exact Nat.le_of_eq (congrArg (fun s => s.phase.remaining) ht)
  · exact heffect.remaining_le

lemma phase_step_ne_magic (hmagic : s.phase ≠ .magic) (b : UInt8) :
    (s.step b).state.phase ≠ .magic := by
  intro hstep
  have hle := h.remaining_step_le b
  rw [hstep] at hle
  exact hmagic (Phase.eq_magic_of_le hle)

end State.Coherent

/-! ### What is kept of a field -/

lemma State.scratch_settle (s : State) : s.settle.scratch = s.scratch := by
  rw [settle]
  split <;> rfl

lemma Effect.scratch_eq {s : State} {bytes : List UInt8} {step : Step} (h : Effect s bytes step) :
    step.state.scratch = s.scratch := by
  cases h with
  | headerCount | headerValue => exact State.scratch_settle _
  | _ => rfl

namespace StringProgress

lemma begun_awaiting (missing : Nat) (held : List UInt8) (urlChars : Bool) :
    (awaiting missing held urlChars).begun =
      Word.bytes (UInt16.ofNat (missing + held.length)) ++ held.reverse := by
  rw [awaiting]
  split
  next h =>
    rw [h, Nat.zero_add]
    rfl
  next => rfl

/-- A byte within a string joins those that have come. -/
lemma begun_of_step {role : StringRole} {p q : StringProgress} {b : UInt8} (hp : p.Open)
    (h : p.step role b = .more q) : q.begun = p.begun ++ [b] := by
  cases p with
  | terminator held urlChars => cases h
  | content missing held urlChars =>
      have hlength : missing - 1 + (b :: held).length = missing + held.length := by
        have : missing ≠ 0 := hp
        rw [List.length_cons]
        omega
      rw [← StringStep.more.inj h, begun_awaiting, hlength, List.reverse_cons, ← List.append_assoc]
      rfl
  | length high =>
      cases high with
      | none =>
          rw [← StringStep.more.inj h]
          rfl
      | some high =>
          rw [step, afterLength] at h
          split at h
          · split at h <;> cases h
          split at h
          · cases h
          · rw [← StringStep.more.inj h, begun_awaiting, List.length_nil, Nat.add_zero,
              UInt16.ofNat_toNat, Word.bytes_ofBytes]
            rfl

end StringProgress

namespace State.Coherent

variable {s t : State} (h : s.Coherent) {b : UInt8}
include h

/-- What is refused is the field that the byte completes. The decoder forgets it, and is where it
was. -/
theorem refuse_cases {fault : Fault} (hstep : s.step b = .refuse t fault) :
    t = s.cleared ∧ s.phase = fault.phase ∧ s.begun ++ [b] = fault.bytes := by
  have hdone : s.phase ≠ .done := by
    intro hdone
    rw [State.step, hdone] at hstep
    cases hstep
  obtain hinside | heffect := h.step_cases b hdone
  · rw [hstep] at hinside
    cases hinside
  · rw [hstep] at heffect
    cases heffect with
    | refuse _ hphase hbytes => exact ⟨rfl, hphase, hbytes⟩

/-- A byte that is not refused joins those of the field in progress, or completes that. -/
theorem move_cases {field : Option Field} (hdone : s.phase ≠ .done)
    (hstep : s.step b = .move t field) :
    (t.begun = s.begun ++ [b] ∧ t.cleared = s.cleared ∧ field = none) ∨ t.scratch = {} := by
  have hscratch := h.scratch
  obtain hinside | heffect := h.step_cases b hdone
  · rw [hstep] at hinside
    cases hinside with
    | word he hcarry =>
        rw [he] at hscratch
        refine .inl ⟨?_, rfl, rfl⟩
        rw [begun, begun, State.withCarry, hcarry, show s.scratch.string = .start from hscratch]
        rfl
    | string he hp =>
        refine .inl ⟨?_, rfl, rfl⟩
        rw [begun, begun, List.append_assoc, ← StringProgress.begun_of_step h.openString hp]
        rfl
  · rw [hstep] at heffect
    exact .inr heffect.scratch_eq

end State.Coherent

end Ajp13.Decoder
