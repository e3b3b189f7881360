import Ajp13.Proofs.Bytewise.Effect
import Mathlib.Data.Prod.Lex

/-!
Every packet that has begun can be completed.

* `StringProgress.toCome`, `State.distance`: how far it is to the end of a string, and of a packet;
* `StringProgress.exists_step_nearer`: some byte brings a string nearer to its end;
* `State.Coherent.exists_step_nearer`: some byte brings a packet nearer to its end;
* `State.Coherent.exists_completion`: so some bytes bring it there.

The magic word is left out: where its first byte is wrong, no second one is right.
-/

namespace Ajp13.Decoder

/-! ### Strings -/

namespace StringProgress

/-- How many bytes of content may be to come. A length that has not come may be any. -/
def toCome : StringProgress → Nat
  | length none => 65537
  | length (some _) => 65536
  | content missing _ _ => missing
  | terminator _ _ => 0

lemma toCome_awaiting (missing : Nat) (held : List UInt8) (urlChars : Bool) :
    (awaiting missing held urlChars).toCome = missing := by
  rw [awaiting]
  split
  next h => exact h.symm
  next => rfl

/-- Some header has a code. -/
lemma exists_afterLength_headerCode :
    ∃ name, afterLength .headerName (Word.ofBytes Marker.headerCode 1) = .whole (.coded name) := by
  have hname : (HeaderName.ofCode? 1).isSome = true := by decide
  obtain ⟨name, hname⟩ := Option.isSome_iff_exists.1 hname
  refine ⟨name, ?_⟩
  rw [afterLength, Word.high_ofBytes, Word.low_ofBytes, if_pos ⟨rfl, rfl⟩, hname]

/-- A zero for the second byte of a length is right, unless the first is the mark of a code. -/
lemma afterLength_zero {role : StringRole} {high : UInt8}
    (hcode : ¬(role = .headerName ∧ high = Marker.headerCode)) :
    afterLength role (Word.ofBytes high 0) = .more (awaiting (high.toNat * 256) [] false) := by
  have hnull : Word.ofBytes high 0 ≠ Marker.nullLength := by
    intro hnull
    have hlow := congrArg Word.low hnull
    rw [Word.low_ofBytes] at hlow
    exact absurd hlow (by decide)
  rw [afterLength, Word.high_ofBytes, if_neg hcode, if_neg hnull, Word.toNat_ofBytes,
    UInt8.toNat_zero, Nat.add_zero]

/-- Some byte completes a string, or brings it nearer to its end. -/
lemma exists_step_nearer (role : StringRole) {p : StringProgress} (hp : p.Open) :
    ∃ b, (∃ string, p.step role b = .whole string) ∨
      ∃ q, p.step role b = .more q ∧ q.toCome < p.toCome := by
  cases p with
  | terminator held urlChars => exact ⟨0, .inl ⟨_, rfl⟩⟩
  | content missing held urlChars =>
      refine ⟨0, .inr ⟨_, rfl, ?_⟩⟩
      rw [toCome_awaiting, toCome]
      exact Nat.sub_one_lt hp
  | length high =>
      cases high with
      | none => exact ⟨0, .inr ⟨_, rfl, by decide⟩⟩
      | some high =>
          by_cases hcode : role = .headerName ∧ high = Marker.headerCode
          · obtain ⟨rfl, rfl⟩ := hcode
            obtain ⟨name, hname⟩ := exists_afterLength_headerCode
            exact ⟨1, .inl ⟨_, hname⟩⟩
          · refine ⟨0, .inr ⟨_, afterLength_zero hcode, ?_⟩⟩
            have := high.toNat_lt
            rw [toCome_awaiting, toCome]
            omega

end StringProgress

/-! ### Packets -/

/-- How many fields there are to come of the attribute in progress. -/
def AttributeCursor.fieldsToCome : AttributeCursor → Nat
  | idle => 0
  | named _ => 1
  | readingCustomName => 2

namespace State

/-- How much there may be to come of the word or the string in progress. -/
def fieldToCome (s : State) : Nat := s.scratch.carry.elim 1 (fun _ => 0) + s.scratch.string.toCome

/-- How many fields there are to come of the header or the attribute in progress. -/
def fieldsToCome (s : State) : Nat := s.pendingHeader.elim 1 (fun _ => 0) + s.cursor.fieldsToCome

/-- How far it may be to the end of the packet: what is to come of its phases, of the headers that
were announced, of the header or the attribute in progress, and of the field in progress. -/
def distance (s : State) : Nat ×ₗ Nat ×ₗ Nat ×ₗ Nat :=
  toLex (s.phase.remaining, toLex (s.headerCount.toNat - s.headersRead,
    toLex (s.fieldsToCome, s.fieldToCome)))

variable {s t : State}

lemma distance_lt_of_phase (h : t.phase.remaining < s.phase.remaining) :
    t.distance < s.distance :=
  Prod.Lex.toLex_lt_toLex.2 (.inl h)

lemma distance_lt_of_missing (hphase : t.phase = s.phase)
    (h : t.headerCount.toNat - t.headersRead < s.headerCount.toNat - s.headersRead) :
    t.distance < s.distance := by
  refine Prod.Lex.toLex_lt_toLex.2 (.inr ⟨congrArg Phase.remaining hphase, ?_⟩)
  exact Prod.Lex.toLex_lt_toLex.2 (.inl h)

lemma distance_lt_of_fields (hphase : t.phase = s.phase)
    (hcount : t.headerCount = s.headerCount) (hread : t.headersRead = s.headersRead)
    (h : t.fieldsToCome < s.fieldsToCome) : t.distance < s.distance := by
  refine Prod.Lex.toLex_lt_toLex.2 (.inr ⟨congrArg Phase.remaining hphase, ?_⟩)
  refine Prod.Lex.toLex_lt_toLex.2 (.inr ⟨by rw [hcount, hread], ?_⟩)
  exact Prod.Lex.toLex_lt_toLex.2 (.inl h)

/-- Within a field, only that comes nearer to its end. -/
lemma distance_lt_of_scratch {scratch : Scratch}
    (h : scratch.carry.elim 1 (fun _ => 0) + scratch.string.toCome < s.fieldToCome) :
    ({ s with scratch } : State).distance < s.distance := by
  refine Prod.Lex.toLex_lt_toLex.2 (.inr ⟨rfl, ?_⟩)
  refine Prod.Lex.toLex_lt_toLex.2 (.inr ⟨rfl, ?_⟩)
  exact Prod.Lex.toLex_lt_toLex.2 (.inr ⟨rfl, h⟩)

/-- A step that is taken, and leads to a state nearer to the end of the packet. -/
def LeadsNearer (s : State) (step : Step) : Prop :=
  ∃ t field, step = .move t field ∧ t.distance < s.distance

/-- Some byte of a word leads nearer to the end, if the word does when it is complete. -/
lemma exists_word_nearer {next : State → UInt16 → Step}
    (hstep : ∀ b, s.step b = s.stepWord b next)
    (hnext : ∀ w, s.LeadsNearer (next (s.withCarry none) w)) :
    ∃ b, s.LeadsNearer (s.step b) := by
  refine ⟨0, ?_⟩
  rw [hstep, stepWord]
  cases hcarry : s.scratch.carry with
  | some high => exact hnext _
  | none =>
      refine ⟨_, _, rfl, distance_lt_of_scratch ?_⟩
      rw [fieldToCome, hcarry, Option.elim_some, Option.elim_none]
      dsimp only
      omega

/-- Some byte of a string leads nearer to the end, if the string does when it is complete. -/
lemma exists_string_nearer {role : StringRole} {next : State → ReceivedString → Step}
    (hopen : OpenString s) (hstep : ∀ b, s.step b = s.stepString role b next)
    (hnext : ∀ string, s.LeadsNearer (next (s.withString .start) string)) :
    ∃ b, s.LeadsNearer (s.step b) := by
  obtain ⟨b, ⟨string, hb⟩ | ⟨q, hb, hq⟩⟩ := StringProgress.exists_step_nearer role hopen
  · refine ⟨b, ?_⟩
    rw [hstep, stepString, hb]
    exact hnext string
  · refine ⟨b, ?_⟩
    rw [hstep, stepString, hb]
    refine ⟨_, _, rfl, distance_lt_of_scratch ?_⟩
    rw [fieldToCome]
    dsimp only
    omega

/-- On to the next phase. -/
lemma leadsNearer_of_phase (hdone : s.phase ≠ .done) (field : Option Field)
    (ht : t.phase = s.phase.next) : s.LeadsNearer (.move t field) := by
  refine ⟨t, field, rfl, distance_lt_of_phase ?_⟩
  rw [ht]
  exact Phase.remaining_next_lt hdone

namespace Coherent

lemma exists_header_nearer (h : s.Coherent) (hphase : s.phase = .headers) :
    ∃ b, s.LeadsNearer (s.step b) := by
  obtain ⟨hread, -⟩ := (placed_headers_iff hphase).1 h.placed
  cases hpending : s.pendingHeader with
  | none =>
      refine exists_string_nearer h.openString
        (fun b => by rw [step_headers hphase, State.stepHeader, hpending]) fun name => ?_
      refine ⟨_, _, rfl, distance_lt_of_fields rfl rfl rfl ?_⟩
      simp [fieldsToCome, State.withString, hpending]
  | some header =>
      refine exists_string_nearer h.openString
        (fun b => by rw [step_headers hphase, State.stepHeader, hpending]) fun value => ?_
      refine ⟨_, _, rfl, ?_⟩
      rw [settle]
      split
      · refine distance_lt_of_phase (Phase.remaining_next_lt ?_)
        rw [State.withString, hphase]
        decide
      · refine distance_lt_of_missing rfl ?_
        dsimp only [State.withString]
        omega

lemma leadsNearer_stepAttributeEnd {name : String} (hcursor : s.cursor = .named name)
    (scratch : Scratch) (value : String) :
    s.LeadsNearer (({ s with scratch } : State).stepAttributeEnd name value) := by
  rw [State.stepAttributeEnd]
  cases attributeField? name value with
  | some field =>
      refine ⟨_, _, rfl, distance_lt_of_fields rfl rfl rfl ?_⟩
      simp [fieldsToCome, AttributeCursor.fieldsToCome, hcursor]
  | none =>
      refine ⟨_, _, rfl, distance_lt_of_fields rfl rfl rfl ?_⟩
      simp [fieldsToCome, AttributeCursor.fieldsToCome, hcursor]

lemma exists_attribute_nearer (h : s.Coherent) (hphase : s.phase = .attributes) :
    ∃ b, s.LeadsNearer (s.step b) := by
  cases hcursor : s.cursor with
  | idle =>
      refine ⟨Marker.attributesEnd, ?_⟩
      rw [step_attributes hphase, State.stepAttribute, hcursor]
      exact leadsNearer_of_phase (by rw [hphase]; decide) none rfl
  | readingCustomName =>
      refine exists_string_nearer h.openString
        (fun b => by rw [step_attributes hphase, State.stepAttribute, hcursor]) fun name => ?_
      refine ⟨_, _, rfl, distance_lt_of_fields rfl rfl rfl ?_⟩
      simp [fieldsToCome, AttributeCursor.fieldsToCome, State.withString, hcursor]
  | named name =>
      by_cases hname : name = AttributeName.sslKeySize
      · have hstep : ∀ b, s.step b = s.stepWord b fun s size =>
            s.stepAttributeEnd name (Decimal.write size) := by
          intro b
          rw [step_attributes hphase, State.stepAttribute, hcursor]
          exact if_pos hname
        exact exists_word_nearer hstep fun size => leadsNearer_stepAttributeEnd hcursor _ _
      · have hstep : ∀ b, s.step b = s.stepString .plain b fun s value =>
            s.stepAttributeEnd name value.text := by
          intro b
          rw [step_attributes hphase, State.stepAttribute, hcursor]
          exact if_neg hname
        exact exists_string_nearer h.openString hstep fun value =>
          leadsNearer_stepAttributeEnd hcursor _ _

/-- In each phase but the first, some byte leads nearer to the end of the packet. -/
theorem exists_step_nearer (h : s.Coherent) (hmagic : s.phase ≠ .magic) (hdone : s.phase ≠ .done) :
    ∃ b, s.LeadsNearer (s.step b) := by
  cases hphase : s.phase with
  | magic => exact absurd hphase hmagic
  | dataSize | serverPort =>
      exact exists_word_nearer (fun b => by rw [State.step, hphase])
        fun w => leadsNearer_of_phase hdone none rfl
  | prefixCode =>
      refine ⟨PrefixCode.forwardRequest.byte, ?_⟩
      have hcode : PrefixCode.ofByte PrefixCode.forwardRequest.byte = .forwardRequest := rfl
      rw [State.step, hphase]
      dsimp only
      rw [if_pos hcode, ← hphase]
      exact leadsNearer_of_phase hdone none rfl
  | method =>
      have hmethod : (Method.ofCode? 1).isSome = true := by decide
      obtain ⟨method, hmethod⟩ := Option.isSome_iff_exists.1 hmethod
      refine ⟨1, ?_⟩
      rw [State.step, hphase]
      dsimp only
      rw [hmethod]
      exact leadsNearer_of_phase hdone _ rfl
  | protocol | requestUri | remoteAddress | remoteHost | serverName =>
      exact exists_string_nearer h.openString (fun b => by rw [State.step, hphase])
        fun w => leadsNearer_of_phase hdone _ rfl
  | ssl =>
      refine ⟨0, ?_⟩
      rw [State.step, hphase]
      exact leadsNearer_of_phase hdone _ rfl
  | headerCount =>
      refine exists_word_nearer (fun b => by rw [State.step, hphase]) fun count => ?_
      refine ⟨_, _, rfl, distance_lt_of_phase ?_⟩
      exact Nat.lt_of_le_of_lt (remaining_settle_le _) (Phase.remaining_next_lt hdone)
  | headers => exact h.exists_header_nearer hphase
  | attributes => exact h.exists_attribute_nearer hphase
  | done => exact absurd hphase hdone

/-- In each phase but the first, some bytes complete the packet, whatever is made of its fields. -/
theorem exists_completion (h : s.Coherent) (hmagic : s.phase ≠ .magic) :
    ∃ bytes, ∀ {σ : Type} (put : σ → Field → σ) (acc : σ),
      (Decoder.scan put s acc bytes).outcome = .done ∧
        (Decoder.scan put s acc bytes).rest = [] := by
  induction hdistance : s.distance using WellFoundedLT.induction generalizing s with
  | ind d ih =>
      by_cases hdone : s.phase = .done
      · refine ⟨[], fun put acc => ?_⟩
        rw [scan_done hdone]
        exact ⟨rfl, rfl⟩
      obtain ⟨b, t, field, hstep, hlt⟩ := h.exists_step_nearer hmagic hdone
      have hcoherent := h.step b
      have hphase := h.phase_step_ne_magic hmagic b
      rw [hstep] at hcoherent hphase
      obtain ⟨bytes, hbytes⟩ := ih t.distance (hdistance ▸ hlt) hcoherent hphase rfl
      refine ⟨b :: bytes, fun put acc => ?_⟩
      rw [scan_cons hdone, hstep]
      exact hbytes put _

end Coherent
end State

end Ajp13.Decoder
