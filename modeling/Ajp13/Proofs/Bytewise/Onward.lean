import Ajp13.Proofs.Bytewise.Stops
import Ajp13.Proofs.Maps

/-!
What is written stays written.

* `State.Keeps`: what a later state has of an earlier one: no phase comes back, and what has been
  written is as it was;
* `State.SameElsewhere`: a state that differs from another in nothing but what the phase of that one
  writes; `Effect.sameElsewhere`: so does a state behind one more field;
* `State.Timely`: nothing is written ahead of its phase;
* `State.Coherent.step_keeps`: so one more byte keeps what is written;
* `LeadsTo`: calls of a decoder without a reset between them; `LeadsTo.keeps`: what is written, they
  keep;
* `phase_of_transition`, `attributes_phaseTurn`: from one phase to the next within a call;
* `Reachable.onward`: the whole.
-/

namespace Ajp13.Decoder

namespace State

/-- The state `t` keeps what has been written in the state `s`. -/
structure Keeps (s t : State) : Prop where
  phase : t.phase.remaining ≤ s.phase.remaining
  dataSize : ∀ size, s.dataSize = some size → t.dataSize = some size
  prefixCode : ∀ code, s.prefixCode = some code → t.prefixCode = some code
  remoteAddress : ∀ text, s.remoteAddress = some text → t.remoteAddress = some text
  serverAddress : ∀ text, s.serverAddress = some text → t.serverAddress = some text
  serverPort : ∀ port, s.serverPort = some port → t.serverPort = some port
  headerCount : s.phase.remaining < Phase.headerCount.remaining → t.headerCount = s.headerCount
  headersRead : s.headersRead ≤ t.headersRead
  attributes : ∀ name, (s.attributes.get? name).isSome = true →
    (t.attributes.get? name).isSome = true
  /-- Ahead of their phase and behind it, the attributes are as they were. -/
  attributes_eq : s.phase = .done ∨ Phase.attributes.remaining < t.phase.remaining →
    t.attributes = s.attributes

namespace Keeps

variable {s t u : State}

lemma refl (s : State) : s.Keeps s where
  phase := Nat.le_refl _
  dataSize _ h := h
  prefixCode _ h := h
  remoteAddress _ h := h
  serverAddress _ h := h
  serverPort _ h := h
  headerCount _ := rfl
  headersRead := Nat.le_refl _
  attributes _ h := h
  attributes_eq _ := rfl

lemma eq_done (h : s.Keeps t) (hs : s.phase = .done) : t.phase = .done := by
  have hle := h.phase
  rw [hs] at hle
  cases ht : t.phase with
  | done => rfl
  | _ => rw [ht] at hle; exact absurd hle (by decide)

lemma trans (h : s.Keeps t) (h' : t.Keeps u) : s.Keeps u where
  phase := Nat.le_trans h'.phase h.phase
  dataSize size hs := h'.dataSize size (h.dataSize size hs)
  prefixCode code hs := h'.prefixCode code (h.prefixCode code hs)
  remoteAddress text hs := h'.remoteAddress text (h.remoteAddress text hs)
  serverAddress text hs := h'.serverAddress text (h.serverAddress text hs)
  serverPort port hs := h'.serverPort port (h.serverPort port hs)
  headerCount hs :=
    (h'.headerCount (Nat.lt_of_le_of_lt h.phase hs)).trans (h.headerCount hs)
  headersRead := Nat.le_trans h.headersRead h'.headersRead
  attributes name hs := h'.attributes name (h.attributes name hs)
  attributes_eq hs := by
    obtain hdone | hearly := hs
    · rw [h'.attributes_eq (.inl (h.eq_done hdone)), h.attributes_eq (.inl hdone)]
    · rw [h'.attributes_eq (.inr hearly),
        h.attributes_eq (.inr (Nat.lt_of_lt_of_le hearly h'.phase))]

end Keeps

/-! ### What a phase writes -/

/-- The state `t` differs from the state `s` in nothing but what the phase of `s` writes. -/
structure SameElsewhere (s t : State) : Prop where
  dataSize : s.phase ≠ .dataSize → t.dataSize = s.dataSize
  prefixCode : s.phase ≠ .prefixCode → t.prefixCode = s.prefixCode
  remoteAddress : s.phase ≠ .remoteAddress → t.remoteAddress = s.remoteAddress
  serverAddress : s.phase ≠ .serverName → t.serverAddress = s.serverAddress
  serverPort : s.phase ≠ .serverPort → t.serverPort = s.serverPort
  headerCount : s.phase ≠ .headerCount → t.headerCount = s.headerCount
  attributes : s.phase ≠ .attributes → t.attributes = s.attributes

lemma SameElsewhere.of_cleared {s t : State} (h : t.cleared = s.cleared) : s.SameElsewhere t where
  dataSize _ := (congrArg State.dataSize h :)
  prefixCode _ := (congrArg State.prefixCode h :)
  remoteAddress _ := (congrArg State.remoteAddress h :)
  serverAddress _ := (congrArg State.serverAddress h :)
  serverPort _ := (congrArg State.serverPort h :)
  headerCount _ := (congrArg State.headerCount h :)
  attributes _ := (congrArg State.attributes h :)

/-- To go on to the next phase writes nothing. -/
lemma exists_settle_eq (s : State) : ∃ phase, s.settle = { s with phase } := by
  rw [settle]
  split
  · exact ⟨s.phase.next, rfl⟩
  · exact ⟨s.phase, rfl⟩

end State

namespace Effect

variable {s : State} {bytes : List UInt8} {step : Step}

/-- A field is written in its own phase, and nothing else is. -/
theorem sameElsewhere (h : Effect s bytes step) : s.SameElsewhere step.state := by
  cases h with
  | headerCount hphase count =>
      obtain ⟨phase, hsettle⟩ := { s with headerCount := count }.advance.exists_settle_eq
      rw [Step.state, hsettle]
      constructor <;> intro hne <;> first | rfl | exact absurd hphase hne
  | headerValue hphase header value =>
      obtain ⟨phase, hsettle⟩ := State.exists_settle_eq
        { s with pendingHeader := none, headersRead := s.headersRead + 1 }
      rw [Step.state, hsettle]
      constructor <;> intro <;> rfl
  | dataSize hphase | forwardRequest hphase | signal hphase | remoteAddress hphase
  | serverName hphase | serverPort hphase | attributeKept hphase =>
      constructor <;> intro hne <;> first | rfl | exact absurd hphase hne
  | _ => constructor <;> intro <;> rfl

/-- Ahead of the headers, a phase is over with its field, unless that is refused. -/
lemma eq_or_remaining_lt (h : Effect s bytes step)
    (hearly : Phase.headers.remaining < s.phase.remaining) :
    step.state = s ∨ step.state.phase.remaining < s.phase.remaining := by
  have hne : s.phase ≠ .done := by
    intro hdone
    rw [hdone] at hearly
    exact absurd hearly (by decide)
  cases h with
  | refuse => exact .inl rfl
  | signal hphase =>
      right
      change Phase.done.remaining < _
      rw [hphase]
      decide
  | headerCount hphase count =>
      have hle := State.remaining_settle_le { s with headerCount := count }.advance
      exact .inr (Nat.lt_of_le_of_lt hle (Phase.remaining_next_lt hne))
  | headerName hphase | headerValue hphase | attributeName hphase | attributeTold hphase
  | attributeKept hphase | attributesEnd hphase =>
      rw [hphase] at hearly
      exact absurd hearly (by decide)
  | _ => exact .inr (Phase.remaining_next_lt hne)

/-- Headers that have been read are not read again. -/
lemma headersRead_le (h : Effect s bytes step) : s.headersRead ≤ step.state.headersRead := by
  cases h with
  | headerCount hphase count =>
      obtain ⟨phase, hsettle⟩ := { s with headerCount := count }.advance.exists_settle_eq
      rw [Step.state, hsettle]
      exact Nat.le_refl _
  | headerValue hphase header value =>
      obtain ⟨phase, hsettle⟩ := State.exists_settle_eq
        { s with pendingHeader := none, headersRead := s.headersRead + 1 }
      rw [Step.state, hsettle]
      exact Nat.le_succ _
  | _ => exact Nat.le_refl _

/-- At most one attribute is kept. -/
lemma attributes_cases (h : Effect s bytes step) :
    step.state.attributes = s.attributes ∨
      ∃ name value, step.state.attributes = s.attributes.insert name value := by
  by_cases hphase : s.phase = .attributes
  · cases h with
    | attributeKept => exact .inr ⟨_, _, rfl⟩
    | headerCount hphase' | headerValue hphase' => rw [hphase'] at hphase; cases hphase
    | _ => exact .inl rfl
  · exact .inl (h.sameElsewhere.attributes hphase)

end Effect

/-! ### One byte -/

namespace State

/-- A part that is not there until the given phase is over. -/
def Due {α : Type} (p : Phase) (part : State → Option α) (s : State) : Prop :=
  part s ≠ none → s.phase.remaining < p.remaining

/-- Nothing is written ahead of its phase. -/
structure Timely (s : State) : Prop where
  dataSize : s.Due .dataSize State.dataSize
  prefixCode : s.Due .prefixCode State.prefixCode
  remoteAddress : s.Due .remoteAddress State.remoteAddress
  serverAddress : s.Due .serverName State.serverAddress
  serverPort : s.Due .serverPort State.serverPort

lemma start_timely : start.Timely := by
  constructor <;> exact fun h => absurd rfl h

/-- Behind the phases that write them, the parts may be there. -/
lemma timely_of_lt {s : State} (h : s.phase.remaining < Phase.serverPort.remaining) : s.Timely := by
  constructor <;> exact fun _ => Nat.lt_of_lt_of_le h (by decide)

namespace Due

variable {α : Type} {p : Phase} {part : State → Option α} {s t : State}

lemma phase_ne {a : α} (h : s.Due p part) (ha : part s = some a) : s.phase ≠ p := by
  intro hphase
  have hlt := h (by rw [ha]; exact Option.some_ne_none a)
  rw [hphase] at hlt
  exact Nat.lt_irrefl _ hlt

/-- What has been written stays, if nothing but its own phase writes it. -/
lemma eq_some {a : α} (h : s.Due p part) (hsame : s.phase ≠ p → part t = part s)
    (ha : part s = some a) : part t = some a :=
  (hsame (h.phase_ne ha)).trans ha

end Due

namespace Coherent

variable {s : State} (h : s.Coherent) (b : UInt8)
include h

/-- A byte writes nothing but what the phase writes. -/
theorem step_sameElsewhere : s.SameElsewhere (s.step b).state := by
  obtain ⟨t, hstep, ht⟩ | heffect := h.step_quiet_or_effect b
  · rw [hstep]
    exact .of_cleared ht
  · obtain ⟨hsize, hcode, haddress, hname, hport, hcount, hattributes⟩ := heffect.sameElsewhere
    exact ⟨hsize, hcode, haddress, hname, hport, hcount, hattributes⟩

/-- Ahead of the headers, a byte writes nothing unless the phase is over with it. -/
lemma step_eq_or_remaining_lt (hearly : Phase.headers.remaining < s.phase.remaining) :
    (s.step b).state.cleared = s.cleared ∨
      (s.step b).state.phase.remaining < s.phase.remaining := by
  obtain ⟨t, hstep, ht⟩ | heffect := h.step_quiet_or_effect b
  · rw [hstep]
    exact .inl ht
  · refine (heffect.eq_or_remaining_lt hearly).imp_left fun heq => ?_
    rw [heq]
    rfl

/-- What is not written ahead of its phase is not written with one more byte. -/
lemma step_due {α : Type} {p : Phase} {part : State → Option α}
    (hcleared : ∀ t : State, part t.cleared = part t)
    (hsame : s.phase ≠ p → part (s.step b).state = part s)
    (hp : Phase.headers.remaining < p.remaining) (hdue : s.Due p part) :
    (s.step b).state.Due p part := by
  intro hpart
  by_cases hphase : s.phase = p
  · obtain heq | hlt := h.step_eq_or_remaining_lt b (hphase ▸ hp)
    · -- the phase is not over, so the part was written ahead of it
      rw [← hcleared, heq, hcleared] at hpart
      have hlt := hdue hpart
      rw [hphase] at hlt
      exact absurd hlt (Nat.lt_irrefl _)
    · exact hphase ▸ hlt
  · rw [hsame hphase] at hpart
    exact Nat.lt_of_le_of_lt (h.remaining_step_le b) (hdue hpart)

theorem step_timely (hs : s.Timely) : (s.step b).state.Timely where
  dataSize :=
    h.step_due b (fun _ => rfl) (h.step_sameElsewhere b).dataSize (by decide) hs.dataSize
  prefixCode :=
    h.step_due b (fun _ => rfl) (h.step_sameElsewhere b).prefixCode (by decide) hs.prefixCode
  remoteAddress :=
    h.step_due b (fun _ => rfl) (h.step_sameElsewhere b).remoteAddress (by decide) hs.remoteAddress
  serverAddress :=
    h.step_due b (fun _ => rfl) (h.step_sameElsewhere b).serverAddress (by decide) hs.serverAddress
  serverPort :=
    h.step_due b (fun _ => rfl) (h.step_sameElsewhere b).serverPort (by decide) hs.serverPort

lemma headersRead_step_le : s.headersRead ≤ (s.step b).state.headersRead := by
  obtain ⟨t, hstep, ht⟩ | heffect := h.step_quiet_or_effect b
  · rw [hstep]
    exact Nat.le_of_eq (congrArg State.headersRead ht.symm :)
  · exact heffect.headersRead_le

lemma isSome_attribute_step {name : String} (hname : (s.attributes.get? name).isSome = true) :
    ((s.step b).state.attributes.get? name).isSome = true := by
  obtain ⟨t, hstep, ht⟩ | heffect := h.step_quiet_or_effect b
  · rw [hstep]
    have hattributes : t.attributes = s.attributes := (congrArg State.attributes ht :)
    exact hattributes ▸ hname
  obtain heq | ⟨name', value, heq⟩ := heffect.attributes_cases
  · rw [heq]
    exact hname
  · rw [heq]
    exact NameMap.isSome_get?_insert hname name' value

/-- One more byte keeps what is written. -/
theorem step_keeps (hs : s.Timely) : s.Keeps (s.step b).state := by
  have hsame := h.step_sameElsewhere b
  have hle := h.remaining_step_le b
  exact {
    phase := hle
    dataSize := fun _ => hs.dataSize.eq_some hsame.dataSize
    prefixCode := fun _ => hs.prefixCode.eq_some hsame.prefixCode
    remoteAddress := fun _ => hs.remoteAddress.eq_some hsame.remoteAddress
    serverAddress := fun _ => hs.serverAddress.eq_some hsame.serverAddress
    serverPort := fun _ => hs.serverPort.eq_some hsame.serverPort
    headerCount := fun hlate => hsame.headerCount fun hphase => by
      rw [hphase] at hlate
      exact Nat.lt_irrefl _ hlate
    headersRead := h.headersRead_step_le b
    attributes := fun _ => h.isSome_attribute_step b
    attributes_eq := fun hother => hsame.attributes fun hphase => by
      obtain hdone | hearly := hother
      · rw [hphase] at hdone
        cases hdone
      · rw [hphase] at hle
        omega }

end Coherent
end State

/-! ### Calls -/

/-- Calls of a decoder lead from one state to another, with no reset between them. -/
inductive LeadsTo (s : State) : State → Prop
  | refl : LeadsTo s s
  | parse {σ : Type} (conf : Conf) (sink : Sink σ) {t : State} (ht : LeadsTo s t) (told : σ)
      (buffer : List UInt8) : LeadsTo s (Decoder.parse conf sink t told buffer).state

variable {σ : Type}

/-- Any bytes keep what is written. -/
theorem State.Coherent.scan_keeps {s : State} (h : s.Coherent) (hs : s.Timely)
    (put : σ → Field → σ) (acc : σ) (bytes : List UInt8) :
    (Decoder.scan put s acc bytes).state.Timely ∧ s.Keeps (Decoder.scan put s acc bytes).state := by
  induction bytes generalizing s acc with
  | nil => exact ⟨hs, .refl s⟩
  | cons b bytes ih =>
      by_cases hdone : s.phase = .done
      · rw [scan_done hdone]
        exact ⟨hs, .refl s⟩
      have hcoherent := h.step b
      have htimely := h.step_timely b hs
      have hkeeps := h.step_keeps b hs
      rw [scan_cons hdone]
      cases hstep : s.step b with
      | refuse t fault =>
          rw [hstep] at htimely hkeeps
          exact ⟨htimely, hkeeps⟩
      | move t field =>
          rw [hstep] at hcoherent htimely hkeeps
          obtain ⟨htimely', hkeeps'⟩ := ih hcoherent htimely _
          exact ⟨htimely', hkeeps.trans hkeeps'⟩

namespace Reachable

variable {s t : State}

lemma timely (hs : Reachable s) : s.Timely := by
  induction hs with
  | start => exact State.start_timely
  | parse conf sink hs told buffer ih =>
      rw [parse_eq_scan hs.coherent]
      exact (hs.coherent.scan_keeps ih _ told buffer).1
  | reset hs ih => exact State.start_timely

lemma of_leadsTo (hs : Reachable s) (h : LeadsTo s t) : Reachable t := by
  induction h with
  | refl => exact hs
  | parse conf sink ht told buffer ih => exact .parse conf sink ih told buffer

/-- What is written, calls keep. -/
theorem keeps (hs : Reachable s) (h : LeadsTo s t) : s.Keeps t := by
  induction h with
  | refl => exact .refl s
  | parse conf sink ht told buffer ih =>
      have ht := hs.of_leadsTo ht
      rw [parse_eq_scan ht.coherent]
      exact ih.trans (ht.coherent.scan_keeps ht.timely _ told buffer).2

/-- A fault leaves the decoder in the phase whose field is at fault. -/
lemma phase_of_failed (hs : Reachable s) (conf : Conf) (sink : Sink σ) (told : σ)
    {buffer : List UInt8} {fault : Fault}
    (h : (Decoder.parse conf sink s told buffer).outcome = .failed fault) :
    (Decoder.parse conf sink s told buffer).state.phase = fault.phase := by
  rw [parse_eq_scan hs.coherent] at h ⊢
  obtain ⟨before, b, u, -, hbefore, hstep⟩ :=
    exists_last_of_failed (show scan _ s told buffer = ⟨.failed fault, _, _, _⟩ by rw [← h])
  have hcoherent : u.Coherent := by
    have := hs.coherent.scan (sink.tell conf) told before
    rwa [hbefore] at this
  obtain ⟨hstate, hphase, -⟩ := hcoherent.refuse_cases hstep
  rw [hstate]
  exact hphase

end Reachable

/-! ### Transitions -/

/-- Within a call, one phase follows upon another. None is left out, but behind the kind of a packet
that is not a forward request. -/
lemma phase_of_transition {put : σ → Field → σ} {s s' : State} {acc acc' : σ}
    {buffer rest : List UInt8} (h : phaseTurn put s acc buffer = .go s' acc' rest) :
    s.phase ≠ .done ∧
      s'.phase = if s.phase = .prefixCode ∧ s'.prefixCode ≠ some .forwardRequest then .done
        else s.phase.next := by
  obtain ⟨hdone, hnext⟩ := phase_of_phaseTurn_eq_go h
  refine ⟨hdone, ?_⟩
  by_cases hphase : s.phase = .prefixCode
  · rw [phaseTurn, hphase] at h
    obtain ⟨b, -, h⟩ := Reading.turn_eq_go h
    obtain ⟨rfl, -, -⟩ := Turn.go.inj h
    by_cases hcode : PrefixCode.ofByte b = .forwardRequest
    · rw [if_pos hcode, if_neg fun hsignal => hsignal.2 (congrArg some hcode)]
      rfl
    · rw [if_neg hcode, if_pos ⟨hphase, fun hforward => hcode (Option.some.inj hforward)⟩]
      rfl
  · rw [if_neg fun hsignal => hphase hsignal.1]
    obtain hnext | ⟨hkind, -⟩ := hnext
    · exact hnext
    · exact absurd hkind hphase

/-- The state that a turn leads to, whether the loop goes on from there or ends. -/
def Turn.state : Turn σ → State
  | go s _ _ => s
  | stop r => r.state

section Turns

variable (put : σ → Field → σ) {s : State}

/-- What reading a field keeps, and what is done with the field keeps, the turn keeps. -/
lemma Reading.state_turn {α : Type} {P : State → Prop}
    {r : Reading State (Except Fault (Option α))} {acc : σ} {next : α → State → List UInt8 → Turn σ}
    (hkept : P r.kept) (hnext : ∀ a, P (next a r.kept r.rest).state) :
    P (r.turn acc next).state := by
  rw [turn]
  split
  · exact hnext _
  · exact hkept
  · exact hkept

lemma attributes_headerTurn (s : State) (acc : σ) (buffer : List UInt8) :
    (headerTurn put s acc buffer).state.attributes = s.attributes := by
  have hname : (s.takeName buffer).kept.attributes = s.attributes := by
    rw [State.takeName]
    split <;> rfl
  rw [headerTurn]
  split
  · refine Reading.state_turn (P := fun t => t.attributes = s.attributes) hname fun header => ?_
    rw [headerValueTurn]
    split <;> exact hname
  · rfl

lemma attributes_readHeaders (s : State) (acc : σ) (buffer : List UInt8) :
    (readHeaders put s acc buffer).state.attributes = s.attributes := by
  refine loop_induct (P := fun s _ _ r => r.state.attributes = s.attributes)
    (fun {s acc buffer run} hturn => ?_) (fun {s acc buffer s' acc' rest run} hturn ih => ?_)
    s acc buffer
  · have hheader := attributes_headerTurn put s acc buffer
    rwa [hturn] at hheader
  · have hheader := attributes_headerTurn put s acc buffer
    rw [hturn] at hheader
    exact ih.trans hheader

/-- Within a call, no phase but their own touches the attributes. -/
lemma attributes_phaseTurn (hphase : s.phase ≠ .attributes) (acc : σ) (buffer : List UInt8) :
    (phaseTurn put s acc buffer).state.attributes = s.attributes := by
  rw [phaseTurn]
  cases hs : s.phase with
  | attributes => exact absurd hs hphase
  | done => rfl
  | headers =>
      dsimp only
      rw [Run.turn]
      split <;> exact attributes_readHeaders put s acc buffer
  | magic =>
      refine Reading.state_turn (P := fun t => t.attributes = s.attributes) rfl fun found => ?_
      split <;> rfl
  | prefixCode =>
      refine Reading.state_turn (P := fun t => t.attributes = s.attributes) rfl fun b => ?_
      dsimp only [Turn.state]
      split <;> rfl
  | method =>
      refine Reading.state_turn (P := fun t => t.attributes = s.attributes) rfl fun code => ?_
      split <;> rfl
  | _ => exact Reading.state_turn (P := fun t => t.attributes = s.attributes) rfl fun _ => rfl

end Turns

/-! ### The whole -/

/-- A decoder that is not reset goes forward only. Calls, whatever comes of them, keep what has been
written, and no phase comes back; a fault leaves the decoder in the phase whose field is at fault.
Within a call, each phase is followed by the next one, but for the kind of a packet that is not a
forward request, which ends the packet; and no phase but their own touches the attributes. -/
theorem Reachable.onward {s : State} (hs : Reachable s) :
    (∀ t, LeadsTo s t → s.Keeps t) ∧
    (∀ {σ : Type} (conf : Conf) (sink : Sink σ) (told : σ) (buffer : List UInt8) (fault : Fault),
      (Decoder.parse conf sink s told buffer).outcome = .failed fault →
      (Decoder.parse conf sink s told buffer).state.phase = fault.phase) ∧
    (∀ {σ : Type} (put : σ → Field → σ) (t t' : State) (acc acc' : σ) (buffer rest : List UInt8),
      phaseTurn put t acc buffer = .go t' acc' rest →
      t.phase ≠ .done ∧
        t'.phase = if t.phase = .prefixCode ∧ t'.prefixCode ≠ some .forwardRequest then .done
          else t.phase.next) ∧
    ∀ {σ : Type} (put : σ → Field → σ) (t : State) (acc : σ) (buffer : List UInt8),
      t.phase ≠ .attributes → (phaseTurn put t acc buffer).state.attributes = t.attributes := by
  refine ⟨fun t => hs.keeps, ?_, ?_, ?_⟩
  · intro σ conf sink told buffer fault
    exact hs.phase_of_failed conf sink told
  · intro σ put t t' acc acc' buffer rest
    exact phase_of_transition
  · intro σ put t acc buffer hphase
    exact attributes_phaseTurn put hphase acc buffer

/-- Behind an attribute that is kept, a tag without a meaning. -/
theorem onward_behind_attribute :
    let s := (parse {} Sink.setterRecorder .start []
      ([0x12, 0x34, 0, 0, 2, 2] ++ List.flatten (List.replicate 5 [0xFF, 0xFF]) ++
        [0, 80, 0, 0, 0, 0x0C, 0, 1, 0x61, 0])).state
    let r := parse {} Sink.setterRecorder s [] [0x0E]
    Reachable s ∧ s.attributes.get? "secret" = some "a" ∧
      r.outcome = .failed (.unknownAttribute 0x0E) ∧ s.Keeps r.state ∧
      r.state.phase = .attributes := by
  intro s r
  have hs : Reachable s := .parse _ _ .start _ _
  have hscan : s = (scan (Sink.setterRecorder.tell {}) .start [] _).state :=
    congrArg Run.state (parse_eq_scan State.start_coherent _ _ _ _)
  have hattribute : s.attributes.get? "secret" = some "a" := by
    rw [hscan]
    decide +kernel
  have hfailed : r.outcome = .failed (.unknownAttribute 0x0E) := by
    change (parse _ _ s _ _).outcome = _
    rw [parse_eq_scan hs.coherent, hscan]
    decide +kernel
  obtain ⟨hkeeps, hphase, -⟩ := hs.onward
  exact ⟨hs, hattribute, hfailed, hkeeps _ (.parse _ _ .refl _ _), hphase _ _ _ _ _ hfailed⟩

end Ajp13.Decoder
