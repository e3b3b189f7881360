import Ajp13.Proofs.Bytewise.Effect

/-!
The order in which fields are complete.

* `Field.phase`: the part of a request that a field belongs to;
* `Orderly`: the fields of a packet so far, by the parts that they belong to;
* `Effect.orderly`: a field that is complete is the next one in that order;
* `collect`, `collect_orderly`: so any bytes keep to it;
* `State.Coherent.remaining_le_of_mem_collect`: and no bytes complete a field of a part that is over.
-/

namespace Ajp13.Decoder

/-! ### Parts and fields -/

/-- The part of a request that a field belongs to. -/
def Field.phase : Field → Phase
  | method _ => .method
  | protocol _ => .protocol
  | requestUri _ _ => .requestUri
  | scheme _ => .ssl
  | header _ _ => .headers
  | queryString _ => .attributes
  | attachment _ _ => .attributes

/-- The parts of every request that a sink is told of, each in one field. -/
def requestPhases : List Phase := [.method, .protocol, .requestUri, .ssl]

/-- Those that come before a given part. -/
def Phase.told (p : Phase) : List Phase :=
  requestPhases.takeWhile fun q => p.remaining < q.remaining

lemma phase_of_headerField? {header : PendingHeader} {value : ReceivedString} {field : Field}
    (h : headerField? header value = some field) : field.phase = .headers := by
  cases header with
  | rejected => cases h
  | named name =>
      obtain ⟨value', -, rfl⟩ := Option.map_eq_some_iff.1 h
      rfl

lemma phase_of_attributeField? {name value : String} {field : Field}
    (h : attributeField? name value = some field) : field.phase = .attributes := by
  rw [attributeField?] at h
  split at h
  · cases h
    rfl
  split at h
  · cases h
    rfl
  split at h
  · cases h
    rfl
  · cases h

/-- The field that a byte completes. -/
def Step.field? : Step → Option Field
  | .move _ field => field
  | .refuse _ _ => none

/-- A field is complete in the phase for the part that it belongs to. -/
lemma Effect.phase_of_field? {s : State} {bytes : List UInt8} {step : Step} (h : Effect s bytes step)
    {field : Field} (hfield : step.field? = some field) : field.phase = s.phase := by
  cases h with
  | method hphase | protocol hphase | requestUri hphase | ssl hphase =>
      cases hfield
      exact hphase.symm
  | headerValue hphase => exact (phase_of_headerField? hfield).trans hphase.symm
  | attributeTold hphase htold =>
      cases hfield
      exact (phase_of_attributeField? htold).trans hphase.symm
  | _ => cases hfield

/-! ### Fields in order -/

/-- The fields of a packet up to a state. Only forward requests have any. -/
inductive Orderly (s : State) : List Field → Prop
  /-- The kind of the packet has not come. -/
  | preamble (hphase : Phase.prefixCode.remaining ≤ s.phase.remaining) : Orderly s []
  /-- The packet has ended after its kind. -/
  | signal (hphase : s.phase = .done) (hcode : s.prefixCode ≠ some .forwardRequest) : Orderly s []
  /-- Some fields of each request have come, and then some headers and attributes. -/
  | request {fields : List Field} (hphase : s.phase.remaining < Phase.prefixCode.remaining)
      (hcode : s.prefixCode = some .forwardRequest) (headers attributes : Nat)
      (horder : fields.map Field.phase =
        s.phase.told ++ List.replicate headers .headers ++ List.replicate attributes .attributes)
      (hheaders : headers ≤ s.headersRead)
      (hattributes : attributes = 0 ∨ s.phase.remaining ≤ Phase.attributes.remaining) :
      Orderly s fields

namespace Orderly

variable {s t : State} {fields : List Field}

lemma congr (h : Orderly s fields) (hphase : t.phase = s.phase)
    (hcode : t.prefixCode = s.prefixCode) (hread : t.headersRead = s.headersRead) :
    Orderly t fields := by
  cases h with
  | preamble hphase' => exact .preamble (hphase ▸ hphase')
  | signal hphase' hcode' => exact .signal (hphase ▸ hphase') (hcode ▸ hcode')
  | request hphase' hcode' headers attributes horder hheaders hattributes =>
      exact .request (hphase ▸ hphase') (hcode ▸ hcode') headers attributes (hphase ▸ horder)
        (hread ▸ hheaders) (hphase ▸ hattributes)

lemma eq_nil (h : Orderly s fields) (hphase : Phase.prefixCode.remaining ≤ s.phase.remaining) :
    fields = [] := by
  cases h with
  | preamble | signal => rfl
  | request hphase' => exact absurd hphase (Nat.not_le_of_lt hphase')

/-- Only forward requests have any fields. -/
lemma eq_nil_of_code (h : Orderly s fields) (hcode : s.prefixCode ≠ some .forwardRequest) :
    fields = [] := by
  cases h with
  | preamble | signal => rfl
  | request hphase hcode' => exact absurd hcode' hcode

/-- Ahead of the headers, each part that is over has been told of. -/
lemma map_phase_of_early (h : Orderly s fields) (hs : s.Placed)
    (hearly : Phase.headers.remaining < s.phase.remaining) :
    fields.map Field.phase = s.phase.told := by
  cases h with
  | preamble hphase =>
      cases hphase' : s.phase with
      | magic | dataSize | prefixCode => rfl
      | _ => rw [hphase'] at hphase; exact absurd hphase (by decide)
  | signal hphase =>
      rw [hphase] at hearly
      exact absurd hearly (by decide)
  | request hphase hcode headers attributes horder hheaders hattributes =>
      obtain ⟨hread, -⟩ := (State.placed_iff_of_early hearly).1 hs
      obtain rfl : headers = 0 := by omega
      obtain rfl : attributes = 0 := by
        refine hattributes.resolve_right fun hlate => ?_
        have : Phase.attributes.remaining < Phase.headers.remaining := by decide
        omega
      rw [horder]
      simp

/-- So there is no field of a part that is not over. -/
lemma lt_of_mem (h : Orderly s fields) (hs : s.Placed)
    (hearly : Phase.headers.remaining < s.phase.remaining) {field : Field}
    (hfield : field ∈ fields) : s.phase.remaining < field.phase.remaining := by
  have hphase := List.mem_map_of_mem (f := Field.phase) hfield
  rw [h.map_phase_of_early hs hearly] at hphase
  have htold : s.phase.told.all (fun q => s.phase.remaining < q.remaining) = true :=
    List.all_takeWhile
  exact of_decide_eq_true (List.all_eq_true.1 htold _ hphase)

/-- Ahead of the headers, each part is told of in its turn. -/
lemma of_early (h : Orderly s fields) (hs : s.Placed)
    (hearly : Phase.headers.remaining < s.phase.remaining)
    (hbody : s.phase.remaining < Phase.prefixCode.remaining) (hcode : t.prefixCode = s.prefixCode)
    (ht : t.phase.remaining < Phase.prefixCode.remaining) {field : Option Field}
    (htold : t.phase.told = s.phase.told ++ field.toList.map Field.phase) :
    Orderly t (fields ++ field.toList) := by
  have hfields := h.map_phase_of_early hs hearly
  cases h with
  | preamble hphase => exact absurd hbody (Nat.not_lt_of_le hphase)
  | signal hphase =>
      rw [hphase] at hearly
      exact absurd hearly (by decide)
  | request hphase hcode' =>
      refine .request ht (hcode.trans hcode') 0 0 ?_ (Nat.zero_le _) (.inl rfl)
      rw [List.map_append, hfields, htold]
      simp

/-- From one part to the next, ahead of the headers. -/
lemma advance (h : Orderly s fields) (hs : s.Placed) {p : Phase} (hphase : s.phase = p)
    (hp : Phase.headers.remaining < p.next.remaining ∧ p.remaining < Phase.prefixCode.remaining)
    (ht : t.phase = s.phase.next) (hcode : t.prefixCode = s.prefixCode) {field : Option Field}
    (htold : p.next.told = p.told ++ field.toList.map Field.phase) :
    Orderly t (fields ++ field.toList) := by
  subst hphase
  have hlt := Phase.remaining_next_le s.phase
  refine h.of_early hs (by omega) hp.2 hcode ?_ (ht ▸ htold)
  rw [ht]
  omega

/-- Among the headers, one more of them. -/
lemma withHeader (h : Orderly s fields) (hphase : s.phase = .headers)
    (ht : t.phase = .headers ∨ t.phase = .attributes) (hcode : t.prefixCode = s.prefixCode)
    (hread : t.headersRead = s.headersRead + 1) {field : Option Field}
    (hfield : ∀ f, field = some f → f.phase = .headers) : Orderly t (fields ++ field.toList) := by
  cases h with
  | preamble hphase' => rw [hphase] at hphase'; exact absurd hphase' (by decide)
  | signal hphase' => rw [hphase] at hphase'; cases hphase'
  | request hphase' hcode' headers attributes horder hheaders hattributes =>
      have hattributes' : attributes = 0 := by
        rw [hphase] at hattributes
        exact hattributes.resolve_right (by decide)
      have htold : t.phase.told = s.phase.told := by
        rw [hphase]
        obtain ht | ht := ht
        · rw [ht]
        · rw [ht]
          rfl
      have ht' : t.phase.remaining < Phase.prefixCode.remaining := by
        obtain ht | ht := ht <;> rw [ht] <;> decide
      subst hattributes'
      cases field with
      | none =>
          rw [Option.toList_none, List.append_nil]
          exact .request ht' (hcode.trans hcode') headers 0 (htold ▸ horder) (by omega) (.inl rfl)
      | some f =>
          refine .request ht' (hcode.trans hcode') (headers + 1) 0 ?_ (by omega) (.inl rfl)
          rw [List.map_append, horder, htold, List.replicate_succ']
          simp [hfield f rfl]

/-- Among the attributes, one more of them. -/
lemma withAttribute (h : Orderly s fields) (hphase : s.phase = .attributes)
    (ht : t.phase = .attributes) (hcode : t.prefixCode = s.prefixCode)
    (hread : t.headersRead = s.headersRead) {f : Field} (hf : f.phase = .attributes) :
    Orderly t (fields ++ [f]) := by
  cases h with
  | preamble hphase' => rw [hphase] at hphase'; exact absurd hphase' (by decide)
  | signal hphase' => rw [hphase] at hphase'; cases hphase'
  | request hphase' hcode' headers attributes horder hheaders hattributes =>
      refine .request (by rw [ht]; decide) (hcode.trans hcode') headers (attributes + 1) ?_
        (hread ▸ hheaders) (.inr (Nat.le_of_eq (congrArg Phase.remaining ht)))
      rw [List.map_append, horder, hphase, ht, List.replicate_succ']
      simp [hf]

/-- The attributes are the last of a request. -/
lemma finish (h : Orderly s fields) (hphase : s.phase = .attributes) (ht : t.phase = .done)
    (hcode : t.prefixCode = s.prefixCode) (hread : t.headersRead = s.headersRead) :
    Orderly t fields := by
  cases h with
  | preamble hphase' => rw [hphase] at hphase'; exact absurd hphase' (by decide)
  | signal hphase' => rw [hphase] at hphase'; cases hphase'
  | request hphase' hcode' headers attributes horder hheaders hattributes =>
      refine .request (by rw [ht]; decide) (hcode.trans hcode') headers attributes ?_
        (hread ▸ hheaders) (.inr (by rw [ht]; decide))
      rw [horder, hphase, ht]
      rfl

end Orderly

/-- Behind the number of headers, and behind a header, there may be no more of them. -/
lemma State.settle_cases {s : State} (hphase : s.phase = .headers) :
    (s.settle.phase = .headers ∨ s.settle.phase = .attributes) ∧
      s.settle.prefixCode = s.prefixCode ∧ s.settle.headersRead = s.headersRead := by
  rw [settle]
  split
  · exact ⟨.inr (by rw [advance, hphase]; rfl), rfl, rfl⟩
  · exact ⟨.inl hphase, rfl, rfl⟩

/-- A field that is complete is the next one. -/
theorem Effect.orderly {s : State} {bytes : List UInt8} {step : Step} {fields : List Field}
    (h : Effect s bytes step) (hs : s.Placed) (ho : Orderly s fields) :
    Orderly step.state (fields ++ step.field?.toList) := by
  have hnone : fields ++ (none : Option Field).toList = fields := List.append_nil fields
  cases h with
  | refuse | headerName | attributeName | attributeKept =>
      exact hnone.symm ▸ ho.congr rfl rfl rfl
  | magic hphase | dataSize hphase =>
      obtain rfl := ho.eq_nil (by rw [hphase]; decide)
      refine .preamble ?_
      change _ ≤ s.phase.next.remaining
      rw [hphase]
      decide
  | forwardRequest hphase =>
      obtain rfl := ho.eq_nil (Nat.le_of_eq (congrArg Phase.remaining hphase).symm)
      have hnext : s.phase.next = .method := by rw [hphase]; rfl
      refine .request ?_ rfl 0 0 ?_ (Nat.zero_le _) (.inl rfl)
      · change s.phase.next.remaining < _
        rw [hnext]
        decide
      · change _ = s.phase.next.told ++ _ ++ _
        rw [hnext]
        rfl
  | signal hphase code hcode =>
      obtain rfl := ho.eq_nil (Nat.le_of_eq (congrArg Phase.remaining hphase).symm)
      exact .signal rfl fun h => hcode (Option.some.inj h)
  | method hphase | protocol hphase | requestUri hphase | remoteAddress hphase | remoteHost hphase
  | serverName hphase | serverPort hphase | ssl hphase =>
      refine ho.advance hs hphase (by decide) ?_ ?_ ?_ <;> rfl
  | headerCount hphase count =>
      have hnext : ({ s with headerCount := count } : State).advance.phase = .headers := by
        rw [State.advance, hphase]
        rfl
      obtain ⟨ht, hcode, -⟩ := State.settle_cases hnext
      have htold : s.phase.told = requestPhases := by
        rw [hphase]
        rfl
      refine ho.of_early hs (by rw [hphase]; decide) (by rw [hphase]; decide) hcode ?_ ?_
      · obtain ht | ht := ht <;> rw [ht] <;> decide
      · rw [htold]
        obtain ht | ht := ht <;> rw [ht] <;> rfl
  | headerValue hphase header value =>
      obtain ⟨ht, hcode, hread⟩ := State.settle_cases
        (s := { s with pendingHeader := none, headersRead := s.headersRead + 1 }) hphase
      exact ho.withHeader hphase ht hcode hread fun f => phase_of_headerField?
  | attributesEnd hphase =>
      have hnext : s.phase.next = .done := by rw [hphase]; rfl
      exact hnone.symm ▸ ho.finish hphase hnext rfl rfl
  | attributeTold hphase hfield =>
      exact ho.withAttribute (t := { s with cursor := .idle }) hphase hphase rfl rfl
        (phase_of_attributeField? hfield)

/-- Each byte keeps to the order of the fields. -/
theorem State.Coherent.step_orderly {s : State} (h : s.Coherent) {fields : List Field}
    (ho : Orderly s fields) (b : UInt8) :
    Orderly (s.step b).state (fields ++ (s.step b).field?.toList) := by
  obtain ⟨t, hstep, ht⟩ | heffect := h.step_quiet_or_effect b
  · rw [hstep]
    exact (List.append_nil fields).symm ▸ ho.congr (congrArg State.phase ht :)
      (congrArg State.prefixCode ht :) (congrArg State.headersRead ht :)
  · exact heffect.orderly h.placed (ho.congr rfl rfl rfl)

/-- Adds the fields that bytes complete. -/
def collect (s : State) (fields : List Field) (bytes : List UInt8) : Run (List Field) :=
  scan (fun fields field => fields ++ [field]) s fields bytes

lemma coherent_collect {s : State} (h : s.Coherent) (fields : List Field)
    (bytes : List UInt8) : (collect s fields bytes).state.Coherent :=
  h.scan _ fields bytes

/-- A byte completes no field of a part that is over. -/
lemma State.Coherent.remaining_le_of_field? {s : State} (h : s.Coherent) {b : UInt8} {field : Field}
    (hfield : (s.step b).field? = some field) : field.phase.remaining ≤ s.phase.remaining := by
  obtain ⟨t, hstep, -⟩ | heffect := h.step_quiet_or_effect b
  · rw [hstep] at hfield
    cases hfield
  · exact Nat.le_of_eq (congrArg Phase.remaining (heffect.phase_of_field? hfield))

/-- Nor do any bytes. -/
theorem State.Coherent.remaining_le_of_mem_collect {s : State} (h : s.Coherent)
    (bytes : List UInt8) {field : Field} {fields : List Field}
    (hfield : field ∈ (collect s fields bytes).result) (hnew : field ∉ fields) :
    field.phase.remaining ≤ s.phase.remaining := by
  rw [collect] at hfield
  induction bytes generalizing s fields with
  | nil => exact absurd hfield hnew
  | cons b bytes ih =>
      by_cases hdone : s.phase = .done
      · rw [scan_done hdone] at hfield
        exact absurd hfield hnew
      have hcoherent := h.step b
      have hle := h.remaining_step_le b
      have hstep' : (s.step b).field? = some field → field.phase.remaining ≤ s.phase.remaining :=
        h.remaining_le_of_field?
      rw [scan_cons hdone] at hfield
      cases hstep : s.step b with
      | refuse t fault =>
          rw [hstep] at hfield
          exact absurd hfield hnew
      | move t field' =>
          rw [hstep] at hcoherent hle hstep' hfield
          cases field' with
          | none => exact Nat.le_trans (ih hcoherent hfield hnew) hle
          | some field' =>
              by_cases heq : field = field'
              · exact hstep' (congrArg some heq.symm)
              · refine Nat.le_trans (ih hcoherent hfield fun hmem => ?_) hle
                obtain hmem | hmem := List.mem_append.1 hmem
                · exact hnew hmem
                · exact heq (List.mem_singleton.1 hmem)

/-- Any bytes keep to the order of the fields. -/
theorem State.Coherent.collect_orderly {s : State} (h : s.Coherent) {fields : List Field}
    (ho : Orderly s fields) (bytes : List UInt8) :
    Orderly (collect s fields bytes).state (collect s fields bytes).result := by
  rw [collect]
  induction bytes generalizing s fields with
  | nil => exact ho
  | cons b bytes ih =>
      by_cases hdone : s.phase = .done
      · rw [scan_done hdone]
        exact ho
      have hcoherent := h.step b
      have horderly := h.step_orderly ho b
      rw [scan_cons hdone]
      cases hstep : s.step b with
      | refuse t fault =>
          rw [hstep] at horderly
          exact (List.append_nil fields) ▸ horderly
      | move t field =>
          rw [hstep] at hcoherent horderly
          have hfields : field.elim fields (fun field => fields ++ [field]) =
              fields ++ field.toList := by
            cases field with
            | none => exact (List.append_nil fields).symm
            | some field => rfl
          rw [Step.scan, hfields]
          exact ih hcoherent horderly

end Ajp13.Decoder
