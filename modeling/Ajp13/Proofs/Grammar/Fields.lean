import Ajp13.Proofs.Bytewise.Onward
import Ajp13.Proofs.Grammar.Language
import Ajp13.Proofs.Grammar.Whole
import Ajp13.Proofs.Stream.Transcript

/-!
The fields that are complete behind any bytes.

* `collect_bytes`: behind a packet, its fields;
* `exists_fields_of_opening`, `phase_ne_requestUri_of_mem_collect`: behind an opening, those of it and
  no other URI; without one, no URI;
* `CompleteHeaders`: the headers of which all bytes have come. `CompleteHeaders.collect`: these are
  counted, and those with a name and a value are told of.
-/

namespace Ajp13

open Decoder

namespace Decoder

lemma collect_eq_run {s : State} (h : s.Coherent) (fields : List Field) (bytes : List UInt8) :
    collect s fields bytes = run (fun fields field => fields ++ [field]) s fields bytes := by
  rw [collect, run_eq_scan h.openString, h.settle_eq]

lemma foldl_append_singleton (fields fields' : List Field) :
    fields'.foldl (fun fields field => fields ++ [field]) fields = fields ++ fields' := by
  simp [← List.flatMap_def]

/-- What a packet leaves. -/
lemma collect_bytes (q : Packet) (rest : List UInt8) :
    collect .start [] (q.bytes ++ rest) = ⟨.done, rest, q.state, q.fields⟩ := by
  rw [collect_eq_run State.start_coherent, run_bytes, foldl_append_singleton, List.nil_append]

/-! ### Openings -/

/-- Behind an opening, there are its fields, and others that are no URI. -/
theorem exists_fields_of_opening (o : Opening) (rest : List UInt8) :
    ∃ more, (collect .start [] (o.bytes ++ rest)).result = o.fields ++ more ∧
      ∀ field ∈ more, field.phase ≠ .requestUri := by
  have hcoherent : o.state.Coherent := .of_placed ⟨rfl, rfl, rfl, rfl⟩ rfl
  have hcollect : collect .start [] (o.bytes ++ rest) =
      (collect o.state [] rest).map (o.fields ++ ·) := by
    rw [collect_eq_run State.start_coherent, run_opening, ← collect_append,
      collect_eq_run hcoherent]
    rfl
  refine ⟨_, congrArg Run.result hcollect, fun field hfield hphase => ?_⟩
  have hle : field.phase.remaining ≤ Phase.remoteAddress.remaining :=
    hcoherent.remaining_le_of_mem_collect rest hfield List.not_mem_nil
  rw [hphase] at hle
  exact absurd hle (by decide)

/-- Where a run ends ahead of a phase, the fields are of phases before that. -/
lemma lt_of_ahead {bytes : List UInt8} {p : Phase} (hp : Phase.headers.remaining ≤ p.remaining)
    (hahead : Ahead p (collect .start [] bytes)) {field : Field}
    (hfield : field ∈ (collect .start [] bytes).result) :
    p.remaining + 1 < field.phase.remaining := by
  have horderly := State.start_coherent.collect_orderly (.preamble (by decide)) bytes
  have hcoherent := coherent_collect State.start_coherent [] bytes
  exact Nat.lt_of_le_of_lt hahead.phase
    (horderly.lt_of_mem hcoherent.placed (Nat.lt_of_le_of_lt hp hahead.phase) hfield)

/-- Without an opening, there is no URI. -/
theorem phase_ne_requestUri_of_mem_collect {bytes : List UInt8}
    (hnone : ∀ o : Opening, ¬o.bytes <+: bytes) {field : Field}
    (hfield : field ∈ (collect .start [] bytes).result) : field.phase ≠ .requestUri := by
  intro hphase
  by_cases hahead : Ahead .remoteAddress (collect .start [] bytes)
  · have hlt := lt_of_ahead (by decide) hahead hfield
    rw [hphase] at hlt
    exact absurd hlt (by decide)
  · rw [collect_eq_run State.start_coherent] at hahead
    obtain ⟨o, ho⟩ | ⟨size, kind, other, rest, rfl⟩ := exists_opening hahead
    · exact hnone o ho
    · rw [collect_bytes] at hfield
      cases hfield

end Decoder

/-! ### Headers -/

/-- The header that a field is. -/
def Decoder.Field.header? : Field → Option (HeaderName × HeaderValue)
  | header name value => some (name, value)
  | _ => none

lemma WireHeader.bind_header?_field? (h : WireHeader) :
    h.field?.bind Field.header? = h.accepted? := by
  rw [field?]
  cases h.accepted? <;> rfl

lemma Decoder.filterMap_header?_eq_nil {fields : List Field}
    (h : ∀ field ∈ fields, field.phase ≠ .headers) : fields.filterMap Field.header? = [] := by
  refine List.filterMap_eq_nil_iff.2 fun field hfield => ?_
  cases field with
  | header name value => exact absurd rfl (h _ hfield)
  | _ => rfl

/-- The headers of which all bytes have come. -/
inductive CompleteHeaders (bytes : List UInt8) : List WireHeader → Prop
  /-- Their number has not come. -/
  | ahead (hnone : ∀ d : Head, ¬d.bytes <+: bytes) : CompleteHeaders bytes []
  /-- Their number has come, and as many of them, or fewer and then no other. -/
  | behind (d : Head) (headers : List WireHeader) (rest : List UInt8)
      (hbytes : bytes = d.bytes ++ (headers.flatMap WireHeader.bytes ++ rest))
      (hall : AllHeaders d.headerCount.toNat headers rest) : CompleteHeaders bytes headers

namespace CompleteHeaders

variable {bytes : List UInt8} {headers headers' : List WireHeader}

/-- Of any bytes, some headers have come. -/
theorem exists_headers (bytes : List UInt8) : ∃ headers, CompleteHeaders bytes headers := by
  by_cases hsome : ∃ d : Head, d.bytes <+: bytes
  · obtain ⟨d, rest, rfl⟩ := hsome
    obtain ⟨headers, rest, rfl, hall⟩ := Decoder.exists_headers d.headerCount.toNat rest
    exact ⟨headers, .behind d headers rest rfl hall⟩
  · exact ⟨[], .ahead (not_exists.1 hsome)⟩

/-- And no others. -/
theorem unique (h : CompleteHeaders bytes headers) (h' : CompleteHeaders bytes headers') :
    headers = headers' := by
  cases h with
  | ahead hnone =>
      cases h' with
      | ahead => rfl
      | behind d _ rest hbytes => exact absurd ⟨_, hbytes.symm⟩ (hnone d)
  | behind d _ rest hbytes hall =>
      cases h' with
      | ahead hnone => exact absurd ⟨_, hbytes.symm⟩ (hnone d)
      | behind d' _ rest' hbytes' hall' =>
          obtain ⟨hd, heq⟩ := Head.bytes_prefixFree (hbytes.symm.trans hbytes')
          exact hall.unique (hd ▸ hall') heq

end CompleteHeaders

/-- The state of a decoder behind the last of the headers. -/
def Head.lastState (d : Head) : State :=
  { d.state with phase := .attributes, headersRead := d.headerCount.toNat }

namespace Decoder

/-- Without a head, no header is read or told of. -/
lemma collect_of_no_head {bytes : List UInt8} (hnone : ∀ d : Head, ¬d.bytes <+: bytes) :
    (collect .start [] bytes).state.headersRead = 0 ∧
      (collect .start [] bytes).result.filterMap Field.header? = [] := by
  by_cases hahead : Ahead .headers (collect .start [] bytes)
  · have hcoherent := coherent_collect State.start_coherent [] bytes
    refine ⟨((State.placed_iff_of_early hahead.phase).1 hcoherent.placed).1, ?_⟩
    refine filterMap_header?_eq_nil fun field hfield hphase => ?_
    have hlt := lt_of_ahead (by decide) hahead hfield
    rw [hphase] at hlt
    exact absurd hlt (by decide)
  · rw [collect_eq_run State.start_coherent] at hahead
    obtain ⟨d, hd⟩ | ⟨size, kind, other, rest, rfl⟩ := exists_head hahead
    · exact absurd hd (hnone d)
    · rw [collect_bytes]
      exact ⟨rfl, rfl⟩

/-- The headers that are told of are those that are accepted. -/
lemma filterMap_header?_fields (headers : List WireHeader) :
    (headers.filterMap WireHeader.field?).filterMap Field.header? =
      headers.filterMap WireHeader.accepted? := by
  rw [List.filterMap_filterMap]
  exact congrArg (List.filterMap · headers) (funext WireHeader.bind_header?_field?)

/-- Behind the last of the headers, no other is read or told of. -/
lemma collect_of_all_headers (d : Head) {headers : List WireHeader}
    (hlength : headers.length = d.headerCount.toNat) (rest : List UInt8) :
    let r := collect .start [] (d.bytes ++ (headers.flatMap WireHeader.bytes ++ rest))
    r.state.headersRead = headers.length ∧
      r.result.filterMap Field.header? = headers.filterMap WireHeader.accepted? := by
  have hcoherent : d.lastState.Coherent := .of_attributes rfl rfl rfl rfl
  have hrun : collect .start [] (d.bytes ++ (headers.flatMap WireHeader.bytes ++ rest)) =
      (collect d.lastState [] rest).map
        ((d.fields ++ headers.filterMap WireHeader.field?) ++ ·) := by
    rw [collect_eq_run State.start_coherent, run_head,
      run_headers rfl rfl rfl ((Nat.zero_add _).trans hlength), foldl_append_singleton,
      foldl_append_singleton, List.nil_append, ← collect_append, collect_eq_run hcoherent]
    rfl
  rw [hrun]
  constructor
  · -- the number of headers stays, and no more than that are read
    have hlate : Phase.attributes.remaining < Phase.serverPort.remaining := by decide
    have hkeeps := (hcoherent.scan_keeps (State.timely_of_lt hlate)
      (fun fields field => fields ++ [field]) [] rest).2
    have hcount : (collect d.lastState [] rest).state.headerCount = d.headerCount :=
      hkeeps.headerCount (show Phase.attributes.remaining < Phase.headerCount.remaining by decide)
    have hle := (coherent_collect hcoherent [] rest).placed.headersRead_le
    rw [hcount, ← hlength] at hle
    exact Nat.le_antisymm hle (hlength ▸ hkeeps.headersRead)
  · have htail : (collect d.lastState [] rest).result.filterMap Field.header? = [] := by
      refine filterMap_header?_eq_nil fun field hfield hphase => ?_
      have hlt : field.phase.remaining ≤ Phase.attributes.remaining :=
        hcoherent.remaining_le_of_mem_collect rest hfield List.not_mem_nil
      rw [hphase] at hlt
      exact absurd hlt (by decide)
    change (d.fields ++ _ ++ _).filterMap Field.header? = _
    rw [List.filterMap_append, List.filterMap_append, htail, filterMap_header?_fields,
      List.append_nil]
    rfl

/-- Behind fewer headers than were announced, the next one is waited for. -/
lemma collect_of_fewer_headers (d : Head) {headers : List WireHeader}
    (hlength : headers.length < d.headerCount.toNat) {rest : List UInt8}
    (hnone : ∀ w : WireHeader, ¬w.bytes <+: rest) :
    let r := collect .start [] (d.bytes ++ (headers.flatMap WireHeader.bytes ++ rest))
    r.state.headersRead = headers.length ∧
      r.result.filterMap Field.header? = headers.filterMap WireHeader.accepted? := by
  have hcount : d.state.headersRead + headers.length < d.state.headerCount.toNat := by
    change 0 + headers.length < _
    rwa [Nat.zero_add]
  rw [collect_eq_run State.start_coherent, run_head]
  obtain ⟨-, -, hread, hresult⟩ := run_headers_halted ⟨rfl, rfl⟩ rfl hcount
    (d.fields.foldl (fun fields field => fields ++ [field]) []) hnone
  refine ⟨hread.trans (Nat.zero_add _), ?_⟩
  rw [hresult, foldl_append_singleton, foldl_append_singleton, List.nil_append,
    List.filterMap_append, filterMap_header?_fields]
  rfl

end Decoder

/-- The complete headers are counted, and those of them that are accepted are told of. -/
theorem CompleteHeaders.collect {bytes : List UInt8} {headers : List WireHeader}
    (h : CompleteHeaders bytes headers) :
    (Decoder.collect .start [] bytes).state.headersRead = headers.length ∧
      (Decoder.collect .start [] bytes).result.filterMap Field.header? =
        headers.filterMap WireHeader.accepted? := by
  cases h with
  | ahead hnone => exact collect_of_no_head hnone
  | behind d headers rest hbytes hall =>
      rw [hbytes]
      obtain hlength | ⟨hfewer, hnone⟩ := hall
      · exact collect_of_all_headers d hlength rest
      · exact collect_of_fewer_headers d hfewer hnone

end Ajp13
