import Ajp13.Proofs.Grammar.Sequence
import Ajp13.Proofs.Grammar.Verdict
import Ajp13.Proofs.Stream.Refused

/-!
Where fields end.

* `State.atFieldBoundary_iff_begun`: a decoder is at the end of a field if it keeps no part of one;
* `begun_parse_of_cut`: of fields that are cut within one of them, it keeps the part of that one;
* `atFieldBoundary_parse_iff`: so it is at the end of a field behind whole fields, and nowhere else;
* `Link.atFieldBoundary_iff_spared`: this holds behind each call on a stream, of the bytes without
  the fields at fault;
* `boundaries_told`: and of all bytes, as long as there was no fault.
-/

namespace Ajp13

open Decoder

variable {σ : Type}

namespace Decoder

lemma StringProgress.begun_eq_nil_iff {p : StringProgress} : p.begun = [] ↔ p = .start := by
  constructor
  · intro h
    cases p with
    | length high =>
        cases high with
        | none => rfl
        | some high => cases h
    | content missing held urlChars => cases h
    | terminator held urlChars => cases h
  · rintro rfl
    rfl

/-- A decoder is at the end of a field where it keeps no part of one. -/
lemma State.atFieldBoundary_iff_begun {s : State} : s.atFieldBoundary = true ↔ s.begun = [] := by
  rw [atFieldBoundary, decide_eq_true_iff]
  constructor
  · exact begun_of_scratch
  · intro h
    obtain ⟨hcarry, hstring⟩ := List.append_eq_nil_iff.1 h
    change Scratch.mk s.scratch.carry s.scratch.string = {}
    rw [Option.toList_eq_nil_iff.1 hcarry, StringProgress.begun_eq_nil_iff.1 hstring]

section Parse

variable (conf : Conf) (sink : Sink σ) (told : σ)

/-- Of fields that are cut within one of them, the part of that one is kept. -/
lemma begun_parse_of_cut {q : Packet} {fields after : List Primitive} {f : Primitive}
    {part : List UInt8} (hq : q.primitives = fields ++ f :: after) (hpart : part <+: f.bytes)
    (hne : part ≠ f.bytes) :
    (parse conf sink .start told (fields.flatMap Primitive.bytes ++ part)).state.begun = part := by
  obtain ⟨t, hpasses, hready⟩ := (hq ▸ reads_packet q).exists_ready
  obtain ⟨acc, hrun⟩ := hpasses told
  rw [parse, hrun, run_eq_scan (.of_scratch hready.scratch), hready.settle]
  exact hready.begun_scan hpart hne acc

/-- Behind whole fields, nothing is kept of another one. -/
lemma begun_parse_of_wholeFields {w : List UInt8} (h : WholeFields w) :
    (parse conf sink .start told w).state.begun = [] := by
  obtain ⟨q, fields, ⟨after, hq⟩, rfl⟩ := h
  cases after with
  | nil =>
      rw [List.append_nil] at hq
      rw [hq, q.flatMap_bytes_primitives, ← List.append_nil q.bytes, parse_bytes_append]
      cases q <;> rfl
  | cons f after =>
      have hne : [] ≠ f.bytes := f.bytes_ne_nil.symm
      have hbegun := begun_parse_of_cut conf sink told hq.symm List.nil_prefix hne
      rwa [List.append_nil] at hbegun

/-- If nothing is kept of a field, all that has been taken is whole fields. -/
lemma wholeFields_of_begun_parse {w : List UInt8}
    (hok : ∀ fault, (parse conf sink .start told w).outcome ≠ .failed fault)
    (hrest : (parse conf sink .start told w).rest = [])
    (h : (parse conf sink .start told w).state.begun = []) : WholeFields w := by
  cases houtcome : (parse conf sink .start told w).outcome with
  | failed fault => exact absurd houtcome (hok fault)
  | done =>
      obtain ⟨q, rest, rfl⟩ := exists_packet_of_parse_done conf sink told houtcome
      rw [parse_bytes_append] at hrest
      obtain rfl : rest = [] := hrest
      rw [List.append_nil]
      exact ⟨q, q.primitives, List.prefix_rfl, q.flatMap_bytes_primitives.symm⟩
  | suspended =>
      rcases w with _ | ⟨b, _ | ⟨c, w⟩⟩
      · exact ⟨.signal 0 0 (by decide), [], List.nil_prefix, rfl⟩
      · rw [parse_eq_scan State.start_coherent] at h
        cases h
      obtain ⟨q, hq⟩ := viable_of_suspended conf sink told (by simp) houtcome
      rw [← q.flatMap_bytes_primitives] at hq
      obtain hwhole | ⟨fields, f, after, part, hfields, hpart, hne, hcut⟩ := eq_or_exists_cut hq
      · exact ⟨q, q.primitives, List.prefix_rfl, hwhole⟩
      · rw [hcut, begun_parse_of_cut conf sink told hfields hpart hne] at h
        rw [hcut, h, List.append_nil]
        exact ⟨q, fields, ⟨f :: after, hfields.symm⟩, rfl⟩

/-- A decoder is at the end of a field behind whole fields, and nowhere else. -/
theorem atFieldBoundary_parse_iff {w : List UInt8}
    (hok : ∀ fault, (parse conf sink .start told w).outcome ≠ .failed fault)
    (hrest : (parse conf sink .start told w).rest = []) :
    (parse conf sink .start told w).state.atFieldBoundary = true ↔ WholeFields w := by
  rw [State.atFieldBoundary_iff_begun]
  exact ⟨wholeFields_of_begun_parse conf sink told hok hrest,
    begun_parse_of_wholeFields conf sink told⟩

end Parse

end Decoder

/-- Fields that are cut within one of them are whole only if nothing of that one is there. -/
lemma wholeFields_cut_iff {q : Packet} {fields after : List Primitive} {f : Primitive}
    {part : List UInt8} (hq : q.primitives = fields ++ f :: after) (hpart : part <+: f.bytes)
    (hne : part ≠ f.bytes) :
    WholeFields (fields.flatMap Primitive.bytes ++ part) ↔ part = [] := by
  constructor
  · intro h
    rw [← begun_parse_of_cut {} Sink.setterRecorder [] hq hpart hne]
    exact begun_parse_of_wholeFields {} Sink.setterRecorder [] h
  · rintro rfl
    rw [List.append_nil]
    exact ⟨q, fields, ⟨f :: after, hq.symm⟩, rfl⟩

/-- Ahead of the terminator of a string or of a header name, not all is whole, also if the string is
empty. -/
lemma not_wholeFields_unterminated {q : Packet} {fields after : List Primitive} {f : Primitive}
    {content : List UInt8} {terminator : UInt8} {fits : content.length < 0xFFFF}
    (hq : q.primitives = fields ++ f :: after)
    (hf : f = .string (.literal content terminator fits) ∨
      ∃ unmarked, f = .headerName (.spelled (.literal content terminator fits) unmarked)) :
    ¬WholeFields (fields.flatMap Primitive.bytes ++
      (Word.bytes (UInt16.ofNat content.length) ++ content)) := by
  have hbytes : f.bytes = Word.bytes (UInt16.ofNat content.length) ++ content ++ [terminator] := by
    obtain rfl | ⟨unmarked, rfl⟩ := hf <;> rfl
  have hne : Word.bytes (UInt16.ofNat content.length) ++ content ≠ f.bytes := by
    rw [hbytes]
    simp
  rw [wholeFields_cut_iff hq ⟨[terminator], hbytes.symm⟩ hne]
  exact List.cons_ne_nil _ _

namespace ForwardBody

variable {b : ForwardBody} (size : UInt16)

/-- Between the name and the value of a header, all is whole. -/
lemma wholeFields_headerName {h : WireHeader} {headers headers' : List WireHeader}
    (hb : b.headers = headers ++ h :: headers') :
    WholeFields ((b.head size).bytes ++ headers.flatMap WireHeader.bytes ++ h.name.bytes) := by
  refine ⟨.forward size b, (b.head size).primitives ++ headers.flatMap WireHeader.primitives ++
    [.headerName h.name], ?_, ?_⟩
  · refine ⟨.string h.value :: headers'.flatMap WireHeader.primitives ++
      b.attributes.flatMap WireAttribute.primitives ++ [.byte Marker.attributesEnd], ?_⟩
    simp only [Packet.primitives, hb, List.flatMap_append, List.flatMap_cons, WireHeader.primitives,
      List.append_assoc, List.cons_append, List.nil_append]
  · simp only [List.flatMap_append, List.flatMap_assoc, List.flatMap_singleton,
      Head.flatMap_bytes_primitives, WireHeader.flatMap_bytes_primitives, Primitive.bytes]

/-- Behind the tag of an attribute, and ahead of its value, all is whole. -/
lemma wholeFields_attribute {a : WireAttribute} {attributes attributes' : List WireAttribute}
    {fields fields' : List Primitive} (hb : b.attributes = attributes ++ a :: attributes')
    (ha : a.primitives = fields ++ fields') :
    WholeFields ((b.head size).bytes ++ b.headers.flatMap WireHeader.bytes ++
      attributes.flatMap WireAttribute.bytes ++ fields.flatMap Primitive.bytes) := by
  refine ⟨.forward size b, (b.head size).primitives ++ b.headers.flatMap WireHeader.primitives ++
    attributes.flatMap WireAttribute.primitives ++ fields, ?_, ?_⟩
  · refine ⟨fields' ++ attributes'.flatMap WireAttribute.primitives ++
      [.byte Marker.attributesEnd], ?_⟩
    simp only [Packet.primitives, hb, ha, List.flatMap_append, List.flatMap_cons,
      List.append_assoc]
  · simp only [List.flatMap_append, List.flatMap_assoc, Head.flatMap_bytes_primitives,
      WireHeader.flatMap_bytes_primitives, WireAttribute.flatMap_bytes_primitives]

end ForwardBody

/-! ### Streams -/

/-- Behind each call on a stream, also if there were faults, a decoder is at the end of a field if
the bytes without the fields at fault are whole fields, and not otherwise. -/
theorem Link.atFieldBoundary_iff_spared (conf : Conf) (sink : Sink σ) (fresh : σ)
    {pieces : List (List UInt8)} {before after : List (Report σ)} {report : Report σ}
    (h : ((start conf sink fresh).play .afterFault pieces).1 = before ++ report :: after) :
    report.after.state.atFieldBoundary = true ↔
      WholeFields (Sifted.ofLog (before ++ [report])).spared := by
  have hrun := parse_spared conf sink fresh h
  have hok : ∀ fault, (parse conf sink .start fresh
      (Sifted.ofLog (before ++ [report])).spared).outcome ≠ .failed fault := by
    intro fault hfailed
    rw [hrun] at hfailed
    dsimp only at hfailed
    split at hfailed <;> cases hfailed
  have hiff := atFieldBoundary_parse_iff conf sink fresh hok (congrArg Run.rest hrun)
  rwa [hrun] at hiff

/-- A decoder tells where fields end. However a stream is cut, and as long as there was no fault, it
says so behind a call if the bytes so far are the first fields of some packet, each of them whole,
and not otherwise. So it does not behind a part of a field, whatever packet that is of, nor ahead of
any terminator, be it right behind the length of an empty string; but it does between the name and
the value of a header, and behind the tag of an attribute. -/
theorem boundaries_told (conf : Conf) (sink : Sink σ) (fresh : σ) (pieces : List (List UInt8)) :
    (let played := (Link.start conf sink fresh).play .afterFault pieces
      ∀ before report after, played.1 = before ++ report :: after →
        (∀ call ∈ before ++ [report], ∀ fault, call.outcome ≠ .failed fault) →
          (report.after.state.atFieldBoundary = true ↔
            WholeFields ((before ++ [report]).flatMap Report.taken))) ∧
    (∀ (q : Packet) (fields : List Primitive) (f : Primitive) (after : List Primitive)
      (part : List UInt8), q.primitives = fields ++ f :: after → part <+: f.bytes →
        part ≠ f.bytes → (WholeFields (fields.flatMap Primitive.bytes ++ part) ↔ part = [])) ∧
    (∀ (q : Packet) (fields : List Primitive) (f : Primitive) (after : List Primitive)
      (content : List UInt8) (terminator : UInt8) (fits : content.length < 0xFFFF),
        q.primitives = fields ++ f :: after →
        (f = .string (.literal content terminator fits) ∨
          ∃ unmarked, f = .headerName (.spelled (.literal content terminator fits) unmarked)) →
          ¬WholeFields (fields.flatMap Primitive.bytes ++
            (Word.bytes (UInt16.ofNat content.length) ++ content))) ∧
    (∀ (size : UInt16) (b : ForwardBody) (headers : List WireHeader) (h : WireHeader)
      (headers' : List WireHeader), b.headers = headers ++ h :: headers' →
        WholeFields ((b.head size).bytes ++ headers.flatMap WireHeader.bytes ++ h.name.bytes)) ∧
    (∀ (size : UInt16) (b : ForwardBody) (attributes : List WireAttribute) (a : WireAttribute)
      (attributes' : List WireAttribute) (fields fields' : List Primitive),
        b.attributes = attributes ++ a :: attributes' → a.primitives = fields ++ fields' →
          WholeFields ((b.head size).bytes ++ b.headers.flatMap WireHeader.bytes ++
            attributes.flatMap WireAttribute.bytes ++ fields.flatMap Primitive.bytes)) := by
  refine ⟨?_, fun _ _ _ _ _ => wholeFields_cut_iff,
    fun _ _ _ _ _ _ _ => not_wholeFields_unterminated,
    fun size _ _ _ _ => ForwardBody.wholeFields_headerName size,
    fun size _ _ _ _ _ _ => ForwardBody.wholeFields_attribute size⟩
  intro played before report after hlog hok
  rw [← Sifted.spared_ofLog hok]
  exact Link.atFieldBoundary_iff_spared conf sink fresh hlog

/-- An empty string in two calls, the first of which ends right behind its length; and where to cut
a packet with that string, a header and an attribute. -/
theorem boundaries_told_emptyString :
    let h : WireHeader := ⟨.coded 0x0B (by decide), .null⟩
    let a : WireAttribute := .string (.coded 0x0C (by decide)) .null (by decide)
    let b : ForwardBody := {
      method := 2, known_method := by decide, protocol := .literal [] 0 (by decide)
      requestUri := .null, remoteAddress := .null, remoteHost := .null, serverName := .null
      serverPort := 80, ssl := 0, headers := [h], headers_fit := by decide, attributes := [a] }
    let fields : List Primitive := [.word Marker.magic, .word 0, .byte 2, .byte 2]
    let s := Link.start {} Sink.setterRecorder ([] : List Call)
    let piece := fields.flatMap Primitive.bytes ++ [0, 0]
    let first := s.call piece
    let second := first.after.call [0]
    (s.play .afterFault [piece, [0]]).1 = [first, second] ∧
      first.after.state.atFieldBoundary = false ∧ ¬WholeFields first.taken ∧
      second.after.state.atFieldBoundary = true ∧ WholeFields (first.taken ++ second.taken) ∧
      ¬WholeFields [0x12] ∧ ¬WholeFields (fields.flatMap Primitive.bytes ++ [0, 0]) ∧
      WholeFields ((b.head 0).bytes ++ h.name.bytes) ∧
      WholeFields ((b.head 0).bytes ++ h.bytes ++ [0x0C]) := by
  intro h a b fields s piece first second
  have hscan : first.run = scan (s.sink.tell s.conf) .start s.told ([] ++ piece) :=
    parse_eq_scan State.start_coherent _ _ _ _
  have hfirst : first.outcome = .suspended := by
    rw [show first.outcome = _ from congrArg Run.outcome hscan]
    decide +kernel
  have hflag : first.after.state.atFieldBoundary = false := by
    rw [show first.after.state = _ from congrArg Run.state hscan]
    decide +kernel
  have hok : ∀ fault, first.outcome ≠ .failed fault := hfirst ▸ fun fault => Outcome.noConfusion
  -- the second call goes on where the first one was suspended
  have hbuffer : first.after.buffer = [] := s.buffer_of_suspended piece hfirst
  have htaken : first.taken = piece := by
    have hbytes := (s.taken_call piece).1
    rwa [hbuffer, List.append_nil] at hbytes
  have hscan' : second.run = scan (s.sink.tell s.conf) .start s.told
      (first.taken ++ (first.after.buffer ++ [0])) :=
    ((Link.Reaches.call s hok).parse_append _).symm.trans
      (parse_eq_scan State.start_coherent _ _ _ _)
  rw [htaken, hbuffer, List.nil_append] at hscan'
  have hsecond : second.outcome = .suspended := by
    rw [show second.outcome = _ from congrArg Run.outcome hscan']
    decide +kernel
  have hflag' : second.after.state.atFieldBoundary = true := by
    rw [show second.after.state = _ from congrArg Run.state hscan']
    decide +kernel
  have hok' : ∀ fault, second.outcome ≠ .failed fault :=
    hsecond ▸ fun fault => Outcome.noConfusion
  have hlog : (s.play .afterFault [piece, [0]]).1 = [first, second] := by
    rw [Link.play, Link.exhaust_of_none (Again.next?_afterFault_of_ne hok)]
    dsimp only
    rw [Link.play, Link.exhaust_of_none (Again.next?_afterFault_of_ne hok')]
    rfl
  obtain ⟨htold, hcut, hunterminated, hname, htag⟩ :=
    boundaries_told {} Sink.setterRecorder [] [piece, [0]]
  have hwhole := htold [] first [second] hlog (List.forall_mem_singleton.2 hok)
  have hwhole' := htold [first] second [] hlog
    (List.forall_mem_cons.2 ⟨hok, List.forall_mem_singleton.2 hok'⟩)
  refine ⟨hlog, hflag, ?_, hflag', ?_, ?_, ?_, ?_, ?_⟩
  · rw [List.nil_append, List.flatMap_singleton, hflag] at hwhole
    exact fun hfields => Bool.noConfusion (hwhole.2 hfields)
  · rw [List.flatMap_append, List.flatMap_singleton, List.flatMap_singleton] at hwhole'
    exact hwhole'.1 hflag'
  · have hmagic := hcut (.forward 0 b) [] (.word Marker.magic) _ [0x12] rfl ⟨[0x34], rfl⟩
      (by decide)
    exact fun hfields => List.cons_ne_nil _ _ (hmagic.1 hfields)
  · exact hunterminated (.forward 0 b) fields _ _ [] 0 (by decide) rfl (.inl rfl)
  · have hheader := hname 0 b [] h [] rfl
    rwa [List.flatMap_nil, List.append_nil] at hheader
  · have hattribute := htag 0 b [] a [] [.byte 0x0C] [.string .null] rfl rfl
    rwa [List.flatMap_nil, List.append_nil, List.flatMap_singleton, List.flatMap_singleton]
      at hattribute

end Ajp13
