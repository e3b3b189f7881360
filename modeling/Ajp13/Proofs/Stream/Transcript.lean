import Ajp13.Proofs.Bytewise.Order
import Ajp13.Proofs.Calls
import Ajp13.Proofs.Invariant
import Mathlib.Data.Set.List

/-!
The calls that a sink gets, in their order.

* `exists_message`: all fields of a request, in their order, are those of some message;
* `Orderly.exists_request`: fields that keep to their order are the first of such;
* `parseEach`: calls of a decoder on one buffer after another, whatever came of those before;
* `calls_in_order`: these calls make up the beginning of a transcript, and no group of them is torn
  apart.
-/

namespace Ajp13

open Decoder

variable {σ : Type}

/-! ### Fields in their order -/

namespace Decoder

/-- Fields that belong to one part, of which there may be many. -/
lemma exists_map_of_phase {α : Type} {p : Phase} {write : α → Field}
    (hwrite : ∀ field : Field, field.phase = p → ∃ a, write a = field) {fields : List Field}
    {n : Nat} (h : fields.map Field.phase = List.replicate n p) :
    ∃ l : List α, l.length = n ∧ l.map write = fields := by
  obtain ⟨l, rfl⟩ : fields ∈ Set.range (List.map write) := by
    rw [Set.range_list_map]
    intro field hfield
    exact hwrite field (List.eq_of_mem_replicate (h ▸ List.mem_map_of_mem hfield))
  have hlength := congrArg List.length h
  rw [List.length_map, List.length_map, List.length_replicate] at hlength
  exact ⟨l, hlength, rfl⟩

lemma exists_header_of_phase (field : Field) (h : field.phase = .headers) :
    ∃ header : HeaderName × HeaderValue, Field.header header.1 header.2 = field := by
  cases field with
  | header name value => exact ⟨(name, value), rfl⟩
  | _ => cases h

lemma exists_attribute_of_phase (field : Field) (h : field.phase = .attributes) :
    ∃ told : ToldAttribute, told.field = field := by
  cases field with
  | queryString text => exact ⟨.query text, rfl⟩
  | attachment a text => exact ⟨.attachment a text, rfl⟩
  | _ => cases h

/-- The fields that come before the headers. -/
lemma exists_of_map_phase_eq {fields : List Field} (h : fields.map Field.phase = requestPhases) :
    ∃ m protocol uri urlChars scheme, fields =
      [.method m, .protocol protocol, .requestUri uri urlChars, .scheme scheme] := by
  rw [requestPhases] at h
  obtain ⟨f₁, fields, rfl, h₁, h⟩ := List.map_eq_cons_iff.1 h
  obtain ⟨f₂, fields, rfl, h₂, h⟩ := List.map_eq_cons_iff.1 h
  obtain ⟨f₃, fields, rfl, h₃, h⟩ := List.map_eq_cons_iff.1 h
  obtain ⟨f₄, fields, rfl, h₄, h⟩ := List.map_eq_cons_iff.1 h
  obtain rfl := List.map_eq_nil_iff.1 h
  obtain ⟨m, rfl⟩ : ∃ m, f₁ = .method m := by
    cases f₁ with
    | method m => exact ⟨m, rfl⟩
    | _ => cases h₁
  obtain ⟨protocol, rfl⟩ : ∃ text, f₂ = .protocol text := by
    cases f₂ with
    | protocol text => exact ⟨text, rfl⟩
    | _ => cases h₂
  obtain ⟨uri, urlChars, rfl⟩ : ∃ text urlChars, f₃ = .requestUri text urlChars := by
    cases f₃ with
    | requestUri text urlChars => exact ⟨text, urlChars, rfl⟩
    | _ => cases h₃
  obtain ⟨scheme, rfl⟩ : ∃ scheme, f₄ = .scheme scheme := by
    cases f₄ with
    | scheme scheme => exact ⟨scheme, rfl⟩
    | _ => cases h₄
  exact ⟨m, protocol, uri, urlChars, scheme, rfl⟩

/-- All fields of a request are those of a message. -/
theorem exists_message {fields : List Field} {headers attributes : Nat}
    (h : fields.map Field.phase = requestPhases ++ List.replicate headers .headers ++
      List.replicate attributes .attributes) :
    ∃ m : Message, m.fields = fields ∧ m.headers.length = headers := by
  obtain ⟨fields', tail, rfl, hfields', htail⟩ := List.map_eq_append_iff.1 h
  obtain ⟨request, middle, rfl, hrequest, hmiddle⟩ := List.map_eq_append_iff.1 hfields'
  obtain ⟨method, protocol, uri, urlChars, scheme, rfl⟩ := exists_of_map_phase_eq hrequest
  obtain ⟨hs, hlength, rfl⟩ := exists_map_of_phase exists_header_of_phase hmiddle
  obtain ⟨as, -, rfl⟩ := exists_map_of_phase exists_attribute_of_phase htail
  exact ⟨⟨method, protocol, uri, urlChars, scheme, hs, as⟩, rfl, hlength⟩

/-- Fields that a request may begin with. -/
def Field.blanks : List Field := [.method .get, .protocol "", .requestUri "" false, .scheme .http]

/-- Fields that keep to their order are the first of some request, with no more headers than were
announced. -/
lemma Orderly.exists_request {s : State} (hs : s.Placed) {fields : List Field}
    (h : Orderly s fields) :
    ∃ fields' headers attributes, fields <+: fields' ∧
      fields'.map Field.phase = requestPhases ++ List.replicate headers .headers ++
        List.replicate attributes .attributes ∧
      headers ≤ s.headerCount.toNat := by
  have hmap := h.map_phase_of_early hs
  cases h with
  | preamble | signal =>
      exact ⟨Field.blanks, 0, 0, List.nil_prefix, rfl, Nat.zero_le _⟩
  | request hphase hcode headers attributes horder hheaders hattributes =>
      have hread := hs.headersRead_le
      by_cases hearly : Phase.headers.remaining < s.phase.remaining
      · -- the fields that are missing may be any
        refine ⟨fields ++ Field.blanks.drop fields.length, 0, 0, List.prefix_append _ _, ?_,
          Nat.zero_le _⟩
        have htold := hmap hearly
        have hprefix : s.phase.told <+: requestPhases := List.takeWhile_prefix _
        have hlength : fields.length = s.phase.told.length := by rw [← htold, List.length_map]
        have hblanks : Field.blanks.map Field.phase = requestPhases := rfl
        rw [List.map_append, htold, List.map_drop, hlength, hblanks]
        simpa using List.prefix_iff_eq_append.1 hprefix
      · have htold : s.phase.told = requestPhases := by
          cases hphase' : s.phase with
          | headers | attributes | done => rfl
          | _ => rw [hphase'] at hearly; exact absurd (by decide) hearly
        exact ⟨fields, headers, attributes, List.prefix_rfl, htold ▸ horder, by omega⟩

end Decoder

/-! ### Buffers one after another -/

namespace Decoder

/-- Calls a decoder on one buffer after another, whatever came of those before. A buffer may begin
with what an earlier call left, or not. -/
def parseEach (conf : Conf) (sink : Sink σ) : State → σ → List (List UInt8) → State × σ
  | s, told, [] => (s, told)
  | s, told, buffer :: buffers =>
      parseEach conf sink (parse conf sink s told buffer).state
        (parse conf sink s told buffer).result buffers

/-- The calls that a sink gets in all. -/
def callsEach (conf : Conf) (sink : Sink σ) (fresh : σ) (buffers : List (List UInt8)) : List Call :=
  (parseEach conf sink.traced .start (fresh, []) buffers).2.2

/-- Adds the fields that one buffer after another completes. -/
def collectEach : State → List Field → List (List UInt8) → State × List Field
  | s, fields, [] => (s, fields)
  | s, fields, buffer :: buffers =>
      collectEach (collect s fields buffer).state (collect s fields buffer).result buffers

variable {s : State} {fields : List Field}

/-- What a sink makes of a buffer, it makes of the fields that are completed. -/
lemma parse_eq_collect (h : s.Coherent) (conf : Conf) (sink : Sink σ) (fresh : σ)
    (fields : List Field) (buffer : List UInt8) :
    parse conf sink s (fields.foldl (sink.tell conf) fresh) buffer =
      (collect s fields buffer).map fun fields => fields.foldl (sink.tell conf) fresh := by
  rw [parse_eq_scan h, collect]
  exact scan_map (fun fields field => List.foldl_append) s fields buffer

/-- The calls for a buffer are those that tell of the fields that it completes. -/
lemma calls_eq (h : s.Coherent) (conf : Conf) (sink : Sink σ) (told : σ) (buffer : List UInt8) :
    calls conf sink s told buffer = sink.callsOf conf told (collect s [] buffer).result := by
  have hrun := parse_eq_collect h conf sink.traced (told, []) [] buffer
  rw [calls, show parse conf sink.traced s (told, []) buffer = _ from hrun, Run.map,
    Sink.foldl_tell_traced, List.nil_append]

lemma parseEach_eq (h : s.Coherent) (conf : Conf) (sink : Sink σ) (fresh : σ)
    (fields : List Field) (buffers : List (List UInt8)) :
    parseEach conf sink s (fields.foldl (sink.tell conf) fresh) buffers =
      ((collectEach s fields buffers).1,
        (collectEach s fields buffers).2.foldl (sink.tell conf) fresh) := by
  induction buffers generalizing s fields with
  | nil => rfl
  | cons buffer buffers ih =>
      rw [parseEach, parse_eq_collect h, collectEach]
      exact ih (coherent_collect h fields buffer) _

lemma collectEach_append (s : State) (fields : List Field) (before after : List (List UInt8)) :
    collectEach s fields (before ++ after) =
      collectEach (collectEach s fields before).1 (collectEach s fields before).2 after := by
  induction before generalizing s fields with
  | nil => rfl
  | cons buffer before ih => exact ih _ _

lemma collect_append (s : State) (fields : List Field) (bytes : List UInt8) :
    collect s fields bytes = (collect s [] bytes).map (fields ++ ·) := by
  have hscan : collect s (fields ++ []) bytes = (collect s [] bytes).map (fields ++ ·) :=
    scan_map (fun acc field => (List.append_assoc fields acc [field]).symm) s [] bytes
  rwa [List.append_nil] at hscan

lemma prefix_collect (s : State) (fields : List Field) (bytes : List UInt8) :
    fields <+: (collect s fields bytes).result :=
  ⟨_, (congrArg Run.result (collect_append s fields bytes)).symm⟩

lemma prefix_collectEach (s : State) (fields : List Field) (buffers : List (List UInt8)) :
    fields <+: (collectEach s fields buffers).2 := by
  induction buffers generalizing s fields with
  | nil => exact List.prefix_rfl
  | cons buffer buffers ih => exact (prefix_collect s fields buffer).trans (ih _ _)

/-- Any buffers keep to the order of the fields. -/
lemma collectEach_orderly (h : s.Coherent) (ho : Orderly s fields) (buffers : List (List UInt8)) :
    (collectEach s fields buffers).1.Coherent ∧
      Orderly (collectEach s fields buffers).1 (collectEach s fields buffers).2 := by
  induction buffers generalizing s fields with
  | nil => exact ⟨h, ho⟩
  | cons buffer buffers ih =>
      exact ih (coherent_collect h fields buffer) (h.collect_orderly ho buffer)

/-- The calls that a sink gets in all are those that tell of the fields. -/
lemma callsEach_eq (conf : Conf) (sink : Sink σ) (fresh : σ) (buffers : List (List UInt8)) :
    callsEach conf sink fresh buffers =
      sink.callsOf conf fresh (collectEach .start [] buffers).2 := by
  have heach := parseEach_eq State.start_coherent conf sink.traced (fresh, []) [] buffers
  rw [callsEach, show parseEach conf sink.traced .start (fresh, []) buffers = _ from heach,
    Sink.foldl_tell_traced, List.nil_append]

lemma parseEach_fst_eq (conf : Conf) (sink : Sink σ) (fresh : σ) (buffers : List (List UInt8)) :
    (parseEach conf sink .start fresh buffers).1 = (collectEach .start [] buffers).1 :=
  congrArg Prod.fst (parseEach_eq State.start_coherent conf sink fresh [] buffers)

/-- The calls that a sink gets are the first of some transcript, whatever the buffers, also behind
faults and behind the end of a packet. The calls of one group, such as those that tell of a URI or
of a query string, come while one and the same buffer is dealt with. The path is what the sink
answered, if it was asked, and no more headers are told of than were announced. Of packets other
than forward requests, nothing is told. -/
theorem calls_in_order (conf : Conf) (sink : Sink σ) (fresh : σ) (buffers : List (List UInt8)) :
    let final := (parseEach conf sink .start fresh buffers).1
    (∃ t : Transcript,
      callsEach conf sink fresh buffers <+: (t.groups conf).flatten ∧
      (∀ before after, buffers = before ++ after →
        ∃ n, callsEach conf sink fresh before = ((t.groups conf).take n).flatten) ∧
      t.headers.length ≤ final.headerCount.toNat ∧
      ∀ a, t.answer = some a →
        a = Transcript.answerTo conf sink fresh t.method t.protocol t.path) ∧
    (final.prefixCode ≠ some .forwardRequest → callsEach conf sink fresh buffers = []) := by
  intro final
  obtain ⟨hcoherent, horderly⟩ :=
    collectEach_orderly State.start_coherent (.preamble (by decide)) buffers
  rw [← parseEach_fst_eq conf sink fresh] at hcoherent horderly
  obtain ⟨fields, headers, attributes, hfields, hphases, hheaders⟩ :=
    horderly.exists_request hcoherent.placed
  obtain ⟨m, rfl, hlength⟩ := exists_message hphases
  -- some of the groups tell of the fields behind the first buffers
  have htake : ∀ before after, buffers = before ++ after →
      callsEach conf sink fresh before =
        (((m.transcript conf sink fresh).groups conf).take
          (collectEach .start [] before).2.length).flatten := by
    rintro before after rfl
    have hfirst := prefix_collectEach (collectEach .start [] before).1
      (collectEach .start [] before).2 after
    rw [← collectEach_append] at hfirst
    rw [callsEach_eq, Message.groups_transcript, ← Sink.flatten_groupsOf,
      Sink.groupsOf_of_prefix sink conf fresh (hfirst.trans hfields)]
  refine ⟨⟨m.transcript conf sink fresh, ?_, fun before after h => ⟨_, htake before after h⟩,
    hlength ▸ hheaders, fun a => Message.eq_of_answer_transcript⟩, ?_⟩
  · rw [htake buffers [] (List.append_nil _).symm]
    refine ⟨(((m.transcript conf sink fresh).groups conf).drop
      (collectEach .start [] buffers).2.length).flatten, ?_⟩
    rw [← List.flatten_append, List.take_append_drop]
  · intro hcode
    rw [callsEach_eq, horderly.eq_nil_of_code hcode]
    rfl

end Decoder

end Ajp13
