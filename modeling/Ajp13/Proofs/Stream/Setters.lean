import Ajp13.Proofs.Grammar.Verdict
import Ajp13.Proofs.Grammar.Whole
import Ajp13.Proofs.Stream.Transcript
import Mathlib.Data.List.Nodup

/-!
How often a sink is told of each part of a request.

* `Setter`: a part of a request of which there is one value;
* `timesSet`: how often some calls give that value;
* `Field.count_setters`: all but the query string are given by the fields of a part of their own, so
  `Orderly.count_phase_le` bounds their number;
* `Packet.queryStrings`: the query strings of a packet, each of which is given;
* `exists_viable`: whatever the bytes, the calls are those of the beginning of a packet;
* `setters_at_most_once`: the whole. `query_string_set_twice`: a packet with two query strings.
-/

namespace Ajp13

open Decoder

/-! ### Setters -/

/-- A part of a request of which there is one value. -/
inductive Setter
  | method
  | protocol
  | requestUri
  | requestPath
  | relativePath
  | queryString
  | scheme
deriving DecidableEq

/-- The part whose value a call gives. -/
def Call.setter? : Call → Option Setter
  | setMethod _ => some .method
  | setProtocol _ => some .protocol
  | setRequestUri _ => some .requestUri
  | setRequestPath _ => some .requestPath
  | setRelativePath _ => some .relativePath
  | setQueryString _ => some .queryString
  | setScheme _ => some .scheme
  | _ => none

/-- How often calls give the value of a part. -/
def timesSet (setter : Setter) (calls : List Call) : Nat :=
  (calls.filterMap Call.setter?).count setter

namespace Decoder

/-- The parts whose values a field gives. -/
def Field.setters : Field → List Setter
  | method _ => [.method]
  | protocol _ => [.protocol]
  | requestUri _ _ => [.requestUri, .requestPath, .relativePath]
  | scheme _ => [.scheme]
  | queryString _ => [.queryString]
  | header _ _ => []
  | attachment _ _ => []

end Decoder

/-- The phase in which a value comes. -/
def Setter.phase : Setter → Phase
  | method => .method
  | protocol => .protocol
  | requestUri | requestPath | relativePath => .requestUri
  | queryString => .attributes
  | scheme => .ssl

variable {σ : Type}

lemma Decoder.Field.filterMap_setter?_calls (field : Field) (conf : Conf)
    (decoded : String → UrlCharset → String) :
    (field.calls conf decoded).filterMap Call.setter? = field.setters := by
  cases field with
  | requestUri text urlChars =>
      rw [calls, RequestUri.calls]
      cases conf.decodeUrl && urlChars <;> cases (RequestUri.ofText text).parameters <;> rfl
  | _ => rfl

/-- Fields give values as often as the calls that tell of them. -/
lemma timesSet_callsOf (setter : Setter) (sink : Sink σ) (conf : Conf) (told : σ)
    (fields : List Field) :
    timesSet setter (sink.callsOf conf told fields) =
      (fields.flatMap Field.setters).count setter := by
  rw [timesSet, Sink.filterMap_callsOf fun field => field.filterMap_setter?_calls conf]

/-! ### Parts that come once -/

namespace Decoder

/-- A value other than the query string comes with each field of its phase, and with no other. -/
lemma Field.count_setters (field : Field) {setter : Setter} (h : setter ≠ .queryString) :
    field.setters.count setter = if field.phase = setter.phase then 1 else 0 := by
  cases setter with
  | queryString => exact absurd rfl h
  | _ => cases field <;> rfl

lemma count_flatMap_setters (fields : List Field) {setter : Setter} (h : setter ≠ .queryString) :
    (fields.flatMap Field.setters).count setter =
      (fields.map Field.phase).count setter.phase := by
  induction fields with
  | nil => rfl
  | cons field fields ih =>
      rw [List.flatMap_cons, List.count_append, ih, field.count_setters h, List.map_cons,
        List.count_cons, Nat.add_comm]
      simp only [beq_iff_eq]

/-- Of the parts that come before the headers, each comes at most once. -/
lemma Orderly.count_phase_le {s : State} (hs : s.Placed) {fields : List Field}
    (h : Orderly s fields) {p : Phase} (hheaders : p ≠ .headers) (hattributes : p ≠ .attributes) :
    (fields.map Field.phase).count p ≤ 1 := by
  obtain ⟨fields', headers, attributes, hfields, hphases, -⟩ := h.exists_request hs
  calc (fields.map Field.phase).count p
      ≤ (fields'.map Field.phase).count p :=
        (hfields.sublist.map Field.phase).count_le p
    _ = requestPhases.count p := by
        rw [hphases, List.count_append, List.count_append,
          List.count_eq_zero_of_not_mem fun hp => hheaders (List.eq_of_mem_replicate hp),
          List.count_eq_zero_of_not_mem fun hp => hattributes (List.eq_of_mem_replicate hp),
          Nat.add_zero]
    _ ≤ 1 := List.nodup_iff_count_le_one.1 (by decide) p

end Decoder

/-! ### Query strings -/

/-- The number of query strings in a packet. -/
def Packet.queryStrings : Packet → Nat
  | signal _ _ _ => 0
  | forward _ body => body.attributes.countP fun a => a.name = AttributeName.queryString

/-- An attribute gives a query string if it is named so. -/
lemma WireAttribute.count_setters (a : WireAttribute) :
    (a.field?.toList.flatMap Field.setters).count .queryString =
      if a.name = AttributeName.queryString then 1 else 0 := by
  rw [field?, told?, ToldAttribute.ofName?]
  split
  · rfl
  split
  · rfl
  split <;> rfl

lemma count_queryString_attributes (attributes : List WireAttribute) :
    ((attributes.filterMap WireAttribute.field?).flatMap Field.setters).count .queryString =
      attributes.countP fun a => a.name = AttributeName.queryString := by
  induction attributes with
  | nil => rfl
  | cons a attributes ih =>
      have hcons : (a :: attributes).filterMap WireAttribute.field? =
          a.field?.toList ++ attributes.filterMap WireAttribute.field? := by
        rw [List.filterMap_cons]
        cases a.field? <;> rfl
      rw [hcons, List.flatMap_append, List.count_append, a.count_setters, ih, List.countP_cons,
        Nat.add_comm]
      simp only [decide_eq_true_eq]

lemma flatMap_setters_headers (headers : List WireHeader) :
    (headers.filterMap WireHeader.field?).flatMap Field.setters = [] := by
  rw [List.flatMap_eq_nil_iff]
  intro field hfield
  obtain ⟨header, -, hheader⟩ := List.mem_filterMap.1 hfield
  have hphase := header.phase_of_field? hheader
  cases field with
  | header name value => rfl
  | _ => cases hphase

/-- Each query string of a packet is given. -/
theorem Packet.count_queryString (q : Packet) :
    (q.fields.flatMap Field.setters).count .queryString = q.queryStrings := by
  cases q with
  | signal size kind other => rfl
  | forward size body =>
      rw [fields, ForwardBody.fields, List.flatMap_append, List.flatMap_append,
        flatMap_setters_headers, List.append_nil, List.count_append, count_queryString_attributes]
      exact Nat.zero_add _

namespace Decoder

variable (conf : Conf) (sink : Sink σ) (told : σ)

/-- Behind more bytes there are more calls. -/
lemma calls_prefix_append (a b : List UInt8) :
    calls conf sink .start told a <+: calls conf sink .start told (a ++ b) := by
  by_cases h : (parse conf sink .start told a).outcome = .suspended
  · rw [calls_append_of_suspended .start conf sink told b h]
    exact List.prefix_append _ _
  · exact ⟨[], (List.append_nil _).trans (calls_append_of_ended .start conf sink told b h).symm⟩

/-- A packet is told of by the calls for its fields. -/
lemma calls_bytes_append (q : Packet) (rest : List UInt8) :
    calls conf sink .start told (q.bytes ++ rest) = sink.callsOf conf told q.fields := by
  rw [calls, parse_bytes_append, Sink.foldl_tell_traced]
  exact List.nil_append _

/-- Behind the beginning of a packet, no more query strings have been given than that packet has. -/
lemma timesSet_le_queryStrings {taken : List UInt8} {q : Packet} (h : taken <+: q.bytes) :
    timesSet .queryString (calls conf sink .start told taken) ≤ q.queryStrings := by
  obtain ⟨rest, h⟩ := h
  have hcalls := calls_prefix_append conf sink told taken rest
  rw [h, ← List.append_nil q.bytes, calls_bytes_append] at hcalls
  rw [← q.count_queryString, ← timesSet_callsOf .queryString sink conf told]
  exact (hcalls.sublist.filterMap Call.setter?).count_le _

lemma exists_viable_of_suspended {w : List UInt8}
    (h : (parse conf sink .start told w).outcome = .suspended) :
    ∃ taken, taken <+: w ∧ Viable taken ∧
      calls conf sink .start told w = calls conf sink .start told taken := by
  by_cases hlength : 2 ≤ w.length
  · exact ⟨w, List.prefix_rfl, viable_of_suspended conf sink told hlength h, rfl⟩
  · -- a single byte need not be the first of any packet, but it is told of by no calls
    refine ⟨[], List.nil_prefix, ⟨.signal 0 0 (by decide), List.nil_prefix⟩, ?_⟩
    rw [calls, calls, parse_eq_scan State.start_coherent, parse_eq_scan State.start_coherent]
    rcases w with _ | ⟨b, _ | ⟨c, w⟩⟩
    · rfl
    · rfl
    · exact absurd (by simp) hlength

/-- A fault adds no calls. -/
lemma exists_suspended_of_failed {w : List UInt8} {fault : Fault}
    (h : (parse conf sink .start told w).outcome = .failed fault) :
    ∃ before, before <+: w ∧ (parse conf sink .start told before).outcome = .suspended ∧
      calls conf sink .start told w = calls conf sink .start told before := by
  have htraced : (parse conf sink.traced .start (told, []) w).outcome = .failed fault :=
    (congrArg Run.outcome (parse_traced State.start_coherent conf sink told [] w)).trans h
  rw [parse_eq_scan State.start_coherent] at htraced
  obtain ⟨before, b, u, hw, hbefore, -⟩ := exists_last_of_failed
    (show scan _ .start (told, []) w = ⟨.failed fault, _, _, _⟩ by rw [← htraced])
  rw [← parse_eq_scan State.start_coherent] at hbefore
  refine ⟨before, ⟨_, hw.symm⟩, ?_, ?_⟩
  · rw [parse_traced State.start_coherent] at hbefore
    exact congrArg Run.outcome hbefore
  · rw [calls, calls, hbefore, parse_eq_scan State.start_coherent]

/-- Whatever the bytes, the calls are those of the beginning of a packet. -/
theorem exists_viable (w : List UInt8) :
    ∃ taken, taken <+: w ∧ Viable taken ∧
      calls conf sink .start told w = calls conf sink .start told taken := by
  cases h : (parse conf sink .start told w).outcome with
  | suspended => exact exists_viable_of_suspended conf sink told h
  | done =>
      obtain ⟨q, rest, rfl⟩ := exists_packet_of_parse_done conf sink told h
      refine ⟨q.bytes, List.prefix_append _ _, ⟨q, List.prefix_rfl⟩, ?_⟩
      rw [calls_bytes_append, ← List.append_nil q.bytes, calls_bytes_append]
  | failed fault =>
      obtain ⟨before, hbefore, hsuspended, hcalls⟩ := exists_suspended_of_failed conf sink told h
      obtain ⟨taken, htaken, hviable, hcalls'⟩ :=
        exists_viable_of_suspended conf sink told hsuspended
      exact ⟨taken, htaken.trans hbefore, hviable, hcalls.trans hcalls'⟩

/-! ### The whole -/

/-- From the start up to the end of a packet or the first fault, whatever the pieces, each value is
given at most once, but for the query string, which is given as often as the packet has one. Of a
packet that is not complete, or has a fault, the beginning is told of, with no more query strings
than in any packet that begins like that. -/
theorem setters_at_most_once (conf : Conf) (sink : Sink σ) (fresh : σ) (piece : List UInt8)
    (pieces : List (List UInt8)) :
    let stream := piece ++ pieces.flatten
    let told := (parsePieces conf sink.traced .start (fresh, []) piece pieces).result.2
    (∀ setter, setter ≠ .queryString → timesSet setter told ≤ 1) ∧
    (∀ q : Packet, q.bytes <+: stream → timesSet .queryString told = q.queryStrings) ∧
    ∃ taken, taken <+: stream ∧ Viable taken ∧ told = calls conf sink .start fresh taken ∧
      ∀ q : Packet, taken <+: q.bytes → timesSet .queryString told ≤ q.queryStrings := by
  intro stream told
  have htold : told = calls conf sink .start fresh stream :=
    congrArg (fun r => r.result.2) (parsePieces_eq_parse .start conf sink.traced _ piece pieces)
  rw [htold]
  refine ⟨?_, ?_, ?_⟩
  · intro setter hsetter
    have horderly := State.start_coherent.collect_orderly (.preamble (by decide)) stream
    have hcoherent := coherent_collect State.start_coherent [] stream
    rw [calls_eq State.start_coherent, timesSet_callsOf, count_flatMap_setters _ hsetter]
    refine horderly.count_phase_le hcoherent.placed ?_ ?_
    · cases setter <;> decide
    · cases setter with
      | queryString => exact absurd rfl hsetter
      | _ => decide
  · rintro q ⟨rest, hq⟩
    rw [← hq, calls_bytes_append, timesSet_callsOf, q.count_queryString]
  · obtain ⟨taken, htaken, hviable, hcalls⟩ := exists_viable conf sink fresh stream
    refine ⟨taken, htaken, hviable, hcalls, fun q hq => ?_⟩
    rw [hcalls]
    exact timesSet_le_queryStrings conf sink fresh hq

/-- A packet with two query strings, each of which is given. -/
theorem query_string_set_twice :
    let r := parsePieces {} Sink.setterRecorder.traced .start (([] : List Call), [])
      ([0x12, 0x34, 0, 0, 2, 2] ++ List.flatten (List.replicate 5 [0xFF, 0xFF])) [[0, 80, 0, 0, 0],
      [5, 0, 1, 0x61, 0], [5, 0, 1, 0x62, 0], [0xFF]]
    r.outcome = .done ∧ timesSet .queryString r.result.2 = 2 := by
  intro r
  have hr : r = _ := parsePieces_eq_parse .start _ _ _ _ _
  rw [hr, parse_eq_scan State.start_coherent]
  decide +kernel

end Decoder

end Ajp13
