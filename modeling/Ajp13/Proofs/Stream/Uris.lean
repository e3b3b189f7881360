import Ajp13.Proofs.Grammar.Variation
import Ajp13.Proofs.Stream.Paths

/-!
The two parts of the URI of a request, and the request that is built of them.

* `ForwardRequest.queryString_foldl`, `ForwardRequest.uri_foldl`: what a request has of its query
  strings and of its URI;
* `ForwardBody.lastQuery?`: the last query string of a request on the wire;
* `uris_in_two_parts`: nothing of a URI is lost between its two parts.
-/

namespace Ajp13

open Decoder

variable {σ : Type}

/-! ### Requests -/

/-- The query string that a field gives. -/
def Decoder.Field.queryString? : Field → Option String
  | queryString text => some text
  | _ => none

namespace ForwardRequest

/-- The last query string counts. -/
lemma queryString_foldl (r : ForwardRequest) (fields : List Field) :
    (fields.foldl learn r).queryString =
      (fields.filterMap Field.queryString?).getLast?.or r.queryString := by
  induction fields using List.reverseRecOn with
  | nil => rfl
  | append_singleton fields field ih =>
      rw [List.foldl_append, List.foldl_cons, List.foldl_nil, List.filterMap_append]
      cases field with
      | queryString text => simp [learn, Field.queryString?]
      | attachment attachment text => cases attachment <;> simpa [learn, Field.queryString?] using ih
      | _ => simpa [learn, addHeader, Field.queryString?] using ih

/-- Fields that are no URI leave both parts of it. -/
lemma uri_foldl (r : ForwardRequest) {fields : List Field}
    (h : ∀ field ∈ fields, field.phase ≠ .requestUri) :
    (fields.foldl learn r).requestUri = r.requestUri ∧
      (fields.foldl learn r).pathParameters = r.pathParameters := by
  refine List.foldlRecOn (motive := fun r' : ForwardRequest =>
    r'.requestUri = r.requestUri ∧ r'.pathParameters = r.pathParameters) fields learn ⟨rfl, rfl⟩ ?_
  intro r' hr' field hfield
  cases field with
  | requestUri text urlChars => exact absurd rfl (h _ hfield)
  | attachment attachment text => cases attachment <;> exact hr'
  | _ => exact hr'

/-- The URI, and behind a question mark the query string if that is not empty. -/
lemma pathAndQuery_eq (r : ForwardRequest) :
    r.pathAndQuery = r.requestUri ++ (r.queryString.filter (· ≠ "")).elim "" ("?" ++ ·) := by
  rw [pathAndQuery]
  cases r.queryString with
  | none => simp
  | some query =>
      by_cases hquery : query = ""
      · simp [hquery, Option.filter]
      · simp [hquery, Option.filter, String.append_assoc]

end ForwardRequest

/-! ### Query strings -/

/-- The query string that an attribute holds. -/
def WireAttribute.query? (a : WireAttribute) : Option String :=
  if a.name = AttributeName.queryString then some a.value else none

/-- The last query string of a request on the wire. -/
def ForwardBody.lastQuery? (b : ForwardBody) : Option String :=
  (b.attributes.filterMap WireAttribute.query?).getLast?

lemma WireAttribute.bind_queryString?_field? (a : WireAttribute) :
    a.field?.bind Field.queryString? = a.query? := by
  rw [field?, told?, ToldAttribute.ofName?, query?]
  split
  · rfl
  split
  · rfl
  split <;> rfl

lemma WireHeader.bind_queryString?_field? (h : WireHeader) :
    h.field?.bind Field.queryString? = none := by
  rw [field?, accepted?]
  cases h.name.name? <;> cases HeaderValue.ofBytes? h.value.content <;> rfl

lemma ForwardBody.filterMap_queryString?_fields (b : ForwardBody) :
    b.fields.filterMap Field.queryString? = b.attributes.filterMap WireAttribute.query? := by
  rw [fields, List.filterMap_append, List.filterMap_append, List.filterMap_filterMap,
    List.filterMap_filterMap]
  simp only [WireAttribute.bind_queryString?_field?, WireHeader.bind_queryString?_field?]
  simp [Field.queryString?]

/-! ### Both parts -/

/-- Both parts, with the semicolon between them, are the text. -/
lemma Decoder.RequestUri.path_append_parameters (text : String) :
    (RequestUri.ofText text).path ++ (RequestUri.ofText text).parameters.elim "" (";" ++ ·) =
      text := by
  apply String.toList_inj.1
  have hparts := Split.before_append_after? ';' text.toList
  rw [RequestUri.ofText, String.toList_append, String.toList_ofList]
  cases hafter : Split.after? ';' text.toList with
  | none => rwa [hafter] at hparts
  | some rest =>
      rw [hafter] at hparts
      simpa using hparts

/-- The request that is built behind an opening has the two parts of its URI. -/
lemma ForwardRequest.uri_of_opening (o : Opening) (rest : List UInt8) :
    let r := (collect .start [] (o.bytes ++ rest)).result.foldl learn {}
    r.requestUri = (RequestUri.ofText o.requestUri.text).path ∧
      r.pathParameters = (RequestUri.ofText o.requestUri.text).parameters := by
  obtain ⟨more, hfields, hmore⟩ := exists_fields_of_opening o rest
  obtain ⟨hpath, hparameters⟩ := uri_foldl (o.fields.foldl learn {}) hmore
  rw [hfields, List.foldl_append]
  exact ⟨hpath, hparameters.trans Option.or_none⟩

/-- The bytes of a complete packet that begins as a forward request are those of one. -/
lemma exists_forward_of_done {put : σ → Field → σ} {acc : σ} {bytes : List UInt8} {o : Opening}
    (ho : o.bytes <+: bytes) (hdone : (run put .start acc bytes).outcome = .done)
    (hrest : (run put .start acc bytes).rest = []) :
    ∃ size body, bytes = (Packet.forward size body).bytes := by
  obtain ⟨q, rest, rfl⟩ := exists_packet_of_done hdone
  rw [run_bytes] at hrest
  obtain rfl : rest = [] := hrest
  rw [List.append_nil] at ho ⊢
  cases q with
  | forward size body => exact ⟨size, body, rfl⟩
  | signal size kind other =>
      -- of such a packet nothing is told, but of an opening there is
      obtain ⟨rest, hbytes⟩ := ho
      obtain ⟨more, hfields, -⟩ := exists_fields_of_opening o rest
      have hsignal := congrArg Run.result (collect_bytes (.signal size kind other) [])
      rw [List.append_nil, ← hbytes, hfields] at hsignal
      cases hsignal

/-- The request that is built behind a forward request, as its path and query. -/
lemma ForwardBody.pathAndQuery (size : UInt16) (b : ForwardBody) :
    let r := (collect .start [] (Packet.forward size b).bytes).result.foldl ForwardRequest.learn {}
    r.pathAndQuery = r.requestUri ++ (b.lastQuery?.filter (· ≠ "")).elim "" ("?" ++ ·) := by
  intro r
  have hfields : (collect .start [] (Packet.forward size b).bytes).result = b.fields := by
    rw [← List.append_nil (Packet.bytes _), collect_bytes]
    rfl
  have hquery : r.queryString = b.lastQuery? := by
    rw [ForwardRequest.queryString_foldl, hfields, filterMap_queryString?_fields, lastQuery?]
    exact Option.or_none
  rw [ForwardRequest.pathAndQuery_eq, hquery]

/-- Nothing of a URI is lost between its two parts. The bytes of its UTF-8, cut at their first
semicolon, are two texts, and these are the readings of the parts of its bytes. However a stream is
cut, and whatever fields at fault there are in it, the sink is given the first part as the URI, once
that has come, and the second as the path parameters if there is a semicolon. A request that is
built has both, and when it is complete, its path and query are the first part and the last query
string. -/
theorem uris_in_two_parts (conf : Conf) (sink : Sink σ) (fresh : σ) (pieces : List (List UInt8)) :
    (∀ content : List UInt8,
      let text := Latin1.decode content
      String.fromUTF8? (Split.before 0x3B (Utf8.encode text)).toByteArray =
        some (Latin1.decode (Split.before 0x3B content)) ∧
      (Split.after? 0x3B (Utf8.encode text)).map (fun bytes => String.fromUTF8? bytes.toByteArray) =
        (Split.after? 0x3B content).map (fun bytes => some (Latin1.decode bytes)) ∧
      Split.before 0x3B content ++ (Split.after? 0x3B content).elim [] (0x3B :: ·) = content ∧
      ';' ∉ (Latin1.decode (Split.before 0x3B content)).toList) ∧
    (let played := (Link.start conf sink.traced (fresh, [])).play .afterFault pieces
      ∀ before report after, played.1 = before ++ report :: after →
        ∀ o : Opening, o.bytes <+: (Sifted.ofLog (before ++ [report])).spared →
          report.after.told.2.filterMap Call.requestUri? =
            [Latin1.decode (Split.before 0x3B o.requestUri.content)] ∧
          report.after.told.2.filterMap Call.pathParameters? =
            ((Split.after? 0x3B o.requestUri.content).map Latin1.decode).toList) ∧
    (let played := (Link.start conf ForwardRequest.sink {}).play .afterFault pieces
      ∀ before report after, played.1 = before ++ report :: after →
        ∀ o : Opening, o.bytes <+: (Sifted.ofLog (before ++ [report])).spared →
          let r := report.after.told
          r.requestUri = Latin1.decode (Split.before 0x3B o.requestUri.content) ∧
          r.requestUri ++ r.pathParameters.elim "" (";" ++ ·) = o.requestUri.text ∧
          (report.after.state.isDone = true →
            ∃ size body, (Sifted.ofLog (before ++ [report])).spared =
                (Packet.forward size body).bytes ∧
              r.pathAndQuery =
                r.requestUri ++ (body.lastQuery?.filter (· ≠ "")).elim "" ("?" ++ ·))) := by
  refine ⟨fun content => ⟨?_, ?_, ?_, ?_⟩, ?_, ?_⟩
  · rw [Utf8.before_encode, RequestUri.ofText_decode, Utf8.fromUTF8?_encode]
  · have hread : (fun bytes : List UInt8 => String.fromUTF8? bytes.toByteArray) ∘ Utf8.encode =
        some := funext fun text => by rw [Function.comp_apply, Utf8.fromUTF8?_encode]
    rw [Utf8.after?_encode, RequestUri.ofText_decode, Option.map_map, hread, Option.map_map]
    rfl
  · exact Split.before_append_after? 0x3B content
  · have hpath := RequestUri.not_mem_path (Latin1.decode content)
    rwa [RequestUri.ofText_decode] at hpath
  · rintro played before report after hlog o ⟨rest, hspared⟩
    rw [← Link.calls_spared conf sink fresh hlog, ← hspared,
      filterMap_calls_of_opening conf sink fresh fun _ h => (Call.eq_none_of_isOfUri h).2.1,
      filterMap_calls_of_opening conf sink fresh fun _ h => (Call.eq_none_of_isOfUri h).2.2,
      WireString.text, RequestUri.ofText_decode, RequestUri.calls]
    cases conf.decodeUrl && o.requestUri.urlChars <;>
      cases Split.after? 0x3B o.requestUri.content <;> exact ⟨rfl, rfl⟩
  · rintro played before report after hlog o ho
    have hrun := Link.parse_spared conf ForwardRequest.sink {} hlog
    have htold : report.after.told = (collect .start []
        (Sifted.ofLog (before ++ [report])).spared).result.foldl ForwardRequest.learn {} := by
      have hcollect := parse_eq_collect State.start_coherent conf ForwardRequest.sink {} []
        (Sifted.ofLog (before ++ [report])).spared
      rw [ForwardRequest.tell_eq_learn] at hcollect
      exact (congrArg Run.result (hrun.symm.trans hcollect) :)
    rw [htold]
    refine ⟨?_, ?_, fun hdone => ?_⟩
    · obtain ⟨rest, hspared⟩ := ho
      rw [← hspared, (ForwardRequest.uri_of_opening o rest).1, WireString.text,
        RequestUri.ofText_decode]
    · obtain ⟨rest, hspared⟩ := ho
      obtain ⟨hpath, hparameters⟩ := ForwardRequest.uri_of_opening o rest
      rw [← hspared, hpath, hparameters, RequestUri.path_append_parameters]
    · rw [hdone] at hrun
      obtain ⟨size, body, hbytes⟩ := exists_forward_of_done ho
        (congrArg Run.outcome hrun) (congrArg Run.rest hrun)
      refine ⟨size, body, hbytes, ?_⟩
      rw [hbytes]
      exact body.pathAndQuery size

/-- A URI with two semicolons and a letter that is not of ASCII, and two query strings. -/
theorem uris_in_two_parts_sample :
    let query (b : UInt8) : WireAttribute :=
      .string (.coded 5 (by decide)) (.literal [b] 0 (show 1 < 0xFFFF by decide)) (by decide)
    let header : WireHeader := ⟨.coded 0x0B (by decide), .null⟩
    let uri := WireString.literal [0x2F, 0xE9, 0x3B, 0x61, 0x3B, 0x62] 0 (by decide)
    let q := Packet.sample 0 uri .null .null 0 header header (query 0x78) (query 0x79)
    let s := Link.start {} ForwardRequest.sink {}
    let report := s.call q.bytes
    let r := report.after.told
    (s.play .afterFault [q.bytes]).1 = [] ++ report :: [] ∧ report.after.state.isDone = true ∧
      r.requestUri ++ r.pathParameters.elim "" (";" ++ ·) = "/é;a;b" ∧ r.pathAndQuery = "/é?y" := by
  intro query header uri q s report r
  have hrun : report.run = ⟨.done, [], q.state, q.fields.foldl (s.sink.tell s.conf) {}⟩ :=
    parse_bytes q
  have houtcome : report.outcome = .done := congrArg Run.outcome hrun
  have hdone : report.after.state.isDone = true := by
    rw [show report.after.state = q.state from congrArg Run.state hrun]
    rfl
  obtain ⟨hlog, hspared⟩ := Link.spared_of_call (s := s)
    (houtcome.symm ▸ fun fault => Outcome.noConfusion) (congrArg Run.rest hrun)
  have hspared : (Sifted.ofLog [report]).spared = q.bytes := hspared
  have hopening : (⟨0, 2, by decide, .null, uri⟩ : Opening).bytes <+:
      (Sifted.ofLog ([] ++ [report])).spared := by
    rw [List.nil_append, hspared]
    decide
  obtain ⟨hpath, huri, hquery⟩ :=
    (uris_in_two_parts {} ForwardRequest.sink {} [q.bytes]).2.2 [] report [] hlog _ hopening
  obtain ⟨size, body, hbytes, hpathAndQuery⟩ := hquery hdone
  obtain ⟨rfl, rfl⟩ := Packet.forward.inj
    (PrefixFree.injective Packet.bytes_prefixFree (hspared.symm.trans hbytes))
  refine ⟨hlog, hdone, huri.trans (by decide), ?_⟩
  rw [hpathAndQuery, hpath]
  decide

end Ajp13
