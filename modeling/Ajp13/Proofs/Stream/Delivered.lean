import Ajp13.Proofs.Grammar.Fields
import Ajp13.Proofs.Stream.Refused

/-!
The headers that a sink is told of.

* `Call.header?`: the header that a call gives;
* `WireHeader.accepted?_eq_some_iff`, `WireHeaderName.name?_eq_some_iff`, `HeaderValue.exists_iff`:
  which headers are accepted, and as what;
* `headers_delivered`: behind each call, the headers of which all bytes have come are counted, and
  those that are accepted have been given, each once and in the order of the wire.
-/

namespace Ajp13

open Decoder

variable {σ : Type}

/-- The header that a call gives. -/
def Call.header? : Call → Option (HeaderName × HeaderValue)
  | addHeader name value => some (name, value)
  | _ => none

/-- A field gives the header that it is. -/
lemma Decoder.Field.filterMap_header?_calls (field : Field) (conf : Conf)
    (decoded : String → UrlCharset → String) :
    (field.calls conf decoded).filterMap Call.header? = field.header?.toList := by
  cases field with
  | requestUri text urlChars =>
      rw [calls, RequestUri.calls]
      cases conf.decodeUrl && urlChars <;> cases (RequestUri.ofText text).parameters <;> rfl
  | _ => rfl

/-! ### Headers that are accepted -/

namespace WireHeaderName

/-- A name is that of its code, or a token in any mix of cases. -/
lemma name?_eq_some_iff {n : WireHeaderName} {name : HeaderName} :
    n.name? = some name ↔
      (∃ code known, n = coded code known ∧ HeaderName.ofCode? code = some name) ∨
      ∃ w unmarked, n = spelled w unmarked ∧ isToken w.text = true ∧
        name.text = HeaderName.fold w.text := by
  cases n with
  | coded code known =>
      constructor
      · intro h
        exact .inl ⟨code, known, rfl, h⟩
      · rintro (⟨_, _, h, hcode⟩ | ⟨_, _, h, -⟩)
        · cases h
          exact hcode
        · cases h
  | spelled w unmarked =>
      have hlength : w.text.length ≤ 65535 := by
        rw [WireString.text, Latin1.length_decode]
        cases w with
        | null => exact Nat.zero_le _
        | literal content terminator fits => exact Nat.le_of_lt fits
      rw [name?, HeaderName.ofBytes?, ← WireString.text, HeaderName.ofText?_eq_some_iff]
      constructor
      · rintro ⟨htoken, -, hname⟩
        exact .inr ⟨w, unmarked, rfl, htoken, hname⟩
      · rintro (⟨_, _, h, -⟩ | ⟨_, _, h, htoken, hname⟩)
        · cases h
        · cases h
          exact ⟨htoken, hlength, hname⟩

end WireHeaderName

namespace WireHeader

variable {h : WireHeader}

lemma accepted?_eq_some_iff {name : HeaderName} {value : HeaderValue} :
    h.accepted? = some (name, value) ↔
      h.name.name? = some name ∧ value.bytes = h.value.content := by
  rw [accepted?, ← HeaderValue.ofBytes?_eq_some_iff]
  cases h.name.name? <;> cases HeaderValue.ofBytes? h.value.content <;> simp

end WireHeader

/-- The bytes of header values are a tab, and those from the blank on except DEL. -/
lemma HeaderValue.exists_iff {bytes : List UInt8} :
    (∃ value : HeaderValue, value.bytes = bytes) ↔ ∀ b ∈ bytes, b = 9 ∨ 32 ≤ b ∧ b ≠ 127 := by
  simp only [← isHeaderValueByte_iff, ← List.all_eq_true]
  constructor
  · rintro ⟨value, rfl⟩
    exact value.isHeaderValue_bytes
  · exact fun h => ⟨⟨bytes, h⟩, rfl⟩

/-! ### Streams -/

/-- Behind each call on a stream, however that is cut, and whatever fields at fault there are in it,
the headers of which all bytes have come are counted, and those of them that are accepted have been
given, each once and in the order of the wire. A header is accepted if its name is a code or a token,
and its value has no control characters but tabs; the name is given in lower case, and the value as
it is. So no other names and values are given. -/
theorem headers_delivered (conf : Conf) (sink : Sink σ) (fresh : σ) (pieces : List (List UInt8)) :
    (let played := (Link.start conf sink.traced (fresh, [])).play .afterFault pieces
      ∀ before report after, played.1 = before ++ report :: after →
        ∃ headers : List WireHeader,
          (∀ headers', CompleteHeaders (Sifted.ofLog (before ++ [report])).spared headers' ↔
            headers' = headers) ∧
          report.after.state.headersRead = headers.length ∧
          report.after.told.2.filterMap Call.header? =
            headers.filterMap WireHeader.accepted? ∧
          ∀ name value, .addHeader name value ∈ report.after.told.2 →
            (name.text ≠ "" ∧ ∀ c ∈ name.text.toList, isTokenChar c = true ∧ c.isUpper = false) ∧
            ∀ b ∈ value.bytes, b = 9 ∨ 32 ≤ b ∧ b ≠ 127) ∧
    (∀ (h : WireHeader) (name : HeaderName) (value : HeaderValue),
      h.accepted? = some (name, value) ↔
        ((∃ code known, h.name = .coded code known ∧ HeaderName.ofCode? code = some name) ∨
          ∃ w unmarked, h.name = .spelled w unmarked ∧ isToken w.text = true ∧
            name.text = HeaderName.fold w.text) ∧
        value.bytes = h.value.content) ∧
    ∀ bytes : List UInt8,
      (∃ value : HeaderValue, value.bytes = bytes) ↔ ∀ b ∈ bytes, b = 9 ∨ 32 ≤ b ∧ b ≠ 127 := by
  refine ⟨?_, fun h name value => ?_, fun bytes => HeaderValue.exists_iff⟩
  · intro played before report after hlog
    obtain ⟨headers, hheaders⟩ :=
      CompleteHeaders.exists_headers (Sifted.ofLog (before ++ [report])).spared
    obtain ⟨hread, hfields⟩ := hheaders.collect
    have hrun := Link.parse_spared conf sink.traced (fresh, []) hlog
    refine ⟨headers, fun headers' => ⟨fun h => h.unique hheaders, ?_⟩, ?_, ?_, ?_⟩
    · rintro rfl
      exact hheaders
    · have hcollect := parse_eq_collect State.start_coherent conf sink.traced (fresh, []) []
        (Sifted.ofLog (before ++ [report])).spared
      rw [← hread]
      exact congrArg (fun r => r.state.headersRead) (hrun.symm.trans hcollect)
    · rw [← Link.calls_spared conf sink fresh hlog, calls_eq State.start_coherent,
        Sink.filterMap_callsOf fun field => field.filterMap_header?_calls conf, ← hfields,
        List.filterMap_eq_flatMap_toList]
    · intro name value _
      obtain ⟨htoken, hlower⟩ := name.isToken_text_and_isUpper
      rw [isToken, Bool.and_eq_true, bne_iff_ne] at htoken
      exact ⟨⟨htoken.1, fun c hc => ⟨name.isTokenChar_of_mem hc, hlower c hc⟩⟩,
        HeaderValue.exists_iff.1 ⟨value, rfl⟩⟩
  · rw [WireHeader.accepted?_eq_some_iff, WireHeaderName.name?_eq_some_iff]

/-- Two headers with the code of none between them. The second one is counted, but not given, since
its value is a line feed. -/
theorem headers_delivered_past_fault :
    let d : Head := {
      size := 0, method := 2, known_method := by decide, protocol := .null, requestUri := .null
      remoteAddress := .null, remoteHost := .null, serverName := .null, serverPort := 80, ssl := 0
      headerCount := 2 }
    let h : WireHeader := ⟨.coded 0x0B (by decide), .literal [0x78] 0 (by decide)⟩
    let h' : WireHeader := ⟨.spelled (.literal [0x41] 0 (by decide)) (by decide),
      .literal [0x0A] 0 (by decide)⟩
    let s := Link.start {} Sink.setterRecorder.traced (([] : List Call), [])
    let piece := d.bytes ++ h.bytes ++ [Marker.headerCode, 0x63] ++ h'.bytes
    let first := s.call piece
    let second := first.after.call []
    (s.play .afterFault [piece]).1 = [first] ++ second :: [] ∧
      second.after.state.headersRead = 2 ∧
      second.after.told.2.filterMap Call.header? = h.accepted?.toList := by
  intro d h h' s piece first second
  have hscan : first.run = scan (s.sink.tell s.conf) .start s.told ([] ++ piece) :=
    parse_eq_scan State.start_coherent _ _ _ _
  have hfailed : first.outcome = .failed (.unknownHeaderCode 0x63) := by
    rw [show first.outcome = _ from congrArg Run.outcome hscan]
    decide +kernel
  have hbuffer : first.after.buffer = h'.bytes := by
    rw [show first.after.buffer = _ from congrArg Run.rest hscan]
    decide +kernel
  -- the first call takes the code to its end, and is then behind the first header
  have htaken : first.taken = d.bytes ++ h.bytes ++ [Marker.headerCode, 0x63] := by
    have hbytes : first.taken ++ first.after.buffer = [] ++ piece := (s.taken_call piece).1
    rw [hbuffer, List.nil_append] at hbytes
    exact List.append_cancel_right hbytes
  obtain ⟨spared, hspared, hreaches, -⟩ := (Link.Reaches.refl s).exists_spared rfl hfailed
  obtain rfl : d.bytes ++ h.bytes = spared :=
    List.append_cancel_right (htaken.symm.trans ((List.nil_append _).symm.trans hspared))
  -- and the second call takes the second header
  have hsecond : second.run = scan (s.sink.tell s.conf) .start s.told
      (d.bytes ++ h.bytes ++ (first.after.buffer ++ [])) :=
    (hreaches.parse_append _).symm.trans (parse_eq_scan State.start_coherent _ _ _ _)
  rw [List.append_nil, hbuffer] at hsecond
  have hsuspended : second.outcome = .suspended := by
    rw [show second.outcome = _ from congrArg Run.outcome hsecond]
    decide +kernel
  have hok : ∀ fault, second.outcome ≠ .failed fault := hsuspended ▸ fun fault => Outcome.noConfusion
  have htaken' : second.taken = h'.bytes := by
    have hbytes := (first.after.taken_call []).1
    rw [first.after.buffer_of_suspended [] hsuspended, List.append_nil, List.append_nil] at hbytes
    exact hbytes.trans hbuffer
  have hlog : (s.play .afterFault [piece]).1 = [first] ++ second :: [] := by
    rw [Link.play, Link.exhaust_of_some (Again.next?_afterFault_of_failed hfailed),
      Link.exhaust_of_none (Again.next?_afterFault_of_ne hok)]
    rfl
  have hspared : (Sifted.ofLog ([first] ++ [second])).spared =
      d.bytes ++ ([h, h'].flatMap WireHeader.bytes ++ []) := by
    have hfirst : Sifted.ofLog [first] = ⟨[(d.bytes ++ h.bytes, .unknownHeaderCode 0x63)], []⟩ :=
      Sifted.add_of_failed (x := {}) hfailed htaken
    rw [Sifted.ofLog_append, hfirst, Sifted.add_of_ne hok, htaken']
    simp only [Sifted.spared, List.flatMap_cons, List.flatMap_nil, List.append_nil,
      List.nil_append, List.append_assoc]
  have hcomplete : CompleteHeaders (Sifted.ofLog ([first] ++ [second])).spared [h, h'] :=
    .behind d _ [] hspared (.inl rfl)
  obtain ⟨headers, hunique, hread, hgiven, -⟩ :=
    (headers_delivered {} Sink.setterRecorder [] [piece]).1 [first] second [] hlog
  obtain rfl := (hunique _).1 hcomplete
  exact ⟨hlog, hread, hgiven.trans (by decide)⟩

end Ajp13
