import Ajp13.Proofs.Grammar.Fields
import Ajp13.Proofs.Stream.Refused

/-!
What becomes of the URI of a request.

* `RequestUri.ofText_decode`: a URI is cut where its bytes have their first semicolon, and so are the
  bytes of its UTF-8, by `Utf8.before_encode` and `Utf8.after?_encode`;
* `filterMap_calls_of_opening`, `filterMap_calls_of_no_opening`: what calls say of a URI;
* `paths_decoded`: when a sink is asked to decode a path. `path_decoded_for_parameters`: it may be
  asked although only the parameters have an encoded character.
-/

namespace Ajp13

open Decoder

variable {σ : Type}

/-! ### Two parts -/

lemma Latin1.char_eq_semicolon_iff {b : UInt8} : char b = ';' ↔ b = 0x3B :=
  ⟨fun h => char_inj (h.trans (by rfl)), by rintro rfl; rfl⟩

/-- A URI is cut where its bytes have their first semicolon. -/
theorem Decoder.RequestUri.ofText_decode (content : List UInt8) :
    RequestUri.ofText (Latin1.decode content) =
      ⟨Latin1.decode (Split.before 0x3B content),
        (Split.after? 0x3B content).map Latin1.decode⟩ := by
  have hchar := fun b => Latin1.char_eq_semicolon_iff (b := b)
  rw [RequestUri.ofText, Latin1.toList_decode, Split.before_map hchar, Split.after?_map hchar,
    Option.map_map]
  rfl

namespace Utf8

/-- No character but a semicolon has the byte of one. -/
lemma not_mem_encodeChar {c : Char} (hc : c ≠ ';') : 0x3B ∉ String.utf8EncodeChar c := by
  intro h
  by_cases hascii : c.toNat < 128
  · rw [encodeChar_of_ascii hascii] at h
    have hbyte := congrArg UInt8.toNat (List.mem_singleton.1 h)
    rw [UInt8.toNat_ofNat', Nat.mod_eq_of_lt (by omega)] at hbyte
    exact hc (Char.toNat_inj.1 hbyte.symm)
  · exact absurd (le_of_mem_encodeChar (Nat.le_of_not_lt hascii) h) (by decide)

/-- Before the first semicolon of the bytes of a text, there are the bytes of its first part. -/
theorem before_encode (text : String) :
    Split.before 0x3B (encode text) = encode (RequestUri.ofText text).path := by
  have hsep : String.utf8EncodeChar ';' = [0x3B] := rfl
  rw [encode, Split.before_flatMap hsep fun c => not_mem_encodeChar, encode, RequestUri.ofText,
    String.toList_ofList]

/-- And behind it there are those of its second. -/
theorem after?_encode (text : String) :
    Split.after? 0x3B (encode text) = (RequestUri.ofText text).parameters.map encode := by
  have hsep : String.utf8EncodeChar ';' = [0x3B] := rfl
  rw [encode, Split.after?_flatMap hsep fun c => not_mem_encodeChar, RequestUri.ofText,
    Option.map_map]
  refine congrArg (Option.map · _) (funext fun chars => ?_)
  rw [Function.comp_apply, encode, String.toList_ofList]

end Utf8

/-! ### Calls -/

namespace Call

/-- Whether a call tells of a URI. -/
def isOfUri : Call → Bool
  | decodeUrl _ _ | setRequestUri _ | setRequestPath _ | setRelativePath _ => true
  | parsePathParameters _ _ _ => true
  | _ => false

/-- The path that a call asks to decode, and its character set. -/
def toDecode? : Call → Option (String × UrlCharset)
  | decodeUrl raw charset => some (raw, charset)
  | _ => none

/-- The URI that a call gives. -/
def requestUri? : Call → Option String
  | setRequestUri uri => some uri
  | _ => none

/-- The path parameters that a call gives. -/
def pathParameters? : Call → Option String
  | parsePathParameters parameters _ _ => some parameters
  | _ => none

/-- What calls that tell of no URI say of one. -/
lemma eq_none_of_isOfUri {call : Call} (h : call.isOfUri = false) :
    call.toDecode? = none ∧ call.requestUri? = none ∧ call.pathParameters? = none := by
  cases call with
  | decodeUrl | setRequestUri | parsePathParameters => cases h
  | _ => exact ⟨rfl, rfl, rfl⟩

end Call

lemma Decoder.Field.isOfUri_of_mem_calls {field : Field} (h : field.phase ≠ .requestUri)
    {conf : Conf} {decoded : String → UrlCharset → String} {call : Call}
    (hcall : call ∈ field.calls conf decoded) : call.isOfUri = false := by
  cases field with
  | requestUri text urlChars => exact absurd rfl h
  | queryString text =>
      obtain rfl | hcall := List.mem_cons.1 hcall
      · rfl
      · obtain rfl := List.mem_singleton.1 hcall
        rfl
  | _ =>
      obtain rfl := List.mem_singleton.1 hcall
      rfl

/-- Fields that are no URI are told of by calls that tell of none. -/
lemma Sink.isOfUri_of_mem_callsOf {sink : Sink σ} {conf : Conf} {told : σ} {fields : List Field}
    (h : ∀ field ∈ fields, field.phase ≠ .requestUri) {call : Call}
    (hcall : call ∈ sink.callsOf conf told fields) : call.isOfUri = false := by
  obtain ⟨field, hfield, decoded, hcall⟩ := exists_field_of_mem_callsOf hcall
  exact Field.isOfUri_of_mem_calls (h field hfield) hcall

namespace Decoder

variable (conf : Conf) (sink : Sink σ) (fresh : σ) {α : Type} {pick : Call → Option α}
  (hpick : ∀ call : Call, call.isOfUri = false → pick call = none)
include hpick

/-- What calls say of the URI behind an opening, they say of that in the opening. -/
lemma filterMap_calls_of_opening (o : Opening) (rest : List UInt8) :
    (calls conf sink .start fresh (o.bytes ++ rest)).filterMap pick =
      ((RequestUri.ofText o.requestUri.text).calls conf
        (sink.decoded ((o.fields.take 2).foldl (sink.tell conf) fresh))
        o.requestUri.urlChars).filterMap pick := by
  obtain ⟨more, hfields, hmore⟩ := exists_fields_of_opening o rest
  rw [calls_eq State.start_coherent, hfields, Sink.callsOf_append, List.filterMap_append,
    List.filterMap_eq_nil_iff.2 fun call hcall => hpick call (Sink.isOfUri_of_mem_callsOf hmore hcall),
    List.append_nil]
  change (.setMethod _ :: .setProtocol _ :: (_ ++ [])).filterMap pick = _
  rw [List.filterMap_cons_none (hpick _ rfl), List.filterMap_cons_none (hpick _ rfl),
    List.append_nil]
  rfl

/-- Without an opening, they say nothing. -/
lemma filterMap_calls_of_no_opening {bytes : List UInt8}
    (hnone : ∀ o : Opening, ¬o.bytes <+: bytes) :
    (calls conf sink .start fresh bytes).filterMap pick = [] := by
  rw [calls_eq State.start_coherent]
  refine List.filterMap_eq_nil_iff.2 fun call hcall => hpick call ?_
  exact Sink.isOfUri_of_mem_callsOf (fun field => phase_ne_requestUri_of_mem_collect hnone) hcall

end Decoder

/-! ### Paths to decode -/

/-- Whether a URI has an encoded character shows in its bytes. -/
lemma WireString.urlChars_iff (w : WireString) :
    w.urlChars = true ↔ 0x25 ∈ w.content ∨ 0x2B ∈ w.content :=
  any_isUrlByte_iff w.content

/-- When a sink is asked to decode a path: once the URI is complete, if decoding is asked for and the
URI has an encoded character, be it in the path or in the parameters, and then once. The path is what
comes before the first semicolon. So it is behind each call on a stream, however that is cut, and
whatever fields at fault there are in it. -/
theorem paths_decoded (conf : Conf) (sink : Sink σ) (fresh : σ) (pieces : List (List UInt8)) :
    let played := (Link.start conf sink.traced (fresh, [])).play .afterFault pieces
    ∀ before report after, played.1 = before ++ report :: after →
      let spared := (Sifted.ofLog (before ++ [report])).spared
      let asked := report.after.told.2.filterMap Call.toDecode?
      (∀ o : Opening, o.bytes <+: spared → asked =
        if conf.decodeUrl = true ∧
            (0x25 ∈ o.requestUri.content ∨ 0x2B ∈ o.requestUri.content) then
          [(Latin1.decode (Split.before 0x3B o.requestUri.content), conf.charset)]
        else []) ∧
      ((∀ o : Opening, ¬o.bytes <+: spared) → asked = []) := by
  intro played before report after hlog spared asked
  have hpick : ∀ call : Call, call.isOfUri = false → call.toDecode? = none :=
    fun call hcall => (Call.eq_none_of_isOfUri hcall).1
  have htold : calls conf sink .start fresh spared = report.after.told.2 :=
    Link.calls_spared conf sink fresh hlog
  refine ⟨?_, fun hnone => ?_⟩
  · rintro o ⟨rest, hspared⟩
    have hasked : asked = (calls conf sink .start fresh (o.bytes ++ rest)).filterMap
        Call.toDecode? := by rw [hspared, htold]
    rw [hasked, filterMap_calls_of_opening conf sink fresh hpick, WireString.text,
      RequestUri.ofText_decode, RequestUri.calls]
    simp only [← o.requestUri.urlChars_iff, ← Bool.and_eq_true]
    cases conf.decodeUrl && o.requestUri.urlChars <;>
      cases Split.after? 0x3B o.requestUri.content <;> rfl
  · change report.after.told.2.filterMap Call.toDecode? = []
    rw [← htold, filterMap_calls_of_no_opening conf sink fresh hpick hnone]

/-- An opening whose path has no encoded character, although its parameters have one. -/
def Opening.encodedParameters : Opening where
  size := 0
  method := 4
  known_method := by decide
  protocol := .null
  requestUri := .literal [0x2F, 0x61, 0x3B, 0x25] 0 (by decide)

/-- Behind it, the sink has been asked to decode its path. -/
theorem paths_decoded_encodedParameters :
    let s := Link.start {} Sink.setterRecorder.traced (([] : List Call), [])
    let report := s.call Opening.encodedParameters.bytes
    (s.play .afterFault [Opening.encodedParameters.bytes]).1 = [] ++ report :: [] ∧
      report.after.told.2.filterMap Call.toDecode? = [("/a", .utf8)] := by
  intro s report
  have hsuspended : report.outcome = .suspended := by
    change (parse {} Sink.setterRecorder.traced .start (([] : List Call), [])
      Opening.encodedParameters.bytes).outcome = _
    rw [parse_eq_scan State.start_coherent]
    decide +kernel
  obtain ⟨hlog, hspared⟩ := Link.spared_of_call (s := s)
    (hsuspended.symm ▸ fun fault => Outcome.noConfusion) (s.buffer_of_suspended _ hsuspended)
  refine ⟨hlog, ?_⟩
  have hasked := (paths_decoded {} Sink.setterRecorder [] [Opening.encodedParameters.bytes] []
    report [] hlog).1 Opening.encodedParameters ⟨[], (List.append_nil _).trans hspared.symm⟩
  exact hasked.trans (by decide)

/-- A request whose path the sink is asked to decode although it has no encoded character: only its
parameters have one. -/
theorem path_decoded_for_parameters :
    let bytes := Opening.encodedParameters.bytes ++ List.replicate 6 0xFF ++ [0, 80, 0, 0, 0, 0xFF]
    let r := parse {} Sink.setterRecorder.traced .start (([] : List Call), []) bytes
    r.outcome = .done ∧ .decodeUrl "/a" .utf8 ∈ r.result.2 ∧
      '%' ∉ "/a".toList ∧ '+' ∉ "/a".toList := by
  intro bytes r
  have hr : r = _ := parse_eq_scan State.start_coherent _ _ _ _
  rw [hr]
  decide +kernel

end Ajp13
