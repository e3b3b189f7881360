import Ajp13.Decoder.Run
import Ajp13.Proofs.Maps
import Ajp13.Request

/-!
Requests as they are put together from their fields.

* `ForwardRequest.learn`: the request with one more field;
* `ForwardRequest.tell_eq_learn`: this is what the sink that builds a request makes of a field. It
  leaves URLs as they are, so how they are to be treated is all the same to it;
* `ForwardRequest.Plain`: the path is that of the URI, undecoded; `ForwardRequest.plain_learn`: it is
  so once the URI has come;
* `ForwardRequest.headerValues_foldl`: the values of a header come in the order of the fields;
* `ForwardRequest.Whole`: a request that has all its parts; `ForwardRequest.headers_eq_of`: what its
  headers are shows in their values.
-/

namespace Ajp13

open Decoder

/-- The path of a URI has no semicolon. -/
lemma Decoder.RequestUri.not_mem_path (text : String) :
    ';' ∉ (RequestUri.ofText text).path.toList := by
  rw [RequestUri.ofText, String.toList_ofList]
  exact Split.not_mem_before ';' text.toList

namespace ForwardRequest

/-- The request with one more field. -/
def learn (r : ForwardRequest) : Field → ForwardRequest
  | .method method => { r with method }
  | .protocol text => { r with protocol := text }
  | .requestUri text _ =>
      let uri := RequestUri.ofText text
      { r with
        requestUri := uri.path
        requestPath := uri.path
        relativePath := uri.path
        pathParameters := uri.parameters.or r.pathParameters }
  | .scheme scheme => { r with scheme := some scheme }
  | .header name value => r.addHeader name value
  | .queryString text => { r with queryString := some text }
  | .attachment .externalPrincipal text => { r with principal := some text }
  | .attachment .externalAuthenticationType text => { r with authenticationType := some text }

/-- A request learns of a field in one way, whatever the configuration. -/
theorem tell_eq_learn (conf : Conf) : ForwardRequest.sink.tell conf = learn := by
  funext r field
  cases field with
  | requestUri text urlChars =>
      rw [Sink.tell, Field.calls, RequestUri.calls, learn]
      cases conf.decodeUrl && urlChars <;> cases (RequestUri.ofText text).parameters <;> rfl
  | attachment attachment text => cases attachment <;> rfl
  | _ => rfl

/-- The path of a request is that of its URI. -/
def Plain (r : ForwardRequest) : Prop :=
  r.requestPath = r.requestUri ∧ r.relativePath = r.requestUri

/-- The path stays that of the URI, and becomes it when the URI comes. -/
lemma plain_learn {r : ForwardRequest} {field : Field}
    (h : r.Plain ∨ ∃ text urlChars, field = .requestUri text urlChars) : (r.learn field).Plain := by
  cases field with
  | requestUri text urlChars => exact ⟨rfl, rfl⟩
  | attachment attachment text =>
      obtain h | ⟨_, _, h⟩ := h
      · cases attachment <;> exact h
      · cases h
  | _ =>
      obtain h | ⟨_, _, h⟩ := h
      · exact h
      · cases h

/-- A request is told of its URI with no field but that. -/
lemma exists_requestUri_of_mem_calls {field : Field} {conf : Conf}
    {decoded : String → UrlCharset → String} {uri : String}
    (h : .setRequestUri uri ∈ field.calls conf decoded) :
    ∃ text urlChars, field = .requestUri text urlChars := by
  cases field with
  | requestUri text urlChars => exact ⟨text, urlChars, rfl⟩
  | _ => simp [Field.calls] at h

end ForwardRequest

/-! ### Headers -/

/-- No two headers have the same name. -/
lemma HeaderName.text_inj {n n' : HeaderName} (h : n.text = n'.text) : n = n' := by
  have hsome : some n = some n' := by rw [← n.ofText?_text, h, n'.ofText?_text]
  exact Option.some.inj hsome

/-- The value that a field gives to a header. -/
def Decoder.Field.headerValue? (name : HeaderName) : Field → Option HeaderValue
  | header name' value => if name' = name then some value else none
  | _ => none

namespace ForwardRequest

lemma headerValues_learn (r : ForwardRequest) (field : Field) (name : HeaderName) :
    (r.learn field).headerValues name =
      r.headerValues name ++ (field.headerValue? name).toList := by
  cases field with
  | header name' value =>
      rw [learn, addHeader, headerValues, Field.headerValue?]
      by_cases hname : name' = name
      · rw [hname, NameMap.get?_alter_self, if_pos rfl]
        simp [headerValues]
      · have htext : name.text ≠ name'.text := fun h => hname (HeaderName.text_inj h).symm
        rw [NameMap.get?_alter_of_ne _ htext, if_neg hname]
        simp [headerValues]
  | attachment attachment text => cases attachment <;> exact (List.append_nil _).symm
  | _ => exact (List.append_nil _).symm

/-- The values of a header come in the order of the fields. -/
theorem headerValues_foldl (r : ForwardRequest) (fields : List Field) (name : HeaderName) :
    (fields.foldl learn r).headerValues name =
      r.headerValues name ++ fields.filterMap (Field.headerValue? name) := by
  induction fields generalizing r with
  | nil => exact (List.append_nil _).symm
  | cons field fields ih =>
      rw [List.foldl_cons, ih, headerValues_learn, List.filterMap_cons]
      cases field.headerValue? name <;> simp

/-! ### Whole requests -/

/-- A request that has all its parts. -/
structure Whole (r : ForwardRequest) : Prop where
  method : r.method.code?.isSome = true
  path : ';' ∉ r.requestUri.toList
  plain : r.Plain
  scheme : r.scheme.isSome = true
  /-- What has an entry among the headers is a header with a value. -/
  headers : ∀ key values, r.headers.get? key = some values →
    values ≠ [] ∧ ∃ name : HeaderName, name.text = key

/-- A request that has all its parts keeps them. -/
lemma Whole.learn {r : ForwardRequest} (hr : r.Whole) {field : Field}
    (hfield : ∀ method, field = .method method → method.code?.isSome = true) :
    (r.learn field).Whole where
  method := by
    cases field with
    | method method => exact hfield method rfl
    | attachment attachment text => cases attachment <;> exact hr.method
    | _ => exact hr.method
  path := by
    cases field with
    | requestUri text urlChars => exact RequestUri.not_mem_path text
    | attachment attachment text => cases attachment <;> exact hr.path
    | _ => exact hr.path
  plain := plain_learn (.inl hr.plain)
  scheme := by
    cases field with
    | scheme scheme => rfl
    | attachment attachment text => cases attachment <;> exact hr.scheme
    | _ => exact hr.scheme
  headers := by
    intro key values h
    cases field with
    | header name value =>
        by_cases hkey : key = name.text
        · rw [ForwardRequest.learn, addHeader, hkey, NameMap.get?_alter_self] at h
          cases h
          exact ⟨List.cons_ne_nil _ _, name, hkey.symm⟩
        · rw [ForwardRequest.learn, addHeader, NameMap.get?_alter_of_ne _ hkey] at h
          exact hr.headers key values h
    | attachment attachment text => cases attachment <;> exact hr.headers key values h
    | _ => exact hr.headers key values h

/-- What the headers are shows in their values. -/
theorem headers_eq_of {r r' : ForwardRequest} (hr : r.Whole) (hr' : r'.Whole)
    (h : ∀ name, r.headerValues name = r'.headerValues name) : r.headers = r'.headers := by
  have hle : ∀ {r r' : ForwardRequest}, r.Whole →
      (∀ name, r.headerValues name = r'.headerValues name) →
      ∀ key values, r.headers.get? key = some values → r'.headers.get? key = some values := by
    intro r r' hr h key values hvalues
    obtain ⟨hne, name, rfl⟩ := hr.headers key values hvalues
    have hname := h name
    rw [headerValues, headerValues, hvalues, List.reverse_inj] at hname
    cases hget : r'.headers.get? name.text with
    | none =>
        rw [hget] at hname
        exact absurd hname hne
    | some values' =>
        rw [hget] at hname
        exact congrArg some hname.symm
  refine NameMap.ext_get? fun key => Option.ext fun values => ⟨?_, ?_⟩
  · exact hle hr h key values
  · exact hle hr' (fun name => (h name).symm) key values

end ForwardRequest

end Ajp13
