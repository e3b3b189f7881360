import Ajp13.Decoder.Field
import Ajp13.WellKnown
import Mathlib.Tactic.Lemma

/-!
What a sink is told of a request, and by which calls.

* `Transcript`: what a sink is told; `Transcript.groups` are the calls, those that come at once in
  one group;
* `Message`: what a packet says that a sink is told of; `Message.transcript`: what a given sink is
  told of it; `Message.callsTo`: the calls that tell of it, one by one;
* `Sink.callsOf`, `Sink.groupsOf`: the calls that tell a sink of some fields;
* `Message.groups_transcript`: those of a message are told of by the calls of its transcript.
-/

namespace Ajp13

open Decoder

variable {σ : Type}

/-! ### Transcripts -/

/-- An attribute that a sink is told of. -/
inductive ToldAttribute
  | query (text : String)
  | attachment (attachment : Attachment) (text : String)

namespace ToldAttribute

/-- The attribute of a name, if a sink is told of it. -/
def ofName? (name value : String) : Option ToldAttribute :=
  if name = AttributeName.queryString then some (query value)
  else if name = AttributeName.remoteUser then some (attachment .externalPrincipal value)
  else if name = AttributeName.authType then some (attachment .externalAuthenticationType value)
  else none

/-- The field that such an attribute is. -/
def field : ToldAttribute → Field
  | query text => .queryString text
  | attachment a text => .attachment a text

/-- The calls that tell of an attribute. -/
def calls (conf : Conf) : ToldAttribute → List Call
  | query text => [.parseQueryString text conf.charset conf.decodeUrl, .setQueryString text]
  | attachment a text => [.putAttachment a text]

end ToldAttribute

/-- What a sink is told of a request. -/
structure Transcript where
  method : Method
  protocol : String
  path : String
  /-- What the sink answered, if it was asked to decode the path. -/
  answer : Option String
  parameters : Option String
  scheme : Scheme
  headers : List (HeaderName × HeaderValue)
  attributes : List ToldAttribute

namespace Transcript

/-- The calls that tell of the URI. -/
def uriCalls (conf : Conf) (t : Transcript) : List Call :=
  (t.answer.map fun _ => Call.decodeUrl t.path conf.charset).toList ++
  [.setRequestUri t.path, .setRequestPath (t.answer.getD t.path),
    .setRelativePath (t.answer.getD t.path)] ++
  (t.parameters.map fun p => Call.parsePathParameters p conf.charset t.answer.isSome).toList

/-- The calls in their order, in groups of those that come at once. -/
def groups (conf : Conf) (t : Transcript) : List (List Call) :=
  [[.setMethod t.method], [.setProtocol t.protocol], t.uriCalls conf, [.setScheme t.scheme]] ++
  t.headers.map (fun h => [.addHeader h.1 h.2]) ++ t.attributes.map (ToldAttribute.calls conf)

/-- What a sink answers that is told of the method and the protocol, and then asked to decode a
path. -/
def answerTo (conf : Conf) (sink : Sink σ) (fresh : σ) (m : Method) (protocol path : String) :
    String :=
  sink.decoded ([.setMethod m, .setProtocol protocol].foldl sink.accept fresh) path conf.charset

end Transcript

/-! ### Messages -/

/-- What a packet says that a sink is told of. -/
structure Message where
  method : Method
  protocol : String
  uri : String
  /-- Whether the URI has characters that encode others. -/
  urlChars : Bool
  scheme : Scheme
  headers : List (HeaderName × HeaderValue)
  attributes : List ToldAttribute

namespace Message

/-- The fields of a message. -/
def fields (m : Message) : List Field :=
  [.method m.method, .protocol m.protocol, .requestUri m.uri m.urlChars, .scheme m.scheme] ++
  m.headers.map (fun h => .header h.1 h.2) ++ m.attributes.map ToldAttribute.field

/-- What a sink is told of a message. The path ends at the first semicolon; it is decoded if decoding
is asked for and the URI, parameters included, has characters that encode others. -/
def transcript (conf : Conf) (sink : Sink σ) (fresh : σ) (m : Message) : Transcript :=
  let path := String.ofList (Split.before ';' m.uri.toList)
  { method := m.method
    protocol := m.protocol
    path
    answer :=
      if conf.decodeUrl && m.urlChars then
        some (Transcript.answerTo conf sink fresh m.method m.protocol path)
      else none
    parameters := (Split.after? ';' m.uri.toList).map String.ofList
    scheme := m.scheme
    headers := m.headers
    attributes := m.attributes }

/-- The calls that tell a sink of a message. -/
def callsTo (conf : Conf) (sink : Sink σ) (fresh : σ) (m : Message) : List Call :=
  ((m.transcript conf sink fresh).groups conf).flatten

end Message

/-! ### Fields and calls -/

namespace Sink

variable (sink : Sink σ) (conf : Conf)

/-- The calls that tell a sink of the given fields. What it answers to one of them may depend on
those before. -/
def callsOf : σ → List Field → List Call
  | _, [] => []
  | told, field :: fields =>
      field.calls conf (sink.decoded told) ++ callsOf (sink.tell conf told field) fields

/-- The calls that tell a sink of the given fields, in one group for each field. -/
def groupsOf : σ → List Field → List (List Call)
  | _, [] => []
  | told, field :: fields =>
      field.calls conf (sink.decoded told) :: groupsOf (sink.tell conf told field) fields

lemma flatten_groupsOf (told : σ) (fields : List Field) :
    (sink.groupsOf conf told fields).flatten = sink.callsOf conf told fields := by
  induction fields generalizing told with
  | nil => rfl
  | cons field fields ih => rw [groupsOf, callsOf, List.flatten_cons, ih]

lemma groupsOf_append (told : σ) (fields fields' : List Field) :
    sink.groupsOf conf told (fields ++ fields') = sink.groupsOf conf told fields ++
      sink.groupsOf conf (fields.foldl (sink.tell conf) told) fields' := by
  induction fields generalizing told with
  | nil => rfl
  | cons field fields ih => rw [List.cons_append, groupsOf, groupsOf, ih]; rfl

lemma callsOf_append (told : σ) (fields fields' : List Field) :
    sink.callsOf conf told (fields ++ fields') = sink.callsOf conf told fields ++
      sink.callsOf conf (fields.foldl (sink.tell conf) told) fields' := by
  rw [← flatten_groupsOf, groupsOf_append, List.flatten_append, flatten_groupsOf, flatten_groupsOf]

/-- To be told of fields is to get the calls. -/
lemma foldl_tell_eq (told : σ) (fields : List Field) :
    fields.foldl (sink.tell conf) told = (sink.callsOf conf told fields).foldl sink.accept told := by
  induction fields generalizing told with
  | nil => rfl
  | cons field fields ih =>
      rw [List.foldl_cons, ih, callsOf, List.foldl_append]
      rfl

/-- Each call tells of one of the fields. -/
lemma exists_field_of_mem_callsOf {sink : Sink σ} {conf : Conf} {told : σ} {fields : List Field}
    {call : Call} (h : call ∈ sink.callsOf conf told fields) :
    ∃ field ∈ fields, ∃ decoded, call ∈ field.calls conf decoded := by
  induction fields generalizing told with
  | nil => cases h
  | cons field fields ih =>
      obtain hcall | hcall := List.mem_append.1 h
      · exact ⟨field, List.mem_cons_self, _, hcall⟩
      · obtain ⟨field', hfield', hcall'⟩ := ih hcall
        exact ⟨field', List.mem_cons_of_mem field hfield', hcall'⟩

/-- What is picked from the calls, if it is the same for all sinks. -/
theorem filterMap_callsOf {α : Type} {pick : Call → Option α} {picked : Field → List α}
    {conf : Conf}
    (h : ∀ (field : Field) (decoded : String → UrlCharset → String),
      (field.calls conf decoded).filterMap pick = picked field)
    (sink : Sink σ) (told : σ) (fields : List Field) :
    (sink.callsOf conf told fields).filterMap pick = fields.flatMap picked := by
  induction fields generalizing told with
  | nil => rfl
  | cons field fields ih => rw [callsOf, List.filterMap_append, h, ih, List.flatMap_cons]

lemma length_groupsOf (told : σ) (fields : List Field) :
    (sink.groupsOf conf told fields).length = fields.length := by
  induction fields generalizing told with
  | nil => rfl
  | cons field fields ih => rw [groupsOf, List.length_cons, List.length_cons, ih]

/-- The first fields are told of in the first groups. -/
lemma groupsOf_of_prefix (told : σ) {fields fields' : List Field} (h : fields <+: fields') :
    sink.groupsOf conf told fields =
      (sink.groupsOf conf told fields').take fields.length := by
  obtain ⟨rest, rfl⟩ := h
  rw [groupsOf_append, ← sink.length_groupsOf conf told fields, List.take_left]

/-- What a sink has answered does not matter where it is not asked. -/
lemma groupsOf_map {α : Type} (field : α → Field) (group : α → List Call)
    (h : ∀ a decoded, (field a).calls conf decoded = group a) (told : σ) (l : List α) :
    sink.groupsOf conf told (l.map field) = l.map group := by
  induction l generalizing told with
  | nil => rfl
  | cons a l ih => rw [List.map_cons, groupsOf, h, ih, List.map_cons]

end Sink

namespace Message

variable (conf : Conf) (sink : Sink σ) (fresh : σ) (m : Message)

/-- The calls that tell of the fields of a message are those of its transcript. -/
lemma groups_transcript :
    (m.transcript conf sink fresh).groups conf = sink.groupsOf conf fresh m.fields := by
  have hheaders := sink.groupsOf_map conf
    (fun h : HeaderName × HeaderValue => .header h.1 h.2) (fun h => [.addHeader h.1 h.2])
    (fun _ _ => rfl)
  have hattributes := sink.groupsOf_map conf ToldAttribute.field (ToldAttribute.calls conf)
    (fun a _ => by cases a <;> rfl)
  have huri : (m.transcript conf sink fresh).uriCalls conf =
      (Field.requestUri m.uri m.urlChars).calls conf (sink.decoded
        ([.setMethod m.method, .setProtocol m.protocol].foldl sink.accept fresh)) := by
    rw [Transcript.uriCalls, Field.calls, RequestUri.calls, transcript, Transcript.answerTo]
    cases conf.decodeUrl && m.urlChars <;> rfl
  rw [fields, Sink.groupsOf_append, Sink.groupsOf_append, hheaders, hattributes,
    Transcript.groups, huri]
  rfl

lemma callsOf_fields : sink.callsOf conf fresh m.fields = m.callsTo conf sink fresh := by
  rw [callsTo, groups_transcript, Sink.flatten_groupsOf]

/-- A sink that is asked has answered as its state says. -/
lemma eq_of_answer_transcript {conf : Conf} {sink : Sink σ} {fresh : σ} {m : Message}
    {answer : String} (h : (m.transcript conf sink fresh).answer = some answer) :
    answer = Transcript.answerTo conf sink fresh m.method m.protocol
      (m.transcript conf sink fresh).path := by
  rw [transcript] at h
  dsimp only at h
  split at h
  · exact (Option.some.inj h).symm
  · cases h

end Message

end Ajp13
