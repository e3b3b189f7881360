import Ajp13.Proofs.Grammar.Verdict
import Ajp13.Proofs.Grammar.Whole
import Ajp13.Proofs.RoundTrip.Drafts
import Ajp13.Proofs.RoundTrip.Refusals

/-!
A request that has arrived can be sent again.

* `Edit.Restate`: edits that say what a decoder has made of a request, headers of different names
  and attributes in any order; `Edit.restatement`: such edits;
* `Draft.Restates`: the draft says it; `Edit.Restate.restates`: so does the draft that is made by
  such edits;
* `AllAscii`: the texts of a request are in ASCII; then the draft arrives as the request, by
  `Draft.Restates.attributes_eq` and `Draft.Restates.request_eq`;
* `Draft.Restates.ofLength_of_encode`: nothing but a length keeps it from being sent;
* `parse_restated`: the whole.
-/

namespace Ajp13

open Decoder
open Draft (Edit)

/-! ### Drafts of a request that has arrived -/

namespace ForwardRequest

/-- The URI of a request. -/
def uri (r : ForwardRequest) : String :=
  r.requestUri ++ r.pathParameters.elim "" fun parameters => ";" ++ parameters

/-- The attributes that went into a request. -/
def toldAttributes (r : ForwardRequest) : List (String × String) :=
  (r.queryString.map fun text => (AttributeName.queryString, text)).toList ++
  (r.principal.map fun text => (AttributeName.remoteUser, text)).toList ++
  (r.authenticationType.map fun text => (AttributeName.authType, text)).toList

/-- They are attributes that a sink is told of. -/
def told (r : ForwardRequest) : List ToldAttribute :=
  (r.queryString.map .query).toList ++
  (r.principal.map (.attachment .externalPrincipal)).toList ++
  (r.authenticationType.map (.attachment .externalAuthenticationType)).toList

lemma filterMap_toldAttributes (r : ForwardRequest) :
    r.toldAttributes.filterMap (fun e => ToldAttribute.ofName? e.1 e.2) = r.told := by
  rw [toldAttributes, told]
  cases r.queryString <;> cases r.principal <;> cases r.authenticationType <;> rfl

/-- A sink is told of these attributes, and none of them is a key size. -/
lemma of_mem_toldAttributes {r : ForwardRequest} {e : String × String}
    (h : e ∈ r.toldAttributes) :
    (ToldAttribute.ofName? e.1 e.2).isSome = true ∧ e.1 ≠ AttributeName.sslKeySize := by
  have hnames : AttributeName.queryString ≠ AttributeName.sslKeySize ∧
      AttributeName.remoteUser ≠ AttributeName.sslKeySize ∧
      AttributeName.authType ≠ AttributeName.sslKeySize := by decide
  simp only [toldAttributes, List.mem_append, Option.mem_toList, Option.map_eq_some_iff] at h
  obtain (⟨text, -, rfl⟩ | ⟨text, -, rfl⟩) | ⟨text, -, rfl⟩ := h
  · exact ⟨rfl, hnames.1⟩
  · exact ⟨rfl, hnames.2.1⟩
  · exact ⟨rfl, hnames.2.2⟩

/-- Two of them may come in either order: of one kind there is only one, and those of different kinds
do not meet. -/
lemma learn_comm {r : ForwardRequest} {x y : ToldAttribute} (hx : x ∈ r.told) (hy : y ∈ r.told)
    (r' : ForwardRequest) :
    (r'.learn x.field).learn y.field = (r'.learn y.field).learn x.field := by
  simp only [told, List.mem_append, Option.mem_toList, Option.map_eq_some_iff] at hx hy
  obtain (⟨a, ha, rfl⟩ | ⟨a, ha, rfl⟩) | ⟨a, ha, rfl⟩ := hx <;>
    obtain (⟨b, hb, rfl⟩ | ⟨b, hb, rfl⟩) | ⟨b, hb, rfl⟩ := hy <;>
    first | rfl | (obtain rfl := Option.some.inj (ha.symm.trans hb); rfl)

/-- In whatever order they come, they make the same of a request. -/
lemma foldl_learn_of_perm {r : ForwardRequest} {told : List ToldAttribute}
    (h : told.Perm r.told) {r' : ForwardRequest} (hquery : r'.queryString = none)
    (hprincipal : r'.principal = none) (htype : r'.authenticationType = none) :
    (told.map ToldAttribute.field).foldl learn r' = { r' with
      queryString := r.queryString
      principal := r.principal
      authenticationType := r.authenticationType } := by
  rw [List.foldl_map, ← h.symm.foldl_eq' (fun x hx y hy => learn_comm hx hy) r', ForwardRequest.told]
  cases r'
  cases hquery
  cases hprincipal
  cases htype
  cases r.queryString <;> cases r.principal <;> cases r.authenticationType <;> rfl

end ForwardRequest

/-- An attribute with the name and the value of an entry. -/
def DraftAttribute.ofEntry (e : String × String) : DraftAttribute := ⟨e.1, e.2⟩

namespace Draft

/-- The draft says what a decoder has made of a request and what it keeps of it. The remote host may
be any, since it is dropped on arrival. -/
structure Restates (d : Draft) (r : ForwardRequest) (s : State) : Prop where
  method : d.method = r.method
  requestUri : d.requestUri = r.uri
  protocol : d.protocol = r.protocol
  remoteAddress : s.remoteAddress = some d.remoteAddress
  serverName : s.serverAddress = some d.serverName
  serverPort : s.serverPort = some d.serverPort
  isSsl : d.isSsl = r.isSecure
  /-- The values of each header come in their order. -/
  headers : ∃ headers : List (HeaderName × HeaderValue),
    d.headers.toList = headers.map (fun h => ⟨.known h.1, h.2.bytes⟩) ∧
    ∀ name, (headers.filter fun h => h.1 = name).map Prod.snd = r.headerValues name
  attributes : d.attributes.toList.Perm
    ((s.attributes.entries ++ r.toldAttributes).map DraftAttribute.ofEntry)

/-- The headers of a request, those of one name after those of another. -/
def headersOfEntries (entries : List (String × List HeaderValue)) :
    List (HeaderName × HeaderValue) :=
  entries.flatMap fun e =>
    (HeaderName.ofText? e.1).elim [] fun name => e.2.reverse.map fun value => (name, value)

lemma values_of_entries (name : HeaderName) {entries : List (String × List HeaderValue)}
    (hnames : ∀ e ∈ entries, ∃ n : HeaderName, n.text = e.1)
    (hnodup : (entries.map Prod.fst).Nodup) :
    ((headersOfEntries entries).filter fun h => h.1 = name).map Prod.snd =
      ((entries.lookup name.text).getD []).reverse := by
  induction entries with
  | nil => rfl
  | cons e entries ih =>
      rw [List.map_cons, List.nodup_cons] at hnodup
      have htail := ih (fun e he => hnames e (List.mem_cons_of_mem _ he)) hnodup.2
      obtain ⟨n, hn⟩ := hnames e List.mem_cons_self
      have hhead : HeaderName.ofText? e.1 = some n := by rw [← hn, n.ofText?_text]
      rw [headersOfEntries, List.flatMap_cons, ← headersOfEntries, hhead, List.filter_append,
        List.map_append, htail, ← Prod.mk.eta (p := e), List.lookup_cons]
      by_cases hname : n = name
      · subst hname
        have hnone : entries.lookup n.text = none := by
          rw [List.lookup_eq_none_iff]
          intro e' he'
          rw [bne_iff_ne, hn]
          exact fun h => hnodup.1 (h ▸ List.mem_map_of_mem he')
        simp [← hn, hnone, List.filter_map, Function.comp_def]
      · have htext : name.text ≠ e.1 := fun h => hname (HeaderName.text_inj (hn.trans h.symm))
        simp [beq_eq_false_iff_ne.2 htext, hname]

/-- Each header has its values in their order. -/
lemma values_headersOf {r : ForwardRequest} (hr : r.Whole) (name : HeaderName) :
    ((headersOfEntries r.headers.entries).filter fun h => h.1 = name).map Prod.snd =
      r.headerValues name := by
  refine values_of_entries name (fun e he => ?_) r.headers.nodup_names
  exact (hr.headers e.1 e.2 (NameMap.get?_eq_some_iff.2 he)).2

end Draft

/-! ### Edits -/

namespace Draft.Edit

/-- The edits say, in any order but that of the values of a header, what a decoder has made of a
request and what it keeps of it. They may set a remote host, which is dropped on arrival. -/
structure Restate (edits : List Edit) (r : ForwardRequest) (s : State) : Prop where
  protocol : edits.filterMap protocol? = [r.protocol]
  remoteAddress : (edits.filterMap remoteAddress?).map some = [s.remoteAddress]
  serverName : (edits.filterMap serverName?).map some = [s.serverAddress]
  serverPort : (edits.filterMap serverPort?).map some = [s.serverPort]
  isSsl : edits.filterMap isSsl? = [r.isSecure]
  headers : ∃ headers : List (HeaderName × HeaderValue),
    edits.filterMap header? = headers.map (fun h => ⟨.known h.1, h.2.bytes⟩) ∧
    ∀ name, (headers.filter fun h => h.1 = name).map Prod.snd = r.headerValues name
  attributes : (edits.filterMap attribute?).Perm
    ((s.attributes.entries ++ r.toldAttributes).map DraftAttribute.ofEntry)

/-- A part that was set once is what is kept. -/
lemma eq_some_last {α : Type} {part? : Edit → Option α} {edits : List Edit} {a? : Option α}
    (h : (edits.filterMap part?).map some = [a?]) (default : α) :
    a? = some (last part? default edits) := by
  obtain ⟨a, ha, rfl⟩ := List.map_eq_singleton_iff.1 h
  rw [last_eq_of_filterMap ha]

/-- So does the draft that they make. -/
lemma Restate.restates {edits : List Edit} {r : ForwardRequest} {s : State}
    (h : Restate edits r s) : (make r.method r.uri edits).Restates r s := by
  rw [make_eq]
  exact
    { method := rfl
      requestUri := rfl
      protocol := last_eq_of_filterMap h.protocol _
      remoteAddress := eq_some_last h.remoteAddress _
      serverName := eq_some_last h.serverName _
      serverPort := eq_some_last h.serverPort _
      isSsl := last_eq_of_filterMap h.isSsl _
      headers := h.headers
      attributes := h.attributes }

/-- Edits that set the parts of which there is one. -/
def settings (r : ForwardRequest) (s : State) : List Edit :=
  [.protocol r.protocol, .remoteAddress (s.remoteAddress.getD ""),
    .serverName (s.serverAddress.getD ""), .serverPort (s.serverPort.getD 0), .isSsl r.isSecure]

/-- Edits that say what a decoder has made of a request: these, and then one for each value of a
header and for each attribute. -/
def restatement (r : ForwardRequest) (s : State) : List Edit :=
  settings r s ++ (headersOfEntries r.headers.entries).map (fun h => .header h.1 h.2.bytes) ++
  (s.attributes.entries ++ r.toldAttributes).map (fun e => .attribute e.1 e.2)

/-- Edits of one kind set no part of another. -/
lemma filterMap_map_eq_nil {α β : Type} {part? : Edit → Option β} {f : α → Edit}
    (h : ∀ a, part? (f a) = none) (l : List α) : (l.map f).filterMap part? = [] := by
  rw [List.filterMap_map]
  exact List.filterMap_eq_nil_iff.2 fun a _ => h a

/-- What no header and no attribute sets is set by the first edits. -/
lemma filterMap_restatement {α : Type} {part? : Edit → Option α}
    (hheader : ∀ name value, part? (.header name value) = none)
    (hattribute : ∀ name value, part? (.attribute name value) = none) (r : ForwardRequest)
    (s : State) : (restatement r s).filterMap part? = (settings r s).filterMap part? := by
  rw [restatement, List.filterMap_append, List.filterMap_append,
    filterMap_map_eq_nil fun h : HeaderName × HeaderValue => hheader h.1 h.2.bytes,
    filterMap_map_eq_nil fun e : String × String => hattribute e.1 e.2, List.append_nil,
    List.append_nil]

/-- The headers that are added. -/
lemma filterMap_header?_restatement (r : ForwardRequest) (s : State) :
    (restatement r s).filterMap header? =
      (headersOfEntries r.headers.entries).map fun h => ⟨.known h.1, h.2.bytes⟩ := by
  rw [restatement, List.filterMap_append, filterMap_map_eq_nil fun _ => rfl, List.append_nil,
    List.filterMap_append, List.filterMap_map]
  exact congrFun List.filterMap_eq_map _

/-- The attributes that are added. -/
lemma filterMap_attribute?_restatement (r : ForwardRequest) (s : State) :
    (restatement r s).filterMap attribute? =
      (s.attributes.entries ++ r.toldAttributes).map DraftAttribute.ofEntry := by
  rw [restatement, List.filterMap_append, List.filterMap_append,
    filterMap_map_eq_nil fun _ : HeaderName × HeaderValue => rfl, List.append_nil,
    List.filterMap_map]
  exact congrFun List.filterMap_eq_map _

/-- They say it, if the addresses and the port have been read. -/
lemma restate_restatement {r : ForwardRequest} (hr : r.Whole) {s : State}
    {remoteAddress serverAddress : String} {port : UInt16}
    (hremote : s.remoteAddress = some remoteAddress)
    (hserver : s.serverAddress = some serverAddress) (hport : s.serverPort = some port) :
    Restate (restatement r s) r s where
  protocol := filterMap_restatement (fun _ _ => rfl) (fun _ _ => rfl) r s
  remoteAddress := by
    rw [filterMap_restatement (fun _ _ => rfl) (fun _ _ => rfl), settings, hremote]
    rfl
  serverName := by
    rw [filterMap_restatement (fun _ _ => rfl) (fun _ _ => rfl), settings, hserver]
    rfl
  serverPort := by
    rw [filterMap_restatement (fun _ _ => rfl) (fun _ _ => rfl), settings, hport]
    rfl
  isSsl := filterMap_restatement (fun _ _ => rfl) (fun _ _ => rfl) r s
  headers := ⟨_, filterMap_header?_restatement r s, values_headersOf hr⟩
  attributes := .of_eq (filterMap_attribute?_restatement r s)

end Draft.Edit

/-! ### What arrives of the attributes -/

/-- The attribute arrives as it is. -/
structure DraftAttribute.Intact (a : DraftAttribute) : Prop where
  name : Text.arrival a.name = a.name
  value : a.arrival = a.value

/-- The name and the value of an attribute, unless a sink is told of it. -/
def DraftAttribute.kept? (a : DraftAttribute) : Option (String × String) :=
  if (ToldAttribute.ofName? a.name a.value).isSome then none else some (a.name, a.value)

namespace DraftAttribute

variable {a : DraftAttribute} (h : a.Intact)
include h

lemma Intact.told?_eq : a.told? = ToldAttribute.ofName? a.name a.value := by
  rw [told?, h.value]

lemma Intact.stored?_eq : a.stored? = a.kept? := by
  rw [stored?, h.told?_eq, h.name, h.value, kept?]

end DraftAttribute

/-- The texts of a request, and of what is kept of it, are in ASCII; of its headers nothing is
asked. -/
structure AllAscii (r : ForwardRequest) (s : State) : Prop where
  protocol : Text.IsAscii r.protocol
  uri : Text.IsAscii r.uri
  remoteAddress : ∀ text, s.remoteAddress = some text → Text.IsAscii text
  serverAddress : ∀ text, s.serverAddress = some text → Text.IsAscii text
  attributes : ∀ e ∈ s.attributes.entries ++ r.toldAttributes,
    Text.IsAscii e.1 ∧ Text.IsAscii e.2

namespace Draft.Restates

variable {d : Draft} {r : ForwardRequest} {s : State} (h : d.Restates r s)
include h

lemma exists_of_mem_attributes {a : DraftAttribute} (ha : a ∈ d.attributes.toList) :
    ∃ e ∈ s.attributes.entries ++ r.toldAttributes, DraftAttribute.ofEntry e = a :=
  List.mem_map.1 (h.attributes.mem_iff.1 ha)

/-- A key size is the numeral of a word. -/
lemma exists_eq_write (hs : Kept s.attributes) {a : DraftAttribute} (ha : a ∈ d.attributes.toList)
    (hname : a.name = AttributeName.sslKeySize) : ∃ size, a.value = Decimal.write size := by
  obtain ⟨e, he, rfl⟩ := h.exists_of_mem_attributes ha
  obtain hkept | htold := List.mem_append.1 he
  · exact (hs e.1 e.2 (NameMap.get?_eq_some_iff.2 hkept)).2 hname
  · exact absurd hname (ForwardRequest.of_mem_toldAttributes htold).2

lemma intact (hascii : AllAscii r s) (hs : Kept s.attributes) :
    ∀ a ∈ d.attributes.toList, a.Intact := by
  intro a ha
  obtain ⟨e, he, hea⟩ := h.exists_of_mem_attributes ha
  obtain ⟨hname, hvalue⟩ := hascii.attributes e he
  have hsize := h.exists_eq_write hs ha
  subst hea
  refine ⟨Text.arrival_of_ascii hname, ?_⟩
  rw [DraftAttribute.arrival]
  split
  next hkey =>
    obtain ⟨size, hwrite⟩ := hsize hkey
    rw [hwrite, Decimal.read?_write, Option.getD_some]
  next => exact Text.arrival_of_ascii hvalue

omit h in
lemma ofName?_of_mem (hs : Kept s.attributes) {e : String × String}
    (he : e ∈ s.attributes.entries) : ToldAttribute.ofName? e.1 e.2 = none :=
  (hs e.1 e.2 (NameMap.get?_eq_some_iff.2 he)).1

/-- The attributes that are kept arrive as they were. -/
theorem attributes_eq (hascii : AllAscii r s) (hs : Kept s.attributes) :
    d.attributes.toList.foldl DraftAttribute.keep .empty = s.attributes := by
  have hkept : d.attributes.toList.filterMap DraftAttribute.stored? =
      d.attributes.toList.filterMap DraftAttribute.kept? :=
    List.filterMap_congr fun a ha => (h.intact hascii hs a ha).stored?_eq
  rw [DraftAttribute.foldl_keep, hkept]
  refine NameMap.foldl_insert_of_perm ?_
  have hentries : s.attributes.entries.filterMap
      (DraftAttribute.kept? ∘ DraftAttribute.ofEntry) = s.attributes.entries := by
    calc s.attributes.entries.filterMap (DraftAttribute.kept? ∘ DraftAttribute.ofEntry)
        = s.attributes.entries.filterMap some :=
          List.filterMap_congr fun e he => by
            simp [DraftAttribute.kept?, DraftAttribute.ofEntry, ofName?_of_mem hs he]
      _ = s.attributes.entries := List.filterMap_some
  have htold : r.toldAttributes.filterMap
      (DraftAttribute.kept? ∘ DraftAttribute.ofEntry) = [] := by
    refine List.filterMap_eq_nil_iff.2 fun e he => ?_
    exact if_pos (ForwardRequest.of_mem_toldAttributes he).1
  have hperm := h.attributes.filterMap DraftAttribute.kept?
  rwa [List.filterMap_map, List.filterMap_append, hentries, htold, List.append_nil] at hperm

/-- And so do those that went into the request. -/
theorem perm_told (hascii : AllAscii r s) (hs : Kept s.attributes) :
    (d.attributes.toList.filterMap DraftAttribute.told?).Perm r.told := by
  have htold : d.attributes.toList.filterMap DraftAttribute.told? =
      d.attributes.toList.filterMap fun a => ToldAttribute.ofName? a.name a.value :=
    List.filterMap_congr fun a ha => (h.intact hascii hs a ha).told?_eq
  have hentries : s.attributes.entries.filterMap (fun e => ToldAttribute.ofName? e.1 e.2) = [] :=
    List.filterMap_eq_nil_iff.2 fun e he => ofName?_of_mem hs he
  have hperm := h.attributes.filterMap fun a => ToldAttribute.ofName? a.name a.value
  rw [List.filterMap_map, List.filterMap_append,
    show (fun a : DraftAttribute => ToldAttribute.ofName? a.name a.value) ∘
      DraftAttribute.ofEntry = fun e => ToldAttribute.ofName? e.1 e.2 from rfl,
    hentries, r.filterMap_toldAttributes] at hperm
  rwa [htold]

/-! ### What arrives of the request -/

/-- The headers of the draft are accepted, and have the values of the request. -/
lemma filterMap_accepted? (name : HeaderName) :
    ((d.headers.toList.filterMap DraftHeader.accepted?).map fun h =>
      Field.header h.1 h.2).filterMap (Field.headerValue? name) = r.headerValues name := by
  obtain ⟨headers, hheaders, hvalues⟩ := h.headers
  have haccepted : d.headers.toList.filterMap DraftHeader.accepted? = headers := by
    rw [hheaders, List.filterMap_map]
    refine (List.filterMap_congr fun header _ => ?_).trans List.filterMap_some
    have hvalue : HeaderValue.ofBytes? header.2.bytes = some header.2 :=
      HeaderValue.ofBytes?_eq_some_iff.2 rfl
    simp only [Function.comp, DraftHeader.accepted?, DraftHeaderName.name?, hvalue]
  rw [haccepted, ← hvalues name, List.filterMap_map, ← List.filterMap_eq_map,
    List.filterMap_filter]
  refine List.filterMap_congr fun header _ => ?_
  simp [Field.headerValue?]

end Draft.Restates

/-- A URI comes apart as it was put together. -/
lemma ForwardRequest.Whole.ofText_uri {r : ForwardRequest} (hr : r.Whole) :
    RequestUri.ofText r.uri = ⟨r.requestUri, r.pathParameters⟩ := by
  have htext : r.uri.toList =
      r.requestUri.toList ++ (r.pathParameters.map String.toList).elim [] (';' :: ·) := by
    rw [ForwardRequest.uri, String.toList_append]
    cases r.pathParameters with
    | none => rfl
    | some parameters => simp
  rw [RequestUri.ofText, htext, Split.before_append hr.path, Split.after?_append hr.path,
    String.ofList_toList, Option.map_map]
  cases r.pathParameters <;> simp

/-- Headers change nothing else in a request. -/
lemma ForwardRequest.foldl_learn_headers (r : ForwardRequest)
    (headers : List (HeaderName × HeaderValue)) :
    (headers.map fun h => .header h.1 h.2).foldl ForwardRequest.learn r =
      { r with headers :=
        ((headers.map fun h => .header h.1 h.2).foldl ForwardRequest.learn r).headers } := by
  induction headers generalizing r with
  | nil => rfl
  | cons h headers ih =>
      rw [List.map_cons, List.foldl_cons, ih]
      rfl

/-- The scheme of a whole request shows in whether it is secure. -/
lemma ForwardRequest.Whole.scheme_eq {r : ForwardRequest} (hr : r.Whole) :
    r.scheme = some (if r.isSecure then .https else .http) := by
  obtain ⟨scheme, hscheme⟩ := Option.isSome_iff_exists.1 hr.scheme
  rw [isSecure, hscheme]
  cases scheme <;> rfl

/-- A request without its headers and attributes. -/
def ForwardRequest.bare (r : ForwardRequest) : ForwardRequest :=
  { r with
    headers := .empty, queryString := none, principal := none, authenticationType := none }

/-- The fields that come before the headers make such a request. -/
lemma ForwardRequest.Whole.first_eq {r : ForwardRequest} (hr : r.Whole) (urlChars : Bool) :
    [.method r.method, .protocol r.protocol, .requestUri r.uri urlChars,
      .scheme (if r.isSecure then .https else .http)].foldl ForwardRequest.learn {} = r.bare := by
  simp only [List.foldl_cons, List.foldl_nil, ForwardRequest.learn, hr.ofText_uri, Option.or_none,
    ← hr.scheme_eq, ForwardRequest.bare, hr.plain.1, hr.plain.2]

namespace Draft.Restates

variable {d : Draft} {r : ForwardRequest} {s : State}

/-- The draft arrives as the request. -/
theorem request_eq (h : d.Restates r s) (hascii : AllAscii r s) (hs : Kept s.attributes)
    (hr : r.Whole) : d.message.fields.foldl ForwardRequest.learn {} = r := by
  have hprotocol : Text.arrival d.protocol = r.protocol := by
    rw [h.protocol, Text.arrival_of_ascii hascii.protocol]
  have huri : Text.arrival d.requestUri = r.uri := by
    rw [h.requestUri, Text.arrival_of_ascii hascii.uri]
  have hvalues := h.filterMap_accepted?
  rw [Message.fields, Draft.message]
  dsimp only
  generalize d.headers.toList.filterMap DraftHeader.accepted? = headers at hvalues ⊢
  rw [hprotocol, huri, h.method, h.isSsl, List.foldl_append, List.foldl_append]
  have hwhole := ForwardRequest.whole_of_first hr.method r.protocol r.uri
    ((Utf8.encode d.requestUri).any isUrlByte) (if r.isSecure then .https else .http)
  rw [hr.first_eq] at hwhole ⊢
  have hheaders' : ((headers.map fun h => .header h.1 h.2).foldl ForwardRequest.learn
      r.bare).headers = r.headers := by
    refine ForwardRequest.headers_eq_of (hwhole.foldl fun field hfield => ?_) hr fun name => ?_
    · obtain ⟨header, -, rfl⟩ := List.mem_map.1 hfield
      exact .inl rfl
    · rw [ForwardRequest.headerValues_foldl, hvalues]
      rfl
  -- the headers and then the attributes come into a request that has neither
  rw [ForwardRequest.foldl_learn_headers, hheaders',
    ForwardRequest.foldl_learn_of_perm (h.perm_told hascii hs) rfl rfl rfl]
  rfl

/-- Neither its method nor a key size keeps the draft from being sent. -/
lemma ofLength_of_encode (h : d.Restates r s) (hs : Kept s.attributes) (hr : r.Whole)
    {e : EncodeError} (he : d.encode = .error e) : e.OfLength := by
  cases refused_of_encode he with
  | length hlength => exact hlength
  | unknownMethod hmethod =>
      have hcode := hr.method
      rw [← h.method, hmethod] at hcode
      cases hcode
  | invalidKeySize ha hname hvalue =>
      obtain ⟨size, hwrite⟩ := h.exists_eq_write hs (Array.mem_toList_iff.2 ha) hname
      rw [hwrite, Decimal.read?_write] at hvalue
      cases hvalue

end Draft.Restates

/-! ### The whole -/

/-- What a decoder holds behind a forward request can be said in edits. -/
lemma Decoder.restate_of_done {conf : Conf} {w rest : List UInt8} {s : State}
    {r : ForwardRequest}
    (h : parse conf ForwardRequest.sink .start {} w = ⟨.done, rest, s, r⟩)
    (hkind : s.prefixCode = some .forwardRequest) :
    r.Whole ∧ Kept s.attributes ∧ Edit.Restate (Edit.restatement r s) r s := by
  obtain ⟨q, rest', rfl⟩ := exists_packet_of_parse_done conf ForwardRequest.sink {}
    (congrArg Run.outcome h)
  rw [parse_bytes_append, ForwardRequest.tell_eq_learn] at h
  obtain ⟨-, -, rfl, rfl⟩ := Run.mk.inj h
  cases q with
  | signal size kind other =>
      exact absurd (PrefixCode.ofByte_eq_forwardRequest_iff.1 (Option.some.inj hkind)) other
  | forward size body =>
      exact ⟨body.whole, body.kept size, Edit.restate_restatement body.whole rfl rfl rfl⟩

/-- A request that has arrived can be sent again, if its texts are in ASCII. There are edits that say
what a decoder has made of it, with the headers of different names and the attributes in any order.
The draft that is made by such edits is not refused for its method or for a key size, and if it is
sent, it arrives as the same request, with the same addresses, port and attributes. -/
theorem parse_restated {conf : Conf} {w rest : List UInt8} {s : State} {r : ForwardRequest}
    (h : parse conf ForwardRequest.sink .start {} w = ⟨.done, rest, s, r⟩)
    (hkind : s.prefixCode = some .forwardRequest) (hascii : AllAscii r s) :
    Edit.Restate (Edit.restatement r s) r s ∧
    ∀ edits : List Edit, Edit.Restate edits r s →
      let d := Draft.make r.method r.uri edits
      (∀ m, d.encode ≠ .error (.unknownMethod m)) ∧
      (∀ text, d.encode ≠ .error (.invalidKeySize text)) ∧
      ∀ p, d.encode = .ok p → ∀ conf' : Conf, ∃ s',
        parse conf' ForwardRequest.sink .start {} p = ⟨.done, [], s', r⟩ ∧
        s'.remoteAddress = s.remoteAddress ∧ s'.serverAddress = s.serverAddress ∧
        s'.serverPort = s.serverPort ∧ s'.attributes = s.attributes := by
  obtain ⟨hr, hs, hrestate⟩ := restate_of_done h hkind
  refine ⟨hrestate, fun edits hedits => ?_⟩
  intro d
  have hd : d.Restates r s := hedits.restates
  refine ⟨fun m hm => ?_, fun text htext => ?_, fun p hp conf' => ?_⟩
  · exact hd.ofLength_of_encode hs hr hm
  · exact hd.ofLength_of_encode hs hr htext
  · obtain ⟨size, count, -, -, -, q, rfl, hfields, hstate⟩ := Draft.exists_packet_of_encode hp
    have hparse := parse_bytes_append conf' ForwardRequest.sink {} q []
    rw [List.append_nil, ForwardRequest.tell_eq_learn, hfields, hd.request_eq hascii hs hr,
      hstate] at hparse
    refine ⟨d.state size count, hparse, ?_, ?_, hd.serverPort.symm, hd.attributes_eq hascii hs⟩
    · rw [hd.remoteAddress]
      exact congrArg some (Text.arrival_of_ascii (hascii.remoteAddress _ hd.remoteAddress))
    · rw [hd.serverName]
      exact congrArg some (Text.arrival_of_ascii (hascii.serverAddress _ hd.serverName))

/-- A request with null strings, a header name in capitals, an empty header name, two query strings,
the second under its name, and a key size. -/
def Draft.arrivedBytes : List UInt8 :=
  [0x12, 0x34, 0, 0, 2, 2, 0xFF, 0xFF, 0, 4, 0x2F, 0x61, 0x3B, 0x62, 0] ++
  List.flatten (List.replicate 3 [0xFF, 0xFF]) ++ [0, 80, 1, 0, 3] ++
  [0, 4, 0x48, 0x4F, 0x53, 0x54, 0, 0, 1, 0x61, 0] ++ [0, 0, 0, 0, 1, 0x63, 0] ++
  [0xA0, 11, 0, 1, 0x62, 0] ++ [5, 0, 1, 0x71, 0] ++
  [10, 0, 12] ++ Utf8.encode AttributeName.queryString ++ [0, 0, 1, 0x72, 0] ++ [11, 0, 128] ++
  [12, 0, 1, 0x76, 0] ++ [3, 0, 1, 0x75, 0] ++ [0xFF]

/-- The bytes in which it is sent again. -/
def Draft.resentBytes : List UInt8 :=
  [0x12, 0x34, 0, 56, 2, 2, 0, 0, 0, 0, 4, 0x2F, 0x61, 0x3B, 0x62, 0] ++
  [0, 0, 0, 0xFF, 0xFF, 0, 0, 0, 0, 80, 1, 0, 2] ++
  [0xA0, 11, 0, 1, 0x61, 0] ++ [0xA0, 11, 0, 1, 0x62, 0] ++
  [12, 0, 1, 0x76, 0] ++ [11, 0, 128] ++ [5, 0, 1, 0x72, 0] ++ [3, 0, 1, 0x75, 0] ++ [0xFF]

/-- They arrive as the same request. -/
theorem parse_restated_sample :
    let r : ForwardRequest :=
      { requestUri := "/a", requestPath := "/a", relativePath := "/a", pathParameters := some "b"
        queryString := some "r", principal := some "u", scheme := some .https
        headers := ⟨[("host", [⟨[0x62], by decide⟩, ⟨[0x61], by decide⟩])], by decide⟩ }
    let s : State :=
      { phase := .done, dataSize := some 0, prefixCode := some .forwardRequest
        headerCount := 3, headersRead := 3
        attributes := ⟨[("secret", "v"), ("ssl_key_size", "128")], by decide⟩
        remoteAddress := some "", serverAddress := some "", serverPort := some 80 }
    parse {} ForwardRequest.sink .start {} Draft.arrivedBytes = ⟨.done, [], s, r⟩ ∧
    (Draft.make r.method r.uri (Edit.restatement r s)).encode = .ok Draft.resentBytes ∧ ∃ s',
      parse {} ForwardRequest.sink .start {} Draft.resentBytes = ⟨.done, [], s', r⟩ ∧
      s'.remoteAddress = s.remoteAddress ∧ s'.serverAddress = s.serverAddress ∧
      s'.serverPort = s.serverPort ∧ s'.attributes = s.attributes := by
  intro r s
  have hparse : parse {} ForwardRequest.sink .start {} Draft.arrivedBytes =
      ⟨.done, [], s, r⟩ := by
    rw [parse_eq_scan State.start_coherent]
    refine (Run.mk.injEq ..).mpr ?_
    decide +kernel
  have hascii : AllAscii r s :=
    { protocol := by decide +kernel
      uri := by decide +kernel
      remoteAddress := by
        intro text htext
        obtain rfl := Option.some.inj htext
        decide +kernel
      serverAddress := by
        intro text htext
        obtain rfl := Option.some.inj htext
        decide +kernel
      attributes := by decide +kernel }
  have hencode : (Draft.make r.method r.uri (Edit.restatement r s)).encode =
      .ok Draft.resentBytes := by decide +kernel
  obtain ⟨hrestate, hsent⟩ := parse_restated hparse rfl hascii
  exact ⟨hparse, hencode, (hsent _ hrestate).2.2 _ hencode {}⟩

end Ajp13
