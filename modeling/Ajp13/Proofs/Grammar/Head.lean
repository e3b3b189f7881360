import Ajp13.Proofs.Grammar.Phases

/-!
How a forward request begins.

* `Opening`: a forward request up to its URI; `run_opening` says what it leaves;
* `Head`: a forward request up to the number of its headers; `run_head` says what it leaves;
* `exists_opening`, `exists_head`: unless a run ends ahead of what comes behind these, the bytes
  begin with one, or with a packet that ends after its kind.
-/

namespace Ajp13

open Decoder

/-- What a forward request begins with, up to its URI. -/
structure Opening where
  size : UInt16
  method : UInt8
  known_method : (Method.ofCode? method).isSome = true
  protocol : WireString
  requestUri : WireString

namespace Opening

/-- The bytes of an opening. -/
def bytes (o : Opening) : List UInt8 :=
  Word.bytes Marker.magic ++ Word.bytes o.size ++ [PrefixCode.forwardRequest.byte, o.method] ++
  o.protocol.bytes ++ o.requestUri.bytes

/-- The fields of an opening. -/
def fields (o : Opening) : List Field :=
  [.method ((Method.ofCode? o.method).get o.known_method), .protocol o.protocol.text,
    .requestUri o.requestUri.text o.requestUri.urlChars]

/-- The state of a decoder behind an opening. -/
def state (o : Opening) : State where
  phase := .remoteAddress
  dataSize := some o.size
  prefixCode := some .forwardRequest

end Opening

/-- What a forward request begins with, up to the number of its headers. -/
structure Head extends Opening where
  remoteAddress : WireString
  remoteHost : WireString
  serverName : WireString
  serverPort : UInt16
  ssl : UInt8
  headerCount : UInt16

namespace Head

/-- The bytes of a head. -/
def bytes (d : Head) : List UInt8 :=
  d.toOpening.bytes ++ d.remoteAddress.bytes ++ d.remoteHost.bytes ++ d.serverName.bytes ++
  Word.bytes d.serverPort ++ [d.ssl] ++ Word.bytes d.headerCount

/-- The fields of a head. -/
def fields (d : Head) : List Field :=
  d.toOpening.fields ++ [.scheme (if d.ssl = 0 then .http else .https)]

/-- The state of a decoder behind a head. -/
def state (d : Head) : State where
  phase := .headers
  dataSize := some d.size
  prefixCode := some .forwardRequest
  headerCount := d.headerCount
  remoteAddress := some d.remoteAddress.text
  serverAddress := some d.serverName.text
  serverPort := some d.serverPort

/-- A head can be cut off the front of a list in one way only. -/
theorem bytes_prefixFree : PrefixFree Head.bytes := by
  intro a b s t h
  simp only [bytes, Opening.bytes, List.append_assoc, List.cons_append, List.nil_append] at h
  obtain ⟨-, h⟩ := Word.bytes_prefixFree h
  obtain ⟨hsize, h⟩ := Word.bytes_prefixFree h
  obtain ⟨hmethod, h⟩ := List.cons.inj (List.cons.inj h).2
  obtain ⟨hprotocol, h⟩ := WireString.bytes_prefixFree h
  obtain ⟨huri, h⟩ := WireString.bytes_prefixFree h
  obtain ⟨haddress, h⟩ := WireString.bytes_prefixFree h
  obtain ⟨hhost, h⟩ := WireString.bytes_prefixFree h
  obtain ⟨hserver, h⟩ := WireString.bytes_prefixFree h
  obtain ⟨hport, h⟩ := Word.bytes_prefixFree h
  obtain ⟨hssl, h⟩ := List.cons.inj h
  obtain ⟨hcount, hst⟩ := Word.bytes_prefixFree h
  obtain ⟨⟨size, method, known_method, protocol, requestUri⟩, _⟩ := a
  obtain ⟨⟨size', method', known_method', protocol', requestUri'⟩, _⟩ := b
  dsimp only at hsize hmethod hprotocol huri haddress hhost hserver hport hssl hcount
  subst hsize hmethod hprotocol huri haddress hhost hserver hport hssl hcount
  exact ⟨rfl, hst⟩

end Head

namespace Decoder

variable {σ : Type} {put : σ → Field → σ}

/-! ### What they leave -/

/-- An opening leaves the fields that it says. -/
theorem run_opening (o : Opening) (acc : σ) (rest : List UInt8) :
    run put .start acc (o.bytes ++ rest) = run put o.state (o.fields.foldl put acc) rest := by
  simp only [Opening.bytes, List.append_assoc, List.cons_append, List.nil_append]
  rw [run_magic rfl rfl, run_dataSize rfl rfl, run_forwardRequest rfl]
  change run put { phase := .method, dataSize := some o.size, prefixCode := some .forwardRequest }
    acc _ = _
  rw [run_method rfl o.known_method, run_protocol rfl rfl, run_requestUri rfl rfl]
  rfl

/-- A head leaves the fields that it says, and the headers are next. -/
theorem run_head (d : Head) (acc : σ) (rest : List UInt8) :
    run put .start acc (d.bytes ++ rest) = run put d.state (d.fields.foldl put acc) rest := by
  simp only [Head.bytes, List.append_assoc, List.cons_append, List.nil_append]
  -- the states in between are written out, since each update would copy the one before
  rw [run_opening, run_remoteAddress rfl rfl]
  change run put
    { phase := .remoteHost, dataSize := some d.size, prefixCode := some .forwardRequest,
      remoteAddress := some d.remoteAddress.text } _ _ = _
  rw [run_remoteHost rfl rfl, run_serverName rfl rfl]
  change run put
    { phase := .serverPort, dataSize := some d.size, prefixCode := some .forwardRequest,
      remoteAddress := some d.remoteAddress.text, serverAddress := some d.serverName.text } _ _ = _
  rw [run_serverPort rfl rfl, run_ssl rfl, run_headerCount rfl rfl, Head.fields, List.foldl_append]
  rfl

/-! ### Nothing else -/

variable {acc : σ} {buffer : List UInt8}

/-- What begins as a packet that ends after its kind. -/
def BeginsWithSignal (buffer : List UInt8) : Prop :=
  ∃ size kind other, (Packet.signal size kind other).bytes <+: buffer

/-- Unless the run ends ahead of what comes behind it, there is an opening. -/
theorem exists_opening (h : ¬Ahead .remoteAddress (run put .start acc buffer)) :
    (∃ o : Opening, o.bytes <+: buffer) ∨ BeginsWithSignal buffer := by
  obtain ⟨magic, rest, rfl⟩ := exists_word_of_not_ahead (q := .magic) h rfl (by decide) rfl rfl
  obtain rfl := eq_magic_of_not_ahead h (by decide)
  rw [run_magic rfl rfl] at h
  obtain ⟨size, rest, rfl⟩ := exists_word_of_not_ahead (q := .dataSize) h rfl (by decide) rfl rfl
  rw [run_dataSize rfl rfl] at h
  obtain ⟨kind, rest, rfl⟩ := exists_byte_of_not_ahead (q := .prefixCode) h rfl (by decide) rfl
  by_cases hkind : kind = PrefixCode.forwardRequest.byte
  · rw [hkind, run_forwardRequest rfl] at h
    obtain ⟨method, rest, rfl⟩ := exists_byte_of_not_ahead (q := .method) h rfl (by decide) rfl
    have known_method := isSome_of_not_ahead rfl h (by decide)
    rw [run_method rfl known_method] at h
    obtain ⟨protocol, rest, rfl⟩ := exists_string_of_not_ahead (q := .protocol) h rfl (by decide) rfl rfl
    rw [run_protocol rfl rfl] at h
    obtain ⟨requestUri, rest, rfl⟩ := exists_string_of_not_ahead (q := .requestUri) h rfl (by decide) rfl rfl
    refine .inl ⟨⟨size, method, known_method, protocol, requestUri⟩, rest, ?_⟩
    simp only [Opening.bytes, hkind, List.append_assoc, List.cons_append, List.nil_append]
  · refine .inr ⟨size, kind, hkind, rest, ?_⟩
    simp only [Packet.bytes, List.append_assoc, List.singleton_append]

/-- Unless the run ends ahead of the headers, there is a head. -/
theorem exists_head (h : ¬Ahead .headers (run put .start acc buffer)) :
    (∃ d : Head, d.bytes <+: buffer) ∨ BeginsWithSignal buffer := by
  refine (exists_opening fun hahead => h (hahead.mono (by decide))).imp_left ?_
  rintro ⟨o, rest, rfl⟩
  rw [run_opening] at h
  obtain ⟨remoteAddress, rest, rfl⟩ := exists_string_of_not_ahead (q := .remoteAddress) h rfl (by decide) rfl rfl
  rw [run_remoteAddress rfl rfl] at h
  obtain ⟨remoteHost, rest, rfl⟩ := exists_string_of_not_ahead (q := .remoteHost) h rfl (by decide) rfl rfl
  rw [run_remoteHost rfl rfl] at h
  obtain ⟨serverName, rest, rfl⟩ := exists_string_of_not_ahead (q := .serverName) h rfl (by decide) rfl rfl
  rw [run_serverName rfl rfl] at h
  obtain ⟨serverPort, rest, rfl⟩ := exists_word_of_not_ahead (q := .serverPort) h rfl (by decide) rfl rfl
  rw [run_serverPort rfl rfl] at h
  obtain ⟨ssl, rest, rfl⟩ := exists_byte_of_not_ahead (q := .ssl) h rfl (by decide) rfl
  rw [run_ssl rfl] at h
  obtain ⟨headerCount, rest, rfl⟩ := exists_word_of_not_ahead (q := .headerCount) h rfl (by decide) rfl rfl
  refine ⟨⟨o, remoteAddress, remoteHost, serverName, serverPort, ssl, headerCount⟩, rest, ?_⟩
  simp only [Head.bytes, List.append_assoc, List.cons_append, List.nil_append]

end Decoder

end Ajp13
