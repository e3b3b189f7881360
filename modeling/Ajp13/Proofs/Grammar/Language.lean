import Ajp13.Proofs.Calls
import Ajp13.Proofs.Grammar.Head

/-!
The packets that a decoder accepts, and what it makes of them.

* `Packet.bytes_forward`: a forward request is its head, its headers, and its attributes;
* `run_bytes`: the bytes of a packet are taken to their end, and leave the state and the fields that
  the packet says;
* `exists_packet_of_done`: nothing else is taken to an end;
* `parse_accepts_packets`: a decoder accepts the bytes of packets and nothing else, and each in the
  one way in which they can be read.
-/

namespace Ajp13

/-- The head of a forward request of the given size. -/
def ForwardBody.head (size : UInt16) (b : ForwardBody) : Head where
  size := size
  method := b.method
  known_method := b.known_method
  protocol := b.protocol
  requestUri := b.requestUri
  remoteAddress := b.remoteAddress
  remoteHost := b.remoteHost
  serverName := b.serverName
  serverPort := b.serverPort
  ssl := b.ssl
  headerCount := UInt16.ofNat b.headers.length

/-- A forward request is its head, its headers, and its attributes. -/
lemma Packet.bytes_forward (size : UInt16) (b : ForwardBody) :
    (Packet.forward size b).bytes = (b.head size).bytes ++ (b.headers.flatMap WireHeader.bytes ++
      (b.attributes.flatMap WireAttribute.bytes ++ [Marker.attributesEnd])) := by
  simp only [Packet.bytes, ForwardBody.bytes, ForwardBody.head, Head.bytes, Opening.bytes,
    List.append_assoc, List.cons_append, List.nil_append]

/-- The count that announces the headers. -/
lemma ForwardBody.toNat_headerCount (size : UInt16) (b : ForwardBody) :
    (b.head size).headerCount.toNat = b.headers.length := by
  have := b.headers_fit
  rw [head, UInt16.toNat_ofNat']
  omega

namespace Decoder

variable {σ : Type} {put : σ → Field → σ}

/-! ### Packets -/

/-- The bytes of a packet are taken to their end, and leave what the packet says. -/
theorem run_bytes (q : Packet) (acc : σ) (rest : List UInt8) :
    run put .start acc (q.bytes ++ rest) = ⟨.done, rest, q.state, q.fields.foldl put acc⟩ := by
  cases q with
  | signal size kind other =>
      simp only [Packet.bytes, List.append_assoc, List.singleton_append]
      rw [run_magic rfl rfl, run_dataSize rfl rfl, run_signal rfl other, run_done rfl]
      rfl
  | forward size body =>
      have hcount : (body.head size).state.headerCount.toNat = body.headers.length :=
        body.toNat_headerCount size
      simp only [Packet.bytes_forward, List.append_assoc, List.singleton_append]
      rw [run_head, run_headers rfl rfl rfl ((Nat.zero_add _).trans hcount.symm),
        run_attributes rfl rfl rfl, Packet.fields, ForwardBody.fields, List.foldl_append,
        List.foldl_append]
      simp only [hcount]
      rfl

/-! ### Nothing else -/

/-- What is taken to an end is the bytes of a packet. -/
theorem exists_packet_of_done {acc : σ} {buffer : List UInt8}
    (h : (run put .start acc buffer).outcome = .done) :
    ∃ (q : Packet) (rest : List UInt8), buffer = q.bytes ++ rest := by
  obtain ⟨d, rest, rfl⟩ | ⟨size, kind, other, rest, rfl⟩ :=
    exists_head fun hahead => hahead.outcome h
  · rw [run_head] at h
    obtain ⟨headers, rest, hlength, rfl⟩ := exists_headers_of_run_done h ⟨rfl, rfl⟩ rfl rfl
    rw [run_headers rfl rfl rfl ((Nat.zero_add _).trans hlength)] at h
    obtain ⟨attributes, rest, rfl⟩ := exists_attributes_of_run_done h ⟨rfl, rfl⟩ rfl
    have hlength : headers.length = d.headerCount.toNat := hlength
    have headers_fit : headers.length < 65536 := hlength ▸ d.headerCount.toNat_lt
    have hcount : UInt16.ofNat headers.length = d.headerCount := by
      rw [hlength, UInt16.ofNat_toNat]
    refine ⟨.forward d.size ⟨d.method, d.known_method, d.protocol, d.requestUri, d.remoteAddress,
      d.remoteHost, d.serverName, d.serverPort, d.ssl, headers, headers_fit, attributes⟩, rest, ?_⟩
    simp only [Packet.bytes_forward, ForwardBody.head, hcount, List.append_assoc,
      List.singleton_append]
  · exact ⟨.signal size kind other, rest, rfl⟩

/-! ### Acceptance -/

/-- A decoder accepts the bytes of packets and nothing else, each in the one way in which they can
be read. It tells the sink of the packet by the calls that are listed for it, and keeps the rest of
what the packet says. The codes with a meaning are those of 27 methods, of 14 headers, and of 12
attributes, one of which has a word for its value. -/
theorem parse_accepts_packets (conf : Conf) (sink : Sink σ) (told : σ) :
    (∀ p : List UInt8,
      ((parse conf sink .start told p).outcome = .done ∧
        (parse conf sink .start told p).rest = []) ↔ ∃ q : Packet, q.bytes = p) ∧
    (∀ q q' : Packet, q.bytes = q'.bytes → q = q') ∧
    (∀ q : Packet,
      parse conf sink .start told q.bytes =
        ⟨.done, [], q.state, (q.callsTo conf sink told).foldl sink.accept told⟩ ∧
      calls conf sink .start told q.bytes = q.callsTo conf sink told) ∧
    (∀ code : UInt8,
      ((Method.ofCode? code).isSome = true ↔ 1 ≤ code.toNat ∧ code.toNat ≤ 27) ∧
      ((HeaderName.ofCode? code).isSome = true ↔ 1 ≤ code.toNat ∧ code.toNat ≤ 14) ∧
      ((AttributeName.ofCode? code).isSome = true ↔
        (1 ≤ code.toNat ∧ code.toNat ≤ 13) ∧ code ≠ 0x0A) ∧
      (AttributeName.ofCode? code = some AttributeName.sslKeySize ↔ code = 0x0B)) := by
  have hrun : ∀ q : Packet, parse conf sink .start told q.bytes =
      ⟨.done, [], q.state, (q.callsTo conf sink told).foldl sink.accept told⟩ := by
    intro q
    rw [parse, ← List.append_nil q.bytes, run_bytes, Sink.foldl_tell_eq, Packet.callsOf_fields]
  refine ⟨fun p => ⟨fun hp => ?_, ?_⟩, fun q q' h => ?_, fun q => ⟨hrun q, ?_⟩, fun code => ?_⟩
  · obtain ⟨hdone, hrest⟩ := hp
    obtain ⟨q, rest, rfl⟩ := exists_packet_of_done hdone
    rw [parse, run_bytes] at hrest
    exact ⟨q, by rw [show rest = [] from hrest, List.append_nil]⟩
  · rintro ⟨q, rfl⟩
    rw [hrun q]
    exact ⟨rfl, rfl⟩
  · exact PrefixFree.injective Packet.bytes_prefixFree h
  · rw [calls, parse, ← List.append_nil q.bytes, run_bytes, Sink.foldl_tell_traced,
      Packet.callsOf_fields]
    exact List.nil_append _
  · exact ⟨Method.isSome_ofCode?_iff code, HeaderName.isSome_ofCode?_iff code,
      AttributeName.isSome_ofCode?_iff code, AttributeName.ofCode?_eq_sslKeySize_iff code⟩

end Decoder

end Ajp13
