import Ajp13.Proofs.Grammar.Verdict
import Ajp13.Proofs.RoundTrip.Drafts
import Ajp13.Proofs.Stream.Loop
import Mathlib.Data.Set.List

/-!
Packets that follow one another on a stream.

* `Link.Awaits`: the decoder has begun with the first of some packets, or waits for it;
* `Link.Awaits.call_cases`: a call takes what there is of that packet, or the packet and nothing
  behind it;
* `play_packets`: so each of the packets is dealt with as if it had come alone, however the stream
  is cut.
-/

namespace Ajp13

open Decoder

variable {σ : Type}

/-- What a packet was taken for, if the call completed one. -/
def Report.record? (report : Report σ) : Option (State × σ) :=
  if report.outcome = .done then some (report.after.state, report.after.told) else none

namespace Decoder

/-- What bytes are taken for in one call, if nothing else comes. -/
def alone (conf : Conf) (sink : Sink σ) (fresh : σ) (bytes : List UInt8) : State × σ :=
  ((parse conf sink .start fresh bytes).state, (parse conf sink .start fresh bytes).result)

end Decoder

variable (conf : Conf) (sink : Sink σ) (fresh : σ)

lemma Packet.bytes_ne_nil (q : Packet) : q.bytes ≠ [] := by
  cases q <;> simp [Packet.bytes, Word.bytes]

/-- A packet that is complete is what it is alone, and what comes behind it is left. -/
lemma parse_bytes_append_alone (q : Packet) (rest : List UInt8) :
    parse conf sink .start fresh (q.bytes ++ rest) =
      ⟨.done, rest, (alone conf sink fresh q.bytes).1, (alone conf sink fresh q.bytes).2⟩ := by
  have halone := parse_bytes_append conf sink fresh q []
  rw [List.append_nil] at halone
  rw [parse_bytes_append, alone, halone]

/-- Within a stream of packets there is no fault. -/
lemma not_failed_of_prefix_flatMap {qs : List Packet} {bytes : List UInt8}
    (h : bytes <+: qs.flatMap Packet.bytes) (fault : Fault) :
    (parse conf sink .start fresh bytes).outcome ≠ .failed fault := by
  intro hfailed
  obtain ⟨hlength, hahead, hviable⟩ := (exists_failed_iff conf sink fresh).1 ⟨fault, hfailed⟩
  cases qs with
  | nil =>
      rw [List.prefix_nil.1 h] at hlength
      cases hlength
  | cons q qs =>
      obtain hq | hq := List.prefix_or_prefix_of_prefix (List.prefix_append q.bytes _) h
      · exact hahead q hq
      · exact hviable ⟨q, hq⟩

namespace Link

/-- The decoder has begun with the first of the packets, or waits for it. The bytes that have not
come yet are given. -/
def Awaits (packets : List Packet) (s : Link σ) (rest : List UInt8) : Prop :=
  ∃ begun, (start conf sink fresh).Reaches begun s ∧ s.state.phase ≠ .done ∧
    begun ++ (s.buffer ++ rest) = packets.flatMap Packet.bytes

lemma start_awaits {packets : List Packet} {rest : List UInt8}
    (h : rest = packets.flatMap Packet.bytes) :
    (start conf sink fresh).Awaits conf sink fresh packets rest :=
  ⟨[], .refl _, Phase.noConfusion, h⟩

variable {conf sink fresh}

lemma reaches_restart {s : Link σ} (hconf : s.conf = conf) (hsink : s.sink = sink) :
    (start conf sink fresh).Reaches [] (s.restart fresh) where
  conf := hconf
  sink := hsink
  parse_eq := by
    change parse conf sink .start fresh [] = parse s.conf s.sink .start fresh []
    rw [hconf, hsink]

variable {packets : List Packet} {s : Link σ} {piece rest : List UInt8}

/-- A call takes what there is of the packet, or the packet and nothing behind it. -/
theorem Awaits.call_cases (h : s.Awaits conf sink fresh packets (piece ++ rest)) :
    ((s.call piece).outcome = .suspended ∧ (s.call piece).after.buffer = [] ∧
      (s.call piece).after.Awaits conf sink fresh packets rest) ∨
    ∃ q packets', packets = q :: packets' ∧ (s.call piece).outcome = .done ∧
      (s.call piece).record? = some (alone conf sink fresh q.bytes) ∧
      ((s.call piece).after.restart fresh).Awaits conf sink fresh packets' rest := by
  obtain ⟨begun, hreach, hdone, hbytes⟩ := h
  have hrun : parse conf sink .start fresh (begun ++ (s.buffer ++ piece)) = (s.call piece).run :=
    hreach.parse_append _
  rw [← List.append_assoc s.buffer, ← List.append_assoc begun] at hbytes
  have hok : ∀ fault, (s.call piece).outcome ≠ .failed fault := by
    intro fault
    have hprefix := not_failed_of_prefix_flatMap conf sink fresh ⟨rest, hbytes⟩ fault
    rwa [hrun] at hprefix
  cases houtcome : (s.call piece).outcome with
  | failed fault => exact absurd houtcome (hok fault)
  | suspended =>
      have hbuffer := s.buffer_of_suspended piece houtcome
      have htaken := (s.taken_call piece).1
      rw [hbuffer, List.append_nil] at htaken
      refine .inl ⟨rfl, hbuffer, begun ++ (s.call piece).taken, hreach.trans (.call s hok), ?_, ?_⟩
      · intro hphase
        rw [s.outcome_call piece hok, State.isDone, hphase] at houtcome
        cases houtcome
      · rw [hbuffer, htaken]
        exact hbytes
  | done =>
      right
      have hdone : (parse conf sink .start fresh (begun ++ (s.buffer ++ piece))).outcome =
          .done := by rw [hrun]; exact houtcome
      obtain ⟨q', rest', hq'⟩ := exists_packet_of_parse_done conf sink fresh hdone
      rw [hq', List.append_assoc] at hbytes
      rw [hq', parse_bytes_append_alone] at hrun
      cases packets with
      | nil => exact absurd (List.append_eq_nil_iff.1 hbytes).1 q'.bytes_ne_nil
      | cons q packets =>
          obtain ⟨rfl, hrest⟩ := Packet.bytes_prefixFree hbytes
          obtain ⟨-, hbuffer, hstate, htold⟩ := Run.mk.inj hrun
          refine ⟨q', packets, rfl, rfl, ?_, [], ?_, Phase.noConfusion, ?_⟩
          · rw [Report.record?, if_pos houtcome, ← hstate, ← htold]
          · exact reaches_restart hreach.conf hreach.sink
          · change (s.call piece).after.buffer ++ rest = _
            rw [← hbuffer]
            exact hrest

/-- Within a stream of packets: some of them have been recorded, the others are to come, and no call
has met a fault. -/
structure InStream (conf : Conf) (sink : Sink σ) (fresh : σ) (packets : List Packet)
    (log : List (Report σ)) (s : Link σ) (rest : List UInt8) : Prop where
  split : ∃ behind ahead, packets = behind ++ ahead ∧
    log.filterMap Report.record? = behind.map (fun q => alone conf sink fresh q.bytes) ∧
    s.Awaits conf sink fresh ahead rest
  ok : ∀ report ∈ log, ∀ fault, report.outcome ≠ .failed fault

/-- Each call keeps to the stream: it either leaves nothing, or has completed a packet, behind which
the decoder is called again. -/
theorem InStream.call {log : List (Report σ)}
    (h : InStream conf sink fresh packets log s (piece ++ rest)) :
    ((Again.afterPacket fresh).next? (s.call piece) = none ∧
      InStream conf sink fresh packets (log ++ [s.call piece]) (s.call piece).after rest ∧
      (s.call piece).after.buffer = []) ∨
    ((Again.afterPacket fresh).next? (s.call piece) = some ((s.call piece).after.restart fresh) ∧
      InStream conf sink fresh packets (log ++ [s.call piece])
        ((s.call piece).after.restart fresh) rest) := by
  obtain ⟨behind, ahead, rfl, hlog, hawaits⟩ := h.split
  have hok (hcall : ∀ fault, (s.call piece).outcome ≠ .failed fault) :
      ∀ report ∈ log ++ [s.call piece], ∀ fault, report.outcome ≠ .failed fault :=
    List.forall_mem_append.2 ⟨h.ok, List.forall_mem_singleton.2 hcall⟩
  obtain ⟨houtcome, hbuffer, hawaits⟩ | ⟨q, ahead, rfl, houtcome, hrecord, hawaits⟩ :=
    hawaits.call_cases
  · have hne : (s.call piece).outcome ≠ .done := by rw [houtcome]; exact Outcome.noConfusion
    have hrecord : (s.call piece).record? = none := if_neg hne
    refine .inl ⟨Again.next?_afterPacket_of_ne fresh hne, ⟨⟨behind, ahead, rfl, ?_, hawaits⟩, ?_⟩,
      hbuffer⟩
    · rw [List.filterMap_append, List.filterMap_cons_none hrecord, hlog]
      exact List.append_nil _
    · exact hok (by rw [houtcome]; exact fun _ => Outcome.noConfusion)
  · refine .inr ⟨Again.next?_afterPacket_of_done fresh houtcome,
      ⟨⟨behind ++ [q], ahead, ?_, ?_, hawaits⟩, ?_⟩⟩
    · rw [List.append_assoc]
      rfl
    · rw [List.filterMap_append, List.filterMap_cons_some hrecord, hlog, List.map_append]
      rfl
    · exact hok (by rw [houtcome]; exact fun _ => Outcome.noConfusion)

variable (conf sink fresh) in
/-- Calls on a stream of packets keep to it, and leave nothing. -/
lemma inStream_play {pieces : List (List UInt8)}
    (h : pieces.flatten = packets.flatMap Packet.bytes) :
    let played := (start conf sink fresh).play (.afterPacket fresh) pieces
    InStream conf sink fresh packets played.1 played.2 [] ∧ played.2.buffer = [] := by
  refine play_induct (InStream conf sink fresh packets)
    (fun log s rest => InStream conf sink fresh packets log s rest ∧ s.buffer = []) And.left
    (fun {log s piece rest s'} hbusy hnext => ?_)
    (fun {log s piece rest} hbusy hnext => ?_) [] ?_
  · obtain ⟨hnone, -⟩ | ⟨hsome, hagain⟩ := hbusy.call
    · rw [hnone] at hnext
      cases hnext
    · rw [hsome] at hnext
      cases hnext
      exact hagain
  · obtain ⟨-, hcall⟩ | ⟨hsome, -⟩ := hbusy.call
    · exact hcall
    · rw [hsome] at hnext
      cases hnext
  · exact ⟨⟨⟨[], packets, rfl, rfl, start_awaits conf sink fresh h⟩, by simp⟩, rfl⟩

/-- With no byte to come, all packets have been recorded, and the decoder is as it was at first. -/
lemma Awaits.eq_start (h : s.Awaits conf sink fresh packets []) (hbuffer : s.buffer = []) :
    packets = [] ∧ s.state = .start ∧ s.told = fresh := by
  obtain ⟨begun, hreach, hdone, hbytes⟩ := h
  have hrun : parse conf sink .start fresh begun = ⟨.suspended, [], s.state, s.told⟩ :=
    hreach.parse_eq_suspended hdone
  rw [hbuffer, List.append_nil, List.append_nil] at hbytes
  cases packets with
  | cons q packets =>
      rw [hbytes, List.flatMap_cons, parse_bytes_append] at hrun
      cases congrArg Run.outcome hrun
  | nil =>
      rw [hbytes, List.flatMap_nil] at hrun
      have hnil : parse conf sink .start fresh [] = ⟨.suspended, [], .start, fresh⟩ :=
        (start conf sink fresh).parse_nil
      rw [hnil] at hrun
      obtain ⟨-, -, hstate, htold⟩ := Run.mk.inj hrun
      exact ⟨rfl, hstate.symm, htold.symm⟩

end Link

/-- Packets on one stream do not touch one another. However the stream is cut, a decoder that starts
anew behind each packet, for a new sink, takes each for what it is alone, in their order, and meets
no fault. It leaves nothing, and is in the end as it was at first. -/
theorem play_packets {ps pieces : List (List UInt8)}
    (hps : ∀ p ∈ ps, (∃ d : Draft, d.encode = .ok p) ∨
      ∃ c : PrefixCode, c.byte ≠ PrefixCode.forwardRequest.byte ∧ p = c.signal)
    (hpieces : pieces.flatten = ps.flatten) :
    let played := (Link.start conf sink fresh).play (.afterPacket fresh) pieces
    played.1.filterMap Report.record? = ps.map (alone conf sink fresh) ∧
    (∀ p ∈ ps, (parse conf sink .start fresh p).outcome = .done ∧
      (parse conf sink .start fresh p).rest = []) ∧
    (∀ report ∈ played.1, ∀ fault, report.outcome ≠ .failed fault) ∧
    played.2.buffer = [] ∧ played.2.state = .start ∧ played.2.told = fresh := by
  have hpackets : ∀ p ∈ ps, p ∈ Set.range Packet.bytes := by
    intro p hp
    obtain ⟨d, hd⟩ | ⟨c, hc, rfl⟩ := hps p hp
    · obtain ⟨-, -, -, -, -, q, hq, -⟩ := Draft.exists_packet_of_encode hd
      exact ⟨q, hq⟩
    · exact ⟨.signal 1 c.byte hc, rfl⟩
  obtain ⟨qs, rfl⟩ : ps ∈ Set.range (List.map Packet.bytes) := by
    rw [Set.range_list_map]
    exact hpackets
  intro played
  have hstream : pieces.flatten = qs.flatMap Packet.bytes := by rw [hpieces, List.flatMap_def]
  obtain ⟨⟨⟨behind, ahead, rfl, hlog, hawaits⟩, hok⟩, hbuffer⟩ :=
    Link.inStream_play conf sink fresh hstream
  obtain ⟨rfl, hstate, htold⟩ := hawaits.eq_start hbuffer
  refine ⟨?_, ?_, hok, hbuffer, hstate, htold⟩
  · rw [hlog, List.append_nil, List.map_map]
    rfl
  · intro p hp
    obtain ⟨q, -, rfl⟩ := List.mem_map.1 hp
    have hrun := parse_bytes_append conf sink fresh q []
    rw [List.append_nil] at hrun
    rw [hrun]
    exact ⟨rfl, rfl⟩

/-- A request and a liveness check, cut within the magic word of the one and the size of the
other. -/
theorem play_sample_and_ping :
    let ps := [Draft.sampleBytes, PrefixCode.cping.signal]
    let pieces := [[0x12], [], Draft.sampleBytes.tail ++ [0x12, 0x34, 0], [1, 0x0A]]
    ((∀ p ∈ ps, (∃ d : Draft, d.encode = .ok p) ∨
        ∃ c : PrefixCode, c.byte ≠ PrefixCode.forwardRequest.byte ∧ p = c.signal) ∧
      pieces.flatten = ps.flatten) ∧
    let played := (Link.start {} Sink.setterRecorder []).play (.afterPacket []) pieces
    played.1.filterMap Report.record? = ps.map (alone {} Sink.setterRecorder []) ∧
    (∀ p ∈ ps, (parse {} Sink.setterRecorder .start [] p).outcome = .done ∧
      (parse {} Sink.setterRecorder .start [] p).rest = []) ∧
    (∀ report ∈ played.1, ∀ fault, report.outcome ≠ .failed fault) ∧
    played.2.buffer = [] ∧ played.2.state = .start ∧ played.2.told = [] := by
  intro ps pieces
  have hps : ∀ p ∈ ps, (∃ d : Draft, d.encode = .ok p) ∨
      ∃ c : PrefixCode, c.byte ≠ PrefixCode.forwardRequest.byte ∧ p = c.signal := by
    intro p hp
    obtain rfl | hp := List.mem_cons.1 hp
    · exact .inl ⟨Draft.sample, by rfl⟩
    · obtain rfl := List.mem_singleton.1 hp
      exact .inr ⟨.cping, by decide, rfl⟩
  have hpieces : pieces.flatten = ps.flatten := by decide
  exact ⟨⟨hps, hpieces⟩, play_packets {} Sink.setterRecorder [] hps hpieces⟩

end Ajp13
