import Ajp13.Proofs.Stream.Loop

/-!
The progress of a decoder.

* `Reachable.exists_taken_ne_nil`: a call takes a byte if there is one, unless the packet is
  complete;
* `Link.drain`: the calls on a stream in pieces, until a packet is complete or no bytes are left. It
  comes to an end because a call that leaves bytes, and does not complete the packet, has taken some
  (`Link.length_after_lt_of_left`);
* `Link.exists_drain_eq`: where the calls end, and what has become of the bytes by then;
* `Link.countP_drain_le`: there are no more calls with bytes than bytes;
* `Decoder.Reachable.progress`: all this, from any reachable state.
-/

namespace Ajp13

open Decoder

variable {σ : Type}

/-! ### One call -/

namespace Decoder.Reachable

variable {s : State} (hs : Reachable s) (conf : Conf) (sink : Sink σ) (told : σ)
include hs

/-- A call takes a byte if there is one, whatever comes of it. -/
theorem exists_taken_ne_nil (hdone : s.phase ≠ .done) {buffer : List UInt8}
    (hbuffer : buffer ≠ []) :
    ∃ taken ≠ [], buffer = taken ++ (Decoder.parse conf sink s told buffer).rest := by
  have hlt : (Decoder.parse conf sink s told buffer).rest.length < buffer.length := by
    by_cases hsuspended : (Decoder.parse conf sink s told buffer).outcome = .suspended
    · rw [rest_parse_of_suspended hs conf sink told hsuspended]
      exact List.length_pos_iff.2 hbuffer
    · rw [parse_eq_scan hs.coherent] at hsuspended ⊢
      exact length_rest_scan_lt hdone hsuspended
  obtain ⟨taken, hbytes, -⟩ := Decoder.exists_taken (sink.tell conf) s told buffer
  rw [← parse_eq_scan hs.coherent] at hbytes
  refine ⟨taken, ?_, hbytes⟩
  rintro rfl
  have hlength := congrArg List.length hbytes
  rw [List.nil_append] at hlength
  omega

/-- Where a packet is complete, a call takes nothing and changes nothing. -/
lemma parse_of_done (hdone : s.phase = .done) (buffer : List UInt8) :
    Decoder.parse conf sink s told buffer = ⟨.done, buffer, s, told⟩ := by
  rw [parse_eq_scan hs.coherent, scan_done hdone]

end Decoder.Reachable

namespace Report

/-- The bytes that a call had to read. -/
def input (report : Report σ) : List UInt8 := report.taken ++ report.after.buffer

/-- There was something to read. -/
def hadBytes (report : Report σ) : Bool := !report.input.isEmpty

/-- The piece with which the decoder is called next, and those behind it. As long as there are bytes
left it is called on these; and behind a complete packet it is not called. -/
def next? (report : Report σ) (pieces : List (List UInt8)) :
    Option (List UInt8 × List (List UInt8)) :=
  if report.outcome = .done then none
  else if report.after.buffer ≠ [] then some ([], pieces)
  else
    match pieces with
    | [] => none
    | piece :: pieces => some (piece, pieces)

variable {report : Report σ} {pieces : List (List UInt8)}

lemma of_next?_eq_none (h : report.next? pieces = none) :
    report.outcome = .done ∨ report.after.buffer = [] ∧ pieces = [] := by
  unfold next? at h
  split at h
  next hdone => exact .inl hdone
  next hdone =>
    split at h
    next hleft => cases h
    next hleft =>
      cases pieces with
      | nil => exact .inr ⟨not_not.1 hleft, rfl⟩
      | cons piece pieces => cases h

/-- The decoder is called on bytes that are left, or on one more piece. -/
lemma of_next?_eq_some {piece : List UInt8} {pieces' : List (List UInt8)}
    (h : report.next? pieces = some (piece, pieces')) :
    report.outcome ≠ .done ∧
    (report.after.buffer ≠ [] ∧ piece = [] ∧ pieces' = pieces ∨
      report.after.buffer = [] ∧ pieces = piece :: pieces') := by
  unfold next? at h
  split at h
  next hdone => cases h
  next hdone =>
    refine ⟨hdone, ?_⟩
    split at h
    next hleft =>
      cases h
      exact .inl ⟨hleft, rfl, rfl⟩
    next hleft =>
      cases pieces with
      | nil => cases h
      | cons piece pieces =>
          cases h
          exact .inr ⟨not_not.1 hleft, rfl⟩

/-- What is to be read stays the same. -/
lemma bytes_of_next?_eq_some {piece : List UInt8} {pieces' : List (List UInt8)}
    (h : report.next? pieces = some (piece, pieces')) :
    piece ++ pieces'.flatten = pieces.flatten := by
  obtain ⟨-, ⟨-, rfl, rfl⟩ | ⟨-, rfl⟩⟩ := of_next?_eq_some h
  · exact List.nil_append _
  · rfl

end Report

namespace Link

section Call

variable (s : Link σ) (piece : List UInt8)

lemma input_call : (s.call piece).input = s.buffer ++ piece := (s.taken_call piece).1

/-- A call that had bytes had at least one. -/
lemma ite_hadBytes_le :
    (if (s.call piece).hadBytes then 1 else 0) ≤ (s.buffer ++ piece).length := by
  split
  next h =>
    rw [Report.hadBytes, input_call, Bool.not_eq_true', List.isEmpty_eq_false_iff] at h
    exact List.length_pos_iff.2 h
  next => exact Nat.zero_le _

/-- A call that leaves bytes has taken some, unless the packet is complete. -/
lemma length_after_lt_of_left (hdone : (s.call piece).outcome ≠ .done)
    (hleft : (s.call piece).after.buffer ≠ []) :
    (s.call piece).after.buffer.length < (s.buffer ++ piece).length := by
  have hended : (s.call piece).outcome ≠ .suspended :=
    fun hsuspended => hleft (s.buffer_of_suspended piece hsuspended)
  cases houtcome : (s.call piece).outcome with
  | done => exact absurd houtcome hdone
  | suspended => exact absurd houtcome hended
  | failed fault => exact s.length_after_lt piece (s.phase_ne_done_of_failed piece houtcome) hended

end Call

/-! ### The calls on a stream -/

/-- Calls the decoder on one piece after another, and again on what it has left, behind a fault as
well, until a packet is complete or nothing is left. -/
def drain (s : Link σ) (piece : List UInt8) (pieces : List (List UInt8)) : List (Report σ) :=
  match _hnext : (s.call piece).next? pieces with
  | some (piece', pieces') => s.call piece :: drain (s.call piece).after piece' pieces'
  | none => [s.call piece]
termination_by (pieces.length, (s.buffer ++ piece).length)
decreasing_by
  -- bytes that are left are fewer than before; otherwise there is a piece less
  obtain ⟨hdone, ⟨hleft, rfl, rfl⟩ | ⟨-, rfl⟩⟩ := Report.of_next?_eq_some _hnext
  · rw [List.append_nil]
    exact Prod.Lex.right _ (s.length_after_lt_of_left piece hdone hleft)
  · exact Prod.Lex.left _ _ (Nat.lt_succ_self _)

section Drain

variable {s : Link σ} {piece piece' : List UInt8} {pieces pieces' : List (List UInt8)}

lemma drain_of_some (h : (s.call piece).next? pieces = some (piece', pieces')) :
    s.drain piece pieces = s.call piece :: (s.call piece).after.drain piece' pieces' := by
  rw [drain]
  split
  next h' =>
    rw [h] at h'
    cases h'
    rfl
  next h' => rw [h] at h'; cases h'

lemma drain_of_none (h : (s.call piece).next? pieces = none) :
    s.drain piece pieces = [s.call piece] := by
  rw [drain]
  split
  next h' => rw [h] at h'; cases h'
  next => rfl

end Drain

/-- The calls end where a packet is complete, or where nothing is left. Each byte up to there was
taken by one of the calls, and those behind a complete packet are still there. -/
theorem exists_drain_eq (s : Link σ) (piece : List UInt8) (pieces : List (List UInt8)) :
    ∃ (before : List (Report σ)) (last : Report σ) (unread : List (List UInt8)),
      s.drain piece pieces = before ++ [last] ∧
      (∀ report ∈ before, report.outcome ≠ .done) ∧
      (s.drain piece pieces).flatMap Report.taken ++ last.after.buffer ++ unread.flatten =
        s.buffer ++ piece ++ pieces.flatten ∧
      (last.outcome = .done ∨ last.after.buffer = [] ∧ unread = []) := by
  induction s, piece, pieces using drain.induct with
  | case1 s piece pieces piece' pieces' hnext ih =>
      obtain ⟨before, last, unread, hlog, hbefore, hbytes, hend⟩ := ih
      refine ⟨s.call piece :: before, last, unread, ?_, ?_, ?_, hend⟩
      · rw [drain_of_some hnext, hlog, List.cons_append]
      · exact List.forall_mem_cons.2 ⟨(Report.of_next?_eq_some hnext).1, hbefore⟩
      · calc
          (s.drain piece pieces).flatMap Report.taken ++ last.after.buffer ++ unread.flatten
          _ = (s.call piece).taken ++
              ((s.call piece).after.buffer ++ (piece' ++ pieces'.flatten)) := by
            rw [drain_of_some hnext, List.flatMap_cons, List.append_assoc, List.append_assoc,
              ← List.append_assoc _ _ unread.flatten, hbytes, List.append_assoc]
          _ = (s.call piece).input ++ pieces.flatten := by
            rw [Report.bytes_of_next?_eq_some hnext, ← List.append_assoc, Report.input]
          _ = s.buffer ++ piece ++ pieces.flatten := by rw [input_call]
  | case2 s piece pieces hnext =>
      refine ⟨[], s.call piece, pieces, drain_of_none hnext, ?_, ?_, ?_⟩
      · exact fun _ hmem => absurd hmem List.not_mem_nil
      · rw [drain_of_none hnext, List.flatMap_singleton, ← Report.input, input_call]
      · exact Report.of_next?_eq_none hnext

/-- There are no more calls that have bytes than bytes. -/
theorem countP_drain_le (s : Link σ) (piece : List UInt8) (pieces : List (List UInt8)) :
    (s.drain piece pieces).countP Report.hadBytes ≤
      (s.buffer ++ piece).length + pieces.flatten.length := by
  induction s, piece, pieces using drain.induct with
  | case1 s piece pieces piece' pieces' hnext ih =>
      -- a call that had bytes pays for itself with one of those that it took
      have hless : (s.call piece).after.buffer.length + (if (s.call piece).hadBytes then 1 else 0) ≤
          (s.buffer ++ piece).length := by
        obtain ⟨hdone, ⟨hleft, -, -⟩ | ⟨hnone, -⟩⟩ := Report.of_next?_eq_some hnext
        · have hlt := s.length_after_lt_of_left piece hdone hleft
          split <;> omega
        · rw [hnone, List.length_nil, Nat.zero_add]
          exact s.ite_hadBytes_le piece
      have hbytes := congrArg List.length (Report.bytes_of_next?_eq_some hnext)
      rw [drain_of_some hnext, List.countP_cons]
      rw [List.length_append] at ih hbytes
      omega
  | case2 s piece pieces hnext =>
      rw [drain_of_none hnext, List.countP_singleton]
      exact Nat.le_trans (s.ite_hadBytes_le piece) (Nat.le_add_right _ _)

end Link

/-! ### All calls -/

/-- The decoder in the given state, for a sink in the given state. -/
def Decoder.Reachable.link {s : State} (hs : Reachable s) (conf : Conf) (sink : Sink σ) (told : σ) :
    Link σ :=
  { conf, sink, told, state := s, reachable := hs }

/-- Every call makes progress. From any reachable state, a call takes a byte if there is one,
whatever comes of it, and takes all of them if it is suspended; where a packet is complete, it takes
nothing and changes nothing. So a decoder can be called on any pieces, and again on what it has left,
until a packet is complete or nothing is left. This comes to an end, at which all bytes are accounted
for; and no more of the calls had something to read than there are bytes. -/
theorem Decoder.Reachable.progress {s : State} (hs : Reachable s) (conf : Conf) (sink : Sink σ)
    (told : σ) (buffer : List UInt8) :
    (s.phase ≠ .done → buffer ≠ [] →
      ∃ taken ≠ [], buffer = taken ++ (Decoder.parse conf sink s told buffer).rest) ∧
    ((Decoder.parse conf sink s told buffer).outcome = .suspended →
      (Decoder.parse conf sink s told buffer).rest = []) ∧
    (s.phase = .done →
      Decoder.parse conf sink s told buffer = ⟨.done, buffer, s, told⟩ ∧
      calls conf sink s told buffer = []) ∧
    ∀ pieces : List (List UInt8),
      let log := (hs.link conf sink told).drain buffer pieces
      log.countP Report.hadBytes ≤ (buffer ++ pieces.flatten).length ∧
      ∃ (before : List (Report σ)) (last : Report σ) (unread : List (List UInt8)),
        log = before ++ [last] ∧ (∀ report ∈ before, report.outcome ≠ .done) ∧
        log.flatMap Report.taken ++ last.after.buffer ++ unread.flatten =
          buffer ++ pieces.flatten ∧
        (last.outcome = .done ∨ last.after.buffer = [] ∧ unread = []) := by
  refine ⟨fun hdone hbuffer => hs.exists_taken_ne_nil conf sink told hdone hbuffer,
    rest_parse_of_suspended hs conf sink told, fun hdone => ⟨?_, ?_⟩, fun pieces => ⟨?_, ?_⟩⟩
  · exact hs.parse_of_done conf sink told hdone buffer
  · exact congrArg (fun r => r.result.2) (hs.parse_of_done conf sink.traced (told, []) hdone buffer)
  · rw [List.length_append]
    exact (hs.link conf sink told).countP_drain_le buffer pieces
  · exact (hs.link conf sink told).exists_drain_eq buffer pieces

/-- Two bytes that are no magic, and behind them a ping and one byte more, in three pieces. -/
theorem Decoder.progress_past_fault :
    let log := (Reachable.start.link {} Sink.setterRecorder []).drain [0x41]
      [[0x42, 0x12, 0x34, 0], [1, 0x0A, 0xFF]]
    (∃ taken ≠ [], [0x41] = taken ++
      (Decoder.parse {} Sink.setterRecorder .start [] [0x41]).rest) ∧
    log.countP Report.hadBytes ≤ 8 ∧
    ∃ (before : List (Report (List Call))) (last : Report (List Call))
      (unread : List (List UInt8)),
      log = before ++ [last] ∧ (∀ report ∈ before, report.outcome ≠ .done) ∧
      log.flatMap Report.taken ++ last.after.buffer ++ unread.flatten =
        [0x41, 0x42, 0x12, 0x34, 0, 1, 0x0A, 0xFF] ∧
      (last.outcome = .done ∨ last.after.buffer = [] ∧ unread = []) := by
  obtain ⟨htaken, -, -, hlog⟩ := Reachable.start.progress {} Sink.setterRecorder [] [0x41]
  exact ⟨htaken (by decide) (by decide), hlog [[0x42, 0x12, 0x34, 0], [1, 0x0A, 0xFF]]⟩

end Ajp13
