import Ajp13.Proofs.Bytewise.Stops
import Ajp13.Session

/-!
Calling a decoder again and again, on a stream that comes in pieces.

* `Link`: a session whose decoder has been through nothing but bytes and resets;
* `Again`: whether a decoder is called again behind a packet, or behind a fault;
* `Link.exhaust`, `Link.play`: one piece, and all pieces, with a `Report` of each call;
* `Link.play_induct`: what each call keeps, the whole stream keeps; `Link.forall_play`: and what holds
  behind each call, holds of the whole log;
* `Link.Reaches`: bytes that lead from one session to another;
* `Link.Reaches.parse_append`: what comes behind these bytes is dealt with from there.
-/

namespace Ajp13

open Decoder

variable {σ : Type}

/-! ### The loop -/

/-- A session whose decoder has been through nothing but bytes and resets. -/
structure Link (σ : Type) extends Session σ where
  reachable : Reachable state

/-- A call of a decoder. -/
structure Report (σ : Type) where
  outcome : Outcome
  /-- The bytes that the call took. -/
  taken : List UInt8
  /-- What the call left. -/
  after : Link σ

/-- When a decoder is called again on what it left. -/
inductive Again (σ : Type)
  /-- Behind a fault. -/
  | afterFault
  /-- Behind a packet, to wait for the next one, for a sink that starts with the given state. -/
  | afterPacket (fresh : σ)

namespace Link

/-- A session with nothing behind it. -/
def start (conf : Conf) (sink : Sink σ) (fresh : σ) : Link σ :=
  { conf, sink, told := fresh, reachable := .start }

/-- Waits for a new packet, for a sink that starts with the given state. -/
def restart (s : Link σ) (fresh : σ) : Link σ :=
  { toSession := s.toSession.reset.renew fresh, reachable := s.reachable.reset }

/-- Calls the decoder on one more piece. -/
def call (s : Link σ) (piece : List UInt8) : Report σ :=
  let buffer := s.buffer ++ piece
  let after := (s.toSession.feed piece).2
  { outcome := (s.toSession.feed piece).1
    taken := buffer.take (buffer.length - after.buffer.length)
    after := { toSession := after
               reachable := .parse s.conf s.sink s.reachable s.told buffer } }

end Link

namespace Again

/-- The session with which a decoder is called again, if it is. -/
def next? (again : Again σ) (report : Report σ) : Option (Link σ) :=
  match again with
  | afterFault =>
      match report.outcome with
      | .failed _ => some report.after
      | _ => none
  | afterPacket fresh =>
      if report.outcome = .done then some (report.after.restart fresh) else none

lemma next?_afterFault_of_failed {report : Report σ} {fault : Fault}
    (h : report.outcome = .failed fault) : afterFault.next? report = some report.after := by
  rw [next?, h]

lemma next?_afterFault_of_ne {report : Report σ} (h : ∀ fault, report.outcome ≠ .failed fault) :
    afterFault.next? report = none := by
  rw [next?]
  cases houtcome : report.outcome with
  | failed fault => exact absurd houtcome (h fault)
  | _ => rfl

lemma next?_afterPacket_of_done (fresh : σ) {report : Report σ} (h : report.outcome = .done) :
    (afterPacket fresh).next? report = some (report.after.restart fresh) :=
  if_pos h

lemma next?_afterPacket_of_ne (fresh : σ) {report : Report σ} (h : report.outcome ≠ .done) :
    (afterPacket fresh).next? report = none :=
  if_neg h

/-- The two ways to be called again. -/
lemma next?_eq_some {again : Again σ} {report : Report σ} {s : Link σ}
    (h : again.next? report = some s) :
    (∃ fault, again = afterFault ∧ report.outcome = .failed fault ∧ s = report.after) ∨
    ∃ fresh, again = afterPacket fresh ∧ report.outcome = .done ∧
      s = report.after.restart fresh := by
  cases again with
  | afterFault =>
      cases houtcome : report.outcome with
      | failed fault =>
          rw [next?_afterFault_of_failed houtcome] at h
          exact .inl ⟨fault, rfl, rfl, (Option.some.inj h).symm⟩
      | _ =>
          rw [next?, houtcome] at h
          cases h
  | afterPacket fresh =>
      by_cases houtcome : report.outcome = .done
      · rw [next?_afterPacket_of_done fresh houtcome] at h
        exact .inr ⟨fresh, rfl, houtcome, (Option.some.inj h).symm⟩
      · rw [next?_afterPacket_of_ne fresh houtcome] at h
        cases h

end Again

/-- The run that a call is. -/
def Report.run (report : Report σ) : Run σ :=
  ⟨report.outcome, report.after.buffer, report.after.state, report.after.told⟩

namespace Link

section Call

variable (s : Link σ) (piece : List UInt8)

lemma run_call :
    (s.call piece).run = parse s.conf s.sink s.state s.told (s.buffer ++ piece) := rfl

/-- A call takes bytes from ahead, and does with them what it would do if there were no others. -/
lemma taken_call :
    (s.call piece).taken ++ (s.call piece).after.buffer = s.buffer ++ piece ∧
    parse s.conf s.sink s.state s.told (s.call piece).taken =
      { (s.call piece).run with rest := [] } := by
  obtain ⟨taken, hbytes, htaken⟩ :=
    exists_taken (s.sink.tell s.conf) s.state s.told (s.buffer ++ piece)
  rw [← parse_eq_scan s.reachable.coherent] at hbytes htaken
  rw [← parse_eq_scan s.reachable.coherent, ← run_call] at htaken
  have htake : ∀ {buffer rest : List UInt8}, buffer = taken ++ rest →
      buffer.take (buffer.length - rest.length) = taken := by
    rintro _ rest rfl
    simp
  have hcall : (s.call piece).taken = taken := htake hbytes
  rw [hcall]
  exact ⟨hbytes.symm, htaken⟩

/-- A call without a fault is done where the packet is complete, and suspended elsewhere. -/
lemma outcome_call (hok : ∀ fault, (s.call piece).outcome ≠ .failed fault) :
    (s.call piece).outcome = if (s.call piece).after.state.isDone then .done else .suspended := by
  change ∀ fault, (parse _ _ _ _ _).outcome ≠ _ at hok
  change (parse _ _ _ _ _).outcome = if (parse _ _ _ _ _).state.isDone then _ else _
  rw [parse_eq_scan s.reachable.coherent] at hok ⊢
  exact outcome_scan_eq hok

/-- A call that was suspended leaves nothing. -/
lemma buffer_of_suspended (h : (s.call piece).outcome = .suspended) :
    (s.call piece).after.buffer = [] :=
  rest_parse_of_suspended s.reachable s.conf s.sink s.told h

/-- What a call may still have to do: take bytes, or leave a packet that is complete. -/
def todo : Nat := 2 * (s.buffer ++ piece).length + if s.state.isDone then 1 else 0

/-- A call that ended has taken a byte, unless the packet was complete. -/
lemma length_after_lt (hdone : s.state.phase ≠ .done)
    (hended : (s.call piece).outcome ≠ .suspended) :
    (s.call piece).after.buffer.length < (s.buffer ++ piece).length := by
  change (parse _ _ _ _ _).outcome ≠ _ at hended
  change (parse _ _ _ _ _).rest.length < _
  rw [parse_eq_scan s.reachable.coherent] at hended ⊢
  exact length_rest_scan_lt hdone hended

/-- Where a packet is complete, there is no fault. -/
lemma phase_ne_done_of_failed {fault : Fault} (hfailed : (s.call piece).outcome = .failed fault) :
    s.state.phase ≠ .done := by
  intro hdone
  change (parse _ _ _ _ _).outcome = _ at hfailed
  rw [parse_eq_scan s.reachable.coherent, scan_done hdone] at hfailed
  cases hfailed

/-- Each call that is made again has less to do. -/
lemma todo_next?_lt (again : Again σ) {s' : Link σ} (h : again.next? (s.call piece) = some s') :
    s'.todo [] < s.todo piece := by
  have hprogress := s.length_after_lt piece
  obtain ⟨fault, rfl, houtcome, rfl⟩ | ⟨fresh, rfl, houtcome, rfl⟩ := Again.next?_eq_some h
  · have hlt := hprogress (s.phase_ne_done_of_failed piece houtcome)
      (by rw [houtcome]; exact Outcome.noConfusion)
    rw [todo, todo, List.append_nil]
    split <;> omega
  · change 2 * ((s.call piece).after.buffer ++ []).length + 0 < _
    rw [todo, List.append_nil]
    by_cases hdone : s.state.phase = .done
    · -- the packet was complete before, and now there is a new one
      have hlength := congrArg List.length (s.taken_call piece).1
      rw [List.length_append] at hlength
      rw [if_pos (by simp [State.isDone, hdone])]
      omega
    · have hlt := hprogress hdone (by rw [houtcome]; exact Outcome.noConfusion)
      omega

end Call

/-- Calls the decoder on one more piece, and again on what it left. -/
def exhaust (again : Again σ) (s : Link σ) (piece : List UInt8) : List (Report σ) × Link σ :=
  match _hnext : again.next? (s.call piece) with
  | some s' =>
      let (log, s'') := exhaust again s' []
      (s.call piece :: log, s'')
  | none => ([s.call piece], (s.call piece).after)
termination_by s.todo piece
decreasing_by exact s.todo_next?_lt piece again ‹_›

lemma exhaust_of_some {again : Again σ} {s s' : Link σ} {piece : List UInt8}
    (h : again.next? (s.call piece) = some s') :
    s.exhaust again piece = (s.call piece :: (s'.exhaust again []).1, (s'.exhaust again []).2) := by
  rw [exhaust]
  split
  next s'' h' =>
    rw [h] at h'
    cases h'
    rfl
  next h' => rw [h] at h'; cases h'

lemma exhaust_of_none {again : Again σ} {s : Link σ} {piece : List UInt8}
    (h : again.next? (s.call piece) = none) :
    s.exhaust again piece = ([s.call piece], (s.call piece).after) := by
  rw [exhaust]
  split
  next s'' h' => rw [h] at h'; cases h'
  next => rfl

/-- Calls the decoder on one piece after another. -/
def play (again : Again σ) : Link σ → List (List UInt8) → List (Report σ) × Link σ
  | s, [] => ([], s)
  | s, piece :: pieces =>
      let (log, s') := s.exhaust again piece
      let (log', s'') := play again s' pieces
      (log ++ log', s'')

/-- A call of a log with one more is that one, or one of those before. -/
lemma eq_or_eq_of_append_singleton_eq {log before after : List (Report σ)}
    {report report' : Report σ} (h : log ++ [report'] = before ++ report :: after) :
    (before = log ∧ report = report') ∨ ∃ after', log = before ++ report :: after' := by
  obtain rfl | ⟨after', last, rfl⟩ := List.eq_nil_or_concat after
  · obtain ⟨hlog, hreport⟩ := List.append_inj' h rfl
    exact .inl ⟨hlog.symm, (List.cons.inj hreport).1.symm⟩
  · rw [List.concat_eq_append, ← List.cons_append, ← List.append_assoc] at h
    exact .inr ⟨after', (List.append_inj' h rfl).1⟩

/-- Something holds of each call of a log, in view of those before. -/
def Throughout (P : List (Report σ) → Report σ → Prop) (log : List (Report σ)) : Prop :=
  ∀ before report after, log = before ++ report :: after → P before report

lemma Throughout.append {P : List (Report σ) → Report σ → Prop} {log : List (Report σ)}
    (h : Throughout P log) {report : Report σ} (hreport : P log report) :
    Throughout P (log ++ [report]) := by
  intro before report' after hlog
  obtain ⟨rfl, rfl⟩ | ⟨after', hlog⟩ := eq_or_eq_of_append_singleton_eq hlog
  · exact hreport
  · exact h before report' after' hlog

section Invariants

variable {again : Again σ} (Busy Idle : List (Report σ) → Link σ → List UInt8 → Prop)
  (hidle : ∀ {log s rest}, Idle log s rest → Busy log s rest)
  (hgo : ∀ {log s piece rest s'}, Busy log s (piece ++ rest) →
    again.next? (s.call piece) = some s' → Busy (log ++ [s.call piece]) s' rest)
  (hstop : ∀ {log s piece rest}, Busy log s (piece ++ rest) →
    again.next? (s.call piece) = none → Idle (log ++ [s.call piece]) (s.call piece).after rest)
include hgo hstop

/-- What each call keeps, all calls on one piece keep. -/
lemma exhaust_induct {log : List (Report σ)} {s : Link σ} {piece rest : List UInt8}
    (h : Busy log s (piece ++ rest)) :
    Idle (log ++ (s.exhaust again piece).1) (s.exhaust again piece).2 rest := by
  induction s, piece using exhaust.induct again generalizing log with
  | case1 s piece s' hnext log' s'' hrec ih =>
      have hrest := ih (hgo h hnext)
      rw [List.append_assoc] at hrest
      rw [exhaust_of_some hnext]
      exact hrest
  | case2 s piece hnext =>
      rw [exhaust_of_none hnext]
      exact hstop h hnext

include hidle in
/-- What each call keeps, the whole stream keeps. `Busy` holds ahead of a call, and `Idle` ahead of
a new piece; both are about the calls so far, the session, and the bytes that are still to come. -/
theorem play_induct (log : List (Report σ)) {s : Link σ} {pieces : List (List UInt8)}
    (h : Idle log s pieces.flatten) :
    Idle (log ++ (s.play again pieces).1) (s.play again pieces).2 [] := by
  induction pieces generalizing log s with
  | nil =>
      rw [play, List.append_nil]
      exact h
  | cons piece pieces ih =>
      have hpiece := ih _ (exhaust_induct Busy Idle hgo hstop (hidle h))
      rwa [List.append_assoc] at hpiece

include hidle in
/-- What holds behind each call that is made, holds behind each call of the log. -/
theorem forall_play {P : List (Report σ) → Report σ → Prop}
    (hcall : ∀ {log s piece rest}, Busy log s (piece ++ rest) → P log (s.call piece))
    {s : Link σ} {pieces : List (List UInt8)} (h : Idle [] s pieces.flatten)
    {before after : List (Report σ)} {report : Report σ}
    (hlog : (s.play again pieces).1 = before ++ report :: after) : P before report := by
  have hnil : Throughout P [] := by
    intro before report after hlog
    cases before <;> cases hlog
  exact (play_induct (fun log s rest => Busy log s rest ∧ Throughout P log)
    (fun log s rest => Idle log s rest ∧ Throughout P log) (fun h => ⟨hidle h.1, h.2⟩)
    (fun h hnext => ⟨hgo h.1 hnext, h.2.append (hcall h.1)⟩)
    (fun h hnext => ⟨hstop h.1 hnext, h.2.append (hcall h.1)⟩) [] ⟨h, hnil⟩).2 before report after
    hlog

end Invariants

/-! ### Where bytes lead -/

/-- A decoder that has taken the bytes is where another one is, and its sink as well. -/
structure Reaches (s : Link σ) (bytes : List UInt8) (t : Link σ) : Prop where
  conf : t.conf = s.conf
  sink : t.sink = s.sink
  parse_eq : parse s.conf s.sink s.state s.told bytes = parse t.conf t.sink t.state t.told []

/-- Without bytes, a decoder stays where it is. -/
lemma parse_nil (s : Link σ) :
    parse s.conf s.sink s.state s.told [] =
      ⟨if s.state.isDone then .done else .suspended, [], s.state, s.told⟩ := by
  rw [parse_eq_scan s.reachable.coherent]
  rfl

namespace Reaches

variable {s t u : Link σ} {a b : List UInt8}

lemma refl (s : Link σ) : s.Reaches [] s := ⟨rfl, rfl, rfl⟩

/-- What comes behind is dealt with from there. -/
theorem parse_append (h : s.Reaches a t) (b : List UInt8) :
    parse s.conf s.sink s.state s.told (a ++ b) = parse t.conf t.sink t.state t.told b := by
  have hparse := h.parse_eq
  rw [parse_eq_scan s.reachable.coherent, parse_eq_scan t.reachable.coherent] at hparse
  rw [parse_eq_scan s.reachable.coherent, parse_eq_scan t.reachable.coherent,
    ← List.nil_append b, scan_append, scan_append, List.nil_append, hparse, h.conf, h.sink]

lemma trans (h : s.Reaches a t) (h' : t.Reaches b u) : s.Reaches (a ++ b) u where
  conf := h'.conf.trans h.conf
  sink := h'.sink.trans h.sink
  parse_eq := (h.parse_append b).trans h'.parse_eq

/-- Where no packet is complete, more is waited for. -/
lemma parse_eq_suspended (h : s.Reaches a t) (hdone : t.state.phase ≠ .done) :
    parse s.conf s.sink s.state s.told a = ⟨.suspended, [], t.state, t.told⟩ := by
  rw [h.parse_eq, parse_nil, isDone_eq_false hdone]
  rfl

/-- A call without a fault leads on with the bytes that it took. -/
lemma call (s : Link σ) {piece : List UInt8}
    (hok : ∀ fault, (s.call piece).outcome ≠ .failed fault) :
    s.Reaches (s.call piece).taken (s.call piece).after where
  conf := rfl
  sink := rfl
  parse_eq := by
    rw [(s.taken_call piece).2, parse_nil, ← s.outcome_call piece hok]
    rfl

end Reaches

end Link

end Ajp13
