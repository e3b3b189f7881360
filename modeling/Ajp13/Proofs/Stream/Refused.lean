import Ajp13.Proofs.Stream.Loop
import Mathlib.Data.List.DropRight

/-!
Fields at fault leave no trace.

* `Sifted`: the bytes that a decoder took, cut behind each field at fault; `Sifted.spared` are those
  of the other fields;
* `Link.Reaches.exists_spared`: a call with a fault takes the field at fault to its end, and leaves
  the decoder where it was ahead of that field;
* `Link.parse_spared`: so what each call leaves is what comes of the bytes so far without their
  fields at fault;
* `play_spared`: and what comes of a stream is what comes of the same stream without its fields at
  fault.
-/

namespace Ajp13

open Decoder

variable {σ : Type}

/-! ### Bytes without the fields at fault -/

/-- The bytes that a decoder took, cut behind each field at fault. -/
structure Sifted where
  /-- What it took up to each field at fault, and what was wrong with that. -/
  refused : List (List UInt8 × Fault) := []
  /-- What it took since. -/
  since : List UInt8 := []

namespace Sifted

/-- All bytes. -/
def all (x : Sifted) : List UInt8 := x.refused.flatMap (fun r => r.1 ++ r.2.bytes) ++ x.since

/-- The bytes without the fields at fault. -/
def spared (x : Sifted) : List UInt8 := x.refused.flatMap Prod.fst ++ x.since

/-- With the bytes of one more call. The field at fault comes last, and may have begun in an earlier
call. -/
def add (x : Sifted) (report : Report σ) : Sifted :=
  match report.outcome with
  | .failed fault =>
      { refused := x.refused ++ [((x.since ++ report.taken).rdrop fault.bytes.length, fault)] }
  | _ => { x with since := x.since ++ report.taken }

/-- With the bytes of all calls. -/
def ofLog (log : List (Report σ)) : Sifted := log.foldl add {}

lemma ofLog_append (log : List (Report σ)) (report : Report σ) :
    ofLog (log ++ [report]) = (ofLog log).add report := by
  rw [ofLog, List.foldl_append]
  rfl

lemma add_of_failed {x : Sifted} {report : Report σ} {fault : Fault} {spared : List UInt8}
    (h : report.outcome = .failed fault)
    (hbytes : x.since ++ report.taken = spared ++ fault.bytes) :
    x.add report = ⟨x.refused ++ [(spared, fault)], []⟩ := by
  rw [add, h]
  dsimp only
  rw [hbytes, List.rdrop, List.length_append, Nat.add_sub_cancel, List.take_left]

lemma add_of_ne {x : Sifted} {report : Report σ} (h : ∀ fault, report.outcome ≠ .failed fault) :
    x.add report = { x with since := x.since ++ report.taken } := by
  rw [add]
  cases houtcome : report.outcome with
  | failed fault => exact absurd houtcome (h fault)
  | _ => rfl

/-- Without a fault, all bytes are spared. -/
lemma spared_ofLog {log : List (Report σ)}
    (h : ∀ report ∈ log, ∀ fault, report.outcome ≠ .failed fault) :
    (ofLog log).spared = log.flatMap Report.taken := by
  have hlog : ofLog log = ⟨[], log.flatMap Report.taken⟩ := by
    induction log using List.reverseRecOn with
    | nil => rfl
    | append_singleton log report ih =>
        obtain ⟨hbefore, hreport⟩ := List.forall_mem_append.1 h
        rw [ofLog_append, ih hbefore, add_of_ne (hreport report (List.mem_singleton_self report)),
          List.flatMap_append, List.flatMap_singleton]
  rw [hlog]
  rfl

end Sifted

/-! ### Calls -/

lemma Decoder.Fault.phase_ne_done (fault : Fault) : fault.phase ≠ .done := by
  cases fault <;> exact Phase.noConfusion

namespace Link

variable {s₀ s : Link σ} {piece : List UInt8}

/-- There is nothing to do. -/
def Settled (s : Link σ) : Prop := s.state.phase = .done ∨ s.buffer = []

lemma settled_call (hok : ∀ fault, (s.call piece).outcome ≠ .failed fault) :
    (s.call piece).after.Settled := by
  cases houtcome : (s.call piece).outcome with
  | suspended => exact .inr (s.buffer_of_suspended piece houtcome)
  | failed fault => exact absurd houtcome (hok fault)
  | done =>
      rw [s.outcome_call piece hok] at houtcome
      split at houtcome
      next hdone => exact .inl (of_decide_eq_true hdone)
      next => cases houtcome

/-- A decoder with nothing to do does nothing. -/
lemma Settled.parse_eq (h : s.Settled) :
    parse s.conf s.sink s.state s.told s.buffer =
      ⟨if s.state.isDone then .done else .suspended, s.buffer, s.state, s.told⟩ := by
  obtain hdone | hbuffer := h
  · rw [parse_eq_scan s.reachable.coherent, scan_done hdone, State.isDone, hdone]
    rfl
  · rw [hbuffer, parse_nil]

/-- A call with a fault takes the field at fault to its end, and leaves the decoder where it was
ahead of that field. -/
theorem Reaches.exists_spared {since : List UInt8} {fault : Fault} (h : s₀.Reaches since s)
    (hs : s₀.state.scratch = {}) (hfailed : (s.call piece).outcome = .failed fault) :
    ∃ spared, since ++ (s.call piece).taken = spared ++ fault.bytes ∧
      s₀.Reaches spared (s.call piece).after ∧
      (s.call piece).after.state.phase = fault.phase ∧
      (s.call piece).after.state.scratch = {} := by
  have hrun := h.parse_append (s.buffer ++ piece)
  rw [← run_call, Report.run, hfailed, parse_eq_scan s₀.reachable.coherent] at hrun
  obtain ⟨spared, hbytes, hspared, hphase, hscratch⟩ :=
    s₀.reachable.coherent.exists_spared_of_failed hs hrun
  rw [← (s.taken_call piece).1, ← List.append_assoc] at hbytes
  have hdone : (s.call piece).after.state.phase ≠ .done := by
    rw [hphase]
    exact fault.phase_ne_done
  refine ⟨spared, List.append_cancel_right hbytes, ⟨h.conf, h.sink, ?_⟩, hphase, hscratch⟩
  rw [parse_nil, isDone_eq_false hdone, parse_eq_scan s₀.reachable.coherent, hspared]
  rfl

end Link

/-! ### Whole streams -/

variable (conf : Conf) (sink : Sink σ) (fresh : σ)

/-- What a call with a fault does, behind the bytes that were taken before it. It takes the field at
fault to its end, and leaves the decoder and the sink where they are ahead of that field, if the
fields that were at fault earlier had not come either. -/
def Refusal (before : Sifted) (report : Report σ) (fault : Fault) : Prop :=
  ∃ spared, before.since ++ report.taken = spared ++ fault.bytes ∧
    report.after.state.phase = fault.phase ∧ report.after.state.scratch = {} ∧
    parse conf sink .start fresh (before.refused.flatMap Prod.fst ++ spared) =
      ⟨.suspended, [], report.after.state, report.after.told⟩

/-- Within a stream: each fault so far was a refusal, and the decoder is where the bytes since the
last one lead. -/
structure Sifts (stream : List UInt8) (log : List (Report σ)) (s : Link σ) (rest : List UInt8) :
    Prop where
  bytes : log.flatMap Report.taken ++ (s.buffer ++ rest) = stream
  refusals : ∀ {before report after fault}, log = before ++ report :: after →
    report.outcome = .failed fault → Refusal conf sink fresh (.ofLog before) report fault
  reaches : ∃ s₀ : Link σ, s₀.state.scratch = {} ∧
    (Link.start conf sink fresh).Reaches ((Sifted.ofLog log).refused.flatMap Prod.fst) s₀ ∧
    s₀.Reaches (Sifted.ofLog log).since s

variable {conf sink fresh}

namespace Sifts

variable {stream : List UInt8} {log : List (Report σ)} {s : Link σ} {piece rest : List UInt8}

variable (conf sink fresh) in
lemma start (stream : List UInt8) :
    Sifts conf sink fresh stream [] (.start conf sink fresh) stream := by
  refine ⟨rfl, fun {before report after fault} hlog => ?_, .start conf sink fresh, rfl, .refl _,
    .refl _⟩
  cases before <;> cases hlog

/-- A call is a refusal, or leads on. -/
theorem call (h : Sifts conf sink fresh stream log s (piece ++ rest)) :
    Sifts conf sink fresh stream (log ++ [s.call piece]) (s.call piece).after rest := by
  have hbytes : (log ++ [s.call piece]).flatMap Report.taken ++
      ((s.call piece).after.buffer ++ rest) = stream := by
    rw [List.flatMap_append, List.flatMap_singleton, List.append_assoc,
      ← List.append_assoc (s.call piece).taken, (s.taken_call piece).1, List.append_assoc]
    exact h.bytes
  obtain ⟨s₀, hscratch, hrefused, hsince⟩ := h.reaches
  by_cases hok : ∀ fault, (s.call piece).outcome ≠ .failed fault
  · refine ⟨hbytes, fun {before report after fault} hlog hfailed => ?_, s₀, hscratch, ?_⟩
    · obtain ⟨rfl, rfl⟩ | ⟨after', hlog⟩ := Link.eq_or_eq_of_append_singleton_eq hlog
      · exact absurd hfailed (hok fault)
      · exact h.refusals hlog hfailed
    · rw [Sifted.ofLog_append, Sifted.add_of_ne hok]
      exact ⟨hrefused, hsince.trans (.call s hok)⟩
  · obtain ⟨fault', hfailed'⟩ := not_forall_not.1 hok
    obtain ⟨spared, htaken, hspared, hphase, hscratch'⟩ :=
      hsince.exists_spared hscratch hfailed'
    have hreaches := hrefused.trans hspared
    refine ⟨hbytes, fun {before report after fault} hlog hfailed => ?_,
      (s.call piece).after, hscratch', ?_⟩
    · obtain ⟨rfl, rfl⟩ | ⟨after', hlog⟩ := Link.eq_or_eq_of_append_singleton_eq hlog
      · rw [hfailed'] at hfailed
        cases hfailed
        refine ⟨spared, htaken, hphase, hscratch', hreaches.parse_eq_suspended ?_⟩
        rw [hphase]
        exact fault'.phase_ne_done
      · exact h.refusals hlog hfailed
    · rw [Sifted.ofLog_append, Sifted.add_of_failed hfailed' htaken]
      refine ⟨?_, .refl _⟩
      rw [List.flatMap_append, List.flatMap_singleton]
      exact hreaches

/-- The decoder is where the bytes without the fields at fault lead. -/
lemma reaches_spared (h : Sifts conf sink fresh stream log s rest) :
    (Link.start conf sink fresh).Reaches (Sifted.ofLog log).spared s := by
  obtain ⟨s₀, -, hrefused, hsince⟩ := h.reaches
  exact hrefused.trans hsince

/-- No byte is lost. -/
lemma all_ofLog (h : Sifts conf sink fresh stream log s rest) {before after : List (Report σ)}
    (hlog : log = before ++ after) :
    (Sifted.ofLog before).all = before.flatMap Report.taken := by
  induction before using List.reverseRecOn generalizing after with
  | nil => rfl
  | append_singleton before report ih =>
      rw [List.append_assoc] at hlog
      rw [List.flatMap_append, List.flatMap_singleton, ← ih hlog, Sifted.ofLog_append]
      by_cases hok : ∀ fault, report.outcome ≠ .failed fault
      · rw [Sifted.add_of_ne hok, Sifted.all, Sifted.all, List.append_assoc]
      · obtain ⟨fault, hfailed⟩ := not_forall_not.1 hok
        obtain ⟨spared, htaken, -⟩ := h.refusals hlog hfailed
        rw [Sifted.add_of_failed hfailed htaken, Sifted.all, Sifted.all, List.flatMap_append,
          List.flatMap_singleton, List.append_nil, List.append_assoc, htaken]

end Sifts

namespace Link

/-- Within a stream that has no fault: no call so far has met one. -/
structure Faultless (conf : Conf) (sink : Sink σ) (fresh : σ) (stream : List UInt8)
    (log : List (Report σ)) (s : Link σ) (rest : List UInt8) : Prop where
  ok : ∀ report ∈ log, ∀ fault, report.outcome ≠ .failed fault
  reaches : ∃ taken, (start conf sink fresh).Reaches taken s ∧
    taken ++ (s.buffer ++ rest) = stream

/-- Where the whole stream has no fault, no call meets one. -/
lemma Faultless.call {stream : List UInt8} {log : List (Report σ)} {s : Link σ}
    {piece rest : List UInt8} (h : Faultless conf sink fresh stream log s (piece ++ rest))
    (hok : ∀ fault, (parse conf sink .start fresh stream).outcome ≠ .failed fault) :
    (∀ fault, (s.call piece).outcome ≠ .failed fault) ∧
      Faultless conf sink fresh stream (log ++ [s.call piece]) (s.call piece).after rest := by
  obtain ⟨taken, hreach, hstream⟩ := h.reaches
  rw [← List.append_assoc s.buffer, ← List.append_assoc taken] at hstream
  have hcall : ∀ fault, (s.call piece).outcome ≠ .failed fault := by
    intro fault hfailed
    have hrun : (parse conf sink .start fresh (taken ++ (s.buffer ++ piece))).outcome =
        .failed fault := (congrArg Run.outcome (hreach.parse_append _)).trans hfailed
    have hwhole := parse_append_of_failed .start conf sink fresh rest hrun
    rw [hstream] at hwhole
    exact hok fault (congrArg Run.outcome hwhole)
  refine ⟨hcall, List.forall_mem_append.2 ⟨h.ok, List.forall_mem_singleton.2 hcall⟩,
    taken ++ (s.call piece).taken, hreach.trans (.call s hcall), ?_⟩
  rw [List.append_assoc, ← List.append_assoc (s.call piece).taken, (s.taken_call piece).1,
    ← List.append_assoc]
  exact hstream

/-- Bytes without a fault are taken without one, however they are cut. -/
lemma faultless_play {pieces : List (List UInt8)}
    (hok : ∀ fault, (parse conf sink .start fresh pieces.flatten).outcome ≠ .failed fault) :
    let played := (start conf sink fresh).play .afterFault pieces
    Faultless conf sink fresh pieces.flatten played.1 played.2 [] ∧ played.2.Settled := by
  refine play_induct (Faultless conf sink fresh pieces.flatten)
    (fun log s rest => Faultless conf sink fresh pieces.flatten log s rest ∧ s.Settled) And.left
    (fun {log s piece rest s'} hbusy hnext => ?_) (fun {log s piece rest} hbusy _ => ?_) [] ?_
  · rw [Again.next?_afterFault_of_ne (hbusy.call hok).1] at hnext
    cases hnext
  · exact ⟨(hbusy.call hok).2, settled_call (hbusy.call hok).1⟩
  · exact ⟨⟨by simp, [], .refl _, rfl⟩, .inr rfl⟩

/-- Where the only call meets no fault and takes all bytes, these are spared. -/
lemma spared_of_call {s : Link σ} {piece : List UInt8}
    (hok : ∀ fault, (s.call piece).outcome ≠ .failed fault)
    (hbuffer : (s.call piece).after.buffer = []) :
    (s.play .afterFault [piece]).1 = [s.call piece] ∧
      (Sifted.ofLog [s.call piece]).spared = s.buffer ++ piece := by
  constructor
  · rw [play, exhaust_of_none (Again.next?_afterFault_of_ne hok)]
    rfl
  · rw [← List.nil_append [s.call piece], Sifted.ofLog_append, Sifted.add_of_ne hok,
      ← (s.taken_call piece).1, hbuffer, List.append_nil]
    rfl

variable (conf sink fresh) in
/-- Calls with faults among them sift a stream. -/
lemma sifts_play (pieces : List (List UInt8)) :
    let played := (start conf sink fresh).play .afterFault pieces
    Sifts conf sink fresh pieces.flatten played.1 played.2 [] ∧ played.2.Settled := by
  refine play_induct (Sifts conf sink fresh pieces.flatten)
    (fun log s rest => Sifts conf sink fresh pieces.flatten log s rest ∧ s.Settled) And.left
    (fun {log s piece rest s'} hbusy hnext => ?_)
    (fun {log s piece rest} hbusy hnext => ?_) [] ?_
  · obtain ⟨fault, -, -, rfl⟩ | ⟨_, hagain, -⟩ := Again.next?_eq_some hnext
    · exact hbusy.call
    · cases hagain
  · refine ⟨hbusy.call, settled_call fun fault hfailed => ?_⟩
    rw [Again.next?_afterFault_of_failed hfailed] at hnext
    cases hnext
  · exact ⟨.start conf sink fresh pieces.flatten, .inr rfl⟩

variable (conf sink fresh) in
lemma reaches_of_report {pieces : List (List UInt8)} {before after : List (Report σ)}
    {report : Report σ}
    (h : ((start conf sink fresh).play .afterFault pieces).1 = before ++ report :: after) :
    (start conf sink fresh).Reaches (Sifted.ofLog (before ++ [report])).spared report.after := by
  refine forall_play (Sifts conf sink fresh pieces.flatten) (Sifts conf sink fresh pieces.flatten)
    id (fun {log s piece rest s'} hbusy hnext => ?_) (fun hbusy _ => hbusy.call)
    (P := fun before report => (start conf sink fresh).Reaches
      (Sifted.ofLog (before ++ [report])).spared report.after)
    (fun hbusy => hbusy.call.reaches_spared) (.start conf sink fresh pieces.flatten) h
  obtain ⟨fault, -, -, rfl⟩ | ⟨_, hagain, -⟩ := Again.next?_eq_some hnext
  · exact hbusy.call
  · cases hagain

variable (conf sink fresh) in
/-- What each call leaves is what comes of the bytes so far without their fields at fault. -/
theorem parse_spared {pieces : List (List UInt8)} {before after : List (Report σ)}
    {report : Report σ}
    (h : ((start conf sink fresh).play .afterFault pieces).1 = before ++ report :: after) :
    parse conf sink .start fresh (Sifted.ofLog (before ++ [report])).spared =
      ⟨if report.after.state.isDone then .done else .suspended, [], report.after.state,
        report.after.told⟩ :=
  (reaches_of_report conf sink fresh h).parse_eq.trans (parse_nil report.after)

variable (conf sink fresh) in
/-- And the calls that the sink has got are those that come of these bytes. -/
lemma calls_spared {pieces : List (List UInt8)} {before after : List (Report (σ × List Call))}
    {report : Report (σ × List Call)}
    (h : ((start conf sink.traced (fresh, [])).play .afterFault pieces).1 =
      before ++ report :: after) :
    calls conf sink .start fresh (Sifted.ofLog (before ++ [report])).spared =
      report.after.told.2 :=
  congrArg (fun r => r.result.2) (parse_spared conf sink.traced (fresh, []) h)

/-- Two sessions at work for the same sink, with nothing to do, are the same if the same bytes lead
to what they have taken and left. -/
lemma eq_of_settled {s₀ s t : Link σ} {a b : List UInt8} (hs : s₀.Reaches a s) (ht : s₀.Reaches b t)
    (h : a ++ s.buffer = b ++ t.buffer) (hs' : s.Settled) (ht' : t.Settled) : s = t := by
  have hrun := (hs.parse_append s.buffer).symm.trans
    ((congrArg (parse _ _ _ _) h).trans (ht.parse_append t.buffer))
  rw [hs'.parse_eq, ht'.parse_eq] at hrun
  obtain ⟨-, hbuffer, hstate, htold⟩ := Run.mk.inj hrun
  have hconf := hs.conf.trans ht.conf.symm
  have hsink := hs.sink.trans ht.sink.symm
  obtain ⟨⟨conf, sink, told, state, buffer⟩, hreachable⟩ := s
  obtain ⟨⟨conf', sink', told', state', buffer'⟩, hreachable'⟩ := t
  dsimp only at hbuffer hstate htold hconf hsink
  subst hbuffer hstate htold hconf hsink
  rfl

end Link

/-- Fields at fault leave no trace. However a stream is cut, a decoder that goes on behind each
fault takes the field at fault to its end and nothing behind it, and is then where it was ahead of
that field, and so is its sink, with the calls that it got. If these fields had not come, and
however the stream were cut then, there would be no fault, and all would be the same in the end:
what the decoder keeps, what the sink was told, and the bytes that are left. -/
theorem play_spared (conf : Conf) (sink : Sink σ) (fresh : σ) (pieces : List (List UInt8)) :
    let played := (Link.start conf sink.traced (fresh, [])).play .afterFault pieces
    played.1.flatMap Report.taken ++ played.2.buffer = pieces.flatten ∧
    (∀ before after, played.1 = before ++ after →
      (Sifted.ofLog before).all = before.flatMap Report.taken) ∧
    (∀ before report after fault, played.1 = before ++ report :: after →
      report.outcome = .failed fault →
        Refusal conf sink.traced (fresh, []) (.ofLog before) report fault) ∧
    ∀ pieces' : List (List UInt8),
      pieces'.flatten = (Sifted.ofLog played.1).spared ++ played.2.buffer →
        let played' := (Link.start conf sink.traced (fresh, [])).play .afterFault pieces'
        (∀ report ∈ played'.1, ∀ fault, report.outcome ≠ .failed fault) ∧
        played'.2 = played.2 := by
  intro played
  obtain ⟨hsifts, hsettled⟩ := Link.sifts_play conf sink.traced (fresh, []) pieces
  refine ⟨?_, fun before after => hsifts.all_ofLog, fun before report after fault =>
    hsifts.refusals, fun pieces' hpieces => ?_⟩
  · rw [← hsifts.bytes, List.append_nil]
  obtain ⟨s₀, -, hrefused, hsince⟩ := hsifts.reaches
  have hspared : (Link.start conf sink.traced (fresh, [])).Reaches (Sifted.ofLog played.1).spared
      played.2 := hrefused.trans hsince
  have hok : ∀ fault, (parse conf sink.traced .start (fresh, []) pieces'.flatten).outcome ≠
      .failed fault := by
    intro fault hfailed
    have hrun := (hspared.parse_append played.2.buffer).trans hsettled.parse_eq
    rw [← hpieces] at hrun
    have houtcome := (congrArg Run.outcome hrun).symm.trans hfailed
    dsimp only at houtcome
    split at houtcome <;> cases houtcome
  intro played'
  obtain ⟨hfaultless, hsettled'⟩ := Link.faultless_play hok
  obtain ⟨taken, hreach, hbytes⟩ := hfaultless.reaches
  rw [List.append_nil] at hbytes
  exact ⟨hfaultless.ok,
    Link.eq_of_settled hreach hspared (hbytes.trans hpieces) hsettled' hsettled⟩

end Ajp13
