import Ajp13.Proofs.Requests
import Ajp13.Proofs.Stream.Transcript

/-!
What a packet is taken for does not depend on who is told of it.

* `Visit`: a buffer, with the sink and the configuration for it;
* `attend`: calls of a decoder on such buffers, with the calls that each sink gets;
* `Call.outline`: what a call says that neither a sink nor a configuration has a part in;
* `Reachable.map_seen_attend`: the runs of a decoder, and the outlines of the calls, are the same
  for all sinks and configurations;
* `Reachable.map_fst_attend`: a request comes out the same for all configurations;
* `Reachable.plain_of_told`: once it has been told of its URI, its path is that of the URI;
* `Reachable.framing`: the whole.
-/

namespace Ajp13

open Decoder

/-! ### Outlines -/

/-- A call without what a sink or a configuration may have put into it. To decode a path is up to
them, so such a call has no outline. -/
def Call.outline : Call → Option Call
  | decodeUrl _ _ => none
  | setRequestPath _ => some (setRequestPath "")
  | setRelativePath _ => some (setRelativePath "")
  | parsePathParameters parameters _ _ => some (parsePathParameters parameters .utf8 false)
  | parseQueryString query _ _ => some (parseQueryString query .utf8 false)
  | call => some call

namespace Decoder

/-- The outlines of the calls that tell of a field. -/
def Field.outline (field : Field) : List Call :=
  (field.calls {} fun raw _ => raw).filterMap Call.outline

/-- The calls that tell of a field have the same outlines for every sink and configuration. -/
lemma Field.outline_calls (field : Field) (conf : Conf) (decoded : String → UrlCharset → String) :
    (field.calls conf decoded).filterMap Call.outline = field.outline := by
  cases field with
  | requestUri text urlChars =>
      rw [outline, calls, calls, RequestUri.calls, RequestUri.calls]
      cases conf.decodeUrl && urlChars <;> cases Conf.decodeUrl {} && urlChars <;>
        cases (RequestUri.ofText text).parameters <;> rfl
  | _ => rfl

/-! ### Visits -/

/-- A buffer, with the sink and the configuration for it. -/
structure Visit (σ : Type) where
  conf : Conf
  sink : Sink σ
  buffer : List UInt8

/-- A visit of the sink that builds a request. -/
def Visit.ofRequest (visit : Conf × List UInt8) : Visit ForwardRequest where
  conf := visit.1
  sink := ForwardRequest.sink
  buffer := visit.2

/-- Calls a decoder on one buffer after another, whatever came of those before. The result of each
run is the state of the sink, and the calls that it got. -/
def attend {σ : Type} : State → σ → List (Visit σ) → List (Run (σ × List Call))
  | _, _, [] => []
  | s, told, visit :: visits =>
      let r := parse visit.conf visit.sink.traced s (told, []) visit.buffer
      r :: attend r.state r.result.1 visits

/-- What can be seen of a run apart from the sink. -/
def Run.seen {σ : Type} (r : Run (σ × List Call)) : Run (List Call) :=
  r.map fun told => told.2.filterMap Call.outline

namespace Reachable

variable {σ τ : Type} {s : State}

/-- What can be seen of a run depends neither on the sink nor on the configuration. -/
lemma seen_parse (hs : Reachable s) (conf : Conf) (sink : Sink σ) (told : σ)
    (buffer : List UInt8) :
    (Decoder.parse conf sink.traced s (told, []) buffer).seen =
      scan (fun calls field => calls ++ field.outline) s [] buffer := by
  rw [parse_eq_scan hs.coherent]
  refine (scan_map (f := fun told : σ × List Call => told.2.filterMap Call.outline)
    (fun told field => ?_) s (told, []) buffer).symm
  rw [Sink.tell_traced, List.filterMap_append, Field.outline_calls]

/-- So the same can be seen of all runs, although the sink and the configuration change from each of
them to the next. -/
theorem map_seen_attend (hs : Reachable s) (told : σ) (told' : τ) {visits : List (Visit σ)}
    {visits' : List (Visit τ)} (h : visits.map Visit.buffer = visits'.map Visit.buffer) :
    (attend s told visits).map Run.seen = (attend s told' visits').map Run.seen := by
  induction visits generalizing s told told' visits' with
  | nil => rw [List.map_eq_nil_iff.1 h.symm]; rfl
  | cons visit visits ih =>
      obtain ⟨visit', visits', rfl, hbuffer, hbuffers⟩ := List.map_eq_cons_iff.1 h.symm
      have hseen : (Decoder.parse visit.conf visit.sink.traced s (told, []) visit.buffer).seen =
          (Decoder.parse visit'.conf visit'.sink.traced s (told', []) visit'.buffer).seen := by
        rw [hs.seen_parse, hs.seen_parse, hbuffer]
      have hstate := congrArg Run.state hseen
      have htail := ih (.parse visit.conf visit.sink.traced hs (told, []) visit.buffer)
        (Decoder.parse visit.conf visit.sink.traced s (told, []) visit.buffer).result.1
        (Decoder.parse visit'.conf visit'.sink.traced s (told', []) visit'.buffer).result.1
        hbuffers.symm
      rw [attend, attend, List.map_cons, List.map_cons, hseen, htail]
      exact congrArg (fun t => _ :: (attend t _ visits').map Run.seen) hstate

/-! ### Requests -/

/-- A run that builds a request does not depend on the configuration. -/
lemma map_fst_parse_request (hs : Reachable s) (conf : Conf) (r : ForwardRequest)
    (buffer : List UInt8) :
    (Decoder.parse conf ForwardRequest.sink.traced s (r, []) buffer).map Prod.fst =
      scan ForwardRequest.learn s r buffer := by
  rw [map_fst_parse_traced hs.coherent, parse_eq_scan hs.coherent, ForwardRequest.tell_eq_learn]

/-- So requests come out the same, although the configuration changes between the runs. -/
theorem map_fst_attend (hs : Reachable s) (r : ForwardRequest)
    {visits visits' : List (Conf × List UInt8)} (h : visits.map Prod.snd = visits'.map Prod.snd) :
    (attend s r (visits.map Visit.ofRequest)).map (Run.map Prod.fst) =
      (attend s r (visits'.map Visit.ofRequest)).map (Run.map Prod.fst) := by
  induction visits generalizing s r visits' with
  | nil => rw [List.map_eq_nil_iff.1 h.symm]
  | cons visit visits ih =>
      obtain ⟨visit', visits', rfl, hbuffer, hbuffers⟩ := List.map_eq_cons_iff.1 h.symm
      have hrun : (Decoder.parse visit.1 ForwardRequest.sink.traced s (r, []) visit.2).map Prod.fst =
          (Decoder.parse visit'.1 ForwardRequest.sink.traced s (r, []) visit'.2).map Prod.fst := by
        rw [hs.map_fst_parse_request, hs.map_fst_parse_request, hbuffer]
      have hstate := congrArg Run.state hrun
      have hresult := congrArg Run.result hrun
      dsimp only [Run.map] at hstate hresult
      simp only [List.map_cons, attend, Visit.ofRequest]
      rw [hrun, ← hstate, ← hresult]
      exact congrArg _ (ih (.parse visit.1 ForwardRequest.sink.traced hs (r, []) visit.2) _
        hbuffers.symm)

/-- A request that has the path of its URI, or is told of its URI in a run, has the path of it
then. -/
lemma plain_parse (hs : Reachable s) (conf : Conf) (r : ForwardRequest) (buffer : List UInt8) :
    let run := Decoder.parse conf ForwardRequest.sink.traced s (r, []) buffer
    (r.Plain ∨ ∃ uri, .setRequestUri uri ∈ run.result.2) → run.result.1.Plain := by
  intro run htold
  have hrun := parse_eq_collect hs.coherent conf ForwardRequest.sink.traced (r, []) [] buffer
  have hresult : run.result = _ := congrArg Run.result hrun
  rw [hresult] at htold ⊢
  refine List.foldlRecOn (motive := fun told : ForwardRequest × List Call =>
    (r.Plain ∨ ∃ uri, Call.setRequestUri uri ∈ told.2) → told.1.Plain) _ _ ?_ ?_ htold
  · intro hplain
    obtain hplain | ⟨uri, huri⟩ := hplain
    · exact hplain
    · cases huri
  · intro told ih field hfield hcalls
    rw [Sink.tell_traced] at hcalls ⊢
    rw [ForwardRequest.tell_eq_learn]
    refine ForwardRequest.plain_learn ?_
    obtain hplain | ⟨uri, huri⟩ := hcalls
    · exact .inl (ih (.inl hplain))
    · obtain hnoted | hcall := List.mem_append.1 huri
      · exact .inl (ih (.inr ⟨uri, hnoted⟩))
      · exact .inr (ForwardRequest.exists_requestUri_of_mem_calls hcall)

/-- Once a request has been told of its URI, it has the path of it. -/
theorem plain_of_told (hs : Reachable s) {r : ForwardRequest} {visits : List (Conf × List UInt8)}
    {before after : List (Run (ForwardRequest × List Call))} {run : Run (ForwardRequest × List Call)}
    (h : attend s r (visits.map Visit.ofRequest) = before ++ run :: after)
    (htold : r.Plain ∨ ∃ run' ∈ before ++ [run], ∃ uri, .setRequestUri uri ∈ run'.result.2) :
    run.result.1.Plain := by
  induction visits generalizing s r before with
  | nil => exact absurd h.symm (by simp [attend])
  | cons visit visits ih =>
      simp only [List.map_cons, attend, Visit.ofRequest] at h
      have hfirst := hs.plain_parse visit.1 r visit.2
      cases before with
      | nil =>
          obtain ⟨rfl, -⟩ := List.cons.inj h
          refine hfirst (htold.imp_right ?_)
          rintro ⟨run', hrun', uri, huri⟩
          obtain rfl := List.mem_singleton.1 hrun'
          exact ⟨uri, huri⟩
      | cons first before =>
          obtain ⟨rfl, htail⟩ := List.cons.inj h
          refine ih (.parse visit.1 ForwardRequest.sink.traced hs (r, []) visit.2) htail ?_
          obtain hplain | ⟨run', hrun', huri⟩ := htold
          · exact .inl (hfirst (.inl hplain))
          · obtain rfl | hlater := List.mem_cons.1 hrun'
            · exact .inl (hfirst (.inr huri))
            · exact .inr ⟨run', hlater, huri⟩

/-! ### The whole -/

/-- What a packet is taken for depends neither on the sink nor on the configuration, which may change
from one call of a decoder to the next: whatever the sinks do and answer, the runs end in the same
way, leave the same bytes and the same state, and the calls have the same outlines in the same
order. The sink that builds a request makes the same request of them under all configurations, and
once that has got its URI, its path is the undecoded one. -/
theorem framing (hs : Reachable s) :
    (∀ {σ τ : Type} (told : σ) (told' : τ) (visits : List (Visit σ)) (visits' : List (Visit τ)),
      visits.map Visit.buffer = visits'.map Visit.buffer →
      (attend s told visits).map Run.seen = (attend s told' visits').map Run.seen) ∧
    (∀ (r : ForwardRequest) (visits visits' : List (Conf × List UInt8)),
      visits.map Prod.snd = visits'.map Prod.snd →
      (attend s r (visits.map Visit.ofRequest)).map (Run.map Prod.fst) =
        (attend s r (visits'.map Visit.ofRequest)).map (Run.map Prod.fst)) ∧
    ∀ (r : ForwardRequest) (visits : List (Conf × List UInt8))
      (before after : List (Run (ForwardRequest × List Call)))
      (run : Run (ForwardRequest × List Call)),
      attend s r (visits.map Visit.ofRequest) = before ++ run :: after →
      (r.Plain ∨ ∃ run' ∈ before ++ [run], ∃ uri, .setRequestUri uri ∈ run'.result.2) →
      run.result.1.Plain := by
  refine ⟨?_, ?_, ?_⟩
  · intro σ τ told told' visits visits' h
    exact hs.map_seen_attend told told' h
  · intro r visits visits' h
    exact hs.map_fst_attend r h
  · intro r visits before after run h htold
    exact hs.plain_of_told h htold

end Reachable

/-- A request with an encoded path. One sink decodes it, another is not asked to, and a third builds
the request. -/
theorem framing_of_encoded_path :
    let bytes : List UInt8 := [0x12, 0x34, 0, 0, 2, 2, 0xFF, 0xFF, 0, 2, 0x2F, 0x25, 0]
    let asked : List (Visit (List Call)) :=
      [⟨{}, .recorder fun _ _ => "x", bytes⟩, ⟨{}, .recorder fun _ _ => "x", [0, 1]⟩]
    let unasked : List (Visit (List Call)) :=
      [⟨⟨false, .latin1⟩, .setterRecorder, bytes⟩, ⟨{}, .setterRecorder, [0, 1]⟩]
    let runs := attend .start {} ([({}, bytes), (⟨false, .latin1⟩, [0, 1])].map Visit.ofRequest)
    (attend .start [] asked).map Run.seen = (attend .start [] unasked).map Run.seen ∧
    runs.map (Run.map Prod.fst) =
      (attend .start {} ([({}, bytes), ({}, [0, 1])].map Visit.ofRequest)).map (Run.map Prod.fst) ∧
    ∃ first second, runs = [first, second] ∧ .setRequestUri "/%" ∈ first.result.2 ∧
      second.result.1.Plain := by
  intro bytes asked unasked runs
  obtain ⟨hseen, hrequest, hplain⟩ := Reachable.framing .start
  have htold : Call.setRequestUri "/%" ∈
      (parse {} ForwardRequest.sink.traced .start (({} : ForwardRequest), []) bytes).result.2 := by
    rw [parse_eq_scan State.start_coherent]
    decide +kernel
  exact ⟨hseen [] [] asked unasked rfl, hrequest {} [_, _] [_, _] rfl, _, _, rfl, htold,
    hplain {} [_, _] [_] [] _ rfl (.inr ⟨_, List.mem_cons_self, _, htold⟩)⟩

end Decoder
end Ajp13
