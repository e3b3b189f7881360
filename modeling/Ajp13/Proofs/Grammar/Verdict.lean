import Ajp13.Proofs.Bytewise.Completion
import Ajp13.Proofs.Bytewise.Stops
import Ajp13.Proofs.Grammar.Language

/-!
What a decoder says of bytes, whatever they are, and how many of them it takes to say so.

* `Viable`: bytes with which some packet begins;
* `viable_of_suspended`: bytes behind which a decoder waits for more are the beginning of a packet,
  but for a single one;
* `not_failed_of_viable`: the beginning of a packet has no fault;
* `parse_verdict`: bytes with a packet ahead are complete, those that no packet begins with are at
  fault, from the first place on where that shows, and behind all others more is to come.
-/

namespace Ajp13.Decoder

/-- Some packet begins with the bytes. -/
def Viable (bytes : List UInt8) : Prop := ∃ q : Packet, bytes <+: q.bytes

/-- No packet is the beginning of another one. -/
lemma eq_of_bytes_prefix {q q' : Packet} (h : q.bytes <+: q'.bytes) : q = q' := by
  obtain ⟨rest, h⟩ := h
  exact (Packet.bytes_prefixFree (h.trans (List.append_nil _).symm)).1

variable {σ : Type}

section Parse

variable (conf : Conf) (sink : Sink σ) (told : σ) {w : List UInt8}

lemma parse_bytes_append (q : Packet) (rest : List UInt8) :
    parse conf sink .start told (q.bytes ++ rest) =
      ⟨.done, rest, q.state, q.fields.foldl (sink.tell conf) told⟩ := by
  rw [parse, run_bytes]

lemma exists_packet_of_parse_done (h : (parse conf sink .start told w).outcome = .done) :
    ∃ (q : Packet) (rest : List UInt8), w = q.bytes ++ rest :=
  exists_packet_of_done h

/-- Of a single byte nothing can be said. -/
lemma outcome_parse_singleton (b : UInt8) :
    (parse conf sink .start told [b]).outcome = .suspended := by
  rw [parse_eq_scan State.start_coherent]
  rfl

/-- Another first word is at fault. -/
lemma parse_badMagic {m : UInt16} (hm : m ≠ Marker.magic) (rest : List UInt8) :
    parse conf sink .start told (Word.bytes m ++ rest) =
      ⟨.failed (.badMagic m), rest, .start, told⟩ := by
  rw [parse, run_eq, phaseTurn]
  dsimp only [State.start]
  rw [State.readWord_bytes rfl]
  simp only [Reading.turn, if_neg hm]
  rfl

/-- Behind two bytes, a decoder does not wait for the magic word. -/
lemma phase_ne_magic_of_suspended (hlength : 2 ≤ w.length)
    (h : (parse conf sink .start told w).outcome = .suspended) :
    (parse conf sink .start told w).state.phase ≠ .magic := by
  rcases w with _ | ⟨high, _ | ⟨low, w⟩⟩
  · cases hlength
  · exact absurd hlength (by simp)
  rw [show high :: low :: w = Word.bytes (Word.ofBytes high low) ++ w by
    rw [Word.bytes_ofBytes]; rfl] at h ⊢
  by_cases hmagic : Word.ofBytes high low = Marker.magic
  · have hcoherent : State.start.advance.Coherent :=
      State.Coherent.moveOn State.start_coherent.placed rfl (by decide) rfl rfl rfl rfl rfl
    rw [hmagic, parse, run_magic rfl rfl, ← parse, parse_eq_scan hcoherent]
    exact hcoherent.phase_scan_ne_magic (by decide) w
  · rw [parse_badMagic conf sink told hmagic] at h
    cases h

/-- Behind two bytes or more, whatever a decoder waits for can still come. -/
theorem viable_of_suspended (hlength : 2 ≤ w.length)
    (h : (parse conf sink .start told w).outcome = .suspended) : Viable w := by
  have hphase := phase_ne_magic_of_suspended conf sink told hlength h
  have hcoherent := (Reachable.parse conf sink .start told w).coherent
  obtain ⟨bytes, hbytes⟩ := hcoherent.exists_completion hphase
  obtain ⟨hdone, hrest⟩ := hbytes (sink.tell conf) (parse conf sink .start told w).result
  rw [← parse_eq_scan hcoherent, ← parse_append_of_suspended .start conf sink told bytes h]
    at hdone hrest
  obtain ⟨q, rest, hq⟩ := exists_packet_of_parse_done conf sink told hdone
  rw [hq, parse_bytes_append] at hrest
  refine ⟨q, bytes, ?_⟩
  rw [hq, show rest = [] from hrest, List.append_nil]

/-- The beginning of a packet has no fault. -/
theorem not_failed_of_viable (h : Viable w) (fault : Fault) :
    (parse conf sink .start told w).outcome ≠ .failed fault := by
  intro hfailed
  obtain ⟨q, rest, hq⟩ := h
  have hrun := parse_append_of_failed .start conf sink told rest hfailed
  rw [hq, ← List.append_nil q.bytes, parse_bytes_append] at hrun
  cases congrArg Run.outcome hrun

/-- A packet is complete with its last byte, and not earlier. -/
lemma outcome_eq_done_iff :
    (parse conf sink .start told w).outcome = .done ↔ ∃ q : Packet, q.bytes <+: w := by
  constructor
  · intro h
    obtain ⟨q, rest, rfl⟩ := exists_packet_of_parse_done conf sink told h
    exact ⟨q, q.bytes.prefix_append rest⟩
  · rintro ⟨q, rest, rfl⟩
    rw [parse_bytes_append]

/-- Bytes are at fault if no packet is ahead of them and none begins with them. -/
lemma exists_failed_iff :
    (∃ fault, (parse conf sink .start told w).outcome = .failed fault) ↔
      2 ≤ w.length ∧ (∀ q : Packet, ¬ q.bytes <+: w) ∧ ¬ Viable w := by
  constructor
  · rintro ⟨fault, h⟩
    refine ⟨?_, fun q hq => ?_, fun hviable => not_failed_of_viable conf sink told hviable fault h⟩
    · rcases w with _ | ⟨b, _ | ⟨c, w⟩⟩
      · rw [parse_eq_scan State.start_coherent] at h
        cases h
      · rw [outcome_parse_singleton] at h
        cases h
      · simp
    · rw [(outcome_eq_done_iff conf sink told).2 ⟨q, hq⟩] at h
      cases h
  · rintro ⟨hlength, hahead, hviable⟩
    cases h : (parse conf sink .start told w).outcome with
    | suspended => exact absurd (viable_of_suspended conf sink told hlength h) hviable
    | done =>
        obtain ⟨q, hq⟩ := (outcome_eq_done_iff conf sink told).1 h
        exact absurd hq (hahead q)
    | failed fault => exact ⟨fault, rfl⟩

/-- More is to come behind the beginning of a packet, and behind a single byte. -/
lemma outcome_eq_suspended_iff :
    (parse conf sink .start told w).outcome = .suspended ↔
      (∃ q : Packet, w <+: q.bytes ∧ w ≠ q.bytes) ∨ w.length = 1 := by
  constructor
  · intro h
    have hpacket : ∀ q : Packet, w ≠ q.bytes := by
      rintro q rfl
      rw [(outcome_eq_done_iff conf sink told).2 ⟨q, List.prefix_rfl⟩] at h
      cases h
    rcases w with _ | ⟨b, _ | ⟨c, w⟩⟩
    · exact .inl ⟨.signal 0 0 (by decide), List.nil_prefix, hpacket _⟩
    · exact .inr rfl
    · obtain ⟨q, hq⟩ := viable_of_suspended conf sink told (by simp) h
      exact .inl ⟨q, hq, hpacket q⟩
  · rintro (⟨q, hq, hne⟩ | hlength)
    · cases h : (parse conf sink .start told w).outcome with
      | suspended => rfl
      | done =>
          obtain ⟨q', hq'⟩ := (outcome_eq_done_iff conf sink told).1 h
          obtain rfl := eq_of_bytes_prefix (hq'.trans hq)
          exact absurd (hq.eq_of_length_le hq'.length_le) hne
      | failed fault => exact absurd h (not_failed_of_viable conf sink told ⟨q, hq⟩ fault)
    · obtain ⟨b, rfl⟩ := List.length_eq_one_iff.1 hlength
      exact outcome_parse_singleton conf sink told b

/-- Bytes are at fault from the first place on where it shows, and no byte behind that is taken. -/
lemma exists_taken_of_failed {fault : Fault}
    (h : (parse conf sink .start told w).outcome = .failed fault) :
    ∃ taken, w = taken ++ (parse conf sink .start told w).rest ∧
      2 ≤ taken.length ∧ ¬ Viable taken ∧
      ∀ v, v <+: w → 2 ≤ v.length → ¬ Viable v → taken.length ≤ v.length := by
  obtain ⟨taken, hw, htaken⟩ := exists_taken (sink.tell conf) .start told w
  rw [← parse_eq_scan State.start_coherent] at hw htaken
  rw [← parse_eq_scan State.start_coherent] at htaken
  have hfailed : (parse conf sink .start told taken).outcome = .failed fault := by rw [htaken, h]
  obtain ⟨hlength, -, hviable⟩ := (exists_failed_iff conf sink told).1 ⟨fault, hfailed⟩
  refine ⟨taken, hw, hlength, hviable, ?_⟩
  rintro v ⟨x, hx⟩ hlength' hviable'
  have hahead : ∀ q : Packet, ¬ q.bytes <+: v := by
    intro q hq
    have hdone := (outcome_eq_done_iff conf sink told).2 ⟨q, hq.trans ⟨x, hx⟩⟩
    rw [h] at hdone
    cases hdone
  obtain ⟨fault', hv⟩ := (exists_failed_iff conf sink told).2 ⟨hlength', hahead, hviable'⟩
  -- a decoder of `v` alone would have stopped there too
  have hrest := congrArg Run.rest (parse_append_of_failed .start conf sink told x hv)
  rw [hx] at hrest
  have hlength := congrArg List.length hw
  rw [hrest, ← hx] at hlength
  simp only [List.length_append] at hlength
  omega

end Parse

/-- The verdict on any bytes. They are complete if a packet is ahead of them, which there is in one
way only, and then that packet is taken. They are at fault if there are two of them or more, no
packet is ahead of them, and none begins with them; then as many are taken as it needs to say so.
Otherwise all are taken, and more is to come; unless there is but a single one, more can come that
completes a packet. -/
theorem parse_verdict (conf : Conf) (sink : Sink σ) (told : σ) (w : List UInt8) :
    let r := parse conf sink .start told w
    (r.outcome = .done ↔ ∃ q : Packet, q.bytes <+: w) ∧
    (∀ q : Packet, q.bytes <+: w → w = q.bytes ++ r.rest) ∧
    (∀ q q' : Packet, q.bytes <+: q'.bytes → q = q') ∧
    ((∃ fault, r.outcome = .failed fault) ↔
      2 ≤ w.length ∧ (∀ q : Packet, ¬ q.bytes <+: w) ∧ ∀ q : Packet, ¬ w <+: q.bytes) ∧
    (∀ fault, r.outcome = .failed fault →
      ∃ taken, w = taken ++ r.rest ∧ 2 ≤ taken.length ∧ ¬ Viable taken ∧
        ∀ v, v <+: w → 2 ≤ v.length → ¬ Viable v → taken.length ≤ v.length) ∧
    (r.outcome = .suspended ↔ (∃ q : Packet, w <+: q.bytes ∧ w ≠ q.bytes) ∨ w.length = 1) ∧
    (r.outcome = .suspended → r.rest = []) ∧
    (r.outcome = .suspended → 2 ≤ w.length →
      ∃ t, (parse conf sink .start told (w ++ t)).outcome = .done) := by
  intro r
  refine ⟨outcome_eq_done_iff conf sink told, ?_, fun q q' => eq_of_bytes_prefix, ?_,
    fun fault => exists_taken_of_failed conf sink told, outcome_eq_suspended_iff conf sink told,
    rest_parse_of_suspended .start conf sink told, fun hsuspended hlength => ?_⟩
  · rintro q ⟨rest, rfl⟩
    exact congrArg (q.bytes ++ ·)
      (congrArg Run.rest (parse_bytes_append conf sink told q rest)).symm
  · have hfailed := exists_failed_iff (w := w) conf sink told
    rwa [Viable, not_exists] at hfailed
  · obtain ⟨q, t, hq⟩ := viable_of_suspended conf sink told hlength hsuspended
    exact ⟨t, (outcome_eq_done_iff conf sink told).2 ⟨q, [], by rw [hq, List.append_nil]⟩⟩

end Ajp13.Decoder
