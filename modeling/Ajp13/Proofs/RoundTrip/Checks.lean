import Ajp13.Proofs.RoundTrip.Layout

/-!
What is checked of a draft, in the order of the wire.

* `Check`: a condition, and what is reported if it does not hold;
* `Guard`: a computation that reports the first check that does not pass, and has a good result if
  all pass; `Guard.bind`, `Guard.mapM`: so does a computation made of such steps;
* `Draft.checks`: the checks of a draft;
* `Draft.encode_checked`: a draft is sent if and only if all its checks pass, as it is laid out in
  bytes, and otherwise the first one that does not pass is reported.
-/

namespace Ajp13

/-! ### Checks -/

/-- A condition for a draft to be sent, and what is reported if it does not hold. -/
structure Check where
  passed : Bool
  error : EncodeError

namespace Check

/-- There are at most so many bytes. -/
def length (max : Nat) (content : List UInt8) : Check :=
  ⟨decide (content.length ≤ max), .stringTooLong content.length max⟩

/-- The content fits behind its length, and is not taken for the null string. -/
def string (content : List UInt8) : Check := .length 0xFFFE content

/-- A word can say how many there are. -/
def count (n : Nat) : Check := ⟨decide (n ≤ 0xFFFF), .packetTooLong n⟩

lemma passed_length_iff {max : Nat} {content : List UInt8} :
    (length max content).passed = true ↔ content.length < max + 1 :=
  decide_eq_true_iff.trans Nat.lt_succ_iff.symm

lemma failed_length_iff {max : Nat} {content : List UInt8} :
    (length max content).passed = false ↔ ¬content.length < max + 1 := by
  rw [← passed_length_iff, Bool.not_eq_true]

lemma passed_count_iff {n : Nat} : (count n).passed = true ↔ n < 65536 :=
  decide_eq_true_iff.trans Nat.lt_succ_iff.symm

lemma failed_count_iff {n : Nat} : (count n).passed = false ↔ ¬n < 65536 := by
  rw [← passed_count_iff, Bool.not_eq_true]

/-- What is reported: the error of the first check that does not pass. -/
def firstError? (checks : List Check) : Option EncodeError :=
  (checks.find? fun c => !c.passed).map error

lemma firstError?_append (checks checks' : List Check) :
    firstError? (checks ++ checks') = (firstError? checks).or (firstError? checks') := by
  rw [firstError?, firstError?, firstError?, List.find?_append, Option.map_or]

lemma firstError?_cons_of_passed {c : Check} (checks : List Check) (hc : c.passed = true) :
    firstError? (c :: checks) = firstError? checks := by
  rw [firstError?, firstError?, List.find?_cons_of_neg (by rw [hc]; decide)]

lemma firstError?_cons_of_failed {c : Check} (checks : List Check) (hc : c.passed = false) :
    firstError? (c :: checks) = some c.error := by
  rw [firstError?, List.find?_cons_of_pos (by rw [hc]; decide), Option.map_some]

lemma firstError?_eq_none_iff {checks : List Check} :
    firstError? checks = none ↔ ∀ c ∈ checks, c.passed = true := by
  rw [firstError?, Option.map_eq_none_iff, List.find?_eq_none]
  simp only [Bool.not_eq_true', Bool.not_eq_false]

lemma firstError?_eq_some_iff {checks : List Check} {e : EncodeError} :
    firstError? checks = some e ↔ ∃ before c after, checks = before ++ c :: after ∧
      (∀ c' ∈ before, c'.passed = true) ∧ c.passed = false ∧ c.error = e := by
  simp only [firstError?, Option.map_eq_some_iff, List.find?_eq_some_iff_append,
    Bool.not_eq_true', Bool.not_eq_false']
  constructor
  · rintro ⟨c, ⟨hfailed, before, after, hchecks, hbefore⟩, herror⟩
    exact ⟨before, c, after, hchecks, hbefore, hfailed, herror⟩
  · rintro ⟨before, c, after, hchecks, hbefore, hfailed, herror⟩
    exact ⟨c, ⟨hfailed, before, after, hchecks, hbefore⟩, herror⟩

end Check

/-! ### Computations with checks -/

/-- The computation reports the first of the checks that does not pass. If all pass it has a result,
of which `P` holds. -/
structure Guard {α : Type} (checks : List Check) (x : Except EncodeError α) (P : α → Prop) :
    Prop where
  error : ∀ e, Check.firstError? checks = some e → x = .error e
  ok : Check.firstError? checks = none → ∃ a, x = .ok a ∧ P a

namespace Guard

variable {α β : Type} {checks checks' : List Check} {x : Except EncodeError α} {P : α → Prop}

section

variable (h : Guard checks x P)
include h

/-- There is a result if and only if all checks pass. -/
lemma exists_eq_ok_iff : (∃ a, x = .ok a) ↔ ∀ c ∈ checks, c.passed = true := by
  rw [← Check.firstError?_eq_none_iff]
  constructor
  · rintro ⟨a, ha⟩
    cases hfirst : Check.firstError? checks with
    | none => rfl
    | some e =>
        rw [h.error e hfirst] at ha
        cases ha
  · intro hnone
    obtain ⟨a, ha, -⟩ := h.ok hnone
    exact ⟨a, ha⟩

/-- An error is reported if and only if it is that of the first check that does not pass. -/
lemma eq_error_iff {e : EncodeError} :
    x = .error e ↔ ∃ before c after, checks = before ++ c :: after ∧
      (∀ c' ∈ before, c'.passed = true) ∧ c.passed = false ∧ c.error = e := by
  rw [← Check.firstError?_eq_some_iff]
  refine ⟨fun hx => ?_, h.error e⟩
  cases hfirst : Check.firstError? checks with
  | none =>
      obtain ⟨a, ha, -⟩ := h.ok hfirst
      rw [hx] at ha
      cases ha
  | some e' =>
      rw [h.error e' hfirst] at hx
      exact congrArg some (Except.error.inj hx)

lemma of_eq_ok {a : α} (ha : x = .ok a) : P a := by
  obtain ⟨a', ha', hP⟩ := h.ok (Check.firstError?_eq_none_iff.2 (h.exists_eq_ok_iff.1 ⟨a, ha⟩))
  rw [ha] at ha'
  rwa [Except.ok.inj ha']

/-- A computation that has a result where another one has, and reports the same. -/
lemma congr {y : Except EncodeError β} {Q : β → Prop}
    (hok : ∀ a, x = .ok a → P a → ∃ b, y = .ok b ∧ Q b)
    (herror : ∀ e, x = .error e → y = .error e) : Guard checks y Q where
  error e he := herror e (h.error e he)
  ok hnone := by
    obtain ⟨a, ha, hP⟩ := h.ok hnone
    exact hok a ha hP

end

protected lemma pure {a : α} (h : P a) : Guard [] (.ok a) P where
  error e he := by cases he
  ok _ := ⟨a, rfl, h⟩

/-- A check ahead of a computation. -/
lemma cons {c : Check} (hpassed : c.passed = true → Guard checks x P)
    (hfailed : c.passed = false → x = .error c.error) : Guard (c :: checks) x P := by
  cases hc : c.passed with
  | true =>
      refine ⟨fun e he => (hpassed hc).error e ?_, fun hnone => (hpassed hc).ok ?_⟩
      · rwa [Check.firstError?_cons_of_passed checks hc] at he
      · rwa [Check.firstError?_cons_of_passed checks hc] at hnone
  | false =>
      have hfirst := Check.firstError?_cons_of_failed checks hc
      refine ⟨fun e he => ?_, fun hnone => ?_⟩
      · rw [hfirst] at he
        rw [hfailed hc, Option.some.inj he]
      · rw [hfirst] at hnone
        cases hnone

/-- One check, which decides whether there is a result. -/
lemma single {c : Check} (hpassed : c.passed = true → ∃ a, x = .ok a ∧ P a)
    (hfailed : c.passed = false → x = .error c.error) : Guard [c] x P :=
  cons (fun hc => ⟨fun _ he => (by cases he), fun _ => hpassed hc⟩) hfailed

/-- The checks of the first step come before those of what is behind it. -/
protected lemma bind {f : α → Except EncodeError β} {Q : β → Prop} (hx : Guard checks x P)
    (hf : ∀ a, x = .ok a → P a → Guard checks' (f a) Q) :
    Guard (checks ++ checks') (x >>= f) Q where
  error e he := by
    rw [Check.firstError?_append, Option.or_eq_some_iff] at he
    obtain he | ⟨hnone, he⟩ := he
    · rw [hx.error e he]
      rfl
    · obtain ⟨a, rfl, ha⟩ := hx.ok hnone
      exact (hf a rfl ha).error e he
  ok hnone := by
    rw [Check.firstError?_append, Option.or_eq_none_iff] at hnone
    obtain ⟨a, rfl, ha⟩ := hx.ok hnone.1
    exact (hf a rfl ha).ok hnone.2

/-- The one check of the first step comes before those of what is behind it. -/
lemma bind_cons {c : Check} {f : α → Except EncodeError β} {Q : β → Prop} (hx : Guard [c] x P)
    (hf : ∀ a, x = .ok a → P a → Guard checks (f a) Q) : Guard (c :: checks) (x >>= f) Q :=
  hx.bind hf

/-- What is done with a result has no checks of its own. -/
protected lemma map {f : α → β} {Q : β → Prop} (hx : Guard checks x P) (hf : ∀ a, P a → Q (f a)) :
    Guard checks (x >>= fun a => .ok (f a)) Q := by
  refine hx.congr ?_ ?_
  · rintro a rfl ha
    exact ⟨f a, rfl, hf a ha⟩
  · rintro e rfl
    rfl

/-- The parts of a list are checked one after another. -/
protected lemma mapM {checks : α → List Check} {f : α → Except EncodeError β} {R : α → β → Prop}
    (h : ∀ a, Guard (checks a) (f a) (R a)) (l : List α) :
    Guard (l.flatMap checks) (l.mapM f) (List.Forall₂ R l) := by
  induction l with
  | nil => exact Guard.pure .nil
  | cons a l ih =>
      rw [List.flatMap_cons, List.mapM_cons]
      exact (h a).bind fun b _ hb => ih.map fun bs hbs => .cons hb hbs

end Guard

/-! ### Strings and names -/

lemma WireString.guard_ofBytes (content : List UInt8) :
    Guard [.string content] (ofBytes content) fun w => Counted content w.bytes := by
  refine .single (fun hpassed => ?_) fun hfailed => dif_neg (Check.failed_length_iff.1 hfailed)
  have hfits : content.length < 0xFFFF := Check.passed_length_iff.1 hpassed
  exact ⟨_, dif_pos hfits, counted_bytes hfits⟩

lemma WireString.guard_ofText? (text : Option String) :
    Guard (text.toList.map fun text => .string (Utf8.encode text)) (ofText? text)
      fun w => Draft.HostLayout text w.bytes := by
  cases text with
  | none => exact .pure rfl
  | some text => exact guard_ofBytes (Utf8.encode text)

/-- What is checked of a name: nothing if it has a code. -/
def Spelling.checks (max : Nat) : Spelling → List Check
  | code _ => []
  | literal content => [.length max content]

lemma WireHeaderName.guard_ofBytes (content : List UInt8) :
    Guard ((Spelling.literal content).checks 0x9FFF) (ofBytes content) fun w =>
      (Spelling.literal content).Layout [Marker.headerCode] [] w.bytes := by
  refine .single (fun hpassed => ?_) fun hfailed => dif_neg (Check.failed_length_iff.1 hfailed)
  have hfits : content.length < 0xA000 := Check.passed_length_iff.1 hpassed
  exact ⟨_, dif_pos hfits, .literal (counted_bytes (by omega))⟩

lemma DraftHeaderName.guard_wire (n : DraftHeaderName) :
    Guard (n.spelling.checks 0x9FFF) n.wire fun w =>
      n.spelling.Layout [Marker.headerCode] [] w.bytes := by
  cases n with
  | verbatim bytes => exact WireHeaderName.guard_ofBytes bytes
  | known name =>
      rw [wire]
      split
      next code hcode =>
        have hspelling : (known name).spelling = .code code := by
          rw [spelling, hcode, Option.elim_some]
        rw [hspelling]
        exact .pure (.code code)
      next hcode =>
        have hspelling : (known name).spelling = .literal (Utf8.encode name.text) := by
          rw [spelling, hcode, Option.elim_none]
        rw [hspelling]
        exact WireHeaderName.guard_ofBytes (Utf8.encode name.text)

/-- What is checked of a header: its name, then its value. -/
def DraftHeader.checks (h : DraftHeader) : List Check :=
  h.name.spelling.checks 0x9FFF ++ [.string h.value]

lemma DraftHeader.guard_wire (h : DraftHeader) :
    Guard h.checks h.wire fun w => h.Layout w.bytes :=
  h.name.guard_wire.bind fun name _ hname =>
    (WireString.guard_ofBytes h.value).map fun value hvalue =>
      ⟨name.bytes, value.bytes, hname, hvalue, rfl⟩

namespace DraftAttribute

variable (a : DraftAttribute)

lemma guard_ofText :
    Guard (a.spelling.checks 0xFFFE) (WireAttributeName.ofText a.name) fun w =>
      a.spelling.Layout [] [Marker.customAttribute] w.bytes := by
  rw [WireAttributeName.ofText]
  split
  next code hcode =>
    have hspelling : a.spelling = .code code := by rw [spelling, hcode, Option.elim_some]
    rw [hspelling]
    exact .pure (.code code)
  next hcode =>
    have hspelling : a.spelling = .literal (Utf8.encode a.name) := by
      rw [spelling, hcode, Option.elim_none]
    rw [hspelling]
    exact (WireString.guard_ofBytes (Utf8.encode a.name)).map fun _ => .literal

/-- What is checked of a value: a key size has to be the numeral of a word. -/
def valueCheck : Check :=
  if a.name = AttributeName.sslKeySize then
    ⟨(Decimal.read? a.value).isSome, .invalidKeySize a.value⟩
  else .string (Utf8.encode a.value)

/-- What is checked of an attribute: its name, then its value. -/
def checks : List Check := a.spelling.checks 0xFFFE ++ [a.valueCheck]

lemma guard_keySizeWord (text : String) :
    Guard [⟨(Decimal.read? text).isSome, .invalidKeySize text⟩] (keySizeWord text) fun size =>
      Decimal.read? text = some size := by
  rw [keySizeWord]
  cases hsize : Decimal.read? text with
  | none => exact .single (fun hpassed => absurd hpassed Bool.false_ne_true) fun _ => rfl
  | some size =>
      exact .single (fun _ => ⟨size, rfl, rfl⟩) fun hfailed => absurd hfailed.symm Bool.false_ne_true

lemma guard_wire : Guard a.checks a.wire fun w => a.Layout w.bytes := by
  refine a.guard_ofText.bind fun name hname hlayout => ?_
  have hkeySize : name.text = AttributeName.sslKeySize ↔ a.name = AttributeName.sslKeySize := by
    rw [WireAttributeName.text_of_ofText hname,
      Text.arrival_eq_iff (AttributeName.arrival_of_mem (by decide))]
  by_cases named : a.name = AttributeName.sslKeySize
  · rw [dif_pos (hkeySize.2 named), valueCheck, if_pos named]
    refine (guard_keySizeWord a.value).map fun size hsize => ?_
    refine ⟨name.bytes, Word.bytes size, hlayout, ?_, rfl⟩
    rw [ValueLayout, if_pos named]
    exact ⟨size, hsize, rfl⟩
  · rw [dif_neg (mt hkeySize.1 named), valueCheck, if_neg named]
    refine (WireString.guard_ofBytes _).map fun value hvalue => ?_
    refine ⟨name.bytes, value.bytes, hlayout, ?_, rfl⟩
    rw [ValueLayout, if_neg named]
    exact hvalue

end DraftAttribute

/-! ### Drafts -/

namespace Draft

variable (d : Draft)

lemma guard_methodCode (m : Method) :
    Guard [⟨m.code?.isSome, .unknownMethod m⟩] (methodCode m) fun code =>
      m.code? = some code.1 := by
  rw [methodCode]
  split
  next code hcode =>
    have hsome : m.code?.isSome = true := Option.isSome_iff_exists.2 ⟨code, hcode⟩
    refine .single (fun _ => ⟨_, rfl, hcode⟩) fun hfailed => ?_
    exact absurd (hfailed.symm.trans hsome) Bool.false_ne_true
  next hcode =>
    rw [hcode]
    exact .single (fun hpassed => absurd hpassed Bool.false_ne_true) fun _ => rfl

/-- The number of the headers is checked ahead of them. -/
lemma guard_wireHeaders :
    Guard (.count d.headers.size :: d.headers.toList.flatMap DraftHeader.checks) d.wireHeaders
      fun ws => List.Forall₂ (fun h w => h.Layout w.bytes) d.headers.toList ws.1 := by
  refine .cons (fun hpassed => ?_) fun hfailed => ?_
  · have hsize := Check.passed_count_iff.1 hpassed
    refine (Guard.mapM DraftHeader.guard_wire d.headers.toList).congr ?_ ?_
    · intro headers hheaders hlayout
      refine ⟨⟨headers, ?_⟩, ?_, hlayout⟩
      · rw [length_eq_of_mapM_eq_ok hheaders]
        exact hsize
      · rw [wireHeaders, dif_pos hsize]
        split
        next headers' hheaders' =>
          rw [hheaders] at hheaders'
          cases hheaders'
          rfl
        next e he =>
          rw [hheaders] at he
          cases he
    · intro e he
      rw [wireHeaders, dif_pos hsize]
      split
      next headers hheaders =>
        rw [he] at hheaders
        cases hheaders
      next e' he' =>
        rw [he] at he'
        cases he'
        rfl
  · exact dif_neg (Check.failed_count_iff.1 hfailed)

/-- What is checked of the parts of a draft. -/
def partChecks : List Check :=
  ⟨d.method.code?.isSome, .unknownMethod d.method⟩ ::
  .string (Utf8.encode d.protocol) ::
  .string (Utf8.encode d.requestUri) ::
  .string (Utf8.encode d.remoteAddress) ::
  (d.remoteHost.toList.map (fun host => .string (Utf8.encode host)) ++
  .string (Utf8.encode d.serverName) ::
  (.count d.headers.size :: d.headers.toList.flatMap DraftHeader.checks ++
  d.attributes.toList.flatMap DraftAttribute.checks))

/-- All checks of a draft. -/
def checks : List Check := d.partChecks ++ [.count d.bodySize]

lemma guard_body : Guard d.partChecks d.body fun b => d.BodyLayout b.bytes := by
  rw [partChecks, body]
  -- the steps of the computation and the groups of checks, both in the order of the wire
  refine (guard_methodCode d.method).bind_cons ?_
  rintro ⟨method, known_method⟩ - hmethod
  refine (WireString.guard_ofBytes _).bind_cons fun protocol _ hprotocol => ?_
  refine (WireString.guard_ofBytes _).bind_cons fun uri _ huri => ?_
  refine (WireString.guard_ofBytes _).bind_cons fun address _ haddress => ?_
  refine (WireString.guard_ofText? d.remoteHost).bind fun host _ hhost => ?_
  refine (WireString.guard_ofBytes _).bind_cons fun server _ hserver => ?_
  refine d.guard_wireHeaders.bind ?_
  rintro ⟨headers, headers_fit⟩ - hheaders
  refine (Guard.mapM DraftAttribute.guard_wire d.attributes.toList).map
    fun attributes hattributes => ?_
  have hcount : (UInt16.ofNat headers.length).toNat = d.headers.size := by
    have hlength : d.headers.size = headers.length := hheaders.length_eq
    rw [UInt16.toNat_ofNat', hlength]
    exact Nat.mod_eq_of_lt headers_fit
  exact .intro hmethod hprotocol huri haddress hhost hserver hcount
    (List.forall₂_map_right_iff.2 hheaders) (List.forall₂_map_right_iff.2 hattributes)

/-- The body is counted when it has been put together. -/
lemma guard_packet : Guard d.checks d.packet fun q => d.Layout q.bytes := by
  refine d.guard_body.bind fun b _ hb => ?_
  rw [← hb.length_eq]
  refine .single (fun hpassed => ?_) fun hfailed => if_neg (Check.failed_count_iff.1 hfailed)
  have hsize := Check.passed_count_iff.1 hpassed
  refine ⟨_, if_pos hsize, UInt16.ofNat b.bytes.length, b.bytes, ?_, hb, rfl⟩
  rw [UInt16.toNat_ofNat']
  exact Nat.mod_eq_of_lt hsize

lemma guard_encode : Guard d.checks d.encode d.Layout :=
  d.guard_packet.map fun _ => id

/-- A draft is sent if and only if all its checks pass. Otherwise the first one that does not is
reported. What is sent is the draft as it is laid out, with all its lengths and numbers exact. -/
theorem encode_checked :
    ((∃ p, d.encode = .ok p) ↔ ∀ c ∈ d.checks, c.passed = true) ∧
    (∀ e, d.encode = .error e ↔ ∃ before c after, d.checks = before ++ c :: after ∧
      (∀ c' ∈ before, c'.passed = true) ∧ c.passed = false ∧ c.error = e) ∧
    ∀ p, d.encode = .ok p → d.Layout p :=
  ⟨d.guard_encode.exists_eq_ok_iff, fun _ => d.guard_encode.eq_error_iff,
    fun _ => d.guard_encode.of_eq_ok⟩

end Draft

end Ajp13
