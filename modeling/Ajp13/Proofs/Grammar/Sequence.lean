import Ajp13.Proofs.Bytewise.Effect
import Ajp13.Proofs.Grammar.Primitives
import Ajp13.Proofs.Grammar.Strings

/-!
The fields of a packet, one after another.

* `State.step_of_word`, `State.step_of_string`: a byte that is not the last of its field;
* `State.ReadyFor`: a field is next, and no byte of it has come;
* `State.ReadyFor.begun_scan`: then the beginning of that field is kept, and completes nothing;
* `Reads`: a decoder is ready for each of some fields in turn, and takes it to its end;
* `reads_packet`: so it does with the fields of any packet.
-/

namespace Ajp13

open Decoder

/-- What a decoder reads where the field is next. -/
def Primitive.expected : Primitive → Expected
  | byte _ => .byte
  | word _ => .word
  | string _ => .string .plain
  | headerName _ => .string .headerName

namespace Decoder

variable {σ : Type} {put : σ → Field → σ} {role : StringRole}

/-! ### Within a field -/

/-- All bytes within a string are kept. -/
lemma StringProgress.Grows.begun_eq {p q : StringProgress} {bytes : List UInt8}
    (h : Grows role p bytes q) (hp : p.Fits role) : q.begun = p.begun ++ bytes := by
  induction h with
  | nil => exact (List.append_nil _).symm
  | cons step more ih =>
      rw [ih (hp.step step), begun_of_step hp.open step, List.append_assoc]
      rfl

namespace State

variable {s : State} {b : UInt8}

/-- The first byte of a word. -/
lemma step_of_word (he : s.expected = .word) (hcarry : s.scratch.carry = none) :
    s.step b = .move (s.withCarry (some b)) none := by
  have hnext : ∀ next, s.stepWord b next = .move (s.withCarry (some b)) none := by
    intro next
    rw [stepWord, hcarry]
  rw [step]
  cases hphase : s.phase with
  | magic | dataSize | serverPort | headerCount => exact hnext _
  | attributes =>
      rw [expected, hphase] at he
      dsimp only at he ⊢
      rw [stepAttribute]
      cases hcursor : s.cursor with
      | idle | readingCustomName => rw [hcursor] at he; cases he
      | named name =>
          rw [hcursor] at he
          dsimp only at he ⊢
          split at he
          next hname =>
            rw [if_pos hname]
            exact hnext _
          next => cases he
  | _ => rw [expected, hphase] at he; cases he

/-- A byte of a string that is not the last. -/
lemma step_of_string {p : StringProgress} (he : s.expected = .string role)
    (hp : s.scratch.string.step role b = .more p) : s.step b = .move (s.withString p) none := by
  have hnext : ∀ next, s.stepString role b next = .move (s.withString p) none := by
    intro next
    rw [stepString, hp]
  rw [step]
  cases hphase : s.phase with
  | protocol | requestUri | remoteAddress | remoteHost | serverName =>
      rw [expected, hphase] at he
      obtain rfl := Expected.string.inj he
      exact hnext _
  | headers =>
      rw [expected, hphase] at he
      obtain rfl := Expected.string.inj he
      dsimp only
      rw [stepHeader]
      cases hpending : s.pendingHeader with
      | none =>
          rw [if_pos hpending] at hnext
          exact hnext _
      | some header =>
          rw [if_neg (by rw [hpending]; exact Option.some_ne_none _)] at hnext
          exact hnext _
  | attributes =>
      rw [expected, hphase] at he
      dsimp only at he ⊢
      rw [stepAttribute]
      cases hcursor : s.cursor with
      | idle => rw [hcursor] at he; cases he
      | readingCustomName =>
          rw [hcursor] at he
          obtain rfl := Expected.string.inj he
          exact hnext _
      | named name =>
          rw [hcursor] at he
          dsimp only at he ⊢
          split at he
          next => cases he
          next hname =>
            obtain rfl := Expected.string.inj he
            rw [if_neg hname]
            exact hnext _
  | _ => rw [expected, hphase] at he; cases he

/-- Bytes within a string change nothing but what is known of that. -/
lemma scan_of_string (hdone : s.phase ≠ .done) (he : s.expected = .string role) {bytes : List UInt8}
    {q : StringProgress} (h : StringProgress.Grows role s.scratch.string bytes q) (acc : σ) :
    (scan put s acc bytes).state = s.withString q := by
  generalize hp : s.scratch.string = p at h
  induction h generalizing s with
  | nil =>
      rw [← hp]
      rfl
  | cons step more ih =>
      rw [scan_cons hdone, step_of_string he (hp ▸ step)]
      exact ih (s := s.withString _) hdone he rfl

/-- The field is next, and no byte of it has come. -/
structure ReadyFor (s : State) (f : Primitive) : Prop where
  scratch : s.scratch = {}
  expected : s.expected = f.expected
  phase : s.phase ≠ .done
  settle : s.settle = s

namespace ReadyFor

variable {f : Primitive} {part : List UInt8}

/-- A phase that reads a single field. -/
lemma of_reads? (hs : s.scratch = {}) (hreads : s.phase.reads? = some f.expected) :
    s.ReadyFor f := by
  have hheaders : s.phase ≠ .headers := by
    intro hphase
    rw [hphase] at hreads
    cases hreads
  refine ⟨hs, ?_, ?_, settle_of_phase_ne hheaders⟩
  · rw [State.expected]
    cases hphase : s.phase with
    | headers | attributes | done => rw [hphase] at hreads; cases hreads
    | _ => rw [hphase] at hreads; exact Option.some.inj hreads
  · intro hphase
    rw [hphase] at hreads
    cases hreads

/-- The beginning of a string is kept. -/
lemma begun_scan_string (h : s.ReadyFor f) (he : f.expected = .string role) {w : List UInt8}
    {said : Except Fault ReceivedString} (hsaid : Says role w said) (hpart : part <+: w)
    (hne : part ≠ w) (acc : σ) : (scan put s acc part).state.begun = part := by
  obtain ⟨q, hgrows⟩ := StringProgress.exists_grows_of_prefix hsaid hpart hne
  have hstring : s.scratch.string = .start := by rw [h.scratch]
  rw [scan_of_string h.phase (h.expected.trans he) (hstring ▸ hgrows), begun, withString, h.scratch]
  exact hgrows.begun_eq trivial

/-- The beginning of a field is kept, and completes nothing. -/
theorem begun_scan (h : s.ReadyFor f) (hpart : part <+: f.bytes) (hne : part ≠ f.bytes) (acc : σ) :
    (scan put s acc part).state.begun = part := by
  cases f with
  | byte b =>
      have hpart : part <+: [] ++ [b] := hpart
      have hnil : part <+: [] := (List.prefix_concat_iff.1 hpart).resolve_left hne
      rw [List.prefix_nil.1 hnil]
      exact begun_of_scratch h.scratch
  | word w =>
      have hpart : part <+: [Word.high w] ++ [Word.low w] := hpart
      have hhigh : part <+: [] ++ [Word.high w] := (List.prefix_concat_iff.1 hpart).resolve_left hne
      obtain rfl | hnil := List.prefix_concat_iff.1 hhigh
      · have hcarry : s.scratch.carry = none := by rw [h.scratch]
        rw [List.nil_append, scan_cons h.phase, step_of_word h.expected hcarry]
        change (s.withCarry (some (Word.high w))).begun = _
        rw [begun, withCarry, h.scratch]
        rfl
      · rw [List.prefix_nil.1 hnil]
        exact begun_of_scratch h.scratch
  | string w => exact h.begun_scan_string rfl (says_bytes (by simp)) hpart hne acc
  | headerName n => exact h.begun_scan_string rfl (says_headerName_bytes n) hpart hne acc

end ReadyFor
end State

/-! ### One field after another -/

/-- A run takes the bytes and is then in the state `t`, whatever comes behind them. -/
def Passes (put : σ → Field → σ) (s : State) (bytes : List UInt8) (t : State) : Prop :=
  ∀ acc, ∃ acc', ∀ rest, run put s acc (bytes ++ rest) = run put t acc' rest

lemma Passes.trans {s t u : State} {a b : List UInt8} (h : Passes put s a t)
    (h' : Passes put t b u) : Passes put s (a ++ b) u := by
  intro acc
  obtain ⟨acc', ha⟩ := h acc
  obtain ⟨acc'', hb⟩ := h' acc'
  refine ⟨acc'', fun rest => ?_⟩
  rw [List.append_assoc, ha, hb]

lemma OpenString.of_scratch {s : State} (hs : s.scratch = {}) : OpenString s := by
  rw [OpenString, hs]
  trivial

/-- A state that has been settled is settled. -/
lemma State.settle_settle (s : State) : s.settle.settle = s.settle := by
  by_cases h : s.phase = .headers ∧ s.headerCount.toNat ≤ s.headersRead
  · refine settle_of_phase_ne ?_
    rw [settle, if_pos h, advance, h.1]
    exact Phase.noConfusion
  · have hsettle : s.settle = s := if_neg h
    rw [hsettle, hsettle]

/-- A run goes on from the headers by itself, once all of them have come. -/
lemma Passes.settle {s t : State} {bytes : List UInt8} (h : Passes put s bytes t)
    (ht : t.scratch = {}) : Passes put s bytes t.settle := by
  have hopen : OpenString t := .of_scratch ht
  have hopen' : OpenString t.settle := .of_scratch (t.scratch_settle.trans ht)
  intro acc
  obtain ⟨acc', hbytes⟩ := h acc
  refine ⟨acc', fun rest => ?_⟩
  rw [hbytes, run_eq_scan hopen, run_eq_scan hopen', t.settle_settle]

/-- What the loop of a phase takes, a run takes. -/
lemma Passes.of_loop {read : State → σ → List UInt8 → Run σ} {next : Phase} {s t : State}
    {bytes : List UInt8}
    (h : ∀ acc, ∃ acc', ∀ rest, read s acc (bytes ++ rest) = read t acc' rest)
    (hs : ∀ acc buffer, phaseTurn put s acc buffer = (read s acc buffer).turn next)
    (ht : ∀ acc buffer, phaseTurn put t acc buffer = (read t acc buffer).turn next) :
    Passes put s bytes t := by
  intro acc
  obtain ⟨acc', hbytes⟩ := h acc
  refine ⟨acc', fun rest => ?_⟩
  rw [run_eq, hs, hbytes, run_eq t, ht]

/-- A decoder is ready for each of the fields in turn, and takes it to its end. -/
inductive Reads (put : σ → Field → σ) : State → List Primitive → State → Prop
  | nil (s : State) : Reads put s [] s
  | cons {s t u : State} {f : Primitive} {fields : List Primitive} (ready : s.ReadyFor f)
      (passes : Passes put s f.bytes t) (more : Reads put t fields u) : Reads put s (f :: fields) u

namespace Reads

variable {s t u : State} {fields fields' : List Primitive}

lemma append (h : Reads put s fields t) (h' : Reads put t fields' u) :
    Reads put s (fields ++ fields') u := by
  induction h with
  | nil => exact h'
  | cons ready passes more ih => exact .cons ready passes (ih h')

/-- Behind some of the fields, the next one is read. -/
lemma exists_ready {f : Primitive} (h : Reads put s (fields ++ f :: fields') u) :
    ∃ t, Passes put s (fields.flatMap Primitive.bytes) t ∧ t.ReadyFor f := by
  induction fields generalizing s with
  | nil =>
      cases h with
      | cons ready => exact ⟨s, fun acc => ⟨acc, fun _ => rfl⟩, ready⟩
  | cons f' fields ih =>
      cases h with
      | cons ready passes more =>
          obtain ⟨t, hpasses, hready⟩ := ih more
          exact ⟨t, passes.trans hpasses, hready⟩

end Reads

/-! ### The fields of a packet -/

/-- The fields of a head. If there are no headers, the attributes are next. -/
lemma reads_head (d : Head) : Reads put .start d.primitives d.state.settle := by
  refine .cons (.of_reads? rfl rfl) (fun acc => ⟨acc, run_magic rfl rfl⟩) ?_
  refine .cons (.of_reads? rfl rfl) (fun acc => ⟨acc, run_dataSize rfl rfl d.size⟩) ?_
  refine .cons (.of_reads? rfl rfl) (fun acc => ⟨acc, run_forwardRequest rfl⟩) ?_
  change Reads put { phase := .method, dataSize := some d.size, prefixCode := some .forwardRequest }
    _ _
  refine .cons (.of_reads? rfl rfl) (fun acc => ⟨_, run_method rfl d.known_method⟩) ?_
  refine .cons (.of_reads? rfl rfl) (fun acc => ⟨_, run_protocol rfl rfl d.protocol⟩) ?_
  refine .cons (.of_reads? rfl rfl) (fun acc => ⟨_, run_requestUri rfl rfl d.requestUri⟩) ?_
  refine .cons (.of_reads? rfl rfl) (fun acc => ⟨_, run_remoteAddress rfl rfl d.remoteAddress⟩) ?_
  refine .cons (.of_reads? rfl rfl) (fun acc => ⟨_, run_remoteHost rfl rfl d.remoteHost⟩) ?_
  refine .cons (.of_reads? rfl rfl) (fun acc => ⟨_, run_serverName rfl rfl d.serverName⟩) ?_
  refine .cons (.of_reads? rfl rfl) (fun acc => ⟨_, run_serverPort rfl rfl d.serverPort⟩) ?_
  refine .cons (.of_reads? rfl rfl) (fun acc => ⟨_, run_ssl rfl d.ssl⟩) ?_
  let s : State :=
    { phase := .headerCount, dataSize := some d.size, prefixCode := some .forwardRequest,
      remoteAddress := some d.remoteAddress.text, serverAddress := some d.serverName.text,
      serverPort := some d.serverPort }
  have hcount : Passes put s (Word.bytes d.headerCount) d.state :=
    fun acc => ⟨acc, run_headerCount rfl rfl d.headerCount⟩
  exact .cons (.of_reads? rfl rfl) (hcount.settle rfl) (.nil _)

section Headers

lemma passes_of_readHeaders {s t : State} {bytes : List UInt8}
    (h : ∀ acc, ∃ acc', ∀ rest,
      readHeaders put s acc (bytes ++ rest) = readHeaders put t acc' rest)
    (hs : s.phase = .headers) (ht : t.phase = .headers) : Passes put s bytes t :=
  .of_loop h (fun _ _ => by rw [phaseTurn, hs]) (fun _ _ => by rw [phaseTurn, ht])

variable {s : State} (hs : s.BetweenHeaders) (hphase : s.phase = .headers)
include hs hphase

/-- A name and a value. Behind the last header, the attributes are next. -/
lemma reads_header (hread : s.headersRead < s.headerCount.toNat) (h : WireHeader) :
    Reads put s h.primitives ({ s with headersRead := s.headersRead + 1 } : State).settle := by
  have hdone : s.phase ≠ .done := by
    rw [hphase]
    exact Phase.noConfusion
  have hname : s.expected = .string .headerName := by
    simp only [State.expected, hphase, hs.pendingHeader, if_pos]
  let t : State := { s with pendingHeader := some (pending h.name.received) }
  have hvalue : t.expected = .string .plain := by
    simp only [t, State.expected, hphase, reduceCtorEq, if_false]
  have hnext : ({ t with pendingHeader := none, headersRead := s.headersRead + 1 } : State) =
      { s with headersRead := s.headersRead + 1 } := by
    simp only [t, ← hs.pendingHeader]
  refine .cons (t := t) ⟨hs.scratch, hname, hdone, State.settle_of_lt hread⟩
    (passes_of_readHeaders (fun acc => ⟨acc, readHeaders_name hs hread acc h.name⟩) hphase hphase)
    ?_
  have hpasses : Passes put t h.value.bytes
      { t with pendingHeader := none, headersRead := s.headersRead + 1 } :=
    passes_of_readHeaders (fun acc =>
      ⟨_, readHeaders_value (s := t) rfl hs.scratch hread acc h.value⟩) hphase hphase
  rw [hnext] at hpasses
  exact .cons ⟨hs.scratch, hvalue, hdone, State.settle_of_lt hread⟩ (hpasses.settle hs.scratch)
    (.nil _)

/-- The headers that were announced. -/
lemma reads_headers {headers : List WireHeader}
    (hcount : s.headersRead + headers.length = s.headerCount.toNat) :
    Reads put s.settle (headers.flatMap WireHeader.primitives)
      { s with phase := .attributes, headersRead := s.headerCount.toNat } := by
  induction headers generalizing s with
  | nil =>
      have hread : s.headersRead = s.headerCount.toNat := hcount
      have hsettle : s.settle =
          { s with phase := .attributes, headersRead := s.headerCount.toNat } := by
        rw [State.settle, if_pos ⟨hphase, Nat.le_of_eq hread.symm⟩, State.advance, hphase, ← hread]
        rfl
      rw [hsettle]
      exact .nil _
  | cons h headers ih =>
      rw [List.length_cons] at hcount
      have hread : s.headersRead < s.headerCount.toNat := by omega
      rw [State.settle_of_lt hread, List.flatMap_cons]
      exact (reads_header hs hphase hread h).append
        (ih (s := { s with headersRead := s.headersRead + 1 }) ⟨hs.pendingHeader, hs.scratch⟩ hphase
          (by dsimp only; omega))

end Headers

section Attributes

lemma passes_of_readAttributes {s t : State} {bytes : List UInt8}
    (h : ∀ acc, ∃ acc', ∀ rest,
      readAttributes put s acc (bytes ++ rest) = readAttributes put t acc' rest)
    (hs : s.phase = .attributes) (ht : t.phase = .attributes) : Passes put s bytes t :=
  .of_loop h (fun _ _ => by rw [phaseTurn, hs]) (fun _ _ => by rw [phaseTurn, ht])

variable {s : State} (hphase : s.phase = .attributes)
include hphase

lemma State.ReadyFor.of_attributes {f : Primitive} (hs : s.scratch = {})
    (he : s.expected = f.expected) : s.ReadyFor f := by
  refine ⟨hs, he, ?_, State.settle_of_phase_ne ?_⟩ <;>
    · rw [hphase]
      exact Phase.noConfusion

variable (hs : s.BetweenAttributes)
include hs

lemma expected_of_idle : s.expected = .byte := by
  simp only [State.expected, hphase, hs.cursor]

/-- A tag, and the name behind it if that is spelled out. -/
lemma reads_attributeName (n : WireAttributeName) :
    Reads put s n.primitives { s with cursor := .named n.text } := by
  cases n with
  | coded code known =>
      let t : State := { s with cursor := .named ((AttributeName.ofCode? code).get known) }
      exact .cons (t := t) (.of_attributes hphase hs.scratch (expected_of_idle hphase hs))
        (passes_of_readAttributes (fun acc =>
          ⟨acc, readAttributes_code hs acc (Option.some_get known).symm⟩) hphase hphase) (.nil _)
  | custom name =>
      let t : State := { s with cursor := .readingCustomName }
      have ht : t.expected = .string .plain := by simp only [t, State.expected, hphase]
      have hname : Passes put t name.bytes { t with cursor := .named name.text } :=
        passes_of_readAttributes (fun acc =>
          ⟨acc, readAttributes_customName (s := t) rfl hs.scratch acc name⟩) hphase hphase
      refine .cons (t := t) (.of_attributes hphase hs.scratch (expected_of_idle hphase hs))
        (passes_of_readAttributes (fun acc => ⟨acc, readAttributes_customTag hs acc⟩) hphase hphase)
        ?_
      exact .cons (.of_attributes (s := t) hphase hs.scratch ht) hname (.nil _)

/-- A name and a value. -/
lemma reads_attribute (a : WireAttribute) :
    Reads put s a.primitives { s with attributes := a.keep s.attributes } := by
  have hnext : ({ s with cursor := .idle, attributes := a.keep s.attributes } : State) =
      { s with attributes := a.keep s.attributes } := by rw [← hs.cursor]
  rw [← hnext]
  cases a with
  | string name value named =>
      let a := WireAttribute.string name value named
      let t : State := { s with cursor := .named name.text }
      have ht : t.expected = .string .plain := by
        simp only [t, State.expected, hphase, if_neg named]
      have hvalue : Passes put t value.bytes
          { t with cursor := .idle, attributes := a.keep s.attributes } :=
        passes_of_readAttributes (fun acc => ⟨_, fun rest =>
          (readAttributes_string (s := t) rfl hs.scratch named acc value rest).trans
            (andThen_endAttribute (s := t) acc a rest _)⟩) hphase hphase
      exact (reads_attributeName hphase hs name).append
        (.cons (.of_attributes (s := t) hphase hs.scratch ht) hvalue (.nil _))
  | keySize name size named =>
      let a := WireAttribute.keySize name size named
      let t : State := { s with cursor := .named name.text }
      have ht : t.expected = .word := by
        simp only [t, State.expected, hphase, if_pos named]
      have hvalue : Passes put t (Word.bytes size)
          { t with cursor := .idle, attributes := a.keep s.attributes } :=
        passes_of_readAttributes (fun acc => ⟨_, fun rest =>
          (readAttributes_word (s := t) rfl hs.scratch named acc size rest).trans
            (andThen_endAttribute (s := t) acc a rest _)⟩) hphase hphase
      exact (reads_attributeName hphase hs name).append
        (.cons (.of_attributes (s := t) hphase hs.scratch ht) hvalue (.nil _))

/-- Attributes, and the tag that ends them. -/
lemma reads_attributes (attributes : List WireAttribute) :
    Reads put s
      (attributes.flatMap WireAttribute.primitives ++ [.byte Marker.attributesEnd])
      { s with
        phase := .done, attributes := attributes.foldl WireAttribute.keep s.attributes } := by
  induction attributes generalizing s with
  | nil =>
      let t : State := { s with phase := .done }
      have hend : Passes put s [Marker.attributesEnd] t := by
        refine fun acc => ⟨acc, fun rest => ?_⟩
        rw [run_done (s := t) rfl]
        exact run_attributes hs.scratch hphase hs.cursor [] rest
      exact .cons (.of_attributes hphase hs.scratch (expected_of_idle hphase hs)) hend (.nil t)
  | cons a attributes ih =>
      rw [List.flatMap_cons, List.append_assoc]
      exact (reads_attribute hphase hs a).append
        (ih (s := { s with attributes := a.keep s.attributes }) hphase ⟨hs.cursor, hs.scratch⟩)

end Attributes

/-- A decoder reads the fields of a packet, each of them whole and in the order of the wire. -/
theorem reads_packet (q : Packet) : Reads put .start q.primitives q.state := by
  cases q with
  | signal size kind other =>
      refine .cons (.of_reads? rfl rfl) (fun acc => ⟨acc, run_magic rfl rfl⟩) ?_
      refine .cons (.of_reads? rfl rfl) (fun acc => ⟨acc, run_dataSize rfl rfl size⟩) ?_
      exact .cons (.of_reads? rfl rfl) (fun acc => ⟨acc, run_signal rfl other⟩) (.nil _)
  | forward size b =>
      have hread : (b.head size).state.headerCount.toNat = b.headers.length :=
        b.toNat_headerCount size
      have hcount : (b.head size).state.headersRead + b.headers.length =
          (b.head size).state.headerCount.toNat := (Nat.zero_add _).trans hread.symm
      have hheaders : Reads put .start
          ((b.head size).primitives ++ b.headers.flatMap WireHeader.primitives)
          { (b.head size).state with phase := .attributes, headersRead := b.headers.length } := by
        rw [← hread]
        exact (reads_head (b.head size)).append (reads_headers ⟨rfl, rfl⟩ rfl hcount)
      rw [Packet.primitives, List.append_assoc]
      exact hheaders.append (reads_attributes rfl ⟨rfl, rfl⟩ b.attributes)

end Decoder

end Ajp13
