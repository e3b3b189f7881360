import Ajp13.Proofs.Grammar.Reading

/-!
The headers of a forward request, read in one go.

* `readHeaders_name`, `readHeaders_value`: a name, and a value; `readHeaders_cons`: both of them, as
  one header;
* `readHeaders_append`: some headers, in the order of the wire; `readHeaders_bytes`: as many as were
  announced;
* `readHeaders_halted`: where no header comes, the loop halts;
* `AllHeaders`: the headers that any bytes begin with, up to a given number;
* `exists_headers_of_done`: so nothing else is read as the headers that were announced.
-/

namespace Ajp13.Decoder

variable {σ : Type} {put : σ → Field → σ}

/-- The state is between two headers. -/
structure State.BetweenHeaders (s : State) : Prop where
  pendingHeader : s.pendingHeader = none
  scratch : s.scratch = {}

lemma readHeaders_eq (s : State) (acc : σ) (buffer : List UInt8) :
    readHeaders put s acc buffer = (headerTurn put s acc buffer).andThen (readHeaders put) :=
  loop_eq s acc buffer

variable {s : State}

/-- Behind the last of the headers that were announced, the loop is done. -/
lemma readHeaders_of_le (hread : s.headerCount.toNat ≤ s.headersRead) (acc : σ)
    (buffer : List UInt8) : readHeaders put s acc buffer = ⟨.done, buffer, s, acc⟩ := by
  rw [readHeaders_eq, headerTurn, if_neg (by omega)]
  rfl

lemma takeName_bytes (hs : s.BetweenHeaders) (n : WireHeaderName) (rest : List UInt8) :
    s.takeName (n.bytes ++ rest) = ⟨.ok (some (pending n.received)), s, rest⟩ := by
  rw [State.takeName, hs.pendingHeader]
  dsimp only
  rw [State.readString_headerName_bytes hs.scratch]
  rfl

/-- A name, after which its value is expected. -/
lemma readHeaders_name (hs : s.BetweenHeaders) (hread : s.headersRead < s.headerCount.toNat)
    (acc : σ) (n : WireHeaderName) (rest : List UInt8) :
    readHeaders put s acc (n.bytes ++ rest) =
      readHeaders put { s with pendingHeader := some (pending n.received) } acc rest := by
  rw [readHeaders_eq, headerTurn, if_pos hread, takeName_bytes hs, readHeaders_eq, headerTurn,
    if_pos hread, State.takeName]
  simp only [Reading.turn, ← hs.pendingHeader]

/-- A value, which completes the header: what is made of that, and the count. -/
lemma readHeaders_value {header : PendingHeader} (hpending : s.pendingHeader = some header)
    (hs : s.scratch = {}) (hread : s.headersRead < s.headerCount.toNat) (acc : σ)
    (value : WireString) (rest : List UInt8) :
    readHeaders put s acc (value.bytes ++ rest) =
      readHeaders put { s with pendingHeader := none, headersRead := s.headersRead + 1 }
        ((headerField? header value.received).elim acc (put acc)) rest := by
  rw [readHeaders_eq, headerTurn, if_pos hread, State.takeName, hpending]
  simp only [Reading.turn, headerValueTurn]
  rw [State.readString_bytes (s := { s with pendingHeader := none }) hs]
  rfl

/-- One header: what is made of it, and the count. -/
lemma readHeaders_cons (hs : s.BetweenHeaders) (hread : s.headersRead < s.headerCount.toNat)
    (acc : σ) (h : WireHeader) (rest : List UInt8) :
    readHeaders put s acc (h.bytes ++ rest) =
      readHeaders put { s with headersRead := s.headersRead + 1 } (h.field?.elim acc (put acc))
        rest := by
  rw [WireHeader.bytes, List.append_assoc, readHeaders_name hs hread,
    readHeaders_value (s := { s with pendingHeader := some (pending h.name.received) }) rfl
      hs.scratch hread, headerField?_received]
  simp only [← hs.pendingHeader]

/-- What is made of some headers is what is made of the first, and then of the others. -/
lemma foldl_field?_cons (acc : σ) (h : WireHeader) (headers : List WireHeader) :
    ((h :: headers).filterMap WireHeader.field?).foldl put acc =
      (headers.filterMap WireHeader.field?).foldl put (h.field?.elim acc (put acc)) := by
  cases hfield : h.field? with
  | none => rw [List.filterMap_cons_none hfield]; rfl
  | some field => rw [List.filterMap_cons_some hfield]; rfl

/-- Headers, as many as are missing or fewer. -/
theorem readHeaders_append (hs : s.BetweenHeaders) (acc : σ) (headers : List WireHeader)
    (hcount : s.headersRead + headers.length ≤ s.headerCount.toNat) (rest : List UInt8) :
    readHeaders put s acc (headers.flatMap WireHeader.bytes ++ rest) =
      readHeaders put { s with headersRead := s.headersRead + headers.length }
        ((headers.filterMap WireHeader.field?).foldl put acc) rest := by
  induction headers generalizing s acc with
  | nil => rfl
  | cons h headers ih =>
      rw [List.length_cons] at hcount
      have hcount' : s.headersRead + 1 + headers.length ≤ s.headerCount.toNat := by omega
      rw [List.flatMap_cons, List.append_assoc, readHeaders_cons hs (by omega),
        ih (s := { s with headersRead := s.headersRead + 1 }) ⟨hs.pendingHeader, hs.scratch⟩ _
          hcount', foldl_field?_cons, List.length_cons, Nat.add_comm headers.length, ← Nat.add_assoc]

/-- The headers that were announced. -/
theorem readHeaders_bytes (hs : s.BetweenHeaders) (acc : σ) (headers : List WireHeader)
    (hcount : s.headersRead + headers.length = s.headerCount.toNat) (rest : List UInt8) :
    readHeaders put s acc (headers.flatMap WireHeader.bytes ++ rest) =
      ⟨.done, rest, { s with headersRead := s.headerCount.toNat },
        (headers.filterMap WireHeader.field?).foldl put acc⟩ := by
  rw [readHeaders_append hs acc headers (Nat.le_of_eq hcount),
    readHeaders_of_le (Nat.le_of_eq hcount.symm), hcount]

/-- Where a name is read and none was waiting, the buffer begins with that. -/
lemma exists_of_takeName (hs : s.BetweenHeaders) {buffer : List UInt8} {header : PendingHeader}
    (h : (s.takeName buffer).value = .ok (some header)) :
    ∃ (n : WireHeaderName) (rest : List UInt8), buffer = n.bytes ++ rest := by
  rw [State.takeName, hs.pendingHeader] at h
  dsimp only at h
  cases hvalue : (s.readString .headerName buffer).value with
  | error fault => rw [hvalue] at h; cases h
  | ok name =>
      cases name with
      | none => rw [hvalue] at h; cases h
      | some name =>
          rw [State.readString, hs.scratch] at hvalue
          exact StringProgress.exists_of_read_headerName hvalue

/-- What the loop reads first is a header, or it halts within that. -/
lemma exists_header_or_halted (hs : s.BetweenHeaders)
    (hread : s.headersRead < s.headerCount.toNat) (acc : σ) (buffer : List UInt8) :
    (∃ (w : WireHeader) (rest : List UInt8), buffer = w.bytes ++ rest) ∨
      Halted s acc (readHeaders put s acc buffer) := by
  rw [readHeaders_eq, headerTurn, if_pos hread]
  have hphase : (s.takeName buffer).kept.phase = s.phase := by
    rw [State.takeName, hs.pendingHeader]
    rfl
  have hname : (∃ (n : WireHeaderName) (rest : List UInt8), buffer = n.bytes ++ rest) ∨
      Halted s acc (((s.takeName buffer).turn acc (headerValueTurn put acc)).andThen
        (readHeaders put)) :=
    (Reading.exists_or_halted _ _ hphase (s.headersRead_kept_takeName buffer)).imp_left
      fun hheader => hheader.elim fun _ => exists_of_takeName hs
  rcases hname with ⟨n, rest, rfl⟩ | hhalted
  · rw [takeName_bytes hs]
    simp only [Reading.turn, headerValueTurn]
    cases hvalue : (s.readString .plain rest).value with
    | error fault => exact .inr ⟨Outcome.noConfusion, rfl, rfl, rfl⟩
    | ok value =>
        cases value with
        | none => exact .inr ⟨Outcome.noConfusion, rfl, rfl, rfl⟩
        | some value =>
            rw [State.readString, hs.scratch] at hvalue
            obtain ⟨w, rest, rfl⟩ := StringProgress.exists_of_read hvalue
            exact .inl ⟨⟨n, w⟩, rest, by rw [WireHeader.bytes, List.append_assoc]⟩
  · exact .inr hhalted

/-- Where no header comes, the loop halts. -/
lemma readHeaders_halted (hs : s.BetweenHeaders) (hread : s.headersRead < s.headerCount.toNat)
    (acc : σ) {buffer : List UInt8} (hnone : ∀ w : WireHeader, ¬w.bytes <+: buffer) :
    Halted s acc (readHeaders put s acc buffer) := by
  refine (exists_header_or_halted hs hread acc buffer).resolve_left ?_
  rintro ⟨w, rest, rfl⟩
  exact hnone w (List.prefix_append _ _)

/-- As many headers as are missing, or fewer and behind them no other. -/
def AllHeaders (missing : Nat) (headers : List WireHeader) (rest : List UInt8) : Prop :=
  headers.length = missing ∨ headers.length < missing ∧ ∀ w : WireHeader, ¬w.bytes <+: rest

/-- Any bytes begin with some headers that are all. -/
lemma exists_headers (missing : Nat) (buffer : List UInt8) :
    ∃ (headers : List WireHeader) (rest : List UInt8),
      buffer = headers.flatMap WireHeader.bytes ++ rest ∧ AllHeaders missing headers rest := by
  induction missing generalizing buffer with
  | zero => exact ⟨[], buffer, rfl, .inl rfl⟩
  | succ missing ih =>
      by_cases hsome : ∃ w : WireHeader, w.bytes <+: buffer
      · obtain ⟨w, rest, rfl⟩ := hsome
        obtain ⟨headers, rest, rfl, hlength⟩ := ih rest
        refine ⟨w :: headers, rest, by rw [List.flatMap_cons, List.append_assoc], ?_⟩
        exact hlength.imp (congrArg Nat.succ) fun h => ⟨Nat.succ_lt_succ h.1, h.2⟩
      · exact ⟨[], buffer, rfl, .inr ⟨Nat.succ_pos missing, not_exists.1 hsome⟩⟩

lemma AllHeaders.of_cons {missing : Nat} {w : WireHeader} {headers : List WireHeader}
    {rest : List UInt8} (h : AllHeaders missing (w :: headers) rest) :
    0 < missing ∧ AllHeaders (missing - 1) headers rest := by
  rw [AllHeaders, List.length_cons] at h
  obtain h | ⟨h, hnone⟩ := h
  · exact ⟨by omega, .inl (by omega)⟩
  · exact ⟨by omega, .inr ⟨by omega, hnone⟩⟩

/-- No headers are all, if one is missing, only where none comes. -/
lemma AllHeaders.not_prefix {missing : Nat} {rest : List UInt8} (h : AllHeaders missing [] rest)
    (hmissing : 0 < missing) (w : WireHeader) : ¬w.bytes <+: rest := by
  obtain h | ⟨-, hnone⟩ := h
  · exact absurd h.symm (Nat.ne_of_gt hmissing)
  · exact hnone w

/-- Any bytes begin so in one way only. -/
lemma AllHeaders.unique {missing : Nat} {headers headers' : List WireHeader}
    {rest rest' : List UInt8} (h : AllHeaders missing headers rest)
    (h' : AllHeaders missing headers' rest')
    (heq : headers.flatMap WireHeader.bytes ++ rest =
      headers'.flatMap WireHeader.bytes ++ rest') : headers = headers' := by
  induction headers generalizing missing headers' with
  | nil =>
      cases headers' with
      | nil => rfl
      | cons w headers' =>
          rw [List.flatMap_cons, List.append_assoc] at heq
          exact absurd ⟨_, heq.symm⟩ (h.not_prefix h'.of_cons.1 w)
  | cons w headers ih =>
      cases headers' with
      | nil =>
          rw [List.flatMap_cons, List.append_assoc] at heq
          exact absurd ⟨_, heq⟩ (h'.not_prefix h.of_cons.1 w)
      | cons w' headers' =>
          rw [List.flatMap_cons, List.flatMap_cons, List.append_assoc, List.append_assoc] at heq
          obtain ⟨hw, htail⟩ := WireHeader.bytes_prefixFree heq
          rw [hw, ih h.of_cons.2 h'.of_cons.2 htail]

/-- What the loop reads is as many headers as were announced. -/
theorem exists_headers_of_done (hs : s.BetweenHeaders) {missing : Nat}
    (hread : s.headersRead + missing = s.headerCount.toNat) {acc : σ} {buffer : List UInt8}
    (h : (readHeaders put s acc buffer).outcome = .done) :
    ∃ (headers : List WireHeader) (rest : List UInt8),
      headers.length = missing ∧ buffer = headers.flatMap WireHeader.bytes ++ rest := by
  obtain ⟨headers, rest, rfl, hlength | ⟨hfewer, hnone⟩⟩ := exists_headers missing buffer
  · exact ⟨headers, rest, hlength, rfl⟩
  · rw [readHeaders_append hs acc headers (by omega)] at h
    have hlt : s.headersRead + headers.length < s.headerCount.toNat := by omega
    exact absurd h (readHeaders_halted
      (s := { s with headersRead := s.headersRead + headers.length })
      ⟨hs.pendingHeader, hs.scratch⟩ hlt _ hnone).outcome

end Ajp13.Decoder
