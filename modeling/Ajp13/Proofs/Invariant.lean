import Ajp13.Proofs.Reachable

/-!
The representation invariant of a decoder's state.

* `StringProgress.Consistent`: the numbers and the flag kept for a string agree with its bytes;
* `State.Valid`: the invariant, clause by clause;
* `Reachable.valid`: it holds after any sequence of pieces and resets, whatever came of them.

One place is enough for whatever is in progress, a word or a string: the two never are at once.
-/

namespace Ajp13.Decoder

/-! ### Strings -/

namespace StringProgress

/-- What is known of a string agrees with the bytes that are held. -/
def Consistent : StringProgress → Prop
  | length _ => True
  | content missing held urlChars =>
      held.length < missing + held.length ∧ missing + held.length ≤ 65534 ∧
        (urlChars = true ↔ 0x25 ∈ held ∨ 0x2B ∈ held)
  | terminator held urlChars =>
      held.length ≤ 65534 ∧ (urlChars = true ↔ 0x25 ∈ held ∨ 0x2B ∈ held)

/-- The length that was announced, once that is known. -/
def announced? : StringProgress → Option Nat
  | length _ => none
  | content missing held _ => some (missing + held.length)
  | terminator held _ => some held.length

lemma Fits.consistent {role : StringRole} {p : StringProgress} (hp : p.Fits role) :
    p.Consistent := by
  cases p with
  | length high => trivial
  | content missing held urlChars =>
      obtain ⟨hmissing, hlen, hurl⟩ := hp
      have := hlen.lt
      refine ⟨by omega, by omega, ?_⟩
      rw [hurl]
      exact any_isUrlByte_iff held
  | terminator held urlChars =>
      obtain ⟨hlen, hurl⟩ := hp
      have := hlen.lt
      refine ⟨by omega, ?_⟩
      rw [hurl]
      exact any_isUrlByte_iff held

/-- No header name is announced with a length that would have been read as the mark of a code. -/
lemma Fits.unmarked {p : StringProgress} (hp : p.Fits .headerName) {len : Nat}
    (hlen : p.announced? = some len) : len / 256 ≠ 0xA0 := by
  cases p with
  | length high => cases hlen
  | content missing held urlChars =>
      obtain ⟨-, hfits, -⟩ := hp
      rw [← Option.some.inj hlen]
      exact hfits.unmarked rfl
  | terminator held urlChars =>
      obtain ⟨hfits, -⟩ := hp
      rw [← Option.some.inj hlen]
      exact hfits.unmarked rfl

end StringProgress

/-! ### States -/

namespace State

/-- Whether a word is read in the given state. -/
def AtWord (s : State) : Prop :=
  s.phase = .magic ∨ s.phase = .dataSize ∨ s.phase = .serverPort ∨ s.phase = .headerCount ∨
    s.phase = .attributes ∧ s.cursor = .named AttributeName.sslKeySize

/-- Whether a string is read in the given state. -/
def AtString (s : State) : Prop :=
  s.phase = .protocol ∨ s.phase = .requestUri ∨ s.phase = .remoteAddress ∨
    s.phase = .remoteHost ∨ s.phase = .serverName ∨ s.phase = .headers ∨
    s.phase = .attributes ∧ (s.cursor = .readingCustomName ∨
      ∃ name, name ≠ AttributeName.sslKeySize ∧ s.cursor = .named name)

/-- The representation invariant. -/
structure Valid (s : State) : Prop where
  headersRead_le : s.headersRead ≤ s.headerCount.toNat
  headersRead_lt : s.phase = .headers → s.headersRead < s.headerCount.toNat
  /-- Behind the headers, all have been read. -/
  headersRead_eq : s.phase = .attributes ∨ s.phase = .done →
    s.headersRead = s.headerCount.toNat
  pendingHeader : s.pendingHeader ≠ none → s.phase = .headers
  cursor : s.cursor ≠ .idle → s.phase = .attributes
  /-- A word and a string are never in progress at once. -/
  exclusive : s.scratch.carry = none ∨ s.scratch.string = .start
  carry : s.scratch.carry ≠ none → s.AtWord
  string : s.scratch.string ≠ .start → s.AtString
  consistent : s.scratch.string.Consistent
  /-- What is read as the length of a header name is not the mark of a code. -/
  unmarked : ∀ len, s.phase = .headers → s.pendingHeader = none →
    s.scratch.string.announced? = some len → len / 256 ≠ 0xA0

variable {s : State}

namespace Placed

lemma headersRead_le (h : s.Placed) : s.headersRead ≤ s.headerCount.toNat := by
  rw [Placed] at h
  split at h <;> omega

lemma headersRead_eq (h : s.Placed) (hphase : s.phase = .attributes ∨ s.phase = .done) :
    s.headersRead = s.headerCount.toNat := by
  obtain hphase | hphase := hphase
  · exact ((placed_attributes_iff hphase).1 h).1
  · exact ((placed_done_iff hphase).1 h).1

lemma phase_eq_headers (h : s.Placed) (hpending : s.pendingHeader ≠ none) :
    s.phase = .headers := by
  rw [Placed] at h
  split at h
  next hheaders => exact hheaders
  next => exact absurd h.2 hpending
  next => exact absurd h.2.1 hpending
  next => exact absurd h.2.2.1 hpending

lemma phase_eq_attributes (h : s.Placed) (hcursor : s.cursor ≠ .idle) :
    s.phase = .attributes := by
  rw [Placed] at h
  split at h
  next => exact absurd h.2 hcursor
  next hattributes => exact hattributes
  next => exact absurd h.2.2 hcursor
  next => exact absurd h.2.2.2 hcursor

end Placed

lemma atWord_of_expected (h : s.expected = .word) : s.AtWord := by
  rw [expected] at h
  rw [AtWord]
  cases hphase : s.phase with
  | attributes =>
      rw [hphase] at h
      cases hcursor : s.cursor with
      | named name =>
          by_cases hname : name = AttributeName.sslKeySize
          · simp [hname]
          · simp [hcursor, hname] at h
      | _ => simp [hcursor] at h
  | _ => simp_all

lemma atString_of_expected {role : StringRole} (h : s.expected = .string role) : s.AtString := by
  rw [expected] at h
  rw [AtString]
  cases hphase : s.phase with
  | attributes =>
      rw [hphase] at h
      cases hcursor : s.cursor with
      | named name =>
          by_cases hname : name = AttributeName.sslKeySize
          · simp [hcursor, hname] at h
          · simp [hname]
      | _ => simp_all
  | _ => simp_all

namespace Coherent

lemma exclusive (h : s.Coherent) : s.scratch.carry = none ∨ s.scratch.string = .start := by
  have hfits := h.scratch
  cases he : s.expected with
  | byte => rw [he] at hfits; exact .inl (congrArg Scratch.carry hfits)
  | word => rw [he] at hfits; exact .inr hfits
  | string role => rw [he] at hfits; exact .inl hfits.1

lemma atWord (h : s.Coherent) (hcarry : s.scratch.carry ≠ none) : s.AtWord := by
  have hfits := h.scratch
  cases he : s.expected with
  | byte => rw [he] at hfits; exact absurd (congrArg Scratch.carry hfits) hcarry
  | word => exact atWord_of_expected he
  | string role => rw [he] at hfits; exact absurd hfits.1 hcarry

lemma atString (h : s.Coherent) (hstring : s.scratch.string ≠ .start) : s.AtString := by
  have hfits := h.scratch
  cases he : s.expected with
  | byte => rw [he] at hfits; exact absurd (congrArg Scratch.string hfits) hstring
  | word => rw [he] at hfits; exact absurd hfits hstring
  | string role => exact atString_of_expected he

lemma consistent (h : s.Coherent) : s.scratch.string.Consistent := by
  have hfits := h.scratch
  cases he : s.expected with
  | byte =>
      rw [he] at hfits
      rw [show s.scratch.string = .start from congrArg Scratch.string hfits]
      trivial
  | word =>
      rw [he] at hfits
      rw [show s.scratch.string = .start from hfits]
      trivial
  | string role => rw [he] at hfits; exact hfits.2.consistent

lemma fits_headerName (h : s.Coherent) (hphase : s.phase = .headers)
    (hpending : s.pendingHeader = none) : s.scratch.string.Fits .headerName := by
  have hfits := h.scratch
  rw [expected, hphase, hpending] at hfits
  exact hfits.2

end Coherent
end State

/-- The representation invariant holds after any sequence of pieces and resets, whatever came of
them. -/
theorem Reachable.valid {s : State} (hs : Reachable s) : s.Valid where
  headersRead_le := hs.coherent.placed.headersRead_le
  headersRead_lt hphase := ((State.placed_headers_iff hphase).1 hs.coherent.placed).1
  headersRead_eq := hs.coherent.placed.headersRead_eq
  pendingHeader := hs.coherent.placed.phase_eq_headers
  cursor := hs.coherent.placed.phase_eq_attributes
  exclusive := hs.coherent.exclusive
  carry := hs.coherent.atWord
  string := hs.coherent.atString
  consistent := hs.coherent.consistent
  unmarked _ hphase hpending := (hs.coherent.fits_headerName hphase hpending).unmarked

/-- The invariant where a buffer ends in the middle of a header name of three bytes. -/
theorem valid_within_header_name :
    let r := parse {} Sink.setterRecorder .start []
      ([0x12, 0x34, 0, 0, 2, 2] ++ List.flatten (List.replicate 5 [0xFF, 0xFF]) ++
        [0, 80, 0, 0, 1, 0, 3, 0x61, 0x25])
    r.state.scratch.string = .content 1 [0x25, 0x61] true ∧ r.state.Valid := by
  refine ⟨?_, (Reachable.parse _ _ .start _ _).valid⟩
  rw [parse_eq_scan State.start_coherent]
  decide +kernel

end Ajp13.Decoder
