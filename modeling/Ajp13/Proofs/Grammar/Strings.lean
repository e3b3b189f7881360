import Ajp13.Proofs.Grammar.Codes
import Ajp13.Proofs.Grammar.Reading

/-!
Strings that come in pieces.

* `Says`: the strings on the wire, whole, and what each of them says;
* `says_bytes`, `says_headerName_bytes`: among them are the strings and the header names of packets;
* `Says.read_append`: at the front of a buffer, a whole string is read as what it says;
* `exists_says_or_open`: where there is none, all is taken and more is waited for;
* `StringProgress.Grows`: bytes within a string; `Grows.feed_append`: another piece behind them goes
  on with it;
* `StringProgress.read_in_pieces`: any number of calls on the pieces of a stream come to what the
  stream says.
-/

namespace Ajp13.Decoder

/-- The strings that may be sent where one of the given role is read, and what they say. -/
inductive Says (role : StringRole) : List UInt8 → Except Fault ReceivedString → Prop
  /-- No string. -/
  | null : Says role [0xFF, 0xFF] (.ok .null)
  /-- The code of a header name. -/
  | coded {code : UInt8} {name : HeaderName} (hrole : role = .headerName)
      (hname : HeaderName.ofCode? code = some name) : Says role [0xA0, code] (.ok (.coded name))
  /-- The code of none. -/
  | uncoded {code : UInt8} (hrole : role = .headerName) (hcode : code.toNat < 1 ∨ 14 < code.toNat) :
      Says role [0xA0, code] (.error (.unknownHeaderCode code))
  /-- Content between its length and a terminator, which may be any byte. For header names, the
  lengths that read as the mark of a code are left out. -/
  | literal (content : List UInt8) (terminator : UInt8) {urlChars : Bool}
      (hfits : content.length ≤ 0xFFFE)
      (hmark : role = .plain ∨ content.length < 0xA000 ∨ 0xA100 ≤ content.length)
      (hurl : urlChars = true ↔ 0x25 ∈ content ∨ 0x2B ∈ content) :
      Says role (Word.bytes (UInt16.ofNat content.length) ++ content ++ [terminator])
        (.ok (.literal content urlChars))

variable {role : StringRole}

/-! ### Whole strings -/

/-- The bytes of a string say the string, unless its length is the mark of a code. -/
lemma says_bytes {w : WireString} (h : role = .headerName → w.content.length / 256 ≠ 0xA0) :
    Says role w.bytes (.ok w.received) := by
  cases w with
  | null => exact .null
  | literal content terminator fits =>
      refine .literal content terminator (Nat.le_of_lt_succ fits) ?_ (any_isUrlByte_iff content)
      cases role with
      | plain => exact .inl rfl
      | headerName =>
          have : content.length / 256 ≠ 0xA0 := h rfl
          right
          omega

/-- The bytes of a header name say the name. -/
lemma says_headerName_bytes (n : WireHeaderName) : Says .headerName n.bytes (.ok n.received) := by
  cases n with
  | coded code known => exact .coded rfl (Option.some_get known).symm
  | spelled name unmarked => exact says_bytes fun _ => unmarked

/-- A whole string is read as what it says, and nothing behind it is taken. -/
theorem Says.read_append {w : List UInt8} {said : Except Fault ReceivedString}
    (h : Says role w said) (rest : List UInt8) :
    StringProgress.start.read role (w ++ rest) = ⟨said.map some, .start, rest⟩ := by
  cases h with
  | null => exact StringProgress.readLength_bytes (w := .null) (fun _ => by decide) rest
  | coded hrole hname =>
      subst hrole
      have known := Option.isSome_iff_exists.2 ⟨_, hname⟩
      have hread := StringProgress.read_headerName_bytes (.coded _ known) rest
      simp only [WireHeaderName.received, hname, Option.get_some] at hread
      exact hread
  | @uncoded code hrole hcode =>
      have hnone : HeaderName.ofCode? code = none := by
        rw [← Option.not_isSome_iff_eq_none, HeaderName.isSome_ofCode?_iff]
        omega
      simp only [StringProgress.start, StringProgress.read, StringProgress.readLength,
        List.cons_append, List.nil_append, readWord, Word.high_ofBytes, Word.low_ofBytes]
      rw [if_pos ⟨hrole, rfl⟩, hnone]
      rfl
  | @literal content terminator urlChars hfits hmark hurl =>
      have hurl' : urlChars = content.any isUrlByte := by
        rw [Bool.eq_iff_iff, hurl, any_isUrlByte_iff]
      have hunmarked : role = .headerName → content.length / 256 ≠ 0xA0 := by
        rintro rfl
        obtain hplain | hmark := hmark
        · cases hplain
        · omega
      let w : WireString := .literal content terminator (Nat.lt_succ_of_le hfits)
      have hread : StringProgress.readLength role none (w.bytes ++ rest) =
          ⟨.ok (some w.received), .start, rest⟩ := StringProgress.readLength_bytes hunmarked rest
      rw [hurl']
      exact hread

namespace StringProgress

/-- Only a code can be at fault. -/
lemma exists_of_readLength_error {buffer : List UInt8} {fault : Fault}
    (h : (readLength role none buffer).value = .error fault) :
    role = .headerName ∧ ∃ code rest, HeaderName.ofCode? code = none ∧
      buffer = [Marker.headerCode, code] ++ rest := by
  rcases buffer with _ | ⟨high, _ | ⟨low, rest⟩⟩
  · cases h
  · cases h
  · simp only [readLength, readWord, Word.high_ofBytes, Word.low_ofBytes] at h
    split at h
    next hcode =>
      split at h
      next => cases h
      next hnone => exact ⟨hcode.1, low, rest, hnone, by rw [← hcode.2]; rfl⟩
    next hcode =>
      split at h
      · cases h
      · exact absurd h (value_read_plain_ne_error (.content _ [] false) rest fault)

end StringProgress

/-- Any bytes begin with a whole string, or what there is of one is to go on. -/
theorem exists_says_or_open (role : StringRole) (buffer : List UInt8) :
    (∃ w said rest, Says role w said ∧ buffer = w ++ rest) ∨
      (StringProgress.start.read role buffer).value = .ok none := by
  have hread : StringProgress.start.read role buffer =
      StringProgress.readLength role none buffer := rfl
  cases hvalue : (StringProgress.start.read role buffer).value with
  | error fault =>
      rw [hread] at hvalue
      obtain ⟨hrole, code, rest, hnone, hbuffer⟩ :=
        StringProgress.exists_of_readLength_error hvalue
      rw [← Option.not_isSome_iff_eq_none, HeaderName.isSome_ofCode?_iff] at hnone
      have hcode : code.toNat < 1 ∨ 14 < code.toNat := by omega
      exact .inl ⟨_, _, rest, .uncoded hrole hcode, hbuffer⟩
  | ok string =>
      cases string with
      | none => exact .inr rfl
      | some string =>
          refine .inl ?_
          rw [hread] at hvalue
          obtain ⟨hrole, code, rest, hknown, hbuffer⟩ | ⟨w, rest, hunmarked, hbuffer⟩ :=
            StringProgress.exists_of_readLength hvalue
          · obtain ⟨name, hname⟩ := Option.isSome_iff_exists.1 hknown
            exact ⟨_, _, rest, .coded hrole hname, hbuffer⟩
          · exact ⟨_, _, rest, says_bytes hunmarked, hbuffer⟩

/-- Where no whole string has come, none is read. -/
lemma open_of_not_prefix {buffer : List UInt8}
    (hnone : ∀ w said, Says role w said → ¬w <+: buffer) :
    (StringProgress.start.read role buffer).value = .ok none := by
  refine (exists_says_or_open role buffer).resolve_left ?_
  rintro ⟨w, said, rest, hsaid, rfl⟩
  exact hnone w said hsaid (List.prefix_append w rest)

/-- The beginning of a whole string holds no whole string. -/
lemma Says.open_of_prefix {w part : List UInt8} {said : Except Fault ReceivedString}
    (h : Says role w said) (hpart : part <+: w) (hne : part ≠ w) :
    (StringProgress.start.read role part).value = .ok none := by
  refine open_of_not_prefix ?_
  rintro w' said' h' ⟨rest, rfl⟩
  obtain ⟨rest', rfl⟩ := hpart
  have hwhole := h.read_append []
  rw [List.append_nil, List.append_assoc, h'.read_append] at hwhole
  obtain ⟨rfl, rfl⟩ := List.append_eq_nil_iff.1 (congrArg Reading.rest hwhole)
  exact hne (List.append_nil _).symm

/-! ### Pieces -/

namespace StringProgress

/-- Bytes within a string, and what they make of its progress. -/
inductive Grows (role : StringRole) : StringProgress → List UInt8 → StringProgress → Prop
  | nil (p : StringProgress) : Grows role p [] p
  | cons {p q r : StringProgress} {b : UInt8} {bytes : List UInt8}
      (step : p.step role b = .more q) (more : Grows role q bytes r) : Grows role p (b :: bytes) r

/-- Where a string is not complete, all bytes are within it. -/
lemma exists_grows {p : StringProgress} {bytes : List UInt8}
    (h : (p.feed role bytes).value = .ok none) : ∃ q, Grows role p bytes q := by
  induction bytes generalizing p with
  | nil => exact ⟨p, .nil p⟩
  | cons b bytes ih =>
      rw [feed] at h
      cases hstep : p.step role b with
      | more q =>
          rw [hstep] at h
          obtain ⟨r, hmore⟩ := ih h
          exact ⟨r, .cons hstep hmore⟩
      | whole string => rw [hstep] at h; cases h
      | unknownCode code => rw [hstep] at h; cases h

namespace Grows

variable {p q r : StringProgress} {a b : List UInt8}

/-- Another piece goes on with the string. -/
lemma feed_append (h : Grows role p a q) (b : List UInt8) :
    p.feed role (a ++ b) = q.feed role b := by
  induction h with
  | nil => rfl
  | cons step more ih =>
      rw [List.cons_append, feed, step]
      exact ih

/-- All bytes are taken. -/
lemma feed_eq (h : Grows role p a q) : p.feed role a = ⟨.ok none, q, []⟩ := by
  rw [← List.append_nil a, h.feed_append]
  rfl

/-- Bytes within a string can be cut anywhere. -/
lemma of_append (h : Grows role p (a ++ b) r) : ∃ q, Grows role p a q ∧ Grows role q b r := by
  induction a generalizing p with
  | nil => exact ⟨p, .nil p, h⟩
  | cons x a ih =>
      cases h with
      | cons step more =>
          obtain ⟨q, ha, hb⟩ := ih more
          exact ⟨q, .cons step ha, hb⟩

/-- The bytes that are held stay in agreement with what is known. -/
lemma fits (h : Grows role p a q) (hp : p.Fits role) : q.Fits role := by
  induction h with
  | nil => exact hp
  | cons step more ih => exact ih (hp.step step)

end Grows

/-- The beginning of a whole string is within that string. -/
lemma exists_grows_of_prefix {w part : List UInt8} {said : Except Fault ReceivedString}
    (h : Says role w said) (hpart : part <+: w) (hne : part ≠ w) :
    ∃ q, Grows role .start part q := by
  have hfits : start.Fits role := trivial
  refine exists_grows ?_
  rw [← read_eq_feed role hfits.open]
  exact h.open_of_prefix hpart hne

/-- What is kept of a string after calls on some pieces. -/
def readEach (role : StringRole) (p : StringProgress) (pieces : List (List UInt8)) :
    StringProgress :=
  pieces.foldl (fun p piece => (p.read role piece).kept) p

/-- Pieces that do not complete a string leave what their bytes do one by one. -/
lemma readEach_eq {p q : StringProgress} {pieces : List (List UInt8)} (hp : p.Fits role)
    (h : Grows role p pieces.flatten q) : readEach role p pieces = q := by
  induction pieces generalizing p with
  | nil =>
      cases h
      rfl
  | cons piece pieces ih =>
      obtain ⟨p', hpiece, hrest⟩ := Grows.of_append h
      have hread : (p.read role piece).kept = p' := by
        rw [read_eq_feed role hp.open, hpiece.feed_eq]
      rw [readEach, List.foldl_cons, hread]
      exact ih (hpiece.fits hp) hrest

/-- Any number of calls on the pieces of a stream, which may be empty, read the string with which
the stream begins. As long as that is not whole, a call takes all that it is given, and there is no
string yet. The call with the last byte of the string takes it to its end and nothing behind that;
it says what the string says, or that the code is that of no header, and keeps nothing. -/
theorem read_in_pieces (role : StringRole) (pieces : List (List UInt8)) (piece : List UInt8)
    (hopen : ∀ w said, Says role w said → ¬w <+: pieces.flatten) :
    let r := (readEach role .start pieces).read role piece
    ((∀ w said, Says role w said → ¬w <+: pieces.flatten ++ piece) →
      r.value = .ok none ∧ r.rest = []) ∧
    (∀ w said rest, Says role w said → pieces.flatten ++ piece = w ++ rest →
      r = ⟨said.map some, .start, rest⟩) ∧
    (r.value ≠ .ok none → r.kept = .start) := by
  intro r
  have hstart : start.Fits role := trivial
  have hfeed : ∀ buffer, start.read role buffer = start.feed role buffer :=
    read_eq_feed role hstart.open
  -- nothing that has come is a whole string, so the last call goes on with all of it
  have hpieces : (start.feed role pieces.flatten).value = .ok none := by
    rw [← hfeed]
    exact open_of_not_prefix hopen
  obtain ⟨q, hgrows⟩ := exists_grows hpieces
  have hr : r = start.read role (pieces.flatten ++ piece) := by
    rw [hfeed, hgrows.feed_append, ← read_eq_feed role (hgrows.fits hstart).open,
      ← readEach_eq hstart hgrows]
  have hwhole : ∀ w said rest, Says role w said → pieces.flatten ++ piece = w ++ rest →
      r = ⟨said.map some, .start, rest⟩ := by
    intro w said rest hsaid hw
    rw [hr, hw, hsaid.read_append]
  refine ⟨fun hnone => ?_, hwhole, fun hvalue => ?_⟩
  · have hvalue := open_of_not_prefix hnone
    rw [hfeed] at hvalue
    obtain ⟨q', hgrows'⟩ := exists_grows hvalue
    rw [hr, hfeed, hgrows'.feed_eq]
    exact ⟨rfl, rfl⟩
  · rw [hr] at hvalue
    obtain ⟨w, said, rest, hsaid, hw⟩ := (exists_says_or_open role _).resolve_right hvalue
    rw [hwhole w said rest hsaid hw]

/-- A header name of three bytes in four calls, one of them on nothing, cut within its length and
its content; the byte behind its terminator is left. -/
theorem read_headerName_in_pieces :
    (∀ w said, Says .headerName w said → ¬w <+: [[0], [], [3, 0x61]].flatten) ∧
      (readEach .headerName .start [[0], [], [3, 0x61]]).read .headerName [0x25, 0x62, 7, 0xFF] =
        ⟨.ok (some (.literal [0x61, 0x25, 0x62] true)), .start, [0xFF]⟩ := by
  have hopen : ∀ w said, Says .headerName w said → ¬w <+: [[0], [], [3, 0x61]].flatten := by
    rintro w said hsaid ⟨rest, hw⟩
    have hread := congrArg Reading.value (hsaid.read_append rest)
    rw [hw] at hread
    cases said <;> cases hread
  refine ⟨hopen, ?_⟩
  have hsaid : Says .headerName [0, 3, 0x61, 0x25, 0x62, 7]
      (.ok (.literal [0x61, 0x25, 0x62] true)) :=
    .literal [0x61, 0x25, 0x62] 7 (by decide) (by decide) (by decide)
  exact (read_in_pieces .headerName [[0], [], [3, 0x61]] [0x25, 0x62, 7, 0xFF] hopen).2.1 _ _ [0xFF]
    hsaid rfl

end StringProgress

end Ajp13.Decoder
