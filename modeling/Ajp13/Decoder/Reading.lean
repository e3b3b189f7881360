import Ajp13.Decoder.Fault
import Ajp13.Decoder.State

/-!
Reading the primitive fields of a packet from a buffer that may end anywhere.

* `Reading`: a field, if the buffer holds the rest of it, or else what is kept until more comes;
* `readWord`, `StringProgress.read`: words and strings, from where the last buffer ended;
* `State.readByte`, `State.readWord`, `State.readString`: the same, kept in a decoder's state.
-/

namespace Ajp13.Decoder

/-- What came of reading a field from a buffer. -/
structure Reading (ρ α : Type) where
  /-- The field. There is none yet if the buffer ended before it did. -/
  value : α
  /-- What is kept for the next field, or for the rest of this one. -/
  kept : ρ
  /-- The bytes behind those that were taken. -/
  rest : List UInt8

/-! ### Words -/

/-- Reads a word of which the high byte may have come before. -/
def readWord : Option UInt8 → List UInt8 → Reading (Option UInt8) (Option UInt16)
  | carry, [] => ⟨none, carry, []⟩
  | some high, low :: rest => ⟨some (Word.ofBytes high low), none, rest⟩
  | none, [high] => ⟨none, some high, []⟩
  | none, high :: low :: rest => ⟨some (Word.ofBytes high low), none, rest⟩

/-- A word takes at least one byte. -/
theorem length_rest_readWord_lt {carry : Option UInt8} {buffer : List UInt8} {w : UInt16}
    (h : (readWord carry buffer).value = some w) :
    (readWord carry buffer).rest.length < buffer.length := by
  match carry, buffer with
  | _, [] => simp [readWord] at h
  | some high, low :: rest => simp [readWord]
  | none, [high] => simp [readWord] at h
  | none, high :: low :: rest =>
      simp only [readWord, List.length_cons]
      omega

/-! ### Strings -/

/-- What came of reading a string; a header name may be the code of none. -/
abbrev StringReading : Type := Reading StringProgress (Except Fault (Option ReceivedString))

namespace StringProgress

/-- Reads a terminator, which may be any byte, behind the content held. -/
def readTerminator (held : List UInt8) (urlChars : Bool) : List UInt8 → StringReading
  | [] => ⟨.ok none, .terminator held urlChars, []⟩
  | _ :: rest => ⟨.ok (some (.literal held.reverse urlChars)), .start, rest⟩

/-- Reads the missing content, in one piece as far as the buffer has it, and the terminator. -/
def readContent (missing : Nat) (held : List UInt8) (urlChars : Bool) (buffer : List UInt8) :
    StringReading :=
  let taken := buffer.take missing
  let held := taken.reverse ++ held
  let urlChars := urlChars || taken.any isUrlByte
  if taken.length < missing then
    ⟨.ok none, .content (missing - taken.length) held urlChars, buffer.drop missing⟩
  else readTerminator held urlChars (buffer.drop missing)

/-- Reads a length, and goes on with the content unless the length stands for none. -/
def readLength (role : StringRole) (high : Option UInt8) (buffer : List UInt8) : StringReading :=
  let r := readWord high buffer
  match r.value with
  | none => ⟨.ok none, .length r.kept, r.rest⟩
  | some len =>
      if role = .headerName ∧ Word.high len = Marker.headerCode then
        match HeaderName.ofCode? (Word.low len) with
        | some name => ⟨.ok (some (.coded name)), .length r.kept, r.rest⟩
        | none => ⟨.error (.unknownHeaderCode (Word.low len)), .length r.kept, r.rest⟩
      else if len = Marker.nullLength then ⟨.ok (some .null), .length r.kept, r.rest⟩
      else readContent len.toNat [] false r.rest

/-- Reads a string, or the rest of it. -/
def read (role : StringRole) : StringProgress → List UInt8 → StringReading
  | length high, buffer => readLength role high buffer
  | content missing held urlChars, buffer => readContent missing held urlChars buffer
  | terminator held urlChars, buffer => readTerminator held urlChars buffer

theorem length_rest_readTerminator_lt {held : List UInt8} {urlChars : Bool}
    {buffer : List UInt8} {s : ReceivedString}
    (h : (readTerminator held urlChars buffer).value = .ok (some s)) :
    (readTerminator held urlChars buffer).rest.length < buffer.length := by
  cases buffer with
  | nil => simp [readTerminator] at h
  | cons b rest => simp [readTerminator]

theorem length_rest_readContent_lt {missing : Nat} {held : List UInt8} {urlChars : Bool}
    {buffer : List UInt8} {s : ReceivedString}
    (h : (readContent missing held urlChars buffer).value = .ok (some s)) :
    (readContent missing held urlChars buffer).rest.length < buffer.length := by
  simp only [readContent] at h ⊢
  split at h
  next => simp at h
  next hshort =>
    rw [if_neg hshort]
    have := length_rest_readTerminator_lt h
    rw [List.length_drop] at this
    omega

/-- A string takes at least one byte, even if only its terminator was missing. -/
theorem length_rest_read_lt {role : StringRole} {p : StringProgress} {buffer : List UInt8}
    {s : ReceivedString} (h : (p.read role buffer).value = .ok (some s)) :
    (p.read role buffer).rest.length < buffer.length := by
  cases p with
  | content missing held urlChars => exact length_rest_readContent_lt h
  | terminator held urlChars => exact length_rest_readTerminator_lt h
  | length high =>
      simp only [read, readLength] at h ⊢
      split at h
      next => simp at h
      next w hw =>
        have hrest := length_rest_readWord_lt hw
        split
        next hcode =>
          rw [if_pos hcode] at h
          split at h
          next name hname => simpa [hname] using hrest
          next => simp at h
        next hcode =>
          rw [if_neg hcode] at h
          split
          next => exact hrest
          next hnull =>
            rw [if_neg hnull] at h
            exact Nat.lt_trans (length_rest_readContent_lt h) hrest

end StringProgress

/-! ### Reading in a state -/

namespace State

/-- Reads a byte. -/
def readByte (s : State) (buffer : List UInt8) : Reading State (Except Fault (Option UInt8)) :=
  ⟨.ok buffer.head?, s, buffer.tail⟩

/-- Reads a word. -/
def readWord (s : State) (buffer : List UInt8) : Reading State (Except Fault (Option UInt16)) :=
  let r := Decoder.readWord s.scratch.carry buffer
  ⟨.ok r.value, s.withCarry r.kept, r.rest⟩

/-- Reads a string. -/
def readString (role : StringRole) (s : State) (buffer : List UInt8) :
    Reading State (Except Fault (Option ReceivedString)) :=
  let r := s.scratch.string.read role buffer
  ⟨r.value, s.withString r.kept, r.rest⟩

end State

end Ajp13.Decoder
