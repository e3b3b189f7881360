import Ajp13.Decoder.Phase
import Ajp13.Decoder.StringProgress
import Ajp13.NameMap
import Ajp13.PrefixCode

/-!
The state of a decoder between two bytes.

* `State`: the phase, what has come of the field in progress, and the fields that are kept here;
* `State.advance`: on to the next phase;
* `State.atFieldBoundary`: whether the last byte completed a field.
-/

namespace Ajp13.Decoder

/-- A header whose name has come and whose value has not. -/
inductive PendingHeader
  | named (name : HeaderName)
  /-- The name is not one, so the header is dropped once its value has come. -/
  | rejected
deriving DecidableEq

/-- How far the attribute in progress has come. -/
inductive AttributeCursor
  /-- There is none: the next byte is a tag. -/
  | idle
  /-- The tag says that the name is spelled out. -/
  | readingCustomName
  /-- The name has come. -/
  | named (name : String)
deriving DecidableEq, Repr

/-- What has come of the word or the string in progress. -/
structure Scratch where
  /-- The high byte of a word whose low byte has not come. -/
  carry : Option UInt8 := none
  string : StringProgress := .start
deriving DecidableEq, Repr

/-- The state of a decoder between two bytes. -/
structure State where
  phase : Phase := .magic
  /-- The announced size of the packet, which binds nothing. -/
  dataSize : Option UInt16 := none
  prefixCode : Option PrefixCode := none
  headerCount : UInt16 := 0
  headersRead : Nat := 0
  pendingHeader : Option PendingHeader := none
  cursor : AttributeCursor := .idle
  scratch : Scratch := {}
  /-- The attributes that no sink is told of. -/
  attributes : NameMap String := .empty
  remoteAddress : Option String := none
  serverAddress : Option String := none
  serverPort : Option UInt16 := none
deriving DecidableEq

namespace State

/-- The state before the first byte of a packet. -/
def start : State := {}

/-- The state before the first byte of the next packet. Nothing is kept of this one. -/
def reset (_ : State) : State := start

/-- Whether the packet is complete. -/
def isDone (s : State) : Bool := s.phase = .done

/-- Whether no word and no string is in progress. -/
def atFieldBoundary (s : State) : Bool := s.scratch = {}

/-- The value of an attribute that no sink was told of. -/
def attribute? (s : State) (name : String) : Option String := s.attributes.get? name

/-- On to the next phase. -/
def advance (s : State) : State := { s with phase := s.phase.next }

/-- The end of a packet that holds nothing after its kind. -/
def finish (s : State) : State := { s with phase := .done }

/-- The state with the given high byte of a word in progress. -/
def withCarry (s : State) (carry : Option UInt8) : State :=
  { s with scratch := { s.scratch with carry } }

/-- The state with the given string in progress. -/
def withString (s : State) (string : StringProgress) : State :=
  { s with scratch := { s.scratch with string } }

end State

end Ajp13.Decoder
