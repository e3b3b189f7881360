import Ajp13.Decoder.Run

/-!
The decoder as an automaton that takes its bytes one at a time. Nothing in it knows of buffers, so
that a statement about all streams and all ways to cut them can be proved byte by byte.

* `StringProgress.step`: one more byte of a string;
* `Step`: what one byte does to a decoder;
* `State.step`: the step of a byte, which depends neither on a sink nor on a configuration.

A field with a fault leaves no trace: the phase is the one in which the field began, and nothing
of the field is kept.
-/

namespace Ajp13.Decoder

/-! ### Strings -/

/-- What one byte does to a string in progress. -/
inductive StringStep
  /-- The string is not complete yet. -/
  | more (progress : StringProgress)
  /-- The byte was the last of the string. -/
  | whole (string : ReceivedString)
  /-- The byte is the code of no header. -/
  | unknownCode (code : UInt8)

namespace StringProgress

/-- The progress when `missing` more bytes of content, which may be none, are to come. -/
def awaiting (missing : Nat) (held : List UInt8) (urlChars : Bool) : StringProgress :=
  if missing = 0 then terminator held urlChars else content missing held urlChars

/-- The effect of a complete length. -/
def afterLength (role : StringRole) (len : UInt16) : StringStep :=
  if role = .headerName ∧ Word.high len = Marker.headerCode then
    match HeaderName.ofCode? (Word.low len) with
    | some name => .whole (.coded name)
    | none => .unknownCode (Word.low len)
  else if len = Marker.nullLength then .whole .null
  else .more (awaiting len.toNat [] false)

/-- The effect of one more byte. -/
def step (role : StringRole) : StringProgress → UInt8 → StringStep
  | length none, b => .more (length (some b))
  | length (some high), b => afterLength role (Word.ofBytes high b)
  | content missing held urlChars, b =>
      .more (awaiting (missing - 1) (b :: held) (urlChars || isUrlByte b))
  | terminator held urlChars, _ => .whole (.literal held.reverse urlChars)

end StringProgress

/-! ### States -/

/-- What one byte does to a decoder. -/
inductive Step
  /-- The byte was taken, and completed at most one field that a sink is told of. -/
  | move (state : State) (field : Option Field)
  /-- The byte completed a field whose value has no meaning. -/
  | refuse (state : State) (fault : Fault)

namespace State

/-- On from the headers once all that were announced have come; at once if there are none. -/
def settle (s : State) : State :=
  if s.phase = .headers ∧ s.headerCount.toNat ≤ s.headersRead then s.advance else s

/-- A byte of a word; `next` says what a complete word does. -/
def stepWord (s : State) (b : UInt8) (next : State → UInt16 → Step) : Step :=
  match s.scratch.carry with
  | none => .move (s.withCarry (some b)) none
  | some high => next (s.withCarry none) (Word.ofBytes high b)

/-- A byte of a string; `next` says what a complete string does. -/
def stepString (role : StringRole) (s : State) (b : UInt8)
    (next : State → ReceivedString → Step) : Step :=
  match s.scratch.string.step role b with
  | .more progress => .move (s.withString progress) none
  | .whole string => next (s.withString .start) string
  | .unknownCode code => .refuse (s.withString .start) (.unknownHeaderCode code)

/-- A byte of a header. -/
def stepHeader (s : State) (b : UInt8) : Step :=
  match s.pendingHeader with
  | none =>
      s.stepString .headerName b fun s name =>
        .move { s with pendingHeader := some (pending name) } none
  | some header =>
      s.stepString .plain b fun s value =>
        .move { s with pendingHeader := none, headersRead := s.headersRead + 1 }.settle
          (headerField? header value)

/-- The end of an attribute. -/
def stepAttributeEnd (s : State) (name value : String) : Step :=
  match attributeField? name value with
  | some field => .move { s with cursor := .idle } (some field)
  | none =>
      .move { s with cursor := .idle, attributes := s.attributes.insert name value } none

/-- A tag. -/
def stepTag (s : State) (tag : UInt8) : Step :=
  if tag = Marker.attributesEnd then .move s.advance none
  else if tag = Marker.customAttribute then .move { s with cursor := .readingCustomName } none
  else
    match AttributeName.ofCode? tag with
    | some name => .move { s with cursor := .named name } none
    | none => .refuse s (.unknownAttribute tag)

/-- A byte of an attribute. -/
def stepAttribute (s : State) (b : UInt8) : Step :=
  match s.cursor with
  | .idle => s.stepTag b
  | .readingCustomName =>
      s.stepString .plain b fun s name => .move { s with cursor := .named name.text } none
  | .named name =>
      if name = AttributeName.sslKeySize then
        s.stepWord b fun s size => s.stepAttributeEnd name (Decimal.write size)
      else
        s.stepString .plain b fun s value => s.stepAttributeEnd name value.text

/-- The effect of one byte. A byte after the end of a packet has none. -/
def step (s : State) (b : UInt8) : Step :=
  match s.phase with
  | .magic =>
      s.stepWord b fun s found =>
        if found = Marker.magic then .move s.advance none else .refuse s (.badMagic found)
  | .dataSize =>
      s.stepWord b fun s size => .move { s with dataSize := some size }.advance none
  | .prefixCode =>
      let code := PrefixCode.ofByte b
      let s := { s with prefixCode := some code }
      .move (if code = .forwardRequest then s.advance else s.finish) none
  | .method =>
      match Method.ofCode? b with
      | some method => .move s.advance (some (.method method))
      | none => .refuse s (.unknownMethod b)
  | .protocol =>
      s.stepString .plain b fun s text => .move s.advance (some (.protocol text.text))
  | .requestUri =>
      s.stepString .plain b fun s uri =>
        .move s.advance (some (.requestUri uri.text uri.urlChars))
  | .remoteAddress =>
      s.stepString .plain b fun s address =>
        .move { s with remoteAddress := some address.text }.advance none
  | .remoteHost => s.stepString .plain b fun s _ => .move s.advance none
  | .serverName =>
      s.stepString .plain b fun s name =>
        .move { s with serverAddress := some name.text }.advance none
  | .serverPort =>
      s.stepWord b fun s port => .move { s with serverPort := some port }.advance none
  | .ssl => .move s.advance (some (.scheme (if b = 0 then .http else .https)))
  | .headerCount =>
      s.stepWord b fun s count => .move { s with headerCount := count }.advance.settle none
  | .headers => s.stepHeader b
  | .attributes => s.stepAttribute b
  | .done => .move s none

end State

end Ajp13.Decoder
