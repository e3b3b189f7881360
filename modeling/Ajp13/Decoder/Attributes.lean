import Ajp13.Decoder.Turn
import Ajp13.Text.Decimal

/-!
The attributes of a forward request.

* `endAttribute`: where a complete attribute goes;
* `attributeTurn`: a tag, a name that is spelled out, or a value;
* `readAttributes`: all attributes, up to the tag that ends them.
-/

namespace Ajp13.Decoder

/-- The field that an attribute is for, if a sink is told of it. -/
def attributeField? (name value : String) : Option Field :=
  if name = AttributeName.queryString then some (.queryString value)
  else if name = AttributeName.remoteUser then some (.attachment .externalPrincipal value)
  else if name = AttributeName.authType then
    some (.attachment .externalAuthenticationType value)
  else none

variable {σ : Type}

/-- The end of an attribute: it goes to the sink if that is told of it, and is kept if not. -/
def endAttribute (put : σ → Field → σ) (name value : String) (s : State) (acc : σ)
    (rest : List UInt8) : Turn σ :=
  match attributeField? name value with
  | some field => .go { s with cursor := .idle } (put acc field) rest
  | none => .go { s with cursor := .idle, attributes := s.attributes.insert name value } acc rest

theorem rest_eq_of_endAttribute_eq_go {put : σ → Field → σ} {name value : String} {s s' : State}
    {acc acc' : σ} {rest rest' : List UInt8}
    (h : endAttribute put name value s acc rest = .go s' acc' rest') : rest' = rest := by
  rw [endAttribute] at h
  split at h <;> exact (Turn.go.inj h).2.2.symm

/-- Reads a tag, a name or a value, whichever is next. The key size comes as a word and is kept as
its numeral. -/
def attributeTurn (put : σ → Field → σ) (s : State) (acc : σ) (buffer : List UInt8) : Turn σ :=
  match s.cursor with
  | .idle =>
      (s.readByte buffer).turn acc fun tag s rest =>
        if tag = Marker.attributesEnd then .stop ⟨.done, rest, s, acc⟩
        else if tag = Marker.customAttribute then
          .go { s with cursor := .readingCustomName } acc rest
        else
          match AttributeName.ofCode? tag with
          | some name => .go { s with cursor := .named name } acc rest
          | none => .stop ⟨.failed (.unknownAttribute tag), rest, s, acc⟩
  | .readingCustomName =>
      (s.readString .plain buffer).turn acc fun name s rest =>
        .go { s with cursor := .named name.text } acc rest
  | .named name =>
      if name = AttributeName.sslKeySize then
        (s.readWord buffer).turn acc fun size s rest =>
          endAttribute put name (Decimal.write size) s acc rest
      else
        (s.readString .plain buffer).turn acc fun value s rest =>
          endAttribute put name value.text s acc rest

/-- Each turn that goes on has taken at least one byte. -/
theorem length_lt_of_attributeTurn_eq_go {put : σ → Field → σ} {s s' : State} {acc acc' : σ}
    {buffer rest : List UInt8} (h : attributeTurn put s acc buffer = .go s' acc' rest) :
    rest.length < buffer.length := by
  rw [attributeTurn] at h
  split at h
  next =>
    obtain ⟨tag, htag, h⟩ := Reading.turn_eq_go h
    cases buffer with
    | nil => cases htag
    | cons b buffer =>
        suffices rest = buffer by rw [this]; simp
        split at h
        · cases h
        split at h
        · exact (Turn.go.inj h).2.2.symm
        split at h
        · exact (Turn.go.inj h).2.2.symm
        · cases h
  next =>
    obtain ⟨name, hname, h⟩ := Reading.turn_eq_go h
    rw [← (Turn.go.inj h).2.2]
    exact StringProgress.length_rest_read_lt hname
  next =>
    split at h
    · obtain ⟨size, hsize, h⟩ := Reading.turn_eq_go h
      rw [rest_eq_of_endAttribute_eq_go h]
      exact length_rest_readWord_lt (Except.ok.inj hsize)
    · obtain ⟨value, hvalue, h⟩ := Reading.turn_eq_go h
      rw [rest_eq_of_endAttribute_eq_go h]
      exact StringProgress.length_rest_read_lt hvalue

/-- Reads attributes up to the tag that ends them. -/
def readAttributes (put : σ → Field → σ) : State → σ → List UInt8 → Run σ :=
  loop (attributeTurn put) (fun _ buffer => buffer.length) length_lt_of_attributeTurn_eq_go

end Ajp13.Decoder
