import Ajp13.Proofs.Grammar.Reading

/-!
The attributes of a forward request, read in one go.

* `readAttributes_name`: a name, by its code or spelled out; `readAttributes_string`,
  `readAttributes_word`: a value of either kind; `readAttributes_cons`: both, as one attribute;
* `readAttributes_bytes`: attributes and the tag that ends them;
* `exists_attributes_of_done`: nothing else is read as attributes with their end.
-/

namespace Ajp13.Decoder

variable {σ : Type} {put : σ → Field → σ}

/-- The state is between two attributes. -/
structure State.BetweenAttributes (s : State) : Prop where
  cursor : s.cursor = .idle
  scratch : s.scratch = {}

lemma readAttributes_eq (s : State) (acc : σ) (buffer : List UInt8) :
    readAttributes put s acc buffer =
      (attributeTurn put s acc buffer).andThen (readAttributes put) :=
  loop_eq s acc buffer

variable {s : State}

/-! ### One attribute -/

/-- The tag that ends the attributes. -/
lemma readAttributes_end (hs : s.BetweenAttributes) (acc : σ) (rest : List UInt8) :
    readAttributes put s acc (Marker.attributesEnd :: rest) = ⟨.done, rest, s, acc⟩ := by
  rw [readAttributes_eq, attributeTurn, hs.cursor]
  rfl

/-- The code of a name. -/
lemma readAttributes_code (hs : s.BetweenAttributes) (acc : σ) {code : UInt8} {name : String}
    (hname : AttributeName.ofCode? code = some name) (rest : List UInt8) :
    readAttributes put s acc (code :: rest) =
      readAttributes put { s with cursor := .named name } acc rest := by
  have known : (AttributeName.ofCode? code).isSome = true := Option.isSome_iff_exists.2 ⟨_, hname⟩
  rw [readAttributes_eq, attributeTurn, hs.cursor]
  simp only [State.readByte, Reading.turn, List.head?_cons, List.tail_cons]
  rw [if_neg (ne_attributesEnd_of_isSome known), if_neg (ne_customAttribute_of_isSome known), hname]
  rfl

/-- The tag after which a name is spelled out. -/
lemma readAttributes_customTag (hs : s.BetweenAttributes) (acc : σ) (rest : List UInt8) :
    readAttributes put s acc (Marker.customAttribute :: rest) =
      readAttributes put { s with cursor := .readingCustomName } acc rest := by
  have hend : Marker.customAttribute ≠ Marker.attributesEnd := by decide
  rw [readAttributes_eq, attributeTurn, hs.cursor]
  simp only [State.readByte, Reading.turn, List.head?_cons, List.tail_cons]
  rw [if_neg hend, if_pos trivial]
  rfl

/-- A name that is spelled out. -/
lemma readAttributes_customName (hcursor : s.cursor = .readingCustomName) (hs : s.scratch = {})
    (acc : σ) (name : WireString) (rest : List UInt8) :
    readAttributes put s acc (name.bytes ++ rest) =
      readAttributes put { s with cursor := .named name.text } acc rest := by
  rw [readAttributes_eq, attributeTurn, hcursor]
  dsimp only
  rw [State.readString_bytes hs, ← name.text_received]
  rfl

/-- A name, after which its value is expected. -/
lemma readAttributes_name (hs : s.BetweenAttributes) (acc : σ) (n : WireAttributeName)
    (rest : List UInt8) :
    readAttributes put s acc (n.bytes ++ rest) =
      readAttributes put { s with cursor := .named n.text } acc rest := by
  cases n with
  | coded code known => exact readAttributes_code hs acc (Option.some_get known).symm rest
  | custom name =>
      exact (readAttributes_customTag hs acc _).trans
        (readAttributes_customName (s := { s with cursor := .readingCustomName }) rfl hs.scratch acc
          name rest)

/-- A value that is a string. -/
lemma readAttributes_string {name : String} (hcursor : s.cursor = .named name)
    (hs : s.scratch = {}) (named : name ≠ AttributeName.sslKeySize) (acc : σ) (value : WireString)
    (rest : List UInt8) :
    readAttributes put s acc (value.bytes ++ rest) =
      (endAttribute put name value.text s acc rest).andThen (readAttributes put) := by
  rw [readAttributes_eq, attributeTurn, hcursor]
  dsimp only
  rw [if_neg named, State.readString_bytes hs, ← value.text_received]
  rfl

/-- The value that is a word. -/
lemma readAttributes_word {name : String} (hcursor : s.cursor = .named name)
    (hs : s.scratch = {}) (named : name = AttributeName.sslKeySize) (acc : σ) (size : UInt16)
    (rest : List UInt8) :
    readAttributes put s acc (Word.bytes size ++ rest) =
      (endAttribute put name (Decimal.write size) s acc rest).andThen (readAttributes put) := by
  rw [readAttributes_eq, attributeTurn, hcursor]
  dsimp only
  rw [if_pos named, State.readWord_bytes hs]
  rfl

/-- The end of an attribute, whose value is whole. -/
lemma andThen_endAttribute (acc : σ) (a : WireAttribute) (rest : List UInt8)
    (next : State → σ → List UInt8 → Run σ) :
    (endAttribute put a.name a.value s acc rest).andThen next =
      next { s with cursor := .idle, attributes := a.keep s.attributes }
        (a.field?.elim acc (put acc)) rest := by
  rw [endAttribute, attributeField?_eq, WireAttribute.keep, WireAttribute.field?,
    WireAttribute.told?]
  cases ToldAttribute.ofName? a.name a.value <;> rfl

/-- A name and its value. -/
lemma readAttributes_cons (hs : s.BetweenAttributes) (acc : σ) (a : WireAttribute)
    (rest : List UInt8) :
    readAttributes put s acc (a.bytes ++ rest) =
      readAttributes put { s with attributes := a.keep s.attributes }
        (a.field?.elim acc (put acc)) rest := by
  have hcursor : ({ s with cursor := .idle, attributes := a.keep s.attributes } : State) =
      { s with attributes := a.keep s.attributes } := by rw [← hs.cursor]
  rw [← hcursor]
  cases a with
  | string name value named =>
      rw [WireAttribute.bytes, List.append_assoc, readAttributes_name hs,
        readAttributes_string (s := { s with cursor := .named name.text }) rfl hs.scratch named]
      exact andThen_endAttribute (s := { s with cursor := .named name.text }) acc
        (.string name value named) rest (readAttributes put)
  | keySize name size named =>
      rw [WireAttribute.bytes, List.append_assoc, readAttributes_name hs,
        readAttributes_word (s := { s with cursor := .named name.text }) rfl hs.scratch named]
      exact andThen_endAttribute (s := { s with cursor := .named name.text }) acc
        (.keySize name size named) rest (readAttributes put)

/-! ### All attributes -/

/-- Attributes up to the tag that ends them. -/
theorem readAttributes_bytes (hs : s.BetweenAttributes) (acc : σ) (attributes : List WireAttribute)
    (rest : List UInt8) :
    readAttributes put s acc
        (attributes.flatMap WireAttribute.bytes ++ Marker.attributesEnd :: rest) =
      ⟨.done, rest, { s with attributes := attributes.foldl WireAttribute.keep s.attributes },
        (attributes.filterMap WireAttribute.field?).foldl put acc⟩ := by
  induction attributes generalizing s acc with
  | nil => exact readAttributes_end hs acc rest
  | cons a attributes ih =>
      rw [List.flatMap_cons, List.append_assoc, readAttributes_cons hs,
        ih (s := { s with attributes := a.keep s.attributes }) ⟨hs.cursor, hs.scratch⟩]
      cases hfield : a.field? with
      | none => rw [List.filterMap_cons_none hfield]; rfl
      | some field => rw [List.filterMap_cons_some hfield]; rfl

/-- What the loop reads first is a name, or the tag that ends the attributes. -/
lemma exists_name_of_done (hs : s.BetweenAttributes) {acc : σ} {buffer : List UInt8}
    (h : (readAttributes put s acc buffer).outcome = .done) :
    (∃ rest, buffer = Marker.attributesEnd :: rest) ∨
      ∃ (n : WireAttributeName) (rest : List UInt8), buffer = n.bytes ++ rest := by
  rw [readAttributes_eq, attributeTurn, hs.cursor] at h
  dsimp only at h
  obtain ⟨tag, rest, rfl⟩ := exists_byte_of_done h
  simp only [State.readByte, Reading.turn, List.head?_cons, List.tail_cons] at h
  split at h
  next htag => exact .inl ⟨rest, by rw [htag]⟩
  refine .inr ?_
  split at h
  next htag =>
    rw [Turn.andThen, readAttributes_eq, attributeTurn] at h
    dsimp only at h
    obtain ⟨name, rest, rfl⟩ :=
      exists_string_of_done (s := { s with cursor := .readingCustomName }) hs.scratch h
    exact ⟨.custom name, rest, by rw [htag]; rfl⟩
  split at h
  next name hname => exact ⟨.coded tag (by rw [hname]; rfl), rest, rfl⟩
  next => cases h

/-- What the loop reads first is an attribute, or the tag that ends them. -/
lemma exists_attribute_of_done (hs : s.BetweenAttributes) {acc : σ} {buffer : List UInt8}
    (h : (readAttributes put s acc buffer).outcome = .done) :
    (∃ rest, buffer = Marker.attributesEnd :: rest) ∨
      ∃ (a : WireAttribute) (rest : List UInt8), buffer = a.bytes ++ rest := by
  obtain hend | ⟨n, rest, rfl⟩ := exists_name_of_done hs h
  · exact .inl hend
  refine .inr ?_
  rw [readAttributes_name hs, readAttributes_eq, attributeTurn] at h
  dsimp only at h
  split at h
  next named =>
    obtain ⟨size, rest, rfl⟩ :=
      exists_word_of_done (s := { s with cursor := .named n.text }) hs.scratch h
    exact ⟨.keySize n size named, rest, by rw [WireAttribute.bytes, List.append_assoc]⟩
  next named =>
    obtain ⟨value, rest, rfl⟩ :=
      exists_string_of_done (s := { s with cursor := .named n.text }) hs.scratch h
    exact ⟨.string n value named, rest, by rw [WireAttribute.bytes, List.append_assoc]⟩

/-- What the loop reads is attributes up to the tag that ends them. -/
theorem exists_attributes_of_done (hs : s.BetweenAttributes) {acc : σ} {buffer : List UInt8}
    (h : (readAttributes put s acc buffer).outcome = .done) :
    ∃ (attributes : List WireAttribute) (rest : List UInt8),
      buffer = attributes.flatMap WireAttribute.bytes ++ Marker.attributesEnd :: rest := by
  -- each attribute takes a byte at least, so the induction is over the length of the buffer
  induction hlength : buffer.length using Nat.strongRecOn generalizing s acc buffer with
  | _ n ih =>
      obtain ⟨rest, rfl⟩ | ⟨a, rest, rfl⟩ := exists_attribute_of_done hs h
      · exact ⟨[], rest, rfl⟩
      rw [readAttributes_cons hs] at h
      have hshorter : rest.length < n := by
        have := a.length_bytes_pos
        rw [List.length_append] at hlength
        omega
      obtain ⟨attributes, rest, rfl⟩ := ih rest.length hshorter
        (s := { s with attributes := a.keep s.attributes }) ⟨hs.cursor, hs.scratch⟩ h rfl
      exact ⟨a :: attributes, rest, by rw [List.flatMap_cons, List.append_assoc]⟩

end Ajp13.Decoder
