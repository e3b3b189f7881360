import Ajp13.Proofs.Maps
import Ajp13.Proofs.RoundTrip.Drafts
import Mathlib.Logic.Function.Defs

/-!
Each text of a draft arrives as its own, and only that of ASCII as it is.

* `Draft.TextsArrive`: what a packet says in place of the texts of a draft;
* `Draft.lastNamed?`: the last attribute of a name; `Draft.get?_attributes`: it is the one that is
  kept;
* `texts_arrive`: the whole.
-/

namespace Ajp13

open Decoder

namespace DraftAttribute

variable {a b : DraftAttribute} {key value : String}

/-! ### Names -/

/-- Whether a sink is told of an attribute, its name says. -/
lemma isSome_field?_eq (h : a.name = b.name) : a.field?.isSome = b.field?.isSome := by
  rw [field?, field?, Option.isSome_map, Option.isSome_map, told?, told?, h,
    ToldAttribute.ofName?, ToldAttribute.ofName?]
  split_ifs <;> rfl

lemma stored?_eq_some_iff :
    a.stored? = some (key, value) ↔
      a.field? = none ∧ Text.arrival a.name = key ∧ a.arrival = value := by
  rw [stored?, field?, Option.map_eq_none_iff]
  cases a.told? <;> simp

/-- The names that arrive are told apart as the names that were given. -/
lemma name_eq_iff (ha : a.stored? = some (key, value)) :
    b.name = a.name ↔ ∃ value', b.stored? = some (key, value') := by
  obtain ⟨hfield, rfl, -⟩ := stored?_eq_some_iff.1 ha
  constructor
  · intro h
    have hb : b.field? = none := by
      rw [← Option.not_isSome_iff_eq_none, isSome_field?_eq h, hfield]
      exact Bool.false_ne_true
    exact ⟨b.arrival, stored?_eq_some_iff.2 ⟨hb, by rw [h], rfl⟩⟩
  · rintro ⟨value', hb⟩
    exact Text.arrival_inj (stored?_eq_some_iff.1 hb).2.1

/-- An attribute that is not kept under a name is passed over. -/
lemma lookup_stored?_cons_of_ne {l : List DraftAttribute}
    (h : ∀ value, b.stored? ≠ some (key, value)) :
    ((b :: l).filterMap stored?).lookup key = (l.filterMap stored?).lookup key := by
  cases hentry : b.stored? with
  | none => rw [List.filterMap_cons_none hentry]
  | some e =>
      have hkey : key ≠ e.1 := by
        rintro rfl
        exact h e.2 hentry
      rw [List.filterMap_cons_some hentry, ← Prod.mk.eta (p := e), List.lookup_cons,
        beq_eq_false_iff_ne.2 hkey]

/-- So an attribute is found under the name that arrives if it is found under its own. -/
lemma lookup_stored? {l : List DraftAttribute} :
    (l.filterMap stored?).lookup key = some value ↔
      ∃ a, l.find? (fun b => b.name = a.name) = some a ∧ a.stored? = some (key, value) := by
  induction l with
  | nil => simp
  | cons b l ih =>
      by_cases hb : ∃ value', b.stored? = some (key, value')
      · -- no other name arrives as `key`, so this is the attribute that is found on both sides
        obtain ⟨value', hb⟩ := hb
        rw [List.filterMap_cons_some hb, List.lookup_cons_self]
        constructor
        · rintro ⟨⟩
          exact ⟨b, by simp, hb⟩
        · rintro ⟨a, hfind, ha⟩
          have hname : b.name = a.name := (name_eq_iff ha).2 ⟨value', hb⟩
          rw [List.find?_cons_of_pos (by simpa using hname), Option.some_inj] at hfind
          rw [hfind, ha] at hb
          cases hb
          rfl
      · rw [lookup_stored?_cons_of_ne (not_exists.1 hb), ih]
        refine exists_congr fun a => and_congr_left fun ha => ?_
        have hname : b.name ≠ a.name := fun h => hb ((name_eq_iff ha).1 h)
        rw [List.find?_cons_of_neg (by simpa using hname)]

end DraftAttribute

namespace Draft

/-- The last attribute of a draft that has the given name. -/
def lastNamed? (d : Draft) (name : String) : Option DraftAttribute :=
  d.attributes.toList.reverse.find? fun a => a.name = name

lemma get?_attributes {d : Draft} {key value : String} :
    (d.attributes.toList.foldl DraftAttribute.keep .empty).get? key = some value ↔
      ∃ a, d.lastNamed? a.name = some a ∧ a.field? = none ∧ Text.arrival a.name = key ∧
        a.arrival = value := by
  have hempty : (NameMap.empty : NameMap String).get? key = none := rfl
  rw [DraftAttribute.foldl_keep, NameMap.get?_foldl_insert, hempty, Option.or_none,
    ← List.filterMap_reverse, DraftAttribute.lookup_stored?]
  simp only [DraftAttribute.stored?_eq_some_iff, lastNamed?]

/-- What a packet says in place of the texts of a draft. -/
structure TextsArrive (d : Draft) (b : ForwardBody) : Prop where
  protocol : b.protocol.text = Text.arrival d.protocol
  requestUri : b.requestUri.text = Text.arrival d.requestUri
  remoteAddress : b.remoteAddress.text = Text.arrival d.remoteAddress
  serverName : b.serverName.text = Text.arrival d.serverName
  /-- The attributes keep their order, and those that a sink is told of are those that were given
  the names for it. -/
  attributes : List.Forall₂ (fun a w => w.name = Text.arrival a.name ∧ w.field? = a.field? ∧
    (a.name ≠ AttributeName.sslKeySize → w.value = Text.arrival a.value))
    d.attributes.toList b.attributes

lemma SentAs.textsArrive {d : Draft} {b : ForwardBody} (h : d.SentAs b) : d.TextsArrive b where
  protocol := WireString.text_of_ofText h.protocol
  requestUri := WireString.text_of_ofText h.requestUri
  remoteAddress := WireString.text_of_ofText h.remoteAddress
  serverName := WireString.text_of_ofText h.serverName
  attributes := by
    refine h.attributes.imp fun a w hw => ?_
    obtain ⟨hname, hvalue⟩ := DraftAttribute.name_and_value_of_wire hw
    refine ⟨hname, DraftAttribute.field?_of_wire hw, fun hkey => ?_⟩
    rw [hvalue, DraftAttribute.arrival, if_neg hkey]

end Draft

/-- A name that is not in the table does not arrive as one that is. -/
lemma AttributeName.arrival_notMem {name : String} (h : name ∉ AttributeName.table.entries) :
    Text.arrival name ∉ AttributeName.table.entries := fun hmem =>
  h ((Text.arrival_eq_iff (AttributeName.arrival_of_mem hmem)).1 rfl ▸ hmem)

/-- Strings are read as a character per byte, whether or not they are taken for ASCII. So of each
text of a draft there arrives a character per byte of UTF-8, which is the text itself if it is of
ASCII and only then, and different texts arrive as different ones. No two names of attributes meet
in the map of those that are kept, where the last value of each name is found under what arrives of
the name; and no name outside the table arrives as one that is treated in its own way. -/
theorem texts_arrive {σ : Type} {d : Draft} {p : List UInt8} (h : d.encode = .ok p) (conf : Conf)
    (sink : Sink σ) (told : σ) (rest : List UInt8) :
    (∀ bytes, Latin1.read bytes = Latin1.decode bytes ∧
      (Latin1.allAscii bytes = true →
        String.fromUTF8? bytes.toByteArray = some (Latin1.decode bytes)) ∧
      (Latin1.read bytes).toList.map Char.toNat = bytes.map UInt8.toNat) ∧
    (∀ text, (Text.arrival text).length = text.utf8ByteSize ∧
      (Text.arrival text = text ↔ Text.IsAscii text)) ∧
    Function.Injective Text.arrival ∧
    (∀ name ∉ AttributeName.table.entries,
      Text.arrival name ∉ [AttributeName.queryString, AttributeName.remoteUser,
        AttributeName.authType, AttributeName.sslKeySize]) ∧
    ∃ (size : UInt16) (b : ForwardBody), p = (Packet.forward size b).bytes ∧
      parse conf sink .start told (p ++ rest) =
        ⟨.done, rest, b.state size, b.fields.foldl (sink.tell conf) told⟩ ∧
      d.TextsArrive b ∧
      ∀ key value, (b.state size).attributes.get? key = some value ↔
        ∃ a, d.lastNamed? a.name = some a ∧ a.field? = none ∧ Text.arrival a.name = key ∧
          a.arrival = value := by
  refine ⟨fun bytes => ⟨Latin1.read_eq_decode bytes, Latin1.fromUTF8?_of_allAscii, ?_⟩,
    fun text => ⟨Text.length_arrival text, Text.arrival_eq_self_iff⟩,
    fun s t => Text.arrival_inj, fun name hname hmem => ?_, ?_⟩
  · rw [Latin1.read_eq_decode, Latin1.map_toNat_decode]
  · have htable : ∀ name ∈ [AttributeName.queryString, AttributeName.remoteUser,
        AttributeName.authType, AttributeName.sslKeySize],
        name ∈ AttributeName.table.entries := by decide +kernel
    exact AttributeName.arrival_notMem hname (htable _ hmem)
  · obtain ⟨size, b, -, rfl, hsent⟩ := Draft.exists_body_of_encode h
    refine ⟨size, b, rfl, ?_, hsent.textsArrive, fun key value => ?_⟩
    · rw [parse, run_bytes, Packet.fields, Packet.state]
    · rw [hsent.state_eq, Draft.state, Draft.get?_attributes]

/-- A draft of two attributes, one of which is named as the name of the other arrives. -/
def Draft.lookalikes : Draft where
  method := .get
  requestUri := ""
  protocol := ""
  remoteAddress := ""
  serverName := ""
  attributes := #[⟨"é", "a"⟩, ⟨"Ã©", "b"⟩]

/-- The bytes of that draft. -/
def Draft.lookalikesBytes : List UInt8 :=
  [0x12, 0x34, 0, 44, 2, 2, 0, 0, 0, 0, 0, 0, 0, 0, 0, 0xFF, 0xFF, 0, 0, 0, 0, 80, 0, 0, 0,
    10, 0, 2, 0xC3, 0xA9, 0, 0, 1, 97, 0, 10, 0, 4, 0xC3, 0x83, 0xC2, 0xA9, 0, 0, 1, 98, 0, 0xFF]

/-- Both are kept. -/
theorem texts_arrive_lookalikes :
    Draft.lookalikes.encode = .ok Draft.lookalikesBytes ∧
    let kept := (parse {} Sink.setterRecorder .start [] Draft.lookalikesBytes).state.attributes
    kept.get? "Ã©" = some "a" ∧ kept.get? "Ã\u0083Â©" = some "b" := by
  have hencode : Draft.lookalikes.encode = .ok Draft.lookalikesBytes := by rfl
  obtain ⟨-, -, -, -, size, b, -, hparse, -, hkept⟩ :=
    texts_arrive hencode {} Sink.setterRecorder [] []
  rw [List.append_nil] at hparse
  refine ⟨hencode, ?_⟩
  rw [hparse]
  refine ⟨(hkept _ _).2 ⟨⟨"é", "a"⟩, ?_⟩, (hkept _ _).2 ⟨⟨"Ã©", "b"⟩, ?_⟩⟩ <;> decide +kernel

end Ajp13
