import Ajp13.Proofs.Grammar.Variation

/-!
The spellings of a packet.

* `Spells`: bytes that spell a name, in any mix of letter cases;
* `WireString.Respelled`, `WireHeaderName.Respelled`, `WireAttributeName.Respelled`: an empty string
  for the null string, and a name spelled out for its code;
* `Variation.respelled`: packets of which any number of such parts are respelled;
* `parse_respelled`: a decoder makes the same of them.
-/

namespace Ajp13

open Decoder

/-! ### Names in any mix of letter cases -/

/-- The bytes spell the name. Each of them is a letter of the name, or that letter as a capital. -/
def Spells (bytes : List UInt8) (name : String) : Prop :=
  List.Forall₂ (fun b c => Latin1.char b = c ∨ Latin1.char b = c.toUpper) bytes name.toList

/-- A letter is what its capital is the capital of. -/
lemma toLower_toUpper_of_ascii {c : Char} (hascii : c.toNat < 128) (hc : c.isUpper = false) :
    c.toUpper.toLower = c := by
  have hall : ∀ n < 128, (Char.ofNat n).isUpper = false →
      (Char.ofNat n).toUpper.toLower = Char.ofNat n := by decide +kernel
  have hn := hall c.toNat hascii
  rw [Char.ofNat_toNat] at hn
  exact hn hc

namespace HeaderName

/-- A header name has no capitals, and nothing but ASCII. -/
lemma toNat_lt_and_isUpper_eq_false (n : HeaderName) {c : Char} (hc : c ∈ n.text.toList) :
    c.toNat < 128 ∧ c.isUpper = false :=
  ⟨toNat_lt_of_isTokenChar (n.isTokenChar_of_mem hc), n.isToken_text_and_isUpper.2 c hc⟩

/-- In lower case, the bytes that spell a header name are that name. -/
lemma fold_of_spells {bytes : List UInt8} {n : HeaderName} (h : Spells bytes n.text) :
    fold (Latin1.decode bytes) = n.text := by
  -- Said of the letters alone, so that the induction is on how they are spelled.
  have hletters : ∀ {bytes : List UInt8} {letters : List Char},
      List.Forall₂ (fun b c => Latin1.char b = c ∨ Latin1.char b = c.toUpper) bytes letters →
      (∀ c ∈ letters, c.toNat < 128 ∧ c.isUpper = false) →
      (bytes.map Latin1.char).map Char.toLower = letters := by
    intro bytes letters hspells hlower
    induction hspells with
    | nil => rfl
    | @cons b c bytes letters hb _ ih =>
        obtain ⟨⟨hascii, hc⟩, hletters⟩ := List.forall_mem_cons.1 hlower
        have hletter : (Latin1.char b).toLower = c := by
          obtain hb | hb := hb
          · rw [hb, toLower_of_not_isUpper hc]
          · rw [hb, toLower_toUpper_of_ascii hascii hc]
        rw [List.map_cons, List.map_cons, hletter, ih hletters]
  rw [fold, Latin1.toList_decode, hletters h fun _ => n.toNat_lt_and_isUpper_eq_false,
    String.ofList_toList]

/-- Bytes that spell a header name are read as that name. -/
lemma ofBytes?_of_spells {bytes : List UInt8} {n : HeaderName} (h : Spells bytes n.text) :
    ofBytes? bytes = some n := by
  rw [ofBytes?, ofText?]
  simp only [fold_of_spells h]
  rw [dif_pos n.isHeaderName_text]

end HeaderName

/-! ### Other spellings of the parts -/

/-- The same string, or an empty one for the null string. -/
inductive WireString.Respelled : WireString → WireString → Prop
  | same (s : WireString) : Respelled s s
  | empty (terminator : UInt8) : Respelled .null (.literal [] terminator (by decide))

/-- The letters of a header name for its code, or an empty string for a name that is the null
string. -/
inductive WireHeaderName.Respelled : WireHeaderName → WireHeaderName → Prop
  | lift {n n' : WireHeaderName} (h : n.Lift WireString.Respelled n') : Respelled n n'
  | spelledOut {code : UInt8} {name : HeaderName} (hcode : HeaderName.ofCode? code = some name)
      (known : (HeaderName.ofCode? code).isSome = true) {content : List UInt8}
      (hspells : Spells content name.text) (terminator : UInt8) (fits : content.length < 0xFFFF)
      (unmarked : content.length / 256 ≠ 0xA0) :
      Respelled (.coded code known) (.spelled (.literal content terminator fits) unmarked)

/-- The letters of an attribute name for its code, or an empty string for a name that is the null
string. -/
inductive WireAttributeName.Respelled : WireAttributeName → WireAttributeName → Prop
  | lift {n n' : WireAttributeName} (h : n.Lift WireString.Respelled n') : Respelled n n'
  | spelledOut {code : UInt8} {name : String} (hcode : AttributeName.ofCode? code = some name)
      (known : (AttributeName.ofCode? code).isSome = true) (terminator : UInt8)
      (fits : (Utf8.encode name).length < 0xFFFF) :
      Respelled (.coded code known) (.custom (.literal (Utf8.encode name) terminator fits))

lemma WireString.Respelled.content_eq {s s' : WireString} (h : s.Respelled s') :
    s'.content = s.content := by
  cases h <;> rfl

lemma WireHeaderName.Respelled.name?_eq {n n' : WireHeaderName} (h : n.Respelled n') :
    n'.name? = n.name? := by
  cases h with
  | lift h => exact h.name?_eq WireString.Respelled.content_eq
  | spelledOut hcode known hspells terminator fits unmarked =>
      exact (HeaderName.ofBytes?_of_spells hspells).trans hcode.symm

lemma WireAttributeName.Respelled.text_eq {n n' : WireAttributeName} (h : n.Respelled n') :
    n'.text = n.text := by
  cases h with
  | lift h => exact h.text_eq WireString.Respelled.content_eq
  | @spelledOut code name hcode known terminator fits =>
      have hname : (AttributeName.ofCode? code).get known = name := by
        simp only [hcode, Option.get_some]
      calc
        (WireAttributeName.custom (.literal (Utf8.encode name) terminator fits)).text
        _ = Text.arrival name := rfl
        _ = name := AttributeName.arrival_of_mem (AttributeName.mem_of_ofCode? hcode)
        _ = (WireAttributeName.coded code known).text := hname.symm

/-! ### Packets -/

/-- Any string and any name in another spelling, and all else the same. -/
def Variation.respelled : Variation where
  size n n' := n' = n
  string := WireString.Respelled
  remoteHost := WireString.Respelled
  ssl b b' := b' = b
  headerName := WireHeaderName.Respelled
  attributeName := WireAttributeName.Respelled

lemma Variation.respelled_within_unnoticed : respelled.Within unnoticed where
  size _ := trivial
  string := WireString.Respelled.content_eq
  remoteHost _ := trivial
  ssl := by rintro b _ rfl; exact Iff.rfl
  headerName := WireHeaderName.Respelled.name?_eq
  attributeName := WireAttributeName.Respelled.text_eq

lemma Packet.Varies.size_eq {q q' : Packet} (h : q.Varies .respelled q') : q'.size = q.size := by
  cases h with
  | signal hsize kind other => exact hsize
  | forward hsize hbody => exact hsize

lemma Packet.dataSize_state (q : Packet) : q.state.dataSize = some q.size := by
  cases q <;> rfl

variable {σ : Type}

/-- The spelling has no influence. In a packet that a decoder accepts, any number of header and
attribute names may be spelled out for their codes, and empty strings put for null strings, wherever
they stand. The decoder takes the new packet to its end, with the same calls in the same order, and
is left in the same state. -/
theorem parse_respelled (conf : Conf) (sink : Sink σ) (told : σ) {p : List UInt8}
    (hdone : (parse conf sink .start told p).outcome = .done)
    (hrest : (parse conf sink .start told p).rest = []) :
    ∃ q : Packet, q.bytes = p ∧ ∀ q' : Packet, q.Varies .respelled q' →
      parse conf sink .start told q'.bytes = parse conf sink .start told p ∧
      calls conf sink .start told q'.bytes = calls conf sink .start told p := by
  obtain ⟨q, rfl⟩ := exists_reading hdone hrest
  refine ⟨q, rfl, fun q' hvaries => ?_⟩
  have hunnoticed := hvaries.mono Variation.respelled_within_unnoticed
  have hparse := hunnoticed.parse_append conf sink told []
  have hcalls := hunnoticed.calls_append conf sink told []
  rw [List.append_nil, List.append_nil] at hparse hcalls
  refine ⟨?_, hcalls⟩
  have hstate : { q.state with dataSize := some q'.size } = q.state := by
    rw [hvaries.size_eq, ← q.dataSize_state]
  rw [hparse, hstate, parse_bytes]

/-- The spelling `HoSt` for the code of a header, one for the code of the key size and of a secret,
and empty strings for null strings everywhere; the second header has no name, and is refused in both
spellings. -/
theorem parse_respelled_sample :
    let keySize := Utf8.encode AttributeName.sslKeySize
    let uri := WireString.literal [0x2F] 0 (by decide)
    let q := Packet.sample 0 uri .null .null 0 ⟨.coded 0x0B (by decide), .null⟩
      ⟨.spelled .null (show 0 / 256 ≠ 0xA0 by decide), .null⟩
      (.keySize (.coded 0x0B (by decide)) 256 (by decide))
      (.string (.coded 0x0C (by decide)) .null (by decide))
    let empty := WireString.literal [] 9 (by decide)
    let q' := Packet.sample 0 uri empty empty 0
      ⟨.spelled (.literal [0x48, 0x6F, 0x53, 0x74] 0 (by decide)) (show 4 / 256 ≠ 0xA0 by decide),
        empty⟩
      ⟨.spelled empty (show 0 / 256 ≠ 0xA0 by decide), empty⟩
      (.keySize (.custom (.literal keySize 0 (by decide))) 256 (by decide))
      (.string (.custom (.literal (Utf8.encode "secret") 0 (by decide))) empty (by decide))
    (parse {} Sink.setterRecorder .start [] q.bytes).outcome = .done ∧
    (parse {} Sink.setterRecorder .start [] q.bytes).rest = [] ∧
    q.Varies .respelled q' ∧
    parse {} Sink.setterRecorder .start [] q'.bytes =
      parse {} Sink.setterRecorder .start [] q.bytes ∧
    calls {} Sink.setterRecorder .start [] q'.bytes =
      calls {} Sink.setterRecorder .start [] q.bytes := by
  intro keySize uri q empty q'
  have hdone : (parse {} Sink.setterRecorder .start [] q.bytes).outcome = .done := by
    rw [parse_bytes]
  have hrest : (parse {} Sink.setterRecorder .start [] q.bytes).rest = [] := by
    rw [parse_bytes]
  have hcode : HeaderName.ofCode? 0x0B = some ⟨"host", by decide⟩ := by decide
  have hhost : Spells [0x48, 0x6F, 0x53, 0x74] "host" :=
    .cons (.inr rfl) (.cons (.inl rfl) (.cons (.inr rfl) (.cons (.inl rfl) .nil)))
  have hempty : WireString.Respelled .null empty := .empty 9
  have hvaries : q.Varies .respelled q' := .forward rfl {
    method := rfl
    protocol := hempty
    requestUri := .same _
    remoteAddress := hempty
    remoteHost := hempty
    serverName := hempty
    serverPort := rfl
    ssl := rfl
    headers := .cons ⟨.spelledOut hcode _ hhost _ _ _, hempty⟩
      (.cons ⟨.lift (.spelled hempty _ _), hempty⟩ .nil)
    attributes := .cons (.keySize (WireAttributeName.Respelled.spelledOut (by decide) _ _ _) _ _ _)
      (.cons (.string (WireAttributeName.Respelled.spelledOut (by decide) _ _ _) hempty _ _)
        .nil) }
  obtain ⟨q₀, hq₀, hrespelled⟩ := parse_respelled {} Sink.setterRecorder [] hdone hrest
  obtain rfl := PrefixFree.injective Packet.bytes_prefixFree hq₀
  exact ⟨hdone, hrest, hvaries, hrespelled q' hvaries⟩

end Ajp13
