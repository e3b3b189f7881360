import Ajp13.Proofs.Grammar.Variation

/-!
The parts of a packet that are skipped.

* `WireString.Reterminated`: the same string up to its terminator;
* `Variation.skipped`: packets that are the same up to terminators, the size, the remote host, and
  which of its values the byte for encryption has if it is not zero;
* `parse_skipped`: these parts have no influence: whatever they are, a decoder takes the packet to
  its end and leaves what comes behind it, and only the size can be seen in what it keeps.
-/

namespace Ajp13

open Decoder

/-- The same string, but for its terminator. -/
inductive WireString.Reterminated : WireString → WireString → Prop
  | null : Reterminated .null .null
  | literal (content : List UInt8) (terminator terminator' : UInt8)
      (fits : content.length < 0xFFFF) :
      Reterminated (.literal content terminator fits) (.literal content terminator' fits)

lemma WireString.Reterminated.content_eq {s s' : WireString} (h : s.Reterminated s') :
    s'.content = s.content := by
  cases h <;> rfl

/-- Any size, any terminators, any remote host, and any byte for encryption that is zero if and only
if the other one is. -/
def Variation.skipped : Variation where
  size _ _ := True
  string := WireString.Reterminated
  remoteHost _ _ := True
  ssl b b' := b' = 0 ↔ b = 0
  headerName := WireHeaderName.Lift WireString.Reterminated
  attributeName := WireAttributeName.Lift WireString.Reterminated

lemma Variation.skipped_within_unnoticed : skipped.Within unnoticed where
  size := id
  string := WireString.Reterminated.content_eq
  remoteHost := id
  ssl := id
  headerName := WireHeaderName.Lift.name?_eq WireString.Reterminated.content_eq
  attributeName := WireAttributeName.Lift.text_eq WireString.Reterminated.content_eq

variable {σ : Type}

/-- What is skipped has no influence. A packet that a decoder accepts may be followed by anything,
and any other packet may be put in its place that differs from it in nothing but its size, its
terminators, the remote host, and how the byte for encryption says that there is some. The decoder
takes each of the two to its end and no further, with the same calls in the same order, and keeps
the same of them but for the size. -/
theorem parse_skipped (conf : Conf) (sink : Sink σ) (told : σ) {p : List UInt8}
    (hdone : (parse conf sink .start told p).outcome = .done)
    (hrest : (parse conf sink .start told p).rest = []) :
    ∃ q : Packet, q.bytes = p ∧ ∀ q' : Packet, q.Varies .skipped q' → ∀ rest : List UInt8,
      let r := parse conf sink .start told (p ++ rest)
      r.outcome = .done ∧ r.rest = rest ∧
      parse conf sink .start told (q'.bytes ++ rest) =
        { r with state := { r.state with dataSize := some q'.size } } ∧
      calls conf sink .start told (q'.bytes ++ rest) = calls conf sink .start told (p ++ rest) := by
  obtain ⟨q, rfl⟩ := exists_reading hdone hrest
  refine ⟨q, rfl, fun q' hvaries rest => ?_⟩
  have hunnoticed := hvaries.mono Variation.skipped_within_unnoticed
  have hrun := parse_bytes_append conf sink told q rest
  intro r
  refine ⟨congrArg Run.outcome hrun, congrArg Run.rest hrun, ?_, ?_⟩
  · rw [hunnoticed.parse_append conf sink told rest]
    exact congrArg (fun state => { r with state := { state with dataSize := some q'.size } })
      (congrArg Run.state hrun).symm
  · exact hunnoticed.calls_append conf sink told rest

/-- Another size, other terminators, another remote host and another byte for encryption; one more
byte behind the packet is left. -/
theorem parse_skipped_sample :
    let header (terminator : UInt8) : WireHeader :=
      ⟨.spelled (.literal [0x78] terminator (by decide)) (show 1 / 256 ≠ 0xA0 by decide),
        .literal [0x76] terminator (by decide)⟩
    let keySize := WireAttribute.keySize (.coded 0x0B (by decide)) 256 (by decide)
    let secret (terminator : UInt8) : WireAttribute :=
      .string (.coded 0x0C (by decide)) (.literal [0x76] terminator (by decide)) (by decide)
    let string (terminator : UInt8) : WireString := .literal [0x61] terminator (by decide)
    let host := WireString.literal [0x68, 0x74] 3 (by decide)
    let q := Packet.sample 0 (string 0) (string 0) .null 1 (header 0) (header 0) keySize (secret 0)
    let q' := Packet.sample 0xFFFF (string 9) (string 1) host 2 (header 7) (header 0xAB) keySize
      (secret 0xFF)
    let r := parse {} Sink.setterRecorder .start [] (q.bytes ++ [9])
    (parse {} Sink.setterRecorder .start [] q.bytes).outcome = .done ∧
    (parse {} Sink.setterRecorder .start [] q.bytes).rest = [] ∧
    q.Varies .skipped q' ∧ r.outcome = .done ∧ r.rest = [9] ∧
    parse {} Sink.setterRecorder .start [] (q'.bytes ++ [9]) =
      { r with state := { r.state with dataSize := some 0xFFFF } } ∧
    calls {} Sink.setterRecorder .start [] (q'.bytes ++ [9]) =
      calls {} Sink.setterRecorder .start [] (q.bytes ++ [9]) := by
  intro header keySize secret string host q q' r
  have hdone : (parse {} Sink.setterRecorder .start [] q.bytes).outcome = .done := by
    rw [parse_bytes]
  have hrest : (parse {} Sink.setterRecorder .start [] q.bytes).rest = [] := by
    rw [parse_bytes]
  have hstring : ∀ t t', (string t).Reterminated (string t') := fun _ _ => .literal _ _ _ _
  have hheader : ∀ t t', (header t).Varies .skipped (header t') :=
    fun _ _ => ⟨.spelled (.literal _ _ _ _) _ _, .literal _ _ _ _⟩
  have hvaries : q.Varies .skipped q' := .forward trivial {
    method := rfl
    protocol := hstring 0 1
    requestUri := hstring 0 9
    remoteAddress := hstring 0 1
    remoteHost := trivial
    serverName := hstring 0 1
    serverPort := rfl
    ssl := show (2 : UInt8) = 0 ↔ (1 : UInt8) = 0 by decide
    headers := .cons (hheader 0 7) (.cons (hheader 0 0xAB) .nil)
    attributes := .cons (.keySize (WireAttributeName.Lift.coded _ _) _ _ _)
      (.cons (.string (WireAttributeName.Lift.coded _ _)
        (WireString.Reterminated.literal _ _ _ _) _ _) .nil) }
  obtain ⟨q₀, hq₀, hskipped⟩ := parse_skipped {} Sink.setterRecorder [] hdone hrest
  obtain rfl := PrefixFree.injective Packet.bytes_prefixFree hq₀
  exact ⟨hdone, hrest, hvaries, hskipped q' hvaries [9]⟩

end Ajp13
