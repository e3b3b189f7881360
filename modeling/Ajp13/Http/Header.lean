import Ajp13.Text.Latin1
import Ajp13.Http.Token

/-!
Header names and values.

* `HeaderName`: a token of at most 65535 characters, in lower case, since the case of a header
  name does not matter;
* `HeaderName.ofText?`: folds to lower case, or refuses; `HeaderName.ofText?_eq_some_iff` says when;
* `HeaderValue`: bytes without control characters, a tab excepted.
-/

namespace Ajp13

/-- A token in lower case of at most 65535 characters. -/
def isHeaderName (text : String) : Bool :=
  isToken text && text.length ≤ 65535 && text.toList.all fun c => !c.isUpper

/-- The name of a header, in lower case. -/
structure HeaderName where
  text : String
  isHeaderName_text : isHeaderName text = true
deriving DecidableEq

namespace HeaderName

/-- The text with ASCII capitals in lower case. -/
def fold (text : String) : String := String.ofList (text.toList.map Char.toLower)

/-- The header with the name `text` in any mix of cases, if that is a name. -/
def ofText? (text : String) : Option HeaderName :=
  if h : isHeaderName (fold text) = true then some ⟨fold text, h⟩ else none

/-- The header whose name was sent as `bytes`, if that is a name. -/
def ofBytes? (bytes : List UInt8) : Option HeaderName := ofText? (Latin1.decode bytes)

theorem toLower_of_not_isUpper {c : Char} (h : c.isUpper = false) : c.toLower = c :=
  dif_neg (of_decide_eq_false h)

/-- A name is a token without capitals. -/
theorem isToken_text_and_isUpper (n : HeaderName) :
    isToken n.text = true ∧ ∀ c ∈ n.text.toList, c.isUpper = false := by
  have hname := n.isHeaderName_text
  rw [isHeaderName, Bool.and_eq_true, Bool.and_eq_true, List.all_eq_true] at hname
  exact ⟨hname.1.1, fun c hc => by simpa using hname.2 c hc⟩

theorem isTokenChar_of_mem (n : HeaderName) {c : Char} (hc : c ∈ n.text.toList) :
    isTokenChar c = true := by
  have htoken := n.isToken_text_and_isUpper.1
  rw [isToken, Bool.and_eq_true, List.all_eq_true] at htoken
  exact htoken.2 c hc

/-- A name is its own lower case. -/
theorem ofText?_text (n : HeaderName) : ofText? n.text = some n := by
  have hfold : fold n.text = n.text := by
    have : n.text.toList.map Char.toLower = n.text.toList := by
      conv => rhs; rw [← List.map_id n.text.toList]
      exact List.map_congr_left fun c hc =>
        toLower_of_not_isUpper (n.isToken_text_and_isUpper.2 c hc)
    rw [fold, this, String.ofList_toList]
  rw [ofText?]
  simp only [hfold]
  rw [dif_pos n.isHeaderName_text]

end HeaderName

/-! ### Cases -/

theorem exists_of_isUpper {c : Char} (h : c.isUpper = true) : ∃ n < 26, Char.ofNat (65 + n) = c := by
  delta Char.isUpper at h
  simp only [decide_eq_true_eq, ge_iff_le, UInt32.le_iff_toNat_le] at h
  have hfirst : 'A'.val.toNat = 65 := rfl
  have hlast : 'Z'.val.toNat = 90 := rfl
  have hc : c.toNat = c.val.toNat := rfl
  refine ⟨c.toNat - 65, by omega, ?_⟩
  rw [Nat.add_sub_cancel' (by omega), Char.ofNat_toNat]

/-- Nothing in lower case is a capital. -/
theorem isUpper_toLower (c : Char) : c.toLower.isUpper = false := by
  cases h : c.isUpper with
  | false => rw [HeaderName.toLower_of_not_isUpper h, h]
  | true =>
      have hall : ∀ n < 26, (Char.ofNat (65 + n)).toLower.isUpper = false := by decide
      obtain ⟨n, hn, rfl⟩ := exists_of_isUpper h
      exact hall n hn

/-- What is of a token in one case, is in the other. -/
theorem isTokenChar_toLower (c : Char) : isTokenChar c.toLower = isTokenChar c := by
  cases h : c.isUpper with
  | false => rw [HeaderName.toLower_of_not_isUpper h]
  | true =>
      have hall : ∀ n < 26, isTokenChar (Char.ofNat (65 + n)).toLower =
          isTokenChar (Char.ofNat (65 + n)) := by decide
      obtain ⟨n, hn, rfl⟩ := exists_of_isUpper h
      exact hall n hn

namespace HeaderName

theorem isToken_fold (text : String) : isToken (fold text) = isToken text := by
  have hall : (text.toList.map Char.toLower).all isTokenChar = text.toList.all isTokenChar := by
    rw [List.all_map]
    exact congrArg text.toList.all (funext isTokenChar_toLower)
  have hempty : fold text = "" ↔ text = "" := by
    rw [fold, ← String.toList_inj, ← String.toList_inj, String.toList_ofList]
    exact List.map_eq_nil_iff
  rw [isToken, isToken, fold, String.toList_ofList, hall, ← fold, bne, bne,
    Bool.beq_eq_decide_eq, Bool.beq_eq_decide_eq]
  simp only [hempty]

/-- The names of headers are tokens, up to the case. -/
theorem ofText?_eq_some_iff {text : String} {name : HeaderName} :
    ofText? text = some name ↔
      isToken text = true ∧ text.length ≤ 65535 ∧ name.text = fold text := by
  have hlength : (fold text).length = text.length := by
    rw [← String.length_toList, fold, String.toList_ofList, List.length_map, String.length_toList]
  have hlower : (fold text).toList.all (fun c => !c.isUpper) = true := by
    rw [fold, String.toList_ofList, List.all_map, List.all_eq_true]
    intro c _
    rw [Function.comp_apply, isUpper_toLower]
    rfl
  have hname : isHeaderName (fold text) = true ↔ isToken text = true ∧ text.length ≤ 65535 := by
    rw [isHeaderName, isToken_fold, hlength, hlower, Bool.and_true, Bool.and_eq_true,
      decide_eq_true_eq]
  rw [ofText?]
  constructor
  · intro h
    split at h
    next hfold =>
      obtain ⟨htoken, hle⟩ := hname.1 hfold
      exact ⟨htoken, hle, (congrArg HeaderName.text (Option.some.inj h)).symm⟩
    next => cases h
  · rintro ⟨htoken, hle, htext⟩
    rw [dif_pos (hname.2 ⟨htoken, hle⟩)]
    cases name
    cases htext
    rfl

end HeaderName

/-- The bytes of a header value: a tab, or anything from the blank on except DEL. -/
def isHeaderValueByte (b : UInt8) : Bool := b == 9 || (32 ≤ b && b != 127)

theorem isHeaderValueByte_iff {b : UInt8} :
    isHeaderValueByte b = true ↔ b = 9 ∨ 32 ≤ b ∧ b ≠ 127 := by
  simp only [isHeaderValueByte, Bool.or_eq_true, Bool.and_eq_true, beq_iff_eq, bne_iff_ne,
    decide_eq_true_eq]

/-- The value of a header, which may be empty. -/
structure HeaderValue where
  bytes : List UInt8
  isHeaderValue_bytes : bytes.all isHeaderValueByte = true
deriving DecidableEq

/-- The header value with the given bytes, if they are all of a header value. -/
def HeaderValue.ofBytes? (bytes : List UInt8) : Option HeaderValue :=
  if h : bytes.all isHeaderValueByte = true then some ⟨bytes, h⟩ else none

theorem HeaderValue.ofBytes?_eq_some_iff {bytes : List UInt8} {v : HeaderValue} :
    HeaderValue.ofBytes? bytes = some v ↔ v.bytes = bytes := by
  rw [HeaderValue.ofBytes?]
  constructor
  · intro h
    split at h
    · rw [← Option.some.inj h]
    · cases h
  · rintro rfl
    rw [dif_pos v.isHeaderValue_bytes]

/-- How the request reached the front end. -/
inductive Scheme
  | http
  | https
deriving DecidableEq, Repr

/-- The name of a scheme. -/
def Scheme.text : Scheme → String
  | .http => "http"
  | .https => "https"

end Ajp13
