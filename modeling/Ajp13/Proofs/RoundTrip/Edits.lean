import Ajp13.Draft.Basic
import Mathlib.Data.List.Induction
import Mathlib.Tactic.Lemma

/-!
What edits leave in a draft.

* `Edit.protocol?`, `Edit.header?` and others: the part that an edit sets, or adds;
* `Edit.last`: the part that was set last;
* `Draft.make_eq`: a draft that is made by edits has each part as it was set last, or its default,
  and all headers and attributes in the order of the edits.
-/

namespace Ajp13.Draft

namespace Edit

/-! ### Parts of one edit -/

/-- The protocol that an edit sets. -/
def protocol? : Edit → Option String
  | protocol text => some text
  | _ => none

/-- The remote address that an edit sets. -/
def remoteAddress? : Edit → Option String
  | remoteAddress text => some text
  | _ => none

/-- The remote host that an edit sets. -/
def remoteHost? : Edit → Option String
  | remoteHost text => some text
  | _ => none

/-- The server name that an edit sets. -/
def serverName? : Edit → Option String
  | serverName text => some text
  | _ => none

/-- The server port that an edit sets. -/
def serverPort? : Edit → Option UInt16
  | serverPort port => some port
  | _ => none

/-- What an edit says about encryption. -/
def isSsl? : Edit → Option Bool
  | isSsl ssl => some ssl
  | _ => none

/-- The header that an edit adds. -/
def header? : Edit → Option DraftHeader
  | header name value => some ⟨.known name, value⟩
  | literalHeader name value => some ⟨.verbatim name, value⟩
  | _ => none

/-- The attribute that an edit adds. -/
def attribute? : Edit → Option DraftAttribute
  | .attribute name value => some ⟨name, value⟩
  | _ => none

/-! ### Parts of many edits -/

variable {α : Type}

/-- The part that was set last, or its default. -/
def last (part? : Edit → Option α) (default : α) (edits : List Edit) : α :=
  (edits.filterMap part?).getLastD default

lemma last_concat (part? : Edit → Option α) (default : α) (edits : List Edit) (e : Edit) :
    last part? default (edits ++ [e]) = (part? e).getD (last part? default edits) := by
  rw [last, List.filterMap_append]
  cases h : part? e with
  | none => rw [List.filterMap_cons_none h, List.filterMap_nil, List.append_nil, last]; rfl
  | some a => rw [List.filterMap_cons_some h, List.filterMap_nil, List.getLastD_concat]; rfl

/-- A part that was set once is as it was set. -/
lemma last_eq_of_filterMap {part? : Edit → Option α} {edits : List Edit} {a : α}
    (h : edits.filterMap part? = [a]) (default : α) : last part? default edits = a := by
  rw [last, h]
  rfl

/-- What edits add is added at the end. -/
lemma toArray_filterMap_concat (part? : Edit → Option α) (edits : List Edit) (e : Edit) :
    ((edits ++ [e]).filterMap part?).toArray =
      (part? e).elim (edits.filterMap part?).toArray (edits.filterMap part?).toArray.push := by
  rw [List.filterMap_append]
  cases h : part? e with
  | none => rw [List.filterMap_cons_none h, List.filterMap_nil, List.append_nil]; rfl
  | some a => rw [List.filterMap_cons_some h, List.filterMap_nil]; exact (List.push_toArray _ a).symm

end Edit

/-! ### Drafts -/

/-- What is left of the edits by which a draft was made. -/
theorem make_eq (method : Method) (requestUri : String) (edits : List Edit) :
    make method requestUri edits =
      { method, requestUri
        protocol := Edit.last Edit.protocol? "HTTP/1.1" edits
        remoteAddress := Edit.last Edit.remoteAddress? "127.0.0.1" edits
        remoteHost := Edit.last (fun e => e.remoteHost?.map some) none edits
        serverName := Edit.last Edit.serverName? "localhost" edits
        serverPort := Edit.last Edit.serverPort? 80 edits
        isSsl := Edit.last Edit.isSsl? false edits
        headers := (edits.filterMap Edit.header?).toArray
        attributes := (edits.filterMap Edit.attribute?).toArray } := by
  induction edits using List.reverseRecOn with
  | nil => rfl
  | append_singleton edits e ih =>
      have hmake : make method requestUri (edits ++ [e]) = (make method requestUri edits).edit e :=
        List.foldl_append
      rw [hmake, ih]
      simp only [Edit.last_concat, Edit.toArray_filterMap_concat]
      cases e <;> rfl

end Ajp13.Draft
