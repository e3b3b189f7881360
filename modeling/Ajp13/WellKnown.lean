import Ajp13.CodeTable
import Ajp13.Http.Header
import Ajp13.Wire.Marker

/-!
The names that have a one-byte code on the wire.

* `Method.table`, `HeaderName.table`, `AttributeName.table`: the three tables, in code order;
* `ofCode?`, `code?` for each: from a code to its name and back;
* `AttributeName.ofCode?_eq_some_iff`: the attribute code that announces a custom name stands for
  no name itself.
-/

namespace Ajp13

/-! ### Methods -/

namespace Method

/-- The methods with a code. -/
def table : CodeTable Method where
  entries := [⟨"OPTIONS", by decide⟩, ⟨"GET", by decide⟩, ⟨"HEAD", by decide⟩,
    ⟨"POST", by decide⟩, ⟨"PUT", by decide⟩, ⟨"DELETE", by decide⟩, ⟨"TRACE", by decide⟩,
    ⟨"PROPFIND", by decide⟩, ⟨"PROPPATCH", by decide⟩, ⟨"MKCOL", by decide⟩,
    ⟨"COPY", by decide⟩, ⟨"MOVE", by decide⟩, ⟨"LOCK", by decide⟩, ⟨"UNLOCK", by decide⟩,
    ⟨"ACL", by decide⟩, ⟨"REPORT", by decide⟩, ⟨"VERSION-CONTROL", by decide⟩,
    ⟨"CHECKIN", by decide⟩, ⟨"CHECKOUT", by decide⟩, ⟨"UNCHECKOUT", by decide⟩,
    ⟨"SEARCH", by decide⟩, ⟨"MKWORKSPACE", by decide⟩, ⟨"UPDATE", by decide⟩,
    ⟨"LABEL", by decide⟩, ⟨"MERGE", by decide⟩, ⟨"BASELINE-CONTROL", by decide⟩,
    ⟨"MKACTIVITY", by decide⟩]
  nodup_entries := by decide +kernel
  length_lt := by decide

/-- The method a request has until it is told another. -/
def get : Method := ⟨"GET", by decide⟩

/-- The method with the given code. -/
def ofCode? (code : UInt8) : Option Method := table.get? code

/-- The code of a method. -/
def code? (m : Method) : Option UInt8 := table.code? m

theorem ofCode?_eq_some_iff {code : UInt8} {m : Method} :
    ofCode? code = some m ↔ m.code? = some code :=
  table.get?_eq_some_iff

end Method

/-! ### Headers -/

namespace HeaderName

/-- The header names with a code. -/
def table : CodeTable HeaderName where
  entries := [⟨"accept", by decide⟩, ⟨"accept-charset", by decide⟩,
    ⟨"accept-encoding", by decide⟩, ⟨"accept-language", by decide⟩,
    ⟨"authorization", by decide⟩, ⟨"connection", by decide⟩, ⟨"content-type", by decide⟩,
    ⟨"content-length", by decide⟩, ⟨"cookie", by decide⟩, ⟨"cookie2", by decide⟩,
    ⟨"host", by decide⟩, ⟨"pragma", by decide⟩, ⟨"referer", by decide⟩,
    ⟨"user-agent", by decide⟩]
  nodup_entries := by decide +kernel
  length_lt := by decide

/-- The header name with the given code. -/
def ofCode? (code : UInt8) : Option HeaderName := table.get? code

/-- The code of a header name. -/
def code? (n : HeaderName) : Option UInt8 := table.code? n

theorem ofCode?_eq_some_iff {code : UInt8} {n : HeaderName} :
    ofCode? code = some n ↔ n.code? = some code :=
  table.get?_eq_some_iff

end HeaderName

/-! ### Attributes -/

namespace AttributeName

/-- The attribute that is sent as a word. -/
def sslKeySize : String := "ssl_key_size"

/-- The attribute that holds the query string. -/
def queryString : String := "query_string"

/-- The attribute that holds the principal the front end authenticated. -/
def remoteUser : String := "remote_user"

/-- The attribute that holds the way in which the front end authenticated it. -/
def authType : String := "auth_type"

/-- The attribute names with a code. -/
def table : CodeTable String where
  entries := ["context", "servlet_path", remoteUser, authType, queryString, "route", "ssl_cert",
    "ssl_cipher", "ssl_session", "req_attribute", sslKeySize, "secret", "stored_method"]
  nodup_entries := by decide +kernel
  length_lt := by decide

/-- The attribute name with the given code. The code that announces a custom name is taken, so
the table's entry with this number has no code. -/
def ofCode? (code : UInt8) : Option String :=
  if code = Marker.customAttribute then none else table.get? code

/-- The code of an attribute name. -/
def code? (name : String) : Option UInt8 :=
  (table.code? name).filter (· ≠ Marker.customAttribute)

theorem ofCode?_eq_some_iff {code : UInt8} {name : String} :
    ofCode? code = some name ↔ code? name = some code := by
  rw [ofCode?, code?, Option.filter_eq_some_iff, ← table.get?_eq_some_iff]
  split
  next h => simp [h]
  next h => simp [h]

example : code? "req_attribute" = none := by decide
example : ofCode? 11 = some sslKeySize := by decide

end AttributeName

end Ajp13
