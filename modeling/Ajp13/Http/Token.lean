/-!
Tokens, the alphabet of method and header names.

* `isToken`: one or more token characters;
* `Method`: a token whose case matters;
* `Method.ofText?`: the method with a given name.
-/

namespace Ajp13

/-- The characters of a token: ASCII letters and digits, and fifteen marks. -/
def isTokenChar (c : Char) : Bool :=
  c.isAlphanum || "!#$%&'*+-.^_`|~".toList.contains c

/-- A token is one or more token characters. -/
def isToken (text : String) : Bool :=
  text != "" && text.toList.all isTokenChar

/-- A request method. -/
structure Method where
  /-- The name of the method; its case matters. -/
  text : String
  isToken_text : isToken text = true
deriving DecidableEq

/-- The method with the name `text`, if that is a token. -/
def Method.ofText? (text : String) : Option Method :=
  if h : isToken text = true then some ⟨text, h⟩ else none

/-- Why a name was refused. -/
inductive NameError
  /-- A method name that is not a token. -/
  | method
  /-- A header name that is not a token, or too long a one. -/
  | headerName
deriving DecidableEq, Repr

/-- The report of a refused name. -/
def NameError.message : NameError → String
  | .method => "invalid HTTP method"
  | .headerName => "invalid HTTP header name"

end Ajp13
