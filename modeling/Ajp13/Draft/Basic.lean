import Ajp13.WellKnown

/-!
A forward request in the making.

* `Draft`: what is to be sent, with defaults for all but the method and the URI;
* `Draft.addHeader`, `Draft.addLiteralHeader`, `Draft.addAttribute`: add one more;
* `Draft.Edit`, `Draft.edit`: a change to a draft, and the draft after it;
* `Draft.make`: the draft that some changes make of a new one.

A draft may hold anything; whether it can be sent shows when it is encoded.
-/

namespace Ajp13

/-- A header name in a draft. -/
inductive DraftHeaderName
  /-- A header name, which is sent by its code if it has one. -/
  | known (name : HeaderName)
  /-- Any bytes, which are sent as they are. -/
  | verbatim (bytes : List UInt8)
deriving DecidableEq

/-- A header in a draft; its value may be any bytes. -/
structure DraftHeader where
  name : DraftHeaderName
  value : List UInt8
deriving DecidableEq

/-- An attribute in a draft. -/
structure DraftAttribute where
  name : String
  value : String
deriving DecidableEq

/-- A forward request in the making. -/
structure Draft where
  method : Method
  requestUri : String
  protocol : String := "HTTP/1.1"
  remoteAddress : String := "127.0.0.1"
  /-- Sent as the null string if there is none. -/
  remoteHost : Option String := none
  serverName : String := "localhost"
  serverPort : UInt16 := 80
  isSsl : Bool := false
  headers : Array DraftHeader := #[]
  attributes : Array DraftAttribute := #[]
deriving DecidableEq

namespace Draft

/-- The draft with one more header. -/
def addHeader (d : Draft) (name : HeaderName) (value : List UInt8) : Draft :=
  { d with headers := d.headers.push ⟨.known name, value⟩ }

/-- The draft with one more header whose name is spelled out, valid or not. -/
def addLiteralHeader (d : Draft) (name value : List UInt8) : Draft :=
  { d with headers := d.headers.push ⟨.verbatim name, value⟩ }

/-- The draft with one more attribute. -/
def addAttribute (d : Draft) (name value : String) : Draft :=
  { d with attributes := d.attributes.push ⟨name, value⟩ }

/-- A change to a draft: a part is set, or one more header or attribute is added. -/
inductive Edit
  | protocol (text : String)
  | remoteAddress (text : String)
  | remoteHost (text : String)
  | serverName (text : String)
  | serverPort (port : UInt16)
  | isSsl (ssl : Bool)
  | header (name : HeaderName) (value : List UInt8)
  | literalHeader (name value : List UInt8)
  | attribute (name value : String)
deriving DecidableEq

/-- The draft after a change. -/
def edit (d : Draft) : Edit → Draft
  | .protocol text => { d with protocol := text }
  | .remoteAddress text => { d with remoteAddress := text }
  | .remoteHost text => { d with remoteHost := some text }
  | .serverName text => { d with serverName := text }
  | .serverPort port => { d with serverPort := port }
  | .isSsl ssl => { d with isSsl := ssl }
  | .header name value => d.addHeader name value
  | .literalHeader name value => d.addLiteralHeader name value
  | .attribute name value => d.addAttribute name value

/-- A new draft, which has the defaults for all that is not given. -/
def new (method : Method) (requestUri : String) : Draft := { method, requestUri }

/-- The draft that is made of a new one by some changes, one after another. -/
def make (method : Method) (requestUri : String) (edits : List Edit) : Draft :=
  edits.foldl edit (new method requestUri)

end Draft

end Ajp13
