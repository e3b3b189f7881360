import Ajp13.Http.Header

/-!
What a decoder hands on, and to whom.

* `Conf`: how URLs are to be treated;
* `Call`: one message to a sink;
* `Sink`: a receiver of messages, which also answers how a URL path decodes;
* `Sink.recorder`, `Sink.setterRecorder`: sinks that only remember what they were told.
-/

namespace Ajp13

/-! ### Configuration -/

/-- The character set of a URL's percent-encoded bytes. -/
inductive UrlCharset
  | utf8
  | latin1
deriving DecidableEq, Repr

/-- How URLs are to be treated. -/
structure Conf where
  /-- Whether paths with encoded characters are to be decoded. -/
  decodeUrl : Bool := true
  charset : UrlCharset := .utf8
deriving DecidableEq, Repr

/-! ### Calls -/

/-- What a front end says about the authenticated user. -/
inductive Attachment
  /-- Who the user is. -/
  | externalPrincipal
  /-- How the front end found out. -/
  | externalAuthenticationType
deriving DecidableEq, Repr

/-- One message to a sink. The last three ask it to treat a URL. -/
inductive Call
  | setMethod (method : Method)
  | setProtocol (protocol : String)
  | setRequestUri (uri : String)
  | setRequestPath (path : String)
  | setRelativePath (path : String)
  | setQueryString (query : String)
  | setScheme (scheme : Scheme)
  | addHeader (name : HeaderName) (value : HeaderValue)
  | putAttachment (attachment : Attachment) (value : String)
  | decodeUrl (raw : String) (charset : UrlCharset)
  | parsePathParameters (parameters : String) (charset : UrlCharset) (decode : Bool)
  | parseQueryString (query : String) (charset : UrlCharset) (decode : Bool)
deriving DecidableEq

/-- Whether a call tells the sink a part of the request, and does not ask it to treat a URL. -/
def Call.isSetter : Call → Bool
  | decodeUrl _ _ | parsePathParameters _ _ _ | parseQueryString _ _ _ => false
  | _ => true

/-! ### Sinks -/

/-- A receiver of calls with states in `σ`. -/
structure Sink (σ : Type) where
  /-- The state after a call. -/
  accept : σ → Call → σ
  /-- The decoded path, which answers a call of `Call.decodeUrl` in a given state. A sink that
  does not decode gives back what it got. -/
  decoded : σ → String → UrlCharset → String := fun _ raw _ => raw

namespace Sink

/-- Remembers all calls, the latest first, and decodes paths by `decoded`. -/
def recorder (decoded : String → UrlCharset → String) : Sink (List Call) where
  accept calls call := call :: calls
  decoded _ := decoded

/-- Remembers the setters, the latest first, and leaves URLs as they are. -/
def setterRecorder : Sink (List Call) where
  accept calls call := if call.isSetter then call :: calls else calls

end Sink

end Ajp13
