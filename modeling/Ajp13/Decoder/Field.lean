import Ajp13.Sink
import Ajp13.Split

/-!
The fields of a request that a sink is told of.

* `Field`: a complete field;
* `RequestUri.ofText`: a URI, cut at its first semicolon;
* `Field.calls`: the calls by which a sink is told of a field;
* `Sink.tell`: the sink's state after these calls.
-/

namespace Ajp13

namespace Decoder

/-! ### Request URIs -/

/-- A request URI in its two parts. -/
structure RequestUri where
  /-- What comes before the first semicolon. -/
  path : String
  /-- What comes after the first semicolon, if there is one. -/
  parameters : Option String
deriving DecidableEq, Repr

/-- The parts of a URI. -/
def RequestUri.ofText (text : String) : RequestUri where
  path := String.ofList (Split.before ';' text.toList)
  parameters := (Split.after? ';' text.toList).map String.ofList

/-! ### Fields -/

/-- A complete field of a request. -/
inductive Field
  | method (method : Method)
  | protocol (text : String)
  /-- The URI, and whether it has characters that encode others. -/
  | requestUri (text : String) (urlChars : Bool)
  | scheme (scheme : Scheme)
  | header (name : HeaderName) (value : HeaderValue)
  | queryString (text : String)
  | attachment (attachment : Attachment) (text : String)
deriving DecidableEq

/-- The calls that tell of a request URI. The path is to be decoded if decoding is asked for and
the URI, parameters included, has characters that encode others. -/
def RequestUri.calls (conf : Conf) (decoded : String → UrlCharset → String) (uri : RequestUri)
    (urlChars : Bool) : List Call :=
  let decode := conf.decodeUrl && urlChars
  let path := if decode then decoded uri.path conf.charset else uri.path
  (if decode then [.decodeUrl uri.path conf.charset] else []) ++
  [.setRequestUri uri.path, .setRequestPath path, .setRelativePath path] ++
  (uri.parameters.map fun p => Call.parsePathParameters p conf.charset decode).toList

/-- The calls that tell of a field, to a sink that decodes paths by `decoded`. -/
def Field.calls (conf : Conf) (decoded : String → UrlCharset → String) : Field → List Call
  | method m => [.setMethod m]
  | protocol text => [.setProtocol text]
  | requestUri text urlChars => (RequestUri.ofText text).calls conf decoded urlChars
  | scheme s => [.setScheme s]
  | header name value => [.addHeader name value]
  | queryString text =>
      [.parseQueryString text conf.charset conf.decodeUrl, .setQueryString text]
  | attachment a text => [.putAttachment a text]

end Decoder

/-- The state of a sink that has been told of a field. -/
def Sink.tell {σ : Type} (sink : Sink σ) (conf : Conf) (state : σ) (field : Decoder.Field) : σ :=
  (field.calls conf (sink.decoded state)).foldl sink.accept state

end Ajp13
