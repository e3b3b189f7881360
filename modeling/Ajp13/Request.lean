import Ajp13.NameMap
import Ajp13.Sink
import Ajp13.WellKnown

/-!
Forward requests, as a sink of their own.

* `ForwardRequest`: the request, with URLs as they were sent;
* `ForwardRequest.pathAndQuery`, `ForwardRequest.isSecure`: what an application asks first;
* `ForwardRequest.sink`: builds the request from the decoder's calls.
-/

namespace Ajp13

/-- A request that a front end passes on. -/
structure ForwardRequest where
  method : Method := .get
  protocol : String := ""
  /-- The URI up to its first semicolon. -/
  requestUri : String := ""
  requestPath : String := ""
  relativePath : String := ""
  /-- The URI after its first semicolon, if it has one. -/
  pathParameters : Option String := none
  queryString : Option String := none
  scheme : Option Scheme := none
  /-- The values of each header name, the latest first. -/
  headers : NameMap (List HeaderValue) := .empty
  principal : Option String := none
  authenticationType : Option String := none
deriving DecidableEq

namespace ForwardRequest

/-- The URI, and behind a question mark the query string unless it is empty. -/
def pathAndQuery (r : ForwardRequest) : String :=
  match r.queryString with
  | some query => if query = "" then r.requestUri else r.requestUri ++ "?" ++ query
  | none => r.requestUri

/-- Whether the request reached the front end encrypted. -/
def isSecure (r : ForwardRequest) : Bool := r.scheme = some .https

/-- The values of a header, in the order in which they arrived. -/
def headerValues (r : ForwardRequest) (name : HeaderName) : List HeaderValue :=
  ((r.headers.get? name.text).getD []).reverse

/-- The request with one more header. -/
def addHeader (r : ForwardRequest) (name : HeaderName) (value : HeaderValue) : ForwardRequest :=
  { r with headers := r.headers.alter name.text fun values => value :: values.getD [] }

/-- The request after a call. Of the calls that ask to treat a URL, the one with the path
parameters is kept, as they are told in no other way. -/
def accept (r : ForwardRequest) : Call → ForwardRequest
  | .setMethod method => { r with method }
  | .setProtocol protocol => { r with protocol }
  | .setRequestUri uri => { r with requestUri := uri }
  | .setRequestPath path => { r with requestPath := path }
  | .setRelativePath path => { r with relativePath := path }
  | .setQueryString query => { r with queryString := some query }
  | .setScheme scheme => { r with scheme := some scheme }
  | .addHeader name value => r.addHeader name value
  | .putAttachment .externalPrincipal value => { r with principal := some value }
  | .putAttachment .externalAuthenticationType value => { r with authenticationType := some value }
  | .decodeUrl _ _ => r
  | .parsePathParameters parameters _ _ => { r with pathParameters := some parameters }
  | .parseQueryString _ _ _ => r

/-- The sink that builds a request. -/
def sink : Sink ForwardRequest where
  accept := accept

end ForwardRequest

end Ajp13
