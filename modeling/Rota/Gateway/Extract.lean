import Rota.Gateway.Exchange
import Rota.Http.Form
import Rota.Http.MediaType
import Rota.Json.Format
import Rota.Wire.Request

/-!
# Taking requests apart

How the gateway reads the bodies and queries of requests, and what it says of
those that it cannot read. The type of a body is looked at first, then its
length, then what is in it.
-/

namespace Rota.Gateway

/-- **Why a request cannot be read.** -/
inductive Rejection where
  /-- The body is neither JSON nor a form. -/
  | notForm
  /-- The body is not JSON. -/
  | notJson
  /-- The body is too long. -/
  | tooLarge
  /-- The body does not follow the rules of JSON. -/
  | malformedJson
  /-- The body is JSON, but not what was expected. -/
  | unexpectedJson
  | unexpectedForm
  | unexpectedQuery
  deriving DecidableEq, Repr, Inhabited

namespace Rejection

/-- The status that tells of a rejection. -/
def status : Rejection → Nat
  | notForm | notJson => 415
  | tooLarge => 413
  | malformedJson | unexpectedQuery => 400
  | unexpectedJson | unexpectedForm => 422

/-- What is said about a rejection. -/
def message : Rejection → String
  | notForm =>
    "Form requests must have `Content-Type: application/x-www-form-urlencoded`"
  | notJson => "Expected request with `Content-Type: application/json`"
  | tooLarge => "Failed to buffer the request body: length limit exceeded"
  | malformedJson => "Failed to parse the request body as JSON"
  | unexpectedJson => "Failed to deserialize the JSON body into the target type"
  | unexpectedForm => "Failed to deserialize form body"
  | unexpectedQuery => "Failed to deserialize query string"

/-- **The answer to a request that cannot be read.** -/
def response (r : Rejection) : Response :=
  { status := r.status, body := .text r.message }

end Rejection

/-- The number of bytes that a body may have. -/
def maxBody : Nat := 2 * 1024 * 1024

/-- The bytes of the body, if there are not too many. -/
def Request.bytes (r : Request) : Except Rejection (List UInt8) :=
  if maxBody < r.body.length then .error .tooLarge else .ok r.body

/-- Does the type of the body begin like this? -/
def Request.typeBegins (r : Request) (mark : String) : Bool :=
  r.typeText.any fun t => mark.toList.isPrefixOf t.toList

/-- **Read a body in JSON.** -/
def Request.json {α : Type} (r : Request) (read : Document → Except Fault α) :
    Except Rejection α := do
  if !(r.typeText.bind Http.MediaType.ofText?).any Http.MediaType.isJson then throw .notJson
  match Text.decode? (← r.bytes) with
  | none => throw .malformedJson
  | some text =>
    match Document.parse read (String.ofList text) with
    | .ok value => return value
    | .error .malformed => throw .malformedJson
    | .error .mismatch => throw .unexpectedJson

/-- **Read a body that is a form.** -/
def Request.form {α : Type} (r : Request) (read : Http.Form → Except Fault α) :
    Except Rejection α := do
  if !r.typeBegins "application/x-www-form-urlencoded" then throw .notForm
  (read (.ofBytes (← r.bytes))).mapError fun _ => .unexpectedForm

/-- **Read the query.** -/
def Request.fields {α : Type} (r : Request) (read : Http.Form → Except Fault α) :
    Except Rejection α :=
  (read (.ofBytes (Text.encode r.query.toList))).mapError fun _ => .unexpectedQuery

/-- **Read a request to notify someone**, in JSON or as a form. -/
def Notice.ofRequest (r : Request) : Except Rejection Notice :=
  if r.typeBegins "application/json" then r.json Notice.read else r.form Notice.read

end Rota.Gateway
