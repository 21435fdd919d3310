import Rota.Http.Status
import Rota.Http.Url
import Rota.Json.Basic
import Rota.Text.Utf8

/-!
# Sending requests

A request is made up from an address, an optional token and an optional body,
and handed to the network. It can go wrong in three ways: there is no proper
request to send, the address is not one of HTTP, or no answer comes back.
-/

namespace Rota.Http

inductive Method where
  | get
  | post
  deriving DecidableEq, Repr, Inhabited

/-- The name of a method. -/
def Method.name : Method → String
  | get => "GET"
  | post => "POST"

/-- **A request.** -/
structure Request where
  method : Method
  url : Url
  /-- The header that says who is asking. -/
  authorization : Option String := none
  /-- The body, as JSON. -/
  body : Option Json := none
  deriving Inhabited

/-- **An answer.** -/
structure Response where
  status : Nat
  body : String
  deriving DecidableEq, Repr, Inhabited

/-- **The network**: what comes back for a request, if anything does. -/
abbrev Network := Request → Option Response

/-- **Why there is no answer.** -/
inductive SendFault where
  /-- There is no request to send. -/
  | unfit
  /-- The address is not one of HTTP. -/
  | notHttp (url : String)
  /-- Nothing came back. -/
  | unanswered (url : String)
  deriving DecidableEq, Repr, Inhabited

/-- The text of a fault. -/
def SendFault.message : SendFault → String
  | unfit => "builder error"
  | notHttp url => "builder error for url (" ++ url ++ ")"
  | unanswered url => "error sending request for url (" ++ url ++ ")"

/-- May a text be the value of a header? Control characters may not stand in
it, except for tabs. -/
def isHeaderValue (value : String) : Bool :=
  value.toList.all fun c => c = '\t' || (0x20 ≤ c.toNat && c.toNat ≠ 0x7F)

/-- Can a name or password be read when its escapes are undone? -/
def isReadable (credential : String) : Bool :=
  !(Text.decodeLossy (unescape (Text.encode credential.toList))).contains Text.replacement

/-- The address as it is sent: name and password are left out of it, if they
can be read. -/
def Url.sent (u : Url) : Url :=
  if isReadable u.user && (!u.user.isEmpty || u.password.any isReadable) then u.withoutUser else u

/-- An address without the slashes at its end. -/
def withoutSlashes (address : String) : String :=
  String.ofList (address.toList.reverse.dropWhile (· = '/')).reverse

namespace Request

/-- **Make up a request.** -/
def of (method : Method) (address : String) (authorization : Option String)
    (body : Option Json) : Except SendFault Request :=
  match Url.ofText? address with
  | none => .error .unfit
  | some url =>
    if url.host.all String.isEmpty then .error (.notHttp url.text)
    else if authorization.all isHeaderValue then
      .ok { method, url := url.sent, authorization, body }
    else .error .unfit

/-- **Send a request.** -/
def send (network : Network) (r : Request) : Except SendFault Response :=
  if r.url.scheme ≠ "http" ∧ r.url.scheme ≠ "https" then .error (.notHttp r.url.text)
  else match network r with
    | some answer =>
      .ok { answer with body := if Status.hasBody answer.status then answer.body else "" }
    | none => .error (.unanswered r.url.text)

end Request

end Rota.Http
