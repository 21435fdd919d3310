import Rota.Json.Basic
import Rota.Text.Search

/-!
# Requests and answers of the gateway

What a caller sends, and what it gets back. Every answer may be read by web
pages from anywhere.
-/

namespace Rota.Gateway

/-- **A request that came in.** -/
structure Request where
  method : String
  /-- What is asked for: a path, and perhaps a query. -/
  target : String
  /-- The header that names the type of the body. -/
  contentType : Option String := none
  body : List UInt8 := []
  deriving Inhabited

namespace Request

/-- The target behind scheme and host, if they are given, and without a
fragment. -/
def localTarget (r : Request) : List Char :=
  let target := r.target.toList.takeWhile (· ≠ '#')
  match target with
  | '/' :: _ => target
  | _ =>
    match Text.breakOn "://".toList target with
    | some (_, behind) =>
      match (behind.drop 3).dropWhile fun c => c ≠ '/' ∧ c ≠ '?' with
      | '/' :: rest => '/' :: rest
      | rest => '/' :: rest
    | none => target

/-- The path that is asked for. -/
def path (r : Request) : String :=
  String.ofList (r.localTarget.takeWhile (· ≠ '?'))

/-- The query behind the path. -/
def query (r : Request) : String :=
  String.ofList ((r.localTarget.dropWhile (· ≠ '?')).drop 1)

/-- The type of the body, if the header can be read as text. -/
def typeText (r : Request) : Option String :=
  r.contentType.filter fun t => t.toList.all fun c => c = '\t' || (' ' ≤ c && c ≤ '~')

end Request

/-- **What an answer says.** -/
inductive Body where
  | nothing
  | json (value : Json)
  | text (t : String)
  deriving Inhabited

/-- **An answer.** -/
structure Response where
  status : Nat
  body : Body := .nothing
  /-- The methods that the path takes, where the answer tells them. -/
  allow : Option String := none
  /-- Is this the answer to a page that asks what it may send? -/
  isPreflight : Bool := false
  /-- Is the body left out of the answer? -/
  isBodiless : Bool := false
  deriving Inhabited

namespace Response

/-- The header for the type of the body. -/
def typeHeader (r : Response) : List (String × String) :=
  match r.body with
  | .nothing => []
  | .json _ => [("content-type", "application/json")]
  | .text _ => [("content-type", "text/plain; charset=utf-8")]

/-- **The headers of an answer.** -/
def headers (r : Response) : List (String × String) :=
  [("access-control-allow-origin", "*")]
    ++ (if r.isPreflight then
        [("access-control-allow-methods", "GET,POST"), ("access-control-allow-headers", "*")]
      else [])
    ++ r.allow.elim [] (fun methods => [("allow", methods)])
    ++ r.typeHeader

/-- What is sent of the body. -/
def sent (r : Response) : Body :=
  if r.isBodiless then .nothing else r.body

/-- An answer in JSON. -/
def ofJson (status : Nat) (value : Json) : Response :=
  { status, body := .json value }

end Response

end Rota.Gateway
