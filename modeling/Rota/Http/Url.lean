import Rota.Http.Host

/-!
# Addresses

An address on the web, taken apart, and its written form. Many texts stand for
the same address: a scheme is not case sensitive, the usual port of a scheme
need not be given, steps upwards in a path are resolved, and characters that
must not stand in an address are escaped. The written form is the same for all
of them.
-/

namespace Rota.Http

/-- **An address.** All its parts are in their written form. -/
structure Url where
  scheme : String
  /-- The host, if there is one. -/
  host : Option String := none
  user : String := ""
  password : Option String := none
  /-- The port, if it is not the usual one. -/
  port : Option Nat := none
  path : String := ""
  query : Option String := none
  fragment : Option String := none
  deriving DecidableEq, Repr, Inhabited

namespace Url

/-- The name and password in front of a host. -/
def userText (u : Url) : String :=
  if u.user.isEmpty && u.password.isNone then ""
  else u.user ++ u.password.elim "" (":" ++ ·) ++ "@"

/-- **The written form of an address.** -/
def text (u : Url) : String :=
  let place := match u.host with
    | some host => "//" ++ u.userText ++ host ++ u.port.elim "" (":" ++ toString ·)
    | none =>
      match u.scheme, u.path.toList with
      | "file", _ => "//"
      | _, '/' :: '/' :: _ => "/."
      | _, _ => ""
  u.scheme ++ ":" ++ place ++ u.path ++ u.query.elim "" ("?" ++ ·) ++ u.fragment.elim "" ("#" ++ ·)

/-- The schemes with a host and a path of their own rules, and their usual
ports. -/
def webSchemes : List (String × Nat) :=
  [("http", 80), ("https", 443), ("ws", 80), ("wss", 443), ("ftp", 21)]

/-! ## What must be escaped -/

/-- Is the character neither a control character nor one of these? -/
def isSafe (unsafeOnes : String) (c : Char) : Bool :=
  0x20 ≤ c.toNat && c.toNat < 0x7F && !unsafeOnes.toList.contains c

/-- Escape a fragment. -/
def fragmentText (t : List Char) : String :=
  String.ofList (escapeText (isSafe " \"<>\x60") t)

/-- Escape a path. -/
def pathText (t : List Char) : List Char :=
  escapeText (isSafe " \"<>\x60#?^\x7b\x7d") t

/-- Escape a user name or a password. -/
def credentialText (t : List Char) : String :=
  String.ofList (escapeText (isSafe " \"<>\x60#?^\x7b\x7d/:;=@[\\]|") t)

/-- Escape a query; on the web a single quote is escaped too. -/
def queryText (isWeb : Bool) (t : List Char) : String :=
  String.ofList (escapeText (isSafe (if isWeb then " \"#<>'" else " \"#<>")) t)

/-- Escape a path that is no path of segments: control characters only. -/
def looseText (t : List Char) : String :=
  String.ofList (escapeText (isSafe "") t)

/-! ## Taking an address apart -/

/-- Cut a text at the first of these characters, which is left out. -/
def cut (isMark : Char → Bool) (t : List Char) : List Char × Option (List Char) :=
  let before := t.takeWhile fun c => !isMark c
  match t.drop before.length with
  | [] => (before, none)
  | _ :: behind => (before, some behind)

/-- Is a segment a step that stays, or leads upwards? The points may be
escaped. -/
def steps? (segment : List Char) : Option Nat :=
  let lower := (String.ofList segment).toLower
  if lower = "." ∨ lower = "%2e" then some 0
  else if lower = ".." ∨ lower = ".%2e" ∨ lower = "%2e." ∨ lower = "%2e%2e" then some 1
  else none

/-- **Resolve the steps of a path**; `done` holds the segments so far, last
first. A step at the end leads to a directory. -/
def resolve (done : List (List Char)) : List (List Char) → List (List Char)
  | [] => done.reverse
  | segment :: rest =>
    match steps? segment with
    | some n => resolve (if rest.isEmpty then [] :: done.drop n else done.drop n) rest
    | none => resolve (pathText segment :: done) rest

/-- The written form of a path of segments. -/
def segmentsText (isMark : Char → Bool) (t : List Char) : String :=
  String.ofList ((resolve [] (t.splitOnP isMark)).flatMap ('/' :: ·))

/-- Read a port: the usual one counts as none. -/
def port? (usual : Option Nat) (t : List Char) : Option (Option Nat) :=
  if !t.all Text.isDigit then none
  else
    let n := Text.ofDigits 10 t
    if 65535 < n then none
    else some (if t.isEmpty ∨ usual = some n then none else some n)

/-- Cut a host from its port: at the first colon outside of brackets. -/
def cutPort (t : List Char) : List Char × Option (List Char) :=
  let rec go (inside : Bool) (done : List Char) : List Char → List Char × Option (List Char)
    | [] => (done.reverse, none)
    | c :: rest =>
      if c = ':' ∧ !inside then (done.reverse, some rest)
      else go (if c = '[' then true else if c = ']' then false else inside) (c :: done) rest
  go false [] t

/-- Cut a name and password from the host behind them: at the last at sign. -/
def cutUser (t : List Char) : Option (List Char) × List Char :=
  match t.reverse.span (· ≠ '@') with
  | (_, []) => (none, t)
  | (host, _ :: user) => (some user.reverse, host.reverse)

/-- **Read the place of an address**: name and password, host and port. -/
def placed? (u : Url) (isWeb : Bool) (t : List Char) : Option Url := do
  let (user, place) := cutUser t
  let (name, password) := cut (· = ':') (user.getD [])
  let u := { u with
    user := credentialText name
    password := password.bind fun p => if p.isEmpty then none else some (credentialText p) }
  let (hostPart, portPart) := cutPort place
  if hostPart.isEmpty then
    if isWeb ∨ portPart.isSome ∨ user.any (!·.isEmpty) then none
    else some { u with host := some "" }
  else
    let host ← if isWeb then Host.ofText? hostPart else Host.ofForeignText? hostPart
    let port ← port? (webSchemes.lookup u.scheme) (portPart.getD [])
    some { u with host := some host, port }

/-- Is this a character at which segments of a path on the web are divided? -/
def isSlash (c : Char) : Bool :=
  c = '/' || c = '\\'

/-- Read what follows a scheme of the web. -/
def web? (u : Url) (t : List Char) : Option Url := do
  let t := t.dropWhile isSlash
  let place := t.takeWhile fun c => !isSlash c
  let u ← placed? u true place
  some { u with path := segmentsText isSlash ((t.drop place.length).drop 1) }

/-- Read what follows the scheme of a file. -/
def file? (u : Url) (t : List Char) : Option Url :=
  match t with
  | a :: b :: rest =>
    if isSlash a && isSlash b then do
      let place := rest.takeWhile fun c => !isSlash c
      let host ← if place.isEmpty then some "" else Host.ofText? place
      let path := segmentsText isSlash ((rest.drop place.length).drop 1)
      some { u with host := if host.isEmpty ∨ host = "localhost" then none else some host, path }
    else some { u with path := segmentsText isSlash (if isSlash a then b :: rest else t) }
  | t => some { u with path := segmentsText isSlash (if t.head?.any isSlash then t.drop 1 else t) }

/-- Read what follows any other scheme. -/
def foreign? (u : Url) (t : List Char) : Option Url :=
  match t with
  | '/' :: '/' :: rest => do
    let place := rest.takeWhile (· ≠ '/')
    let u ← placed? u false place
    match rest.drop place.length with
    | [] => some u
    | _ :: path => some { u with path := segmentsText (· = '/') path }
  | '/' :: path => some { u with path := segmentsText (· = '/') path }
  | t => some { u with path := looseText t }

/-- Read a scheme and the colon behind it. -/
def scheme? (t : List Char) : Option (String × List Char) :=
  match cut (· = ':') t with
  | (name, some rest) =>
    if name.head?.any Char.isAlpha
        && name.all (fun c => c.isAlphanum || c = '+' || c = '-' || c = '.') then
      some ((String.ofList name).toLower, rest)
    else none
  | _ => none

/-- **Read an address.** Blanks around it, and tabs and line ends anywhere in
it, do not count. -/
def ofText? (source : String) : Option Url := do
  let isOuter (c : Char) : Bool := c.toNat ≤ 0x20
  let t := source.toList.dropWhile isOuter |>.reverse.dropWhile isOuter |>.reverse
  let t := t.filter fun c => c ≠ '\t' ∧ c ≠ '\n' ∧ c ≠ '\r'
  let (scheme, rest) ← scheme? t
  let (rest, fragment) := cut (· = '#') rest
  let (rest, query) := cut (· = '?') rest
  let isWeb := (webSchemes.lookup scheme).isSome ∨ scheme = "file"
  let u : Url :=
    { scheme
      query := query.map (queryText isWeb)
      fragment := fragment.map fragmentText }
  if (webSchemes.lookup scheme).isSome then web? u rest
  else if scheme = "file" then file? u rest
  else foreign? u rest

/-- **The address without name and password.** -/
def withoutUser (u : Url) : Url :=
  { u with user := "", password := none }

end Url

end Rota.Http
