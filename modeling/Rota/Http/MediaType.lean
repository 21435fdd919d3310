import Rota.Text.Characters

/-!
# Media types

The type of a body, as a header names it: a kind and a form of it, such as
`application/json`, perhaps with parameters behind. A form may name a more
general one behind a plus sign.
-/

namespace Rota.Http

/-- May the character stand in a name? -/
def isToken (c : Char) : Bool :=
  c.isAlphanum || "!#$%&'*+-.^_\x60|~".toList.contains c

/-- **A media type**, in small letters and without its parameters. -/
structure MediaType where
  kind : String
  form : String
  /-- The more general form. -/
  general : Option String := none
  deriving DecidableEq, Repr, Inhabited

namespace MediaType

/-- May the character stand in a quoted value? -/
def isQuotable (c : Char) : Bool :=
  0x1F < c.toNat && c.toNat ≠ 0x7F

/-- Read the rest of a quoted value, and the blanks and the semicolon behind
it. -/
def quotedRest? : List Char → Option (List Char)
  | [] => none
  | c :: rest =>
    if c = '"' then
      match rest.dropWhile (· = ' ') with
      | [] => some []
      | d :: behind => if d = ';' then some behind else none
    else if isQuotable c then quotedRest? rest
    else none

/-- Read the value of a parameter, and the semicolon behind it. A quoted value
has at least one character, which may be a quote. -/
def value? (text : List Char) : Option (List Char) :=
  match text with
  | '"' :: c :: rest => if isQuotable c then quotedRest? rest else none
  | _ =>
    let value := text.takeWhile isToken
    match text.drop value.length with
    | [] => some []
    | c :: behind => if c = ';' ∧ !value.isEmpty then some behind else none

/-- Are these proper parameters? The fuel is at least the number of
characters. -/
def areParameters : Nat → List Char → Bool
  | 0, text => text.isEmpty
  | fuel + 1, text =>
    match text.dropWhile (· = ' ') with
    | [] => true
    | text =>
      let name := text.takeWhile isToken
      match text.drop name.length with
      | c :: behind =>
        !name.isEmpty && c = '=' && (value? behind).any (areParameters fuel)
      | [] => false

/-- Cut a form from the more general one behind the last plus sign. -/
def cutForm (form : List Char) : List Char × Option (List Char) :=
  match form.reverse.span (· ≠ '+') with
  | (_, []) => (form, none)
  | (_, [_]) => (form, none)
  | (general, _ :: front) => (front.reverse, some general.reverse)

/-- **Read a media type.** -/
def ofText? (source : String) : Option MediaType :=
  let text := source.toList
  let kind := text.takeWhile isToken
  match text.drop kind.length with
  | '/' :: behind =>
    let form := behind.takeWhile isToken
    let isProper := match behind.drop form.length with
      | [] => true
      | ';' :: parameters => areParameters parameters.length parameters
      | _ => false
    if isProper && !kind.isEmpty && (!form.isEmpty || behind.isEmpty) then
      let lower (t : List Char) : String := (String.ofList t).toLower
      let (form, general) := cutForm form
      some { kind := lower kind, form := lower form, general := general.map lower }
    else none
  | _ => none

/-- **Is this JSON?** -/
def isJson (m : MediaType) : Bool :=
  m.kind = "application" && (m.form = "json" || m.general = some "json")

end MediaType

end Rota.Http
