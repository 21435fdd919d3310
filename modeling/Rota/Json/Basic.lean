import Rota.Text.Characters

/-!
# JSON values

The values that are written as JSON, and their compact text. Numbers are the
natural numbers, the only ones that occur. Members of a record are written in
the order in which they are given.
-/

namespace Rota

/-- **A value to be written as JSON.** -/
inductive Json where
  | null
  | flag (b : Bool)
  | number (n : Nat)
  | text (s : String)
  | list (items : List Json)
  | record (members : List (String × Json))
  deriving Repr, Inhabited

namespace Json

/-- A text, or nothing. -/
def ofOption : Option String → Json
  | none => null
  | some s => text s

/-- A list of texts. -/
def texts (items : List String) : Json :=
  list (items.map text)

/-- A member that is left out when there is no value. -/
def optionalMember (name : String) : Option String → List (String × Json)
  | none => []
  | some s => [(name, text s)]

/-- **A character inside a quoted text.** Quotes, backslashes and control
characters are escaped. -/
def quoteChar (c : Char) : List Char :=
  if c = '"' then ['\\', '"']
  else if c = '\\' then ['\\', '\\']
  else if c = '\n' then ['\\', 'n']
  else if c = '\r' then ['\\', 'r']
  else if c = '\t' then ['\\', 't']
  else if c = Char.ofNat 8 then ['\\', 'b']
  else if c = Char.ofNat 12 then ['\\', 'f']
  else if c.toNat < 0x20 then
    ['\\', 'u', '0', '0', Text.hexDigit false (c.toNat / 16), Text.hexDigit false (c.toNat % 16)]
  else [c]

/-- A text in quotes. -/
def quote (s : String) : String :=
  String.ofList ('"' :: s.toList.flatMap quoteChar ++ ['"'])

mutual

/-- **The compact text of a value.** -/
def render : Json → String
  | null => "null"
  | flag true => "true"
  | flag false => "false"
  | number n => toString n
  | text s => quote s
  | list items => "[" ++ renderItems items ++ "]"
  | record members => "\x7b" ++ renderMembers members ++ "\x7d"

/-- The items of a list, with commas between them. -/
def renderItems : List Json → String
  | [] => ""
  | [item] => item.render
  | item :: rest => item.render ++ "," ++ renderItems rest

/-- The members of a record, with commas between them. -/
def renderMembers : List (String × Json) → String
  | [] => ""
  | [(name, value)] => quote name ++ ":" ++ value.render
  | (name, value) :: rest => quote name ++ ":" ++ value.render ++ "," ++ renderMembers rest

end

mutual

/-- The same value with the members of every record sorted by name. -/
def sorted : Json → Json
  | list items => list (sortedItems items)
  | record members =>
    record ((sortedMembers members).mergeSort fun a b => decide (a.1 ≤ b.1))
  | other => other

/-- Every item with its members sorted. -/
def sortedItems : List Json → List Json
  | [] => []
  | item :: rest => item.sorted :: sortedItems rest

/-- Every member with the members inside it sorted. -/
def sortedMembers : List (String × Json) → List (String × Json)
  | [] => []
  | (name, value) :: rest => (name, value.sorted) :: sortedMembers rest

end

end Json

end Rota
