import Rota.Toml.Lexical
import Rota.Toml.Table

/-!
# Reading TOML texts

A TOML text is read line by line: headers open tables, all other lines add a
value to the table that is open. There is no result if the text breaks a rule
anywhere.
-/

namespace Rota.Toml

open Text (Piece)
open Lexical (skipSpace skipLines endLine dottedName maxDepth)

/-- A value that stands for itself: a text, a flag, a number or a date. -/
def scalar : Piece Toml := fun chars =>
  match chars with
  | '"' :: _ | '\'' :: _ => (Lexical.quotedText chars).map fun (s, rest) => (text s, rest)
  | 't' :: 'r' :: 'u' :: 'e' :: rest => some (flag true, rest)
  | 'f' :: 'a' :: 'l' :: 's' :: 'e' :: rest => some (flag false, rest)
  | _ =>
    match Lexical.moment chars with
    | some ((), rest) => some (Toml.moment, rest)
    | none =>
      match Lexical.fraction chars with
      | some ((), rest) => some (Toml.fraction, rest)
      | none => (Lexical.integer chars).map fun (n, rest) => (Toml.integer n, rest)

mutual

/-- **Read a value** inside so many lists and tables. -/
def readValue : Nat → Nat → Piece Toml
  | 0, _, _ => none
  | fuel + 1, depth, chars =>
    match chars with
    | '[' :: rest =>
      if maxDepth ≤ depth + 1 then none else readItems fuel (depth + 1) [] rest
    | '{' :: rest =>
      if maxDepth ≤ depth + 1 then none
      else match skipSpace rest with
        | '}' :: rest => some (table [], rest)
        | rest => readPairs fuel (depth + 1) [] rest
    | chars => scalar chars

/-- Read the items of a list; `done` holds those read, last first. A comma may
stand behind the last one. -/
def readItems : Nat → Nat → List Toml → Piece Toml
  | 0, _, _, _ => none
  | fuel + 1, depth, done, chars =>
    match skipLines false chars with
    | none => none
    | some (']' :: rest) => some (list done.reverse, rest)
    | some chars =>
      match readValue fuel depth chars with
      | none => none
      | some (item, rest) =>
        match skipLines false rest with
        | some (',' :: rest) => readItems fuel depth (item :: done) rest
        | some (']' :: rest) => some (list (item :: done).reverse, rest)
        | _ => none

/-- Read the entries of a table on one line. No comma may stand behind the last
one. -/
def readPairs : Nat → Nat → Entries → Piece Toml
  | 0, _, _, _ => none
  | fuel + 1, depth, entries, chars =>
    match dottedName chars with
    | some ((path, name), '=' :: rest) =>
      match readValue fuel depth (skipSpace rest) with
      | none => none
      | some (v, rest) =>
        match addValue path name v .opened entries with
        | none => none
        | some entries =>
          match skipSpace rest with
          | ',' :: rest => readPairs fuel depth entries rest
          | '}' :: rest => some ((Node.table .opened entries).finish, rest)
          | _ => none
    | _ => none

end

/-- **A text in the making**: its tables, and the path of the open one. -/
structure Draft where
  root : Entries := []
  opened : List String := []

/-- Add a value to the open table. -/
def Draft.add (d : Draft) (path : List String) (name : String) (v : Toml) : Option Draft :=
  (descend false (addValue path name v) d.opened .opened d.root).map fun root => { d with root }

/-- **Read one line** that is not blank: a header, or a name with its value. -/
def readLine (d : Draft) (chars : List Char) : Option (Draft × List Char) := do
  match chars with
  | '[' :: '[' :: rest =>
    match ← dottedName rest with
    | ((path, name), ']' :: ']' :: rest) =>
      let root ← openNext path name d.root
      let rest ← endLine false rest
      return ({ root, opened := path ++ [name] }, rest)
    | _ => none
  | '[' :: rest =>
    match ← dottedName rest with
    | ((path, name), ']' :: rest) =>
      let root ← openTable path name d.root
      let rest ← endLine false rest
      return ({ root, opened := path ++ [name] }, rest)
    | _ => none
  | _ =>
    match ← dottedName chars with
    | ((path, name), '=' :: rest) =>
      let rest := skipSpace rest
      let (v, rest) ← readValue (2 * rest.length + 2) 0 rest
      let rest ← endLine false rest
      let d ← d.add path name v
      return (d, rest)
    | _ => none

/-- Read all lines. -/
def readLines : Nat → Draft → List Char → Option Draft
  | 0, _, _ => none
  | fuel + 1, d, chars =>
    match skipSpace chars with
    | [] => some d
    | c :: rest =>
      if c = '\n' ∨ c = '\r' ∨ c = '#' then
        match endLine false (c :: rest) with
        | some rest => readLines fuel d rest
        | none => none
      else
        match readLine d (c :: rest) with
        | some (d, rest) => readLines fuel d rest
        | none => none

/-- **Read a whole text**, which may begin with a byte order mark. -/
def ofText? (source : String) : Option Toml :=
  let chars := match source.toList with
    | c :: rest => if c.toNat = 0xFEFF then rest else c :: rest
    | [] => []
  (readLines (chars.length + 1) {} chars).map fun d => (Node.table .opened d.root).finish

end Rota.Toml
