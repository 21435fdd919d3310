import Rota.Format
import Rota.Toml.Reader

/-!
# Reading values from TOML

The rules by which TOML is read. There is no value for nothing: what is absent
is left out. A record may also be written as the list of its members, with
further items passed over, and a date counts as a record without members.
-/

namespace Rota.Toml

variable {α : Type}

/-- Read a text. -/
def asText : Toml → Except Fault String
  | text s => .ok s
  | _ => .error .mismatch

/-- Read a flag. -/
def asFlag : Toml → Except Fault Bool
  | flag b => .ok b
  | _ => .error .mismatch

/-- Read a natural number below a bound. -/
def asNatural (bound : Nat) : Toml → Except Fault Nat
  | integer n => if 0 ≤ n ∧ n < bound then .ok n.toNat else .error .mismatch
  | _ => .error .mismatch

/-- Read a list. -/
def asList (read : Toml → Except Fault α) : Toml → Except Fault (List α)
  | list items => items.mapM read
  | _ => .error .mismatch

/-- **Read one of several names**: a text, or a table with an empty table or
list under the name as its only entry. -/
def asWord (names : List (String × α)) : Toml → Except Fault α
  | text s => (names.lookup s).elim (.error .mismatch) .ok
  | table [(s, table [])] => (names.lookup s).elim (.error .mismatch) .ok
  | table [(s, list [])] => (names.lookup s).elim (.error .mismatch) .ok
  | _ => .error .mismatch

/-- The members of a record that is written as a list. -/
def inOrder : List (Field Toml) → List Toml → Except Fault (List (String × Toml))
  | f :: fields, item :: items => (inOrder fields items).map ((f.name, item) :: ·)
  | [], _ => .ok []
  | f :: fields, [] => if f.optional then inOrder fields [] else .error .mismatch

/-- **Read a record.** -/
def asRecord (fields : Fields Toml α) : Toml → Except Fault α
  | table entries => fields.build fun name => entries.lookup name
  | list items => do
    let met ← inOrder fields.known items
    fields.build fun name => met.lookup name
  | moment => fields.build fun _ => none
  | _ => .error .mismatch

instance : Tree Toml where
  text := asText
  flag := asFlag
  natural := asNatural
  optional read value := (read value).map some
  list := asList
  word := asWord
  record := asRecord

/-- **Read a whole text** as a value. -/
def parse (read : Toml → Except Fault α) (source : String) : Except Fault α :=
  match ofText? source with
  | some value => read value
  | none => .error .malformed

end Rota.Toml
