import Rota.Format
import Rota.Json.Reader

/-!
# Reading values from JSON

The rules by which JSON is read: a record may also be written as the list of
its members, members with unknown names are passed over, and a name given twice
is a fault. A reader goes through the document in order and stops at the first
fault, so that of two faults the earlier one is told.
-/

namespace Rota.Document

variable {α : Type}

/-- **The fault of a value of another kind** than expected. A list or record
is refused at its first character, everything else is read first. -/
def otherKind : Document → Fault
  | number n => if n = .overflow then .malformed else .mismatch
  | text none => .malformed
  | broken => .malformed
  | _ => .mismatch

/-- Read a text. -/
def asText : Document → Except Fault String
  | text (some s) => .ok s
  | other => .error other.otherKind

/-- Read a flag. -/
def asFlag : Document → Except Fault Bool
  | flag b => .ok b
  | other => .error other.otherKind

/-- Read a natural number below a bound. -/
def asNatural (bound : Nat) : Document → Except Fault Nat
  | number (.natural n) => if n < bound then .ok n else .error .mismatch
  | other => .error other.otherKind

/-- Read a value, or `null` for none. -/
def asOption (read : Document → Except Fault α) : Document → Except Fault (Option α)
  | null => .ok none
  | other => (read other).map some

/-- Read a list. -/
def asList (read : Document → Except Fault α) : Document → Except Fault (List α)
  | list items closed => do
    let values ← items.mapM read
    if closed then return values else throw .malformed
  | buried _ => .error .malformed
  | other => .error other.otherKind

/-- Read `null`, as the given value. -/
def asNull (value : α) : Document → Except Fault α
  | null => .ok value
  | other => .error other.otherKind

/-- **Read one of several forms**: a word alone, or a record whose only member
has the name of a form and holds what belongs to it. A word may also be the
name of a member that holds `null`. -/
def asVariant (words : List (String × α)) (holding : List (String × (Document → Except Fault α))) :
    Document → Except Fault α
  | text (some s) => (words.lookup s).elim (.error .mismatch) .ok
  | record ((some s, value) :: rest) closed =>
    match (words.lookup s).elim (holding.lookup s) fun a => some (asNull a) with
    | none => .error .mismatch
    | some read => do
      let a ← read value
      if rest.isEmpty && closed then return a else throw .malformed
  | _ => .error .malformed

/-- Read one of several names. -/
def asWord (names : List (String × α)) : Document → Except Fault α :=
  asVariant names []

/-- **Go through the members of a record**: each known one is checked when it
is met, and met once only; unknown ones need an intact text. The answer holds
the known members. -/
def collect (fields : List (Field Document)) (met : List (String × Document)) :
    List (Option String × Document) → Except Fault (List (String × Document))
  | [] => .ok met
  | (none, _) :: _ => .error .malformed
  | (some name, value) :: rest =>
    match fields.find? (fun f => f.name == name) with
    | none => if value.isIntact then collect fields met rest else .error .malformed
    | some f =>
      if (met.lookup name).isSome then .error .mismatch
      else do
        f.check value
        collect fields ((name, value) :: met) rest

/-- **Go through a record written as a list**: each item is checked against
the member whose turn it is. Members may be missing at the end only where they
are optional. -/
def collectInOrder (closed : Bool) (met : List (String × Document)) :
    List (Field Document) → List Document → Except Fault (List (String × Document))
  | f :: fields, item :: items => do
    f.check item
    collectInOrder closed ((f.name, item) :: met) fields items
  | [], [] => if closed then .ok met else .error .malformed
  | [], _ :: _ => .error .malformed
  | f :: fields, [] =>
    if !closed then .error .malformed
    else if f.optional then collectInOrder closed met fields []
    else .error .mismatch

/-- **Read a record.** -/
def asRecord (fields : Fields Document α) : Document → Except Fault α
  | record members closed => do
    let met ← collect fields.known [] members
    if closed then fields.build fun name => met.lookup name else throw .malformed
  | list items closed => do
    let met ← collectInOrder closed [] fields.known items
    fields.build fun name => met.lookup name
  | buried _ => .error .malformed
  | other => .error other.otherKind

instance : Tree Document where
  text := asText
  flag := asFlag
  natural := asNatural
  optional := asOption
  list := asList
  word := asWord
  record := asRecord

/-- **Read a whole text** as a value; nothing may follow it. -/
def parse (read : Document → Except Fault α) (source : String) : Except Fault α := do
  let (document, alone) := ofText source
  let value ← read document
  if alone then return value else throw .malformed

end Rota.Document
