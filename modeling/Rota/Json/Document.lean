import Rota.Json.Numeral

/-!
# JSON texts

What is found in a text that should be JSON, *with its faults left in place*.
A reader that goes through a document in order can thus decide at the first
thing that is wrong, be it the text itself or a value of the wrong kind.

A list or a record knows whether it was closed properly; if not, its text is
broken behind the last thing listed. A text knows whether it holds half of a
surrogate pair, a number whether it is out of range: both are faults only where
the value is wanted.
-/

namespace Rota

/-- **What is found in a JSON text.** -/
inductive Document where
  | null
  | flag (b : Bool)
  | number (n : Numeral)
  /-- A quoted text; none, if it holds half of a surrogate pair. -/
  | text (s : Option String)
  | list (items : List Document) (closed : Bool)
  | record (members : List (Option String × Document)) (closed : Bool)
  /-- A list or record nested too deep to be read. -/
  | buried (intact : Bool)
  /-- No value at all. -/
  | broken
  deriving Repr, Inhabited

namespace Document

/-- Lists and records may be nested in less than this many levels. -/
def maxDepth : Nat := 128

mutual

/-- **Is the text of the value in order?** This is all that is asked of a value
that nobody wants. -/
def isIntact : Document → Bool
  | list items closed => areIntact items && closed
  | record members closed => membersIntact members && closed
  | buried intact => intact
  | broken => false
  | _ => true

/-- Are the texts of all these values in order? -/
def areIntact : List Document → Bool
  | [] => true
  | item :: rest => item.isIntact && areIntact rest

/-- Are the texts of all these members in order? -/
def membersIntact : List (Option String × Document) → Bool
  | [] => true
  | (_, value) :: rest => value.isIntact && membersIntact rest

end

mutual

/-- **Can the value be read in full?** Its text is in order, nothing in it is
out of range or nested too deep, and no surrogate stands alone. -/
def isSound : Document → Bool
  | list items closed => areSound items && closed
  | record members closed => membersSound members && closed
  | text s => s.isSome
  | number n => n != .overflow
  | buried _ => false
  | broken => false
  | _ => true

/-- Can all these values be read in full? -/
def areSound : List Document → Bool
  | [] => true
  | item :: rest => item.isSound && areSound rest

/-- Can all these members be read in full? -/
def membersSound : List (Option String × Document) → Bool
  | [] => true
  | (name, value) :: rest => name.isSome && value.isSound && membersSound rest

end

/-- The value of a member, if the document is a record that has one of this
name. -/
def member? (d : Document) (name : String) : Option Document :=
  match d with
  | record members _ => members.lookup (some name)
  | _ => none

end Document

end Rota
