/-!
# Formats of values

How a value of the domain is read from a tree of plain values – texts, flags,
numbers, lists and records – whatever the language is in which the tree was
written. `Tree` is what such a language offers; a `Fields` value describes the
members of a record once, and every language reads it by its own rules.

A reader fails with one of two faults: the text itself is malformed, or a value
in it is not of the kind that was expected. Which of them is told is decided by
what comes first in the text.
-/

namespace Rota

/-- **What is wrong with a text** that should hold a value. -/
inductive Fault where
  /-- The text does not follow the rules of its language. -/
  | malformed
  /-- A value is not of the expected kind, or is missing, or occurs twice. -/
  | mismatch
  deriving DecidableEq, Repr, Inhabited

/-- A member of a record: its name, the check that its value has to pass, and
whether it may be left out of a record that is written as a list. -/
structure Field (τ : Type) where
  name : String
  check : τ → Except Fault Unit
  optional : Bool

/-- **The members of a record** from which a value of `α` is built. The members
are listed in the order in which they stand in a record written as a list. -/
structure Fields (τ α : Type) where
  known : List (Field τ)
  build : (String → Option τ) → Except Fault α

namespace Fields

variable {τ α β : Type}

/-- Build a further value from the same members. -/
def map (f : α → β) (fields : Fields τ α) : Fields τ β where
  known := fields.known
  build get := (fields.build get).map f

/-- Join the members of two records. -/
def seq (fields : Fields τ (α → β)) (more : Unit → Fields τ α) : Fields τ β where
  known := fields.known ++ (more ()).known
  build get := do
    let f ← fields.build get
    let a ← (more ()).build get
    return f a

instance : Functor (Fields τ) where
  map := map

instance : Seq (Fields τ) where
  seq := seq

/-- A member with a reader for its value, and what to do without it. -/
def member (name : String) (read : τ → Except Fault α) (absent : Except Fault α)
    (optional : Bool) : Fields τ α where
  known := [{ name, check := fun value => (read value).map fun _ => (), optional }]
  build get :=
    match get name with
    | some value => read value
    | none => absent

/-- **A member that must be there.** -/
def required (name : String) (read : τ → Except Fault α) : Fields τ α :=
  member name read (.error .mismatch) false

/-- **A member with a value to fall back on.** -/
def withDefault (name : String) (read : τ → Except Fault α) (value : α) : Fields τ α :=
  member name read (.ok value) true

/-- A member that may be missing in a record with names, but not in a record
written as a list. -/
def optionalByName (name : String) (read : τ → Except Fault (Option α)) :
    Fields τ (Option α) :=
  member name read (.ok none) false

end Fields

/-- **A language of plain values.** -/
class Tree (τ : Type) where
  /-- Read a text. -/
  text : τ → Except Fault String
  /-- Read a flag. -/
  flag : τ → Except Fault Bool
  /-- Read a natural number below a bound. -/
  natural (bound : Nat) : τ → Except Fault Nat
  /-- Read a value that may be absent. -/
  optional {α : Type} (read : τ → Except Fault α) : τ → Except Fault (Option α)
  /-- Read a list. -/
  list {α : Type} (read : τ → Except Fault α) : τ → Except Fault (List α)
  /-- Read one of several names. -/
  word {α : Type} (names : List (String × α)) : τ → Except Fault α
  /-- Read a record. -/
  record {α : Type} (fields : Fields τ α) : τ → Except Fault α

namespace Tree

variable {τ : Type} [Tree τ]

/-- Read a number of 16 bits. -/
def uint16 (value : τ) : Except Fault UInt16 :=
  (natural UInt16.size value).map UInt16.ofNat

/-- Read a number of 64 bits. -/
def uint64 (value : τ) : Except Fault UInt64 :=
  (natural UInt64.size value).map UInt64.ofNat

end Tree

end Rota
