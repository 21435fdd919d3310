import Rota.Identity
import Rota.Keyed

/-!
# The cache of identities

The people whom the directory has named so far, each with the time at which it
did so. There is one entry for each id, and an index that leads from an email
address to the id of its owner. Addresses move: a person may get a new one, and
an address may pass to somebody else. An address then leads to its latest owner
only, and a person who lost the last address is forgotten.
-/

namespace Rota.Directory

/-- A remembered person, and when the directory named them. -/
structure Remembered where
  person : Identity
  /-- The time in milliseconds. -/
  since : Nat
  deriving DecidableEq, Repr, Inhabited

/-- **The cache of identities.** -/
structure Cache where
  /-- The entries, by id. -/
  byId : Keyed Remembered := ∅
  /-- The ids, by email address. -/
  idByEmail : Keyed String := ∅
  deriving Inhabited

namespace Cache

/-- The number of people remembered. -/
def size (c : Cache) : Nat :=
  c.byId.size

/-- The entry of a key. -/
def get? (c : Cache) : Key → Option Remembered
  | .userId id => c.byId.get? id
  | .email address => (c.idByEmail.get? address).bind c.byId.get?

/-- **Unlink the former address** of a person who has a new one. -/
def dropStaleEmail (c : Cache) (person : Identity) : Cache :=
  match c.byId.get? person.id with
  | some former =>
    if former.person.email ≠ person.email
        ∧ c.idByEmail.get? former.person.email = some person.id then
      { c with idByEmail := c.idByEmail.erase former.person.email }
    else c
  | none => c

/-- **Forget the former owner** of an address that has passed to this person. -/
def dropFormerOwner (c : Cache) (person : Identity) : Cache :=
  match c.idByEmail.get? person.email with
  | some owner => if owner ≠ person.id then { c with byId := c.byId.erase owner } else c
  | none => c

/-- **Remember a person**, in place of whatever was known under the same id or
the same address. -/
def insert (c : Cache) (now : Nat) (person : Identity) : Cache :=
  let c := (c.dropStaleEmail person).dropFormerOwner person
  { byId := c.byId.put person.id { person, since := now }
    idByEmail := c.idByEmail.put person.email person.id }

end Cache

end Rota.Directory
