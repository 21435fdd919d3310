import Rota.Failure
import Rota.Identity
import Rota.Keyed

/-!
# The table of users

Everybody whom the directory knows, by id. No two rows share an id, and no two
rows share an email address. A user who has been disabled keeps the row, and
with it the address, but cannot be found any more.

A user list, of which each entry tells of one user, is taken over as a whole or
not at all. It brings the address, the login and the role of a user. It knows
nothing of phone numbers and chat handles, which stay as they are.
-/

namespace Rota.Directory

/-- **An entry of a user list.** -/
structure Entry where
  id : String
  name : String := ""
  login : String := ""
  email : String
  isAdmin : Bool := false
  isDisabled : Bool := false
  deriving DecidableEq, Repr, Inhabited

/-- The role of the user in the directory. -/
def Entry.role (e : Entry) : String :=
  if e.isAdmin then "admin" else "user"

/-- **Can the entry be taken over?** Its email address needs an at sign. -/
def Entry.isUsable (e : Entry) : Bool :=
  e.email.toList.contains '@'

/-- **A row**: a person, and whether they can be found. -/
structure Row where
  person : Identity
  active : Bool := true
  deriving DecidableEq, Repr, Inhabited

/-- The row of a user whom only a user list tells of. -/
def Row.ofEntry (e : Entry) : Row where
  person := { id := e.id, email := e.email, username := e.login, role := e.role }
  active := !e.isDisabled

/-- **What a user list changes** in the row of a user. -/
def Row.update (r : Row) (e : Entry) : Row where
  person := { r.person with email := e.email, username := e.login, role := e.role }
  active := !e.isDisabled

/-- **What came of taking over a user list.** -/
structure ImportReport where
  inserted : Nat := 0
  updated : Nat := 0
  disabled : Nat := 0
  skipped : Nat := 0
  deriving DecidableEq, Repr, Inhabited

/-- **Why the table refuses something.** -/
inductive Refusal where
  /-- There is no table. -/
  | noTable
  /-- Another row has the address. -/
  | emailTaken
  deriving DecidableEq, Repr, Inhabited

/-- The text of a refusal. -/
def Refusal.message : Refusal → String
  | noTable => "no such table: users"
  | emailTaken => "UNIQUE constraint failed: users.email"

/-- The failure of the operation at which the table refused something. -/
def Refusal.at (r : Refusal) (operation id : String) : Failure :=
  .directory (operation ++ " " ++ id ++ ": " ++ r.message)

/-- **The table of users.** -/
structure Table where
  /-- The rows, by the id of the person. -/
  rows : Keyed Row := ∅
  deriving Inhabited

namespace Table

/-- The rows in order. -/
def toList (t : Table) : List Row :=
  t.rows.entries.map Prod.snd

/-- The row of an id. -/
def row? (t : Table) (id : String) : Option Row :=
  t.rows.get? id

/-- Does a row with another id have the address? -/
def isTaken (t : Table) (email id : String) : Bool :=
  t.rows.entries.any fun (key, r) => key != id && r.person.email == email

/-- **Put a row** in place of the one with the same id, if there is one. -/
def put (t : Table) (r : Row) : Except Refusal Table :=
  if t.isTaken r.person.email r.person.id then .error .emailTaken
  else .ok { rows := t.rows.put r.person.id r }

/-- **Find a person** by a key. -/
def find? (t : Table) (key : Key) : Option Identity :=
  (t.toList.find? fun r => r.active && r.person.isNamedBy key).map Row.person

/-- The number of people who can be found. -/
def count (t : Table) : Nat :=
  t.toList.countP Row.active

/-- **Insert or replace a person.** They can be found from then on. -/
def upsert (t : Table) (person : Identity) : Except Failure Table :=
  (t.put { person }).mapError (·.at "upsert" person.id)

/-- **Take over one entry** of a user list. -/
def takeOver (t : Table) (report : ImportReport) (e : Entry) :
    Except Failure (Table × ImportReport) :=
  if !e.isUsable then .ok (t, { report with skipped := report.skipped + 1 })
  else
    let report := if e.isDisabled then { report with disabled := report.disabled + 1 } else report
    match t.row? e.id with
    | some r =>
      (t.put (r.update e)).mapError (·.at "update" e.id) |>.map fun t =>
        (t, { report with updated := report.updated + 1 })
    | none =>
      (t.put (.ofEntry e)).mapError (·.at "insert" e.id) |>.map fun t =>
        (t, { report with inserted := report.inserted + 1 })

/-- **Take over a user list**, entry by entry; the first one that is refused
makes it all fail. -/
def importAll (t : Table) (entries : List Entry) : Except Failure (Table × ImportReport) :=
  entries.foldlM (fun (t, report) e => t.takeOver report e) (t, {})

end Table

end Rota.Directory
