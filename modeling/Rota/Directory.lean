import Rota.Directory.Table

/-!
# The directory

Where people are looked up. The table behind it may be removed while the
service runs; every operation that needs it fails then, until the directory is
opened anew.
-/

namespace Rota

/-- **A directory**: the table of users, unless it has been removed. -/
structure Directory where
  users : Option Directory.Table := some {}
  deriving Inhabited

namespace Directory

/-- The table, or the failure to find it. -/
def table (d : Directory) : Except Failure Table :=
  d.users.elim (.error (.directory Refusal.noTable.message)) .ok

/-- Open the directory anew: a table that is missing is created. -/
def reopen (d : Directory) : Directory :=
  { users := some (d.users.getD {}) }

/-- Remove the table. -/
def dropTable (_ : Directory) : Directory :=
  { users := none }

/-- **Insert or replace a person.** -/
def upsert (d : Directory) (person : Identity) : Except Failure Directory :=
  match d.users with
  | some t => (t.upsert person).map fun t => { users := some t }
  | none => .error (Refusal.noTable.at "upsert" person.id)

/-- **Take over a user list.** Without a table this goes well as long as no
entry can be used. -/
def importAll (d : Directory) (entries : List Entry) : Except Failure (Directory × ImportReport) :=
  if entries.any Entry.isUsable then do
    let (t, report) ← (← d.table).importAll entries
    return ({ users := some t }, report)
  else .ok (d, { skipped := entries.length })

/-- **Look a person up.** -/
def lookup (d : Directory) (key : Key) : Except Failure Identity := do
  match (← d.table).find? key with
  | some person => return person
  | none => throw (.unknownPerson key.text)

/-- The number of people who can be found. -/
def count (d : Directory) : Except Failure Nat :=
  d.table.map Table.count

end Directory

end Rota
