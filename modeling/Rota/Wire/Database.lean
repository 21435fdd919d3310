import Rota.Directory.Table
import Rota.Json.Format
import Rota.Wire.Audit
import Rota.Wire.Identity

/-!
# Databases

The tables of the service, as they are kept in a file. Both tables may be kept
in one file. An empty file is a database without tables.
-/

namespace Rota

/-- **A database**: its tables, as far as they exist. -/
structure Database where
  users : Option Directory.Table := none
  events : Option (List Audit.Row) := none
  deriving Inhabited

/-- A row of the users in JSON. -/
def Directory.Row.toJson (r : Directory.Row) : Json :=
  .record [("person", r.person.toJson), ("active", .flag r.active)]

/-- Read a row of the users. -/
def Directory.Row.read : Document → Except Fault Directory.Row :=
  Tree.record (Directory.Row.mk <$> .required "person" Identity.read
    <*> .required "active" Tree.flag)

namespace Database

/-- **The text of a database.** -/
def text (d : Database) : String :=
  (Json.record
    [("users", d.users.elim .null fun t => .list (t.toList.map Directory.Row.toJson)),
      ("events", d.events.elim .null fun rows => .list (rows.map Audit.Row.toJson))]).render

/-- The table with these rows, where of two rows with one id the later one
counts. -/
def tableOf (rows : List Directory.Row) : Directory.Table :=
  { rows := rows.foldl (fun (m : Keyed Directory.Row) r => m.put r.person.id r) ∅ }

/-- The members of a database. -/
def fields : Fields Document Database :=
  (fun users events => { users := users.map tableOf, events }) <$>
    .required "users" (Tree.optional (Tree.list Directory.Row.read))
    <*> .required "events" (Tree.optional (Tree.list Audit.Row.read))

/-- **Read the text of a database.** -/
def ofText? (text : String) : Option Database :=
  if text.isEmpty then some {} else (Document.parse (Tree.record fields) text).toOption

end Database

end Rota
