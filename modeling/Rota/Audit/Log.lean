import Rota.Audit.Record
import Rota.Failure
import Rota.Time.Reading

/-!
# The audit log

The table in which audit records are kept. A row holds its time as text: it is
written with the record, and read again when the record is asked for. A text
that is no time reads as the epoch.
-/

namespace Rota.Audit

/-- **A row of the log.** -/
structure Row where
  /-- The time, as text. -/
  date : String
  record : Record
  deriving DecidableEq, Repr, Inhabited

/-- The row of a record. -/
def Row.of (r : Record) : Row :=
  { date := r.time.storedText, record := r }

/-- **Read the record of a row.** -/
def Row.toRecord (r : Row) : Record :=
  { r.record with time := (Time.Timestamp.ofStored? r.date).getD .epoch }

/-- **The audit log**: its rows, the oldest first, unless the table has been
removed. -/
structure Log where
  rows : Option (List Row) := some []
  deriving Inhabited

namespace Log

/-- What is said when there is no table. -/
def noTable : String :=
  "no such table: events"

/-- Open the log anew: a table that is missing is created. -/
def reopen (l : Log) : Log :=
  { rows := some (l.rows.getD []) }

/-- Remove the table. -/
def dropTable (_ : Log) : Log :=
  { rows := none }

/-- Give all rows one and the same time, as text. -/
def setDate (l : Log) (date : String) : Log :=
  { rows := l.rows.map fun rows => rows.map ({ · with date }) }

/-- **Append a record.** -/
def append (l : Log) (r : Record) : Except Failure Log :=
  match l.rows with
  | some rows => .ok { rows := some (rows ++ [.of r]) }
  | none => .error (.audit ("insert: " ++ noTable))

/-- The number of records. -/
def count (l : Log) : Except Failure Nat :=
  l.rows.elim (.error (.audit noTable)) fun rows => .ok rows.length

/-- **The latest records**, newest first, as many as are asked for. A number of
2^63 and more means all of them. -/
def recent (l : Log) (limit : UInt64) : Except Failure (List Record) :=
  l.rows.elim (.error (.audit noTable)) fun rows =>
    let latest := rows.reverse
    .ok ((if limit.toNat < Nat.pow 2 63 then latest.take limit.toNat else latest).map Row.toRecord)

end Log

end Rota.Audit
