import Rota.Audit.Log
import Rota.Wire.Event

/-!
# The audit log in JSON

Records as they are listed, and the rows in which the log keeps them.
-/

namespace Rota.Audit

/-- **A record in JSON.** -/
def Record.toJson (r : Record) : Json :=
  .record [("timestamp", r.time.toJson), ("user_id", .text r.userId),
    ("recipient", .text r.recipient), ("channel", .text r.channel), ("success", .flag r.success),
    ("message", .text r.message)]

/-- The members of a record. -/
def Record.fields : Fields Document Record :=
  Record.mk <$> .required "timestamp" Time.Timestamp.read
    <*> .required "user_id" Tree.text
    <*> .required "recipient" Tree.text
    <*> .required "channel" Tree.text
    <*> .required "success" Tree.flag
    <*> .required "message" Tree.text

/-- Read a record. -/
def Record.read : Document → Except Fault Record :=
  Tree.record Record.fields

/-- A row of the log in JSON. -/
def Row.toJson (r : Row) : Json :=
  .record [("date", .text r.date), ("record", r.record.toJson)]

/-- Read a row of the log. -/
def Row.read : Document → Except Fault Row :=
  Tree.record (Row.mk <$> .required "date" Tree.text <*> .required "record" Record.read)

end Rota.Audit
