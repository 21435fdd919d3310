import Rota.Roster.Duty
import Rota.Wire.Event

/-!
# Rosters in JSON

How rosters, their targets and their changes are written and read.
-/

namespace Rota.Roster

/-- A target in JSON. -/
def Target.toJson (t : Target) : Json :=
  .record [("transport", t.medium.toJson), ("callback_url", .ofOption t.callbackUrl)]

/-- The members of a target. -/
def Target.fields : Fields Document Target :=
  Target.mk <$> .required "transport" Medium.read
    <*> .withDefault "callback_url" (Tree.optional Tree.text) none

/-- Read a target. -/
def Target.read : Document → Except Fault Target :=
  Tree.record Target.fields

/-- **A roster in JSON.** -/
def Snapshot.toJson (s : Snapshot) : Json :=
  .record [("schedule_id", .text s.scheduleId), ("name", .text s.name),
    ("time_zone", .text s.timeZone), ("members", .texts s.members),
    ("delivery", s.target.toJson), ("fetched_at", s.fetched.toJson)]

/-- The members of a roster. -/
def Snapshot.fields : Fields Document Snapshot :=
  (fun id name zone members target fetched => Snapshot.mk id name members zone target fetched)
    <$> .required "schedule_id" Tree.text
    <*> .required "name" Tree.text
    <*> .required "time_zone" Tree.text
    <*> .required "members" (Tree.list Tree.text)
    <*> .required "delivery" Target.read
    <*> .required "fetched_at" Time.Timestamp.read

/-- Read a roster. -/
def Snapshot.read : Document → Except Fault Snapshot :=
  Tree.record Snapshot.fields

/-- A change of duty in JSON. -/
def Transition.toJson (t : Transition) : Json :=
  .record [("started", .texts t.started), ("ended", .texts t.ended)]

end Rota.Roster
