import Rota.Channel
import Rota.Time.Timestamp

/-!
# Rosters

Who is on duty for a schedule at one instant, in the order in which the source
lists them. A person with overlapping shifts is listed once for each.
-/

namespace Rota.Roster

/-- **Where the duty changes of a schedule go.** -/
structure Target where
  medium : Medium := .sms
  /-- The address for the medium `callback`. -/
  callbackUrl : Option String := none
  deriving DecidableEq, Repr, Inhabited

/-- **A roster**: the members on duty at one instant. -/
structure Snapshot where
  /-- The id of the schedule at its source. -/
  scheduleId : String
  /-- The name of the schedule here. -/
  name : String
  members : List String
  timeZone : String := "UTC"
  target : Target := {}
  fetched : Time.Timestamp := .epoch
  deriving DecidableEq, Repr, Inhabited

end Rota.Roster
