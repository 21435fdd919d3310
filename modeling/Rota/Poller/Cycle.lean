import Rota.Config
import Rota.Event
import Rota.Message
import Rota.Roster.Duty

/-!
# Poll cycles

In a poll cycle every schedule is visited: its roster is fetched and recorded,
and each change of duty is told to the member concerned. A visit fails if the
roster does not come, or is empty where it must not be; nothing is recorded
then.

All visits of a cycle are under way at once. What each of them does next is a
value of `Phase`.
-/

namespace Rota.Poller

open Rota.Roster (Snapshot Transition)

/-- **The changes of a transition**, in the order in which they are told: first
those who started, then those who ended. -/
def changes (t : Transition) : List (String × Change) :=
  t.started.map (·, .started) ++ t.ended.map (·, .ended)

/-- The title and the text that tell of a change. -/
def wording (templates : Config.Templates) (schedule : String) (change : Change) :
    String × String :=
  let (title, text) := match change with
    | .started => (templates.startTitle, templates.start)
    | .ended => (templates.endTitle, templates.end_)
  (Message.fillSchedule title schedule, Message.fillSchedule text schedule)

/-- How a change is delivered: to the callback address, if there is one, or to
the member over the channel. -/
def deliveryFor (target : Roster.Target) (member : String) : Option Delivery :=
  match target.medium.channel? with
  | none => target.callbackUrl.map .callback
  | some channel => some (.push (.lookup (.userId member)) channel)

/-- **The event that tells of a change**, if it can be delivered. -/
def eventFor (templates : Config.Templates) (time : Time.Timestamp) (schedule : String)
    (snapshot : Snapshot) (id member : String) (change : Change) : Option Event :=
  (deliveryFor snapshot.target member).map fun delivery =>
    let (title, message) := wording templates schedule change
    { id, delivery, title, message, origin := .roster schedule member change, created := time }

/-- **How far a visit has got.** -/
inductive Phase where
  | fresh
  /-- The roster was asked for; the answer, or the end of the wait for it, is
  due. -/
  | fetching (due : Nat) (answer : Option (Except Failure Snapshot))
  /-- The changes still to be told. -/
  | telling (snapshot : Snapshot) (t : Transition) (left : List (String × Change))
  /-- An event waits for room in the queue until the deadline. -/
  | offering (event : Event) (deadline : Nat) (snapshot : Snapshot) (t : Transition)
      (left : List (String × Change))
  | succeeded (t : Transition)
  | failed
  deriving Inhabited

/-- Does an event wait for room in the queue? -/
def Phase.isOffering : Phase → Bool
  | offering .. => true
  | _ => false

/-- **The visit of a schedule.** -/
structure Visit where
  schedule : Config.Schedule
  phase : Phase := .fresh
  deriving Inhabited

/-- Is the visit over? -/
def Visit.isOver (v : Visit) : Bool :=
  match v.phase with
  | .succeeded _ | .failed => true
  | _ => false

/-- **A cycle**: its visits, and the one whose turn it is. -/
structure Cycle where
  visits : List Visit
  cursor : Nat := 0
  deriving Inhabited

/-- A cycle that has just begun. -/
def Cycle.of (schedules : List Config.Schedule) : Cycle :=
  { visits := schedules.map fun schedule => { schedule } }

/-- **What a cycle did**, schedule by schedule. -/
structure Report where
  transitions : List (String × Transition) := []
  failed : List String := []
  deriving DecidableEq, Repr, Inhabited

/-- The report on a cycle. -/
def Cycle.report (c : Cycle) : Report where
  transitions := c.visits.filterMap fun v =>
    match v.phase with
    | .succeeded t => some (v.schedule.name, t)
    | _ => none
  failed := c.visits.filterMap fun v =>
    match v.phase with
    | .failed => some v.schedule.name
    | _ => none

/-- **The counts of all cycles.** -/
structure Counts where
  cycles : Nat := 0
  fetched : Nat := 0
  fetchFailures : Nat := 0
  emptyRosters : Nat := 0
  started : Nat := 0
  ended : Nat := 0
  enqueueFailures : Nat := 0
  deriving DecidableEq, Repr, Inhabited

/-- Count a change that is about to be told. -/
def Counts.tell (c : Counts) : Change → Counts
  | .started => { c with started := c.started + 1 }
  | .ended => { c with ended := c.ended + 1 }

end Rota.Poller
