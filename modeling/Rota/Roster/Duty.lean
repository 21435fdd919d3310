import Rota.Failure
import Rota.Keyed
import Rota.Roster.Snapshot
import Rota.Roster.Transition

/-!
# Duty histories

For each schedule the last rosters seen, at most two of them: the current one
and the one before. Recording a roster tells what changed since the current
one; the first roster of a schedule only starts its history.
-/

namespace Rota.Roster

/-- The number of rosters that a history keeps. -/
def maxDepth : Nat := 2

/-- **The duty history of a schedule**, with the latest roster first. -/
structure History where
  /-- The name of the schedule. -/
  name : String
  rosters : List Snapshot := []
  depth_le : rosters.length ≤ maxDepth := by decide
  deriving DecidableEq, Repr

namespace History

/-- The number of rosters kept. -/
def depth (h : History) : Nat :=
  h.rosters.length

/-- Put a roster on top; the oldest one goes when there are too many. -/
def push (h : History) (s : Snapshot) : History :=
  { name := h.name
    rosters := (s :: h.rosters).take maxDepth
    depth_le := by rw [List.length_take]; exact Nat.min_le_left _ _ }

/-- The roster on top. -/
def peek (h : History) : Except Failure Snapshot :=
  match h.rosters with
  | [] => .error (.emptyHistory h.name)
  | s :: _ => .ok s

/-- Take the roster on top away. -/
def pop (h : History) : Except Failure Snapshot × History :=
  (h.peek,
    { name := h.name
      rosters := h.rosters.tail
      depth_le := by
        rw [List.length_tail]; exact Nat.le_trans (Nat.sub_le _ _) h.depth_le })

/-- What changed from the roster on top to this one. -/
def changeTo (h : History) (s : Snapshot) : Transition :=
  match h.rosters with
  | [] => {}
  | top :: _ => diff top.members s.members

/-- **Record a roster**: it becomes the top, and the change is told. -/
def record (h : History) (s : Snapshot) : Transition × History :=
  (h.changeTo s, h.push s)

end History

/-- **The duty histories of all schedules**, each created when its name is
first used. -/
structure Registry where
  histories : Keyed History := ∅
  deriving Inhabited

namespace Registry

/-- The history of a schedule; an empty one if the name is new. -/
def history (r : Registry) (name : String) : History :=
  (r.histories.get? name).getD { name }

/-- Keep this history under the name. -/
def store (r : Registry) (name : String) (h : History) : Registry :=
  { histories := r.histories.put name h }

/-- **Open a history**: it exists from now on. -/
def touch (r : Registry) (name : String) : History × Registry :=
  (r.history name, r.store name (r.history name))

/-- **Record a roster** under a name. -/
def record (r : Registry) (name : String) (s : Snapshot) : Transition × Registry :=
  let (transition, h) := (r.history name).record s
  (transition, r.store name h)

/-- Take the latest roster of a name away. -/
def pop (r : Registry) (name : String) : Except Failure Snapshot × Registry :=
  let (result, h) := (r.history name).pop
  (result, r.store name h)

/-- **The latest roster** of a name. No history is created by asking. -/
def current (r : Registry) (name : String) : Option Snapshot :=
  (r.histories.get? name).bind fun h => h.rosters.head?

/-- The names used so far, sorted. -/
def schedules (r : Registry) : List String :=
  r.histories.sortedKeys

end Registry

end Rota.Roster
