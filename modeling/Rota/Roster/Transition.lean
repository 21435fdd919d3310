/-!
# Duty changes

The difference of two consecutive rosters, with repetitions: a member who is
listed twice holds two shifts, and gaining or losing one of them is a change
of its own. Each entry of the one roster cancels one entry of the other; what
is left over started, or ended.
-/

namespace Rota.Roster

/-- **Who came on duty and who went off.** -/
structure Transition where
  started : List String := []
  ended : List String := []
  deriving DecidableEq, Repr, Inhabited

namespace Transition

/-- Did nothing change? -/
def isEmpty (t : Transition) : Bool :=
  t.started.isEmpty && t.ended.isEmpty

/-- The number of changes. -/
def size (t : Transition) : Nat :=
  t.started.length + t.ended.length

end Transition

/-- **What is left of `roster`** when each entry of `against` has cancelled the
first equal entry that is not yet cancelled. -/
def surplus : List String → List String → List String
  | [], _ => []
  | member :: rest, against =>
    if member ∈ against then surplus rest (against.erase member)
    else member :: surplus rest against

/-- **The change from one roster to the next.** -/
def diff (previous current : List String) : Transition where
  started := surplus current previous
  ended := surplus previous current

end Rota.Roster
