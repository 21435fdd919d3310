import Mathlib.Algebra.GroupWithZero.Nat
import Rota.Relay.Step

/-!
# The moves of a visit

A visit asks for its roster, hears of it, tells of the changes one by one, and may have
to wait for room in the queue in between. `VisitMove` lists once what such a move is, each
with the condition under which it is made: the phase that the visit gets to, and what the
service has done. What a move of a visit keeps is then proved from this list. `CycleMove`
does the same for the cycle, which asks its visits in turn.
-/

/-! ## One visit among the others -/

namespace Rota.Poller

section Set

variable {α β : Type} {l : List α} {i : Nat} {v w : α}

/-- What is the same of an entry and the one that takes its place is the same of all. -/
theorem map_set_eq {f : α → β} (h : l[i]? = some v) (same : f w = f v) :
    (l.set i w).map f = l.map f := by
  obtain ⟨hlt, rfl⟩ := List.getElem?_eq_some_iff.1 h
  rw [List.map_set, same]
  exact (congrArg _ (List.getElem_map ..).symm).trans
    (List.set_getElem_self (by rwa [List.length_map]))

/-- A total when another entry has taken its place. -/
theorem sum_map_set (h : l[i]? = some v) (f : α → Nat) (w : α) :
    ((l.set i w).map f).sum + f v = (l.map f).sum + f w := by
  induction l generalizing i with
  | nil => cases h
  | cons x rest ih =>
    cases i with
    | zero =>
      cases h
      simp only [List.set_cons_zero, List.map_cons, List.sum_cons]
      omega
    | succ i =>
      have hrest := ih h
      simp only [List.set_cons_succ, List.map_cons, List.sum_cons]
      omega

end Set

end Rota.Poller

namespace Rota.Relay.System

open Rota.Roster (Snapshot Transition)
open Rota.Poller (Phase Visit)

/-! ## The moves of a visit -/

/-- **A move of a visit**: the phases before and after, and the service afterwards. -/
inductive VisitMove (o : Outside) (s : System) (x : Sender) (schedule : Config.Schedule) :
    Phase → Phase → System → Prop
  /-- The roster is asked for. -/
  | ask :
      VisitMove o s x schedule .fresh (s.beginFetch o x schedule).1 (s.beginFetch o x schedule).2
  /-- The fetch has ended. -/
  | hear (due : Nat) (answer : Option (Except Failure Snapshot)) (isDue : due ≤ s.now) :
      VisitMove o s x schedule (.fetching due answer) (s.endFetch x schedule answer).1
        (s.endFetch x schedule answer).2
  /-- All changes are told. -/
  | succeed (roster : Snapshot) (t : Transition) :
      VisitMove o s x schedule (.telling roster t []) (.succeeded t) s
  /-- A change cannot be delivered. -/
  | skip (roster : Snapshot) (t : Transition) (member : String) (change : Change)
      (left : List (String × Change))
      (mute : Poller.eventFor s.settings.templates s.settings.time schedule.name roster
        (freshId s.ids) member change = none) :
      VisitMove o s x schedule (.telling roster t ((member, change) :: left))
        (.telling roster t left)
        ((s.countTelling change).forgo
          { schedule := schedule.name, target := roster.target, member, change })
  /-- The event of a change is offered, and the offer ends at once. -/
  | offer (roster : Snapshot) (t : Transition) (member : String) (change : Change)
      (left : List (String × Change)) (event : Event) (result : Except Failure Unit)
      (s' : System)
      (made : Poller.eventFor s.settings.templates s.settings.time schedule.name roster
        (freshId s.ids) member change = some event)
      (ended : (s.countTelling change).offer x event s.settings.fetchTimeout
        = (some result, s')) :
      VisitMove o s x schedule (.telling roster t ((member, change) :: left))
        (.telling roster t left) (s'.told result)
  /-- The event of a change has to wait for room. -/
  | wait (roster : Snapshot) (t : Transition) (member : String) (change : Change)
      (left : List (String × Change)) (event : Event) (s' : System)
      (made : Poller.eventFor s.settings.templates s.settings.time schedule.name roster
        (freshId s.ids) member change = some event)
      (waits : (s.countTelling change).offer x event s.settings.fetchTimeout = (none, s')) :
      VisitMove o s x schedule (.telling roster t ((member, change) :: left))
        (.offering event (s'.now + s'.settings.fetchTimeout) roster t left) s'
  /-- The event waits no longer. -/
  | offered (event : Event) (deadline : Nat) (roster : Snapshot) (t : Transition)
      (left : List (String × Change)) (result : Except Failure Unit) (s' : System)
      (ended : s.offerAgain x event deadline = (some result, s')) :
      VisitMove o s x schedule (.offering event deadline roster t left)
        (.telling roster t left) (s'.told result)

section

variable {o : Outside} {s : System} {x : Sender}

theorem visitMove_tell {schedule : Config.Schedule} {roster : Snapshot} {t : Transition}
    {member : String} {change : Change} {left : List (String × Change)} :
    VisitMove o s x schedule (.telling roster t ((member, change) :: left))
      (s.tell x schedule.name roster t member change left).1
      (s.tell x schedule.name roster t member change left).2 := by
  unfold tell
  split
  · next mute => exact .skip roster t member change left mute
  · next event made =>
    unfold tellEvent
    split
    · next result s' ended => exact .offer roster t member change left event result s' made ended
    · next s' waits => exact .wait roster t member change left event s' made waits

/-- **A visit makes no other moves.** -/
theorem visitMove_of_moveVisit {v : Visit} {moved : Phase × System}
    (h : s.moveVisit o x v = some moved) :
    VisitMove o s x v.schedule v.phase moved.1 moved.2 := by
  unfold moveVisit at h
  split at h
  · next hv =>
    cases h
    rw [hv]
    exact .ask
  · next due answer hv =>
    split at h
    · next isDue =>
      cases h
      rw [hv]
      exact .hear due answer isDue
    · cases h
  · next hv =>
    cases h
    rw [hv]
    exact .succeed ..
  · next hv =>
    cases h
    rw [hv]
    exact visitMove_tell
  · next event deadline roster t left hv =>
    split at h
    · next result s' ended =>
      cases h
      rw [hv]
      exact .offered event deadline roster t left result s' ended
    · cases h
  · cases h
  · cases h

end

/-! ## The moves of a cycle -/

/-- **A move of a cycle**: how its actor goes on, and the cycle and the service afterwards. -/
inductive CycleMove (o : Outside) (s : System) (owner : Actor) (c : Poller.Cycle) :
    Audit.Turn × Poller.Cycle × System → Prop
  /-- The visit whose turn it is makes a move. -/
  | visit {v : Visit} {phase : Phase} {s' : System} (turn : c.visits[c.cursor]? = some v)
      (moves : s.moveVisit o { actor := owner, slot := c.cursor + 1 } v = some (phase, s')) :
      CycleMove o s owner c
        (.again, { c with visits := c.visits.set c.cursor { v with phase } }, s')
  /-- It has to wait, or is over, and the next one has its turn. -/
  | skip {v : Visit} (turn : c.visits[c.cursor]? = some v)
      (rests : s.moveVisit o { actor := owner, slot := c.cursor + 1 } v = none) :
      CycleMove o s owner c (.again, { c with cursor := c.cursor + 1 }, s)
  | finish (passed : c.visits[c.cursor]? = none) (allOver : c.visits.all Visit.isOver = true) :
      CycleMove o s owner c (.ended, c, s)
  /-- Some visit has to wait, and so has the cycle. -/
  | wrap (passed : c.visits[c.cursor]? = none) (busy : c.visits.all Visit.isOver = false) :
      CycleMove o s owner c (.waiting none, { c with cursor := 0 }, s)

/-- **A cycle makes no other moves.** -/
theorem cycleMove (o : Outside) (s : System) (owner : Actor) (c : Poller.Cycle) :
    CycleMove o s owner c (s.moveCycle o owner c) := by
  unfold moveCycle
  split
  · next turn =>
    split
    · next moves => exact .visit turn moves
    · next rests => exact .skip turn rests
  · next passed =>
    split
    · next allOver => exact .finish passed allOver
    · next busy => exact .wrap passed (Bool.eq_false_iff.2 busy)

end Rota.Relay.System
