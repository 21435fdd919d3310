import Rota.Poller.Cycle

/-!
# What follows from the fetches of a schedule

What the poller should know and tell of a schedule, as a function of the
fetches of this schedule alone: the answers it heard, in order, where a fetch
that took too long has none. Only a **good** fetch counts. It yields a roster,
and not an empty one for a schedule that expects members.

Everything is computed from the first `n` fetches: the good rosters
(`rosters`), the history that the registry should hold (`history?`), and the
changes that should have been told (`told`). A fetch that is not good adds
nothing to any of them.
-/

namespace Rota.Poller

open Rota.Roster (Snapshot Transition History)

/-- What the poller has heard of a fetch, when its wait is over. -/
abbrev Heard : Type := Option (Except Failure Snapshot)

/-- **The roster of a good fetch.** -/
def goodRoster? (schedule : Config.Schedule) : Heard → Option Snapshot
  | some (.ok roster) =>
    if roster.members.isEmpty && schedule.expectMembers then none else some roster
  | _ => none

section Fetches

variable (schedule : Config.Schedule) (heard : Nat → Heard)

/-- **The good rosters** among the first `n` fetches, the latest first. -/
def rosters : Nat → List Snapshot
  | 0 => []
  | n + 1 => (goodRoster? schedule (heard n)).toList ++ rosters n

/-- **What a fetch should change**: nothing for the first good roster, and for a later
one what is different from the good roster before it. -/
def transition? (n : Nat) : Option Transition :=
  (goodRoster? schedule (heard n)).map fun roster =>
    match rosters schedule heard n with
    | [] => {}
    | previous :: _ => Roster.diff previous.members roster.members

/-- **The history** that the registry should hold after `n` fetches, if any of them was
good. -/
def history? (n : Nat) : Option History :=
  match rosters schedule heard n with
  | [] => none
  | l =>
    some
      { name := schedule.name
        rosters := l.take Roster.maxDepth
        depth_le := by rw [List.length_take]; exact Nat.min_le_left _ _ }

/-- The changes of a transition that can be delivered. -/
def deliverable (roster : Snapshot) (l : List (String × Change)) : List (String × Change) :=
  l.filter fun change => (deliveryFor roster.target change.1).isSome

/-- What a fetch should have told. -/
def toldBy (n : Nat) : List (String × Change) :=
  match goodRoster? schedule (heard n), transition? schedule heard n with
  | some roster, some t => deliverable roster (changes t)
  | _, _ => []

/-- **The changes told** because of the first `n` fetches, in order. -/
def told (n : Nat) : List (String × Change) :=
  (List.range n).flatMap (toldBy schedule heard)

end Fetches

/-- **What the report should say** on the cycle of the `n`-th fetches. -/
def reportOf (schedules : List Config.Schedule) (heard : Config.Schedule → Nat → Heard)
    (n : Nat) : Report where
  transitions := schedules.filterMap fun schedule =>
    (transition? schedule (heard schedule) n).map (schedule.name, ·)
  failed := schedules.filterMap fun schedule =>
    if (goodRoster? schedule (heard schedule n)).isNone then some schedule.name else none

section Lemmas

variable {schedule : Config.Schedule} {heard : Nat → Heard} {n : Nat} {roster : Snapshot}

theorem rosters_succ_good (h : goodRoster? schedule (heard n) = some roster) :
    rosters schedule heard (n + 1) = roster :: rosters schedule heard n := by
  rw [rosters, h]
  rfl

theorem rosters_succ_bad (h : goodRoster? schedule (heard n) = none) :
    rosters schedule heard (n + 1) = rosters schedule heard n := by
  rw [rosters, h]
  rfl

theorem history?_succ_bad (h : goodRoster? schedule (heard n) = none) :
    history? schedule heard (n + 1) = history? schedule heard n := by
  unfold history?
  rw [rosters_succ_bad h]

theorem told_succ : told schedule heard (n + 1)
    = told schedule heard n ++ toldBy schedule heard n := by
  unfold told
  rw [List.range_succ, List.flatMap_append]
  simp

theorem toldBy_good {t : Transition} (h : goodRoster? schedule (heard n) = some roster)
    (ht : transition? schedule heard n = some t) :
    toldBy schedule heard n = deliverable roster (changes t) := by
  unfold toldBy
  rw [h, ht]

theorem toldBy_bad (h : goodRoster? schedule (heard n) = none) :
    toldBy schedule heard n = [] := by
  unfold toldBy
  rw [h]

/-- **Recording a good roster** changes and keeps what it should. -/
theorem record_history? (h : goodRoster? schedule (heard n) = some roster) :
    transition? schedule heard n
        = some (((history? schedule heard n).getD { name := schedule.name }).record roster).1
      ∧ history? schedule heard (n + 1)
        = some (((history? schedule heard n).getD { name := schedule.name }).record roster).2 := by
  unfold transition? history?
  rw [rosters_succ_good h, h]
  cases hl : rosters schedule heard n with
  | nil => exact ⟨rfl, rfl⟩
  | cons previous rest =>
    refine ⟨rfl, ?_⟩
    simp [History.record, History.push, Roster.maxDepth]

end Lemmas

/-- **What the report says of one schedule** is what its own fetch changed. -/
theorem lookup_transitions_reportOf {schedules : List Config.Schedule}
    {heard : Config.Schedule → Nat → Heard} (n : Nat) {schedule : Config.Schedule}
    (hnames : (schedules.map Config.Schedule.name).Nodup) (hm : schedule ∈ schedules) :
    (reportOf schedules heard n).transitions.lookup schedule.name
      = transition? schedule (heard schedule) n := by
  unfold reportOf
  dsimp only
  induction schedules with
  | nil => cases hm
  | cons first rest ih =>
    rw [List.map_cons, List.nodup_cons] at hnames
    rw [List.filterMap_cons]
    rcases List.mem_cons.1 hm with rfl | hm
    · -- the first schedule is the one, and no other has its name
      cases ht : transition? schedule (heard schedule) n with
      | some t => simp
      | none =>
        dsimp only [Option.map_none]
        rw [List.lookup_eq_none_iff]
        intro e he
        obtain ⟨other, ho, he⟩ := List.mem_filterMap.1 he
        obtain ⟨t, -, rfl⟩ := Option.map_eq_some_iff.1 he
        have hne : other.name ≠ schedule.name :=
          fun hn => hnames.1 (hn ▸ List.mem_map_of_mem ho)
        simpa using Ne.symm hne
    · have hne : (schedule.name == first.name) = false := by
        rw [beq_eq_false_iff_ne]
        exact fun hn => hnames.1 (hn ▸ List.mem_map_of_mem hm)
      cases transition? first (heard first) n with
      | none => exact ih hnames.2 hm
      | some t =>
        dsimp only [Option.map_some]
        rw [List.lookup_cons, hne]
        exact ih hnames.2 hm

end Rota.Poller
