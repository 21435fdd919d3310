/-!
# Who runs when

Several actors share one thread. An actor that has been woken waits in the list
of the ready ones until its turn comes, and then runs until it has to wait for
something. Time stands still while anybody can run. When nobody can, it jumps
to the next alarm, and everyone whose alarm is due is woken, in the order in
which the alarms were set.

The client is the one whose requests drive everything else. It gives way to
all others, except when an alarm of its own has gone off: then it runs first.
-/

namespace Rota.Relay

/-- **An actor.** -/
inductive Actor where
  /-- The one who makes the requests. -/
  | client
  /-- The polling loop. -/
  | poller
  /-- The one who takes events from the queue. -/
  | worker
  /-- The one who writes audit records. -/
  | writer
  /-- A delivery under way. -/
  | delivery (n : Nat)
  /-- Someone who offers an event while the client goes on. -/
  | producer (n : Nat)
  deriving DecidableEq, Repr, Inhabited

/-- **An alarm**: when it is due, and which of the waits of which actor it
ends. -/
structure Alarm where
  due : Nat
  actor : Actor
  slot : Nat := 0
  deriving DecidableEq, Repr, Inhabited

/-- **The agenda**: the time in milliseconds, who is running, who is ready to,
and the alarms in the order in which they were set. -/
structure Agenda where
  now : Nat := 0
  running : Option Actor := none
  ready : List Actor := []
  /-- Has the client been woken? -/
  called : Bool := false
  alarms : List Alarm := []
  deriving DecidableEq, Repr, Inhabited

namespace Agenda

/-- **Wake an actor.** -/
def wake (a : Agenda) (actor : Actor) : Agenda :=
  if actor = .client then { a with called := true }
  else if actor ∈ a.ready then a
  else { a with ready := a.ready ++ [actor] }

/-- Wake several actors, in order. -/
def wakeAll (a : Agenda) (actors : List Actor) : Agenda :=
  actors.foldl wake a

/-- **Set an alarm**, unless this wait already has one. -/
def setAlarm (a : Agenda) (due : Nat) (actor : Actor) (slot : Nat := 0) : Agenda :=
  if a.alarms.any (fun x => x.actor == actor && x.slot == slot) then a
  else { a with alarms := a.alarms ++ [⟨due, actor, slot⟩] }

/-- Take back the alarm of a wait that has ended. -/
def cancel (a : Agenda) (actor : Actor) (slot : Nat := 0) : Agenda :=
  { a with alarms := a.alarms.filter fun x => !(x.actor == actor && x.slot == slot) }

/-- The actor that is running stops, to be woken later. -/
def rest (a : Agenda) : Agenda :=
  { a with running := none }

/-- **Is everyone waiting?** -/
def isSettled (a : Agenda) : Bool :=
  a.running.isNone && a.ready.isEmpty && !a.called

/-- The time of the next alarm. -/
def nextDue? (a : Agenda) : Option Nat :=
  (a.alarms.map Alarm.due).min?

/-- **Let time pass** until `t`, and wake everyone whose alarm is due by then. -/
def pass (a : Agenda) (t : Nat) : Agenda :=
  let due := a.alarms.filter fun x => x.due ≤ t
  { a with now := max a.now t, alarms := a.alarms.filter fun x => t < x.due }
    |>.wakeAll (due.map Alarm.actor)

/-- It is the client's turn. -/
def callClient (a : Agenda) : Agenda :=
  { a with running := some .client, called := false }

/-- **Let time jump** to the next alarm. The client goes first if its alarm is
due. -/
def jump (a : Agenda) : Agenda :=
  match a.nextDue? with
  | none => a
  | some t => if (a.pass t).called then (a.pass t).callClient else a.pass t

/-- **Choose who runs next**, when nobody is running: the first of the ready
ones, or else the client; if everyone waits, time jumps. -/
def turn (a : Agenda) : Agenda :=
  match a.ready with
  | next :: rest => { a with running := some next, ready := rest }
  | [] => if a.called then a.callClient else a.jump

/-! ## Who was woken -/

/-- **Was an actor woken** that has not run since? -/
def IsWoken (a : Agenda) (actor : Actor) : Prop :=
  if actor = .client then a.called = true else actor ∈ a.ready

@[simp] theorem running_wake (a : Agenda) (actor : Actor) :
    (a.wake actor).running = a.running := by
  unfold wake
  split
  · rfl
  · split <;> rfl

@[simp] theorem running_wakeAll (a : Agenda) (actors : List Actor) :
    (a.wakeAll actors).running = a.running := by
  induction actors generalizing a with
  | nil => rfl
  | cons actor rest ih => exact (ih (a.wake actor)).trans (running_wake a actor)

@[simp] theorem running_pass (a : Agenda) (t : Nat) : (a.pass t).running = a.running :=
  running_wakeAll _ _

/-- Waking an actor changes nothing for the others. -/
@[simp] theorem isWoken_wake (a : Agenda) (actor other : Actor) :
    (a.wake actor).IsWoken other ↔ a.IsWoken other ∨ other = actor := by
  unfold IsWoken wake
  by_cases hc : actor = .client
  · subst hc
    by_cases ho : other = .client <;> simp [ho]
  · rw [if_neg hc]
    by_cases hr : actor ∈ a.ready
    · rw [if_pos hr]
      by_cases ho : other = .client
      · have : ¬ other = actor := fun h => hc (h.symm.trans ho)
        simp [ho, Ne.symm hc]
      · simp only [if_neg ho]
        exact ⟨Or.inl, fun h => h.elim id fun he => he ▸ hr⟩
    · rw [if_neg hr]
      by_cases ho : other = .client
      · simp [ho, Ne.symm hc]
      · simp [ho]

@[simp] theorem isWoken_wakeAll (a : Agenda) (actors : List Actor) (other : Actor) :
    (a.wakeAll actors).IsWoken other ↔ a.IsWoken other ∨ other ∈ actors := by
  induction actors generalizing a with
  | nil => simp [wakeAll]
  | cons actor rest ih =>
    rw [wakeAll, List.foldl_cons, ← wakeAll, ih, isWoken_wake, List.mem_cons, or_assoc]

/-- When everyone waits, nobody is running and nobody was woken. -/
theorem not_isWoken_of_isSettled {a : Agenda} (h : a.isSettled = true) :
    a.running = none ∧ ∀ actor, ¬ a.IsWoken actor := by
  unfold isSettled at h
  simp only [Bool.and_eq_true, Option.isNone_iff_eq_none, List.isEmpty_iff,
    Bool.not_eq_true'] at h
  obtain ⟨⟨hr, he⟩, hc⟩ := h
  refine ⟨hr, fun actor => ?_⟩
  unfold IsWoken
  by_cases ha : actor = .client <;> simp [ha, he, hc]

end Agenda

end Rota.Relay
