import Rota.Event
import Rota.Relay.Agenda

/-!
# The queue of notifications

A queue with a bounded number of slots. Whoever finds no slot free may wait for
one: slots that become free go to the waiting senders in the order in which
they came. A slot handed to a sender counts as taken until the sender has put
its event there.

Once closed, the queue takes nothing more, and what is in it can still be
taken out.
-/

namespace Rota.Relay

/-- **Someone who offers events**: an actor, and which of its waits it is. -/
structure Sender where
  actor : Actor
  slot : Nat := 0
  deriving DecidableEq, Repr, Inhabited

/-- **The queue.** -/
structure Queue where
  /-- The number of slots. -/
  capacity : Nat
  /-- The events queued, oldest first. -/
  items : List Event := []
  /-- The senders waiting for a slot, in the order in which they came. -/
  waiting : List Sender := []
  /-- The senders who have been handed a slot and not yet used it. -/
  granted : List Sender := []
  closed : Bool := false
  deriving DecidableEq, Repr, Inhabited

namespace Queue

/-- The number of slots taken. -/
def pending (q : Queue) : Nat :=
  q.items.length + q.granted.length

/-- Is a slot free? -/
def hasRoom (q : Queue) : Bool :=
  q.pending < q.capacity

/-- Put an event into a free slot. -/
def push (q : Queue) (e : Event) : Queue :=
  { q with items := q.items ++ [e] }

/-- Wait for a slot. -/
def await (q : Queue) (s : Sender) : Queue :=
  { q with waiting := q.waiting ++ [s] }

/-- Wait no longer. -/
def withdraw (q : Queue) (s : Sender) : Queue :=
  { q with waiting := q.waiting.filter (· ≠ s) }

/-- Put an event into the slot that was handed over. -/
def use (q : Queue) (s : Sender) (e : Event) : Queue :=
  { q with items := q.items ++ [e], granted := q.granted.filter (· ≠ s) }

/-- **Take the oldest event.** Its slot goes to the first of the waiting
senders, who is named in the answer. -/
def take? (q : Queue) : Option (Event × Queue × Option Sender) :=
  match q.items, q.waiting with
  | [], _ => none
  | e :: items, [] => some (e, { q with items }, none)
  | e :: items, s :: waiting =>
    some (e, { q with items, waiting, granted := q.granted ++ [s] }, some s)

/-- **Close the queue.** The senders who wait, or have not yet used their slot,
are turned away; the answer names them. -/
def close (q : Queue) : Queue × List Sender :=
  ({ q with closed := true, waiting := [], granted := [] }, q.waiting)

/-! ## What the operations do -/

@[simp] theorem pending_push (q : Queue) (e : Event) : (q.push e).pending = q.pending + 1 := by
  simp only [pending, push, List.length_append, List.length_cons, List.length_nil]
  omega

theorem hasRoom_iff (q : Queue) : q.hasRoom = true ↔ q.pending < q.capacity :=
  decide_eq_true_iff

theorem take?_eq_none_iff (q : Queue) : q.take? = none ↔ q.items = [] := by
  unfold take?
  split <;> simp_all

/-- **Taking an event**: it was the oldest one, and its slot is free, or goes to
the sender who waited longest. -/
theorem take?_eq_some {q q' : Queue} {e : Event} {x : Option Sender}
    (h : q.take? = some (e, q', x)) :
    q.items = e :: q'.items
      ∧ (x = none ∧ q.waiting = [] ∧ q' = { q with items := q'.items }
        ∨ ∃ y waiting, x = some y ∧ q.waiting = y :: waiting
          ∧ q' = { q with items := q'.items, waiting, granted := q.granted ++ [y] }) := by
  unfold take? at h
  split at h
  · cases h
  · next hi hw =>
    cases h
    exact ⟨hi, .inl ⟨rfl, hw, rfl⟩⟩
  · next hi hw =>
    cases h
    exact ⟨hi, .inr ⟨_, _, rfl, hw, rfl⟩⟩

/-- Taking an event neither closes the queue nor changes its room. -/
theorem take?_fixed {q q' : Queue} {e : Event} {x : Option Sender}
    (h : q.take? = some (e, q', x)) : q'.capacity = q.capacity ∧ q'.closed = q.closed := by
  obtain ⟨-, ⟨-, -, hq⟩ | ⟨y, waiting, -, -, hq⟩⟩ := take?_eq_some h
  · rw [hq]
    exact ⟨rfl, rfl⟩
  · rw [hq]
    exact ⟨rfl, rfl⟩

/-- The number of slots taken does not grow when an event is taken. -/
theorem pending_take? {q q' : Queue} {e : Event} {x : Option Sender}
    (h : q.take? = some (e, q', x)) : q'.pending ≤ q.pending := by
  obtain ⟨hi, ⟨-, -, hq⟩ | ⟨y, waiting, -, -, hq⟩⟩ := take?_eq_some h
  · rw [hq]
    simp only [pending, hi, List.length_cons]
    omega
  · rw [hq]
    simp only [pending, hi, List.length_cons, List.length_append, List.length_nil]
    omega

/-- The number of slots taken does not grow when a sender uses its slot. -/
theorem pending_use (q : Queue) (s : Sender) (e : Event) (h : s ∈ q.granted) :
    (q.use s e).pending ≤ q.pending := by
  have hlt : (q.granted.filter (· ≠ s)).length < q.granted.length :=
    List.length_filter_lt_length_iff_exists.2 ⟨s, h, by simp⟩
  simp only [pending, use, List.length_append, List.length_cons, List.length_nil]
  omega

end Queue

end Rota.Relay
