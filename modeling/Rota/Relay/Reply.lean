/-!
# Replies from outside

What the world answers when it is asked: at some later time, or never. Whoever
waits for a reply gives up after a while; a reply that comes just in time still
counts.
-/

namespace Rota.Relay

/-- **A reply from outside**: how long it takes, in milliseconds, and what it
says. Without a delay it never comes. -/
structure Reply (α : Type) where
  delay : Option Nat := some 0
  answer : α
  deriving Repr, Inhabited

/-- **Wait for a reply**, but no longer than `limit`: how long the wait takes,
and the answer, if it comes in time. -/
def Reply.within {α : Type} (r : Reply α) (limit : Nat) : Nat × Option α :=
  match r.delay with
  | some d => if d ≤ limit then (d, some r.answer) else (limit, none)
  | none => (limit, none)

theorem Reply.within_le {α : Type} (r : Reply α) (limit : Nat) : (r.within limit).1 ≤ limit := by
  unfold within
  split
  · split <;> simp_all
  · simp

end Rota.Relay
