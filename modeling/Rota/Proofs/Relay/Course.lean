import Mathlib.Logic.Relation
import Rota.Relay.Client

/-!
# Courses of the service

What can happen while the service runs, in any order. `System.step` follows one
order: who was woken first runs first, and time passes only when everyone
waits. `Advance` leaves the order open. Whoever is ready may run next, time may
pass at any moment, and the client may make a request whenever it has the
answer to the last one – also between two moves of somebody else, if the
request does not keep it waiting. Since it can have others offer events and
need not wait for the worker it stops, any number of producers may wait for
room while it goes on.

A **course** is any number of advances. What `step`, `run` and `settle` do is a
course (`course_step`, `course_run`, `course_settle`), so what holds along
every course holds of the running service.
-/

namespace Rota.Relay

namespace Request

/-- Does the client have its answer at once? -/
def isPrompt : Request → Bool
  | enqueue _ | offerAside .. | record .. | start | startWriter | dropWriter | signal | leave
  | startPolling _ => true
  | _ => false

/-- Does the client offer a record by itself? -/
def isRecord : Request → Bool
  | record .. => true
  | _ => false

end Request

namespace System

/-- **What can happen next.** -/
inductive Advance (o : Outside) : System → System → Prop
  /-- The actor that is running makes a move. -/
  | move {s : System} {a : Actor} (running : s.agenda.running = some a) :
      Advance o s (s.move o a)
  /-- Somebody who is ready runs next. -/
  | turn {s : System} {a : Actor} (idle : s.agenda.running = none)
      (ready : a ∈ s.agenda.ready) :
      Advance o s
        { s with
          agenda := { s.agenda with running := some a, ready := s.agenda.ready.erase a } }
  /-- The client, who was woken, runs next. -/
  | call {s : System} (idle : s.agenda.running = none) (called : s.agenda.called = true) :
      Advance o s { s with agenda := s.agenda.callClient }
  /-- Time passes, and the alarms go off that are due by then. -/
  | pass {s : System} (t : Nat) : Advance o s { s with agenda := s.agenda.pass t }
  /-- The client makes a request. Only deliveries offer records. -/
  | request {s : System} (r : Request) (answered : s.isAnswered = true)
      (free : s.agenda.running = none ∨ r.isPrompt = true) (plain : r.isRecord = false) :
      Advance o s (s.request r)
  /-- Somebody else resolves a key, or is given an id, or a clock goes on. -/
  | elsewhere {s : System} (resolver : Directory.Resolver) (clock ids : Nat) :
      Advance o s { s with resolver, clock, ids }

/-- **A course**: one thing after the other. -/
abbrev Course (o : Outside) : System → System → Prop :=
  Relation.ReflTransGen (Advance o)

/-- An advance that changes nothing but who runs when. -/
def Shuffle (o : Outside) (s s' : System) : Prop :=
  Advance o s s' ∧ ∃ agenda, s' = { s with agenda }

/-- A choice of who runs next is an advance, or a jump of time and the call of
the client whose alarm went off. -/
theorem shuffle_turn (o : Outside) (s : System) (h : s.agenda.running = none) :
    Relation.ReflTransGen (Shuffle o) s { s with agenda := s.agenda.turn } := by
  unfold Agenda.turn
  split
  · next a rest hr =>
    have hm : a ∈ s.agenda.ready := by rw [hr]; exact List.mem_cons_self
    have he : s.agenda.ready.erase a = rest := by rw [hr]; exact List.erase_cons_head ..
    have hadv := Advance.turn (o := o) h hm
    rw [he] at hadv
    exact .single ⟨hadv, _, rfl⟩
  · split
    · next hc => exact .single ⟨.call h hc, _, rfl⟩
    · -- nobody is ready, so time goes on to the next alarm
      unfold Agenda.jump
      split
      · exact .refl
      · next t _ =>
        have hpass : Shuffle o s { s with agenda := s.agenda.pass t } := ⟨.pass t, _, rfl⟩
        split
        · next hc =>
          refine .tail (.single hpass) ⟨.call ((s.agenda.running_pass t).trans h) hc, _, rfl⟩
        · exact .single hpass

/-- **A step is a course.** -/
theorem course_step (o : Outside) (s : System) : Course o s (s.step o) := by
  unfold step
  split
  · next a h => exact .single (.move h)
  · next h => exact Relation.ReflTransGen.mono (fun _ _ hs => hs.1) _ _ (shuffle_turn o s h)

theorem course_run (o : Outside) (fuel : Nat) (s : System) : Course o s (run o fuel s) := by
  induction fuel generalizing s with
  | zero => exact .refl
  | succ fuel ih =>
    unfold run
    split
    · exact .refl
    · exact (course_step o s).trans (ih _)

theorem course_settle (o : Outside) (fuel : Nat) (s : System) :
    Course o s (settle o fuel s) := by
  induction fuel generalizing s with
  | zero => exact .refl
  | succ fuel ih =>
    unfold settle
    split
    · exact .refl
    · exact (course_step o s).trans (ih _)

/-! ## Requests one after the other -/

/-- **Serve several requests**, each when everyone waits again. -/
def serveAll (o : Outside) (fuel : Nat) (s : System) : List Request → System
  | [] => s
  | r :: rest => serveAll o fuel (s.serve o fuel r).2 rest

/-- **Can the requests be made** one after the other? The fuel must suffice for
each to be answered. -/
def isOpenTo (o : Outside) (fuel : Nat) (s : System) : List Request → Bool
  | [] => true
  | r :: rest =>
    s.isAnswered && s.agenda.running.isNone && !r.isRecord
      && isOpenTo o fuel (s.serve o fuel r).2 rest

/-- **Requests that are served one after the other** are a course. -/
theorem course_serveAll (o : Outside) (fuel : Nat) (s : System) (requests : List Request)
    (h : s.isOpenTo o fuel requests = true) : Course o s (s.serveAll o fuel requests) := by
  induction requests generalizing s with
  | nil => exact .refl
  | cons r rest ih =>
    simp only [isOpenTo, Bool.and_eq_true, Option.isNone_iff_eq_none, Bool.not_eq_true'] at h
    obtain ⟨⟨⟨answered, idle⟩, plain⟩, hrest⟩ := h
    have hserve : Course o s (s.serve o fuel r).2 :=
      .trans (.single (.request r answered (.inl idle) plain))
        ((course_run o fuel _).trans (course_settle o fuel _))
    exact hserve.trans (ih _ hrest)

end System

end Rota.Relay
