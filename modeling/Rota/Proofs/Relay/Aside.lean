import Rota.Relay.Client

/-!
# Words on the side

Much of what the service does is to pass on a word: an actor is woken, the
worker or the writer is told to stop, or that nobody is left who has anything
for it. `System.Aside` says once what a word on the side can change. What has
become of the events, who waits for room, and how far polling has got is not
among it.
-/

namespace Rota.Relay

/-! ## Waking -/

namespace Agenda

/-- **Actors are woken**, and nobody starts or stops running. -/
structure Stirs (a b : Agenda) : Prop where
  running : b.running = a.running
  woken : ∀ actor, a.IsWoken actor → b.IsWoken actor

namespace Stirs

theorem refl (a : Agenda) : a.Stirs a := ⟨rfl, fun _ h => h⟩

theorem trans {a b c : Agenda} (h : a.Stirs b) (h' : b.Stirs c) : a.Stirs c :=
  ⟨h'.running.trans h.running, fun actor hw => h'.woken actor (h.woken actor hw)⟩

theorem wake (a : Agenda) (actor : Actor) : a.Stirs (a.wake actor) :=
  ⟨running_wake a actor, fun _ h => (isWoken_wake ..).2 (.inl h)⟩

theorem wakeAll (a : Agenda) (actors : List Actor) : a.Stirs (a.wakeAll actors) :=
  ⟨running_wakeAll a actors, fun _ h => (isWoken_wakeAll ..).2 (.inl h)⟩

theorem pass (a : Agenda) (t : Nat) : a.Stirs (a.pass t) :=
  ⟨running_pass a t, fun _ h => (isWoken_wakeAll ..).2 (.inl h)⟩

theorem setAlarm (a : Agenda) (due : Nat) (actor : Actor) (slot : Nat) :
    a.Stirs (a.setAlarm due actor slot) := by
  unfold Agenda.setAlarm
  split <;> exact ⟨rfl, fun _ h => h⟩

theorem cancel (a : Agenda) (actor : Actor) (slot : Nat) : a.Stirs (a.cancel actor slot) :=
  ⟨rfl, fun _ h => h⟩

end Stirs

end Agenda

/-! ## Words on the side -/

namespace System

/-- **A word on the side.** At most somebody is woken, and a worker or a writer is told
something; no record is offered. -/
structure Aside (s s' : System) : Prop where
  eq : ∃ agenda pipeline stopWorker orphaned,
    s' = { s with agenda, pipeline, stopWorker, orphaned }
  offered : s'.pipeline.offered = s.pipeline.offered
  stirs : s.agenda.Stirs s'.agenda

theorem Aside.refl (s : System) : s.Aside s := ⟨⟨_, _, _, _, rfl⟩, rfl, .refl _⟩

theorem Aside.after {s t s' : System} (h' : t.Aside s') (h : s.Aside t) : s.Aside s' := by
  refine ⟨?_, h'.offered.trans h.offered, h.stirs.trans h'.stirs⟩
  obtain ⟨_, _, _, _, rfl⟩ := h.eq
  obtain ⟨agenda, pipeline, stopWorker, orphaned, rfl⟩ := h'.eq
  exact ⟨agenda, pipeline, stopWorker, orphaned, rfl⟩

section Words

variable (s : System)

theorem aside_wake (actor : Actor) : s.Aside (s.wake actor) :=
  ⟨⟨_, _, _, _, rfl⟩, rfl, .wake _ actor⟩

theorem aside_wakeWorker : s.Aside s.wakeWorker := by
  unfold wakeWorker
  split
  · exact aside_wake s _
  · exact .refl s

theorem aside_signalWorker : s.Aside s.signalWorker := by
  unfold signalWorker
  exact (aside_wakeWorker _).after ⟨⟨_, _, _, _, rfl⟩, rfl, .refl _⟩

theorem aside_endEvents : s.Aside s.endEvents := by
  unfold endEvents
  exact (aside_wakeWorker _).after ⟨⟨_, _, _, _, rfl⟩, rfl, .refl _⟩

theorem aside_startWriter : s.Aside s.startWriter := by
  unfold startWriter
  split
  · exact (aside_wake _ _).after ⟨⟨_, _, _, _, rfl⟩, rfl, .refl _⟩
  · exact .refl s

theorem aside_dropWriter : s.Aside s.dropWriter := by
  unfold dropWriter
  split
  · exact ⟨⟨_, _, _, _, rfl⟩, rfl, .refl _⟩
  · exact .refl s

/-- The writer is told something, and is woken if it waits for a record. -/
theorem aside_tellWriter (stopping orphaned : Bool) :
    s.Aside
      (if s.pipeline.wantsRecord then
        ({ s with pipeline := { s.pipeline with stopping, orphaned } } : System).wake .writer
      else { s with pipeline := { s.pipeline with stopping, orphaned } }) := by
  split
  · exact (aside_wake _ _).after ⟨⟨_, _, _, _, rfl⟩, rfl, .refl _⟩
  · exact ⟨⟨_, _, _, _, rfl⟩, rfl, .refl _⟩

theorem aside_signalWriter : s.Aside s.signalWriter :=
  aside_tellWriter s true s.pipeline.orphaned

theorem aside_endRecords : s.Aside s.endRecords :=
  aside_tellWriter s s.pipeline.stopping true

end Words

end System

end Rota.Relay
