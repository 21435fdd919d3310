import Rota.Proofs.Relay.Accounts

/-!
# What is done when the worker is gone

A worker that is told to stop, or has nobody left to offer it an event, closes
the queue, takes what is left in it, and then waits until no delivery is under
way. So when it is gone, every event ever accepted should have come to its end.

It waits by counting free workers, and counts them in 32 bits. Up to
`UInt32.size` workers this makes no difference (`finished_of_gone`). A service
with that many or more waits for too few of them, and its worker can be gone
while a delivery is still under way (`exists_gone_of_le`). A configuration may
ask for such a number: `Config.validate` only refuses none at all.
-/

namespace Rota.Relay.System

/-- **Nothing is left to do**: the queue is closed and empty, no delivery is under
way, and every event ever accepted has ended, was counted, and has its record handed
over. -/
structure Finished (s : System) : Prop where
  closed : s.queue.closed = true
  empty : s.queue.items = []
  landed : s.flights = []
  ended : (admitted s.offers).Perm (s.landings.map Landing.event)
  counted : s.counts.delivered + s.counts.failed = s.counts.enqueued
  recorded : s.pipeline.offered.length = s.counts.enqueued

/-- **A worker that is gone has left nothing to do**, if its number of workers fits in 32 bits:
the accounts say so. -/
theorem finished_of_sound {s : System} (hs : s.ledger.Sound) (hw : s.settings.workers < UInt32.size)
    (hgone : s.worker = .gone) : s.Finished := by
  have hdone : s.ledger.worker.isDone = true := by rw [worker_ledger, hgone]; rfl
  -- below 32 bits the worker has waited until all workers were free
  have hflights : s.flights = [] := by
    have hq := hs.shut.quorum hgone
    rw [flights_ledger, List.length_map, workers_ledger, Nat.mod_eq_of_lt hw] at hq
    have hle : s.flights.length ≤ s.settings.workers := by
      have hle := hs.bounded.flights_le
      rwa [flights_ledger, List.length_map, workers_ledger] at hle
    exact List.eq_nil_of_length_eq_zero (by omega)
  have hempty : s.queue.items = [] := hs.shut.empty hdone
  have hended : (admitted s.offers).Perm (s.landings.map Landing.event) := by
    have hp := hs.conserved.admitted_perm
    rw [map_snd_flights_ledger, queue_ledger, worker_ledger, hempty, hflights, hgone] at hp
    exact hp
  have hlen : s.landings.length = s.counts.enqueued := by
    have hcount : s.counts.enqueued = (admitted s.offers).length := hs.counted.enqueued_eq
    rw [hcount, hended.length_eq, List.length_map]
  exact {
    closed := hs.shut.closed (Worker.isEnding_of_isDone hdone)
    empty := hempty
    landed := hflights
    ended := hended
    counted := hs.counted.finished_eq.trans hlen
    recorded := by
      have hhanded : s.pipeline.offered = s.landings.map Landing.record :=
        hs.conserved.handed_eq
      rw [hhanded, List.length_map, hlen] }

section New

variable {o : Outside} {settings : Settings} {capacity auditCapacity : Nat} {audited : Bool}
  {grace : Nat} {resolver : Directory.Resolver} {s : System}

/-- **A worker that is gone has left nothing to do**, in every course of a fresh service. -/
theorem finished_of_gone (hw : settings.workers < UInt32.size)
    (h : Course o (new settings capacity auditCapacity audited grace resolver) s)
    (hgone : s.worker = .gone) : s.Finished := by
  obtain ⟨hs, -, hwork⟩ := Course.sound h (sound_new ..)
  refine finished_of_sound hs ?_ hgone
  rw [hwork]
  exact Nat.max_lt.2 ⟨hw, by decide⟩

end New

/-! ## A worker that does not wait -/

/-- Where the worker is while it runs on, with nobody left to offer an event. -/
structure Outrun (s : System) (worker : Worker) (items : List Event) (flights workers : Nat) :
    Prop where
  running : s.agenda.running = some .worker
  worker : s.worker = worker
  items : s.queue.items = items
  waiting : s.queue.waiting = []
  flights : s.flights.length = flights
  unsignalled : s.stopWorker = false
  orphaned : s.orphaned = true
  workers : s.settings.workers = workers

namespace Outrun

variable {s : System} {e : Event} {n workers : Nat}

theorem take (h : s.Outrun .idle [e] n workers) :
    s.moveWorker.Outrun (.holding e false) [] n workers := by
  have ht : s.takeEvent
      = some (e, { s with queue := { s.queue with items := [], waiting := [] } }) := by
    unfold takeEvent Queue.take?
    rw [h.items, h.waiting]
    rfl
  unfold moveWorker
  rw [h.worker]
  dsimp only
  rw [h.unsignalled, ht]
  exact { h with worker := rfl, items := rfl, waiting := rfl }

theorem launch (h : s.Outrun (.holding e false) [] n workers) (hn : n < workers) :
    s.moveWorker.Outrun .idle [] (n + 1) workers := by
  have hfree : 0 < s.freeWorkers := by
    rw [freeWorkers, h.flights, h.workers]
    exact Nat.sub_pos_of_lt hn
  unfold moveWorker
  rw [h.worker]
  dsimp only
  rw [if_pos hfree]
  exact { h with
    running := (Agenda.running_wake _ _).trans h.running
    worker := rfl
    flights := by rw [← h.flights]; exact List.length_append }

theorem takeEvent_of_empty (h : s.queue.items = []) : s.takeEvent = none :=
  Option.map_eq_none_iff.2 ((Queue.take?_eq_none_iff _).2 h)

theorem close (h : s.Outrun .idle [] n workers) :
    s.moveWorker.Outrun .draining [] n workers := by
  unfold moveWorker
  rw [h.worker]
  dsimp only
  rw [h.unsignalled, takeEvent_of_empty h.items]
  dsimp only
  rw [h.orphaned]
  exact { h with
    running := (Agenda.running_wakeAll _ _).trans h.running
    worker := rfl
    waiting := rfl }

theorem part (h : s.Outrun .draining [] n workers) :
    s.moveWorker.Outrun .parting [] n workers := by
  unfold moveWorker
  rw [h.worker]
  dsimp only
  rw [takeEvent_of_empty h.items]
  exact { h with worker := rfl }

theorem leave (h : s.Outrun .parting [] n workers)
    (hq : workers % UInt32.size ≤ workers - n) :
    s.moveWorker.worker = .gone ∧ s.moveWorker.flights.length = n := by
  have hquorum : s.quorum ≤ s.freeWorkers := by
    rw [quorum, freeWorkers, h.flights, h.workers]
    exact hq
  unfold moveWorker
  rw [h.worker]
  dsimp only
  rw [if_pos hquorum]
  exact ⟨rfl, h.flights⟩

end Outrun

section Overflow

variable (o : Outside) (settings : Settings) (capacity auditCapacity : Nat) (audited : Bool)
  (grace : Nat) (resolver : Directory.Resolver)

/-- A fresh service takes an event, and then nobody is left to offer another one. -/
theorem exists_outrun (e : Event) :
    ∃ s, Course o (new settings capacity auditCapacity audited grace resolver) s
      ∧ s.Outrun .idle [e] 0 (max settings.workers 1) := by
  let fresh := new settings capacity auditCapacity audited grace resolver
  have hroom : fresh.queue.hasRoom = true :=
    (Queue.hasRoom_iff _).2 (Nat.lt_of_lt_of_le Nat.one_pos (Nat.le_max_right _ _))
  have hrequest : fresh.request (.enqueue e)
      = ({ fresh with queue := fresh.queue.push e }.accepted { actor := .client } e).answer
          (.offered (.ok ())) := by
    rw [request, enqueue, hroom]
    rfl
  let s₁ := fresh.request (.enqueue e)
  have h₁ : Course o fresh s₁ := .single (.request _ rfl (.inl rfl) rfl)
  -- the client waits for the worker, whose turn it is then
  let s₂ := s₁.request .finish
  have h₂ : Course o s₁ s₂ := by
    refine .single (.request _ ?_ (.inl ?_) rfl)
    · rw [show s₁ = _ from hrequest]
      rfl
    · rw [show s₁ = _ from hrequest]
      rfl
  have h₃ : s₂.step o = s₂.rest := by
    rw [show s₂ = s₁.request .finish from rfl, show s₁ = _ from hrequest]
    rfl
  refine ⟨(s₂.step o).step o,
    (h₁.trans h₂).trans ((course_step o s₂).trans (course_step o _)), ?_⟩
  rw [h₃, show s₂ = s₁.request .finish from rfl, show s₁ = _ from hrequest]
  exact ⟨rfl, rfl, rfl, rfl, rfl, rfl, rfl, rfl⟩

/-- **A worker can be gone while a delivery is under way**, if there are so many workers
that their number does not fit in 32 bits. -/
theorem exists_gone_of_le (e : Event) (hw : UInt32.size ≤ settings.workers) :
    ∃ s, Course o (new settings capacity auditCapacity audited grace resolver) s
      ∧ s.worker = .gone ∧ s.flights ≠ [] := by
  obtain ⟨s, hs, h⟩ := exists_outrun o settings capacity auditCapacity audited grace resolver e
  have hmax : max settings.workers 1 = settings.workers :=
    Nat.max_eq_left (Nat.le_trans (by decide) hw)
  rw [hmax] at h
  have hpos : 0 < settings.workers := Nat.lt_of_lt_of_le (by decide) hw
  have hquorum : settings.workers % UInt32.size ≤ settings.workers - (0 + 1) := by
    have hlt : settings.workers % UInt32.size < UInt32.size := Nat.mod_lt _ (by decide)
    omega
  -- the worker waits for fewer free workers than there are when one is busy
  have hlaunch := h.take.launch hpos
  have hgone := hlaunch.close.part.leave hquorum
  refine ⟨_, ?_, hgone.1, ?_⟩
  · exact ((((hs.tail (.move h.running)).tail (.move h.take.running)).tail
      (.move hlaunch.running)).tail (.move hlaunch.close.running)).tail
      (.move hlaunch.close.part.running)
  · exact fun hnil => by simp [hnil] at hgone

end Overflow

/-! ## Which configurations wait for all deliveries -/

/-- **Exactly with fewer than `UInt32.size` workers** a worker that is gone has left
nothing to do. With more of them the queue is still closed and empty then, but
deliveries may be under way. -/
theorem finished_iff_workers_lt (c : Config) (time : Time.Timestamp) :
    (∀ o s, Course o (of c time) s → s.worker = .gone →
        s.queue.closed = true ∧ s.queue.items = [])
      ∧ ((∀ o s, Course o (of c time) s → s.worker = .gone → s.Finished)
        ↔ c.dispatcher.workers.toNat < UInt32.size) := by
  refine ⟨fun o s h hgone => ?_, fun hfin => ?_, fun hw o s h hgone => ?_⟩
  · have hs := (Course.sound h (sound_new ..)).1
    have hdone : s.ledger.worker.isDone = true := by rw [worker_ledger, hgone]; rfl
    exact ⟨hs.shut.closed (Worker.isEnding_of_isDone hdone), hs.shut.empty hdone⟩
  · refine Nat.lt_of_not_le fun hw => ?_
    let o : Outside :=
      { lookup := fun _ key => { answer := .error (.unknownPerson key.text) }
        call := fun _ _ => { answer := .ok () }
        append := fun _ _ => { answer := .ok () }
        fetch := fun _ schedule => { answer := .error (.fetch schedule.name) } }
    have hex : ∃ s, Course o (of c time) s ∧ s.worker = .gone ∧ s.flights ≠ [] :=
      exists_gone_of_le o _ _ _ _ _ _ default hw
    obtain ⟨s, h, hgone, hflights⟩ := hex
    exact hflights (hfin o s h hgone).landed
  · exact finished_of_gone hw h hgone

/-- With `UInt32.size` workers, which is a valid number, the worker of this service is
gone at once when it is stopped, and does not wait for the one call that was made. -/
theorem not_finished_of_workers_eq :
    let c : Config := { dispatcher := { workers := 4294967296 } }
    let o : Outside :=
      { lookup := fun _ key => { answer := .error (.unknownPerson key.text) }
        call := fun _ _ => { delay := some 1000, answer := .ok () }
        append := fun _ _ => { answer := .ok () }
        fetch := fun _ schedule => { answer := .error (.fetch schedule.name) } }
    let event : Event := { id := "a", delivery := .callback "u", title := "t", message := "m" }
    let s := (of c).serveAll o 50 [.enqueue event, .start, .shutdown]
    c.validate = .ok () ∧ Course o (of c) s ∧ s.worker = .gone ∧ s.now = 0
      ∧ s.calls.length = 1 ∧ ¬ s.Finished := by
  intro c o event s
  have hrun : s.worker = .gone ∧ s.now = 0 ∧ s.calls.length = 1 ∧ s.flights.length = 1 := by
    decide +kernel
  refine ⟨by decide +kernel, course_serveAll o 50 (of c) _ (by decide +kernel), hrun.1,
    hrun.2.1, hrun.2.2.1, fun hfin => ?_⟩
  have hlen := hrun.2.2.2
  rw [hfin.landed] at hlen
  cases hlen

end Rota.Relay.System
