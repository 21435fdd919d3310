import Mathlib.Data.List.Basic
import Rota.Proofs.Relay.Aside
import Rota.Proofs.Relay.Course
import Rota.Proofs.Relay.Visits

/-!
# The ledger of the queue

Most of what the service does is no business of the queue. Its **ledger** is
the part of the state that events pass through: the queue itself, the worker,
the deliveries under way, and the accounts of what was offered, begun and
ended.

`Ledger.Next` lists once what can happen to the ledger in one step, each change
with the condition under which the service makes it, and `Advance.next` says
that nothing else ever does. What the ledger obeys is then proved from this
list alone.
-/

namespace Rota.Relay

/-- **The ledger**: where the events are, and what became of them. -/
structure Ledger where
  queue : Queue
  worker : Worker
  counts : Counts
  /-- The deliveries under way, with their numbers. -/
  flights : List (Nat × Event)
  /-- The number of deliveries begun. -/
  launched : Nat
  /-- The events whose deliveries have begun, the latest first. -/
  begun : List Event
  /-- The offers that have ended, the latest first. -/
  offers : List Offer
  /-- The deliveries that have ended, the latest first. -/
  landings : List Landing
  /-- The audit records handed over, the latest first. -/
  handed : List Audit.Record
  /-- The number of deliveries that may be under way at once. -/
  workers : Nat

/-- The ledger of a service. -/
def System.ledger (s : System) : Ledger where
  queue := s.queue
  worker := s.worker
  counts := s.counts
  flights := s.flights.map fun f => (f.number, f.event)
  launched := s.launched
  begun := s.begun
  offers := s.offers
  landings := s.landings
  handed := s.pipeline.offered
  workers := s.settings.workers

namespace Ledger

/-- What the worker does between two events. -/
def between (draining : Bool) : Worker :=
  if draining then .draining else .idle

/-- **What can happen to the ledger** in one step. -/
inductive Next (l : Ledger) : Ledger → Prop
  | same : Next l l
  /-- An event is put into a free slot of the open queue. -/
  | push (x : Sender) (e : Event) (isOpen : l.queue.closed = false)
      (room : l.queue.hasRoom = true) :
      Next l
        { l with
          queue := l.queue.push e
          counts := { l.counts with enqueued := l.counts.enqueued + 1 }
          offers := { sender := x, event := e, result := .ok () } :: l.offers }
  /-- An event is put into a slot that was handed to its sender. -/
  | use (x : Sender) (e : Event) (isOpen : l.queue.closed = false)
      (granted : x ∈ l.queue.granted) :
      Next l
        { l with
          queue := l.queue.use x e
          counts := { l.counts with enqueued := l.counts.enqueued + 1 }
          offers := { sender := x, event := e, result := .ok () } :: l.offers }
  /-- An event is turned away, and its sender waits no longer. -/
  | refuse (x : Sender) (e : Event) (failure : Failure) (queue : Queue)
      (left : queue = l.queue ∨ queue = l.queue.withdraw x)
      (cause : failure = .queueClosed ∨ failure = .queueFull l.queue.capacity) :
      Next l
        { l with
          queue
          counts := { l.counts with rejected := l.counts.rejected + 1 }
          offers := { sender := x, event := e, result := .error failure } :: l.offers }
  /-- A sender begins to wait for a slot of the full queue. -/
  | await (x : Sender) (isOpen : l.queue.closed = false) (full : l.queue.hasRoom = false) :
      Next l { l with queue := l.queue.await x }
  /-- The worker takes the oldest event. -/
  | take (e : Event) (queue : Queue) (x : Option Sender) (draining : Bool)
      (free : l.worker = between draining) (oldest : l.queue.take? = some (e, queue, x)) :
      Next l { l with queue, worker := .holding e draining }
  /-- The delivery of the event begins that the worker has taken. -/
  | launch (e : Event) (draining : Bool) (holding : l.worker = .holding e draining)
      (room : l.flights.length < l.workers) :
      Next l
        { l with
          worker := between draining
          flights := l.flights ++ [(l.launched, e)]
          launched := l.launched + 1
          begun := e :: l.begun }
  /-- A delivery ends, is counted, and its record is handed over. -/
  | land (n : Nat) (e : Event) (r : Audit.Record) (flying : (n, e) ∈ l.flights) :
      Next l
        { l with
          counts :=
            if r.success then { l.counts with delivered := l.counts.delivered + 1 }
            else { l.counts with failed := l.counts.failed + 1 }
          landings := { number := n, event := e, record := r } :: l.landings
          handed := r :: l.handed
          flights := l.flights.filter (·.1 ≠ n) }
  /-- The worker is started. -/
  | start (unstarted : l.worker = .unstarted) : Next l { l with worker := .idle }
  /-- The worker closes the queue. -/
  | close (idle : l.worker = .idle) :
      Next l { l with queue := l.queue.close.1, worker := .draining }
  /-- The worker has emptied the closed queue. -/
  | part (draining : l.worker = .draining) (empty : l.queue.take? = none) :
      Next l { l with worker := .parting }
  /-- The worker ends, when it finds as many free workers as it waits for. -/
  | leave (parting : l.worker = .parting)
      (quorum : l.workers % UInt32.size ≤ l.workers - l.flights.length) :
      Next l { l with worker := .gone }

end Ledger

namespace System

@[simp] theorem queue_ledger (s : System) : s.ledger.queue = s.queue := rfl

@[simp] theorem worker_ledger (s : System) : s.ledger.worker = s.worker := rfl

@[simp] theorem workers_ledger (s : System) : s.ledger.workers = s.settings.workers := rfl

@[simp] theorem flights_ledger (s : System) :
    s.ledger.flights = s.flights.map fun f => (f.number, f.event) := rfl

/-! ## Moves that leave the ledger alone -/

@[simp] theorem ledger_wake (s : System) (a : Actor) : (s.wake a).ledger = s.ledger := rfl

@[simp] theorem ledger_rest (s : System) : s.rest.ledger = s.ledger := rfl

@[simp] theorem ledger_restUntil (s : System) (due : Nat) (a : Actor) (slot : Nat) :
    (s.restUntil due a slot).ledger = s.ledger := rfl

@[simp] theorem ledger_setProgress (s : System) (number : Nat) (p : Progress) :
    (s.setProgress number p).ledger = s.ledger := by
  -- neither the numbers of the deliveries nor their events change
  have h : (s.setProgress number p).flights.map (fun f => (f.number, f.event))
      = s.flights.map fun f => (f.number, f.event) := by
    unfold setProgress
    rw [List.map_map]
    refine List.map_congr_left fun f _ => ?_
    by_cases hf : f.number = number <;> simp [hf]
  unfold ledger
  rw [h]
  rfl

/-- A word on the side is no business of the ledger. -/
theorem Aside.ledger {s s' : System} (h : s.Aside s') : s'.ledger = s.ledger := by
  have ho := h.offered
  obtain ⟨_, _, _, _, rfl⟩ := h.eq
  unfold System.ledger
  rw [ho]

@[simp] theorem ledger_signalLoop (s : System) : s.signalLoop.ledger = s.ledger := by
  unfold signalLoop
  dsimp only
  split <;> rfl

@[simp] theorem ledger_startPolling (s : System) (schedules : List Config.Schedule) :
    (s.startPolling schedules).ledger = s.ledger := by
  unfold startPolling
  split <;> rfl

@[simp] theorem ledger_told (s : System) (result : Except Failure Unit) :
    (s.told result).ledger = s.ledger := by
  unfold told
  split <;> rfl

@[simp] theorem ledger_await (s : System) (c : Client) : (s.await c).ledger = s.ledger := rfl

@[simp] theorem ledger_answer (s : System) (a : Answer) : (s.answer a).ledger = s.ledger := rfl

@[simp] theorem ledger_receive (s : System) (schedule : Config.Schedule)
    (answer : Option (Except Failure Roster.Snapshot)) :
    (s.receive schedule answer).2.ledger = s.ledger := by
  unfold receive
  split
  · split <;> rfl
  · rfl

/-- The writer appends records; it is handed none. -/
@[simp] theorem ledger_moveWriter (o : Outside) (s : System) :
    (s.moveWriter o).ledger = s.ledger := by
  have h := s.pipeline.offered_move s.now (o.append s.appends)
  unfold moveWriter
  split
  next pipeline turn begun hm =>
  rw [hm] at h
  -- whatever the writer appends, what was handed over stays
  have hl : ∀ n, ({ s with pipeline, appends := n } : System).ledger = s.ledger := by
    intro n
    unfold ledger
    rw [← h]
  cases turn with
  | again => exact hl _
  | ended => rw [ledger_rest, ledger_wake, hl]
  | waiting due =>
    cases due with
    | none => rw [ledger_rest, hl]
    | some due => rw [ledger_restUntil, hl]

/-! ## Offers -/

theorem ledger_accepted (s : System) (x : Sender) (e : Event) :
    (s.accepted x e).ledger
      = { s.ledger with
          counts := { s.counts with enqueued := s.counts.enqueued + 1 }
          offers := { sender := x, event := e, result := .ok () } :: s.offers } := by
  unfold accepted
  rw [(aside_wakeWorker _).ledger]
  rfl

theorem next_enqueue (s : System) (e : Event) (x : Sender) :
    s.ledger.Next (s.enqueue e x).2.ledger := by
  unfold enqueue
  split
  · exact .refuse x e .queueClosed _ (.inl rfl) (.inl rfl)
  · next hc =>
    split
    · next hr =>
      rw [ledger_accepted]
      exact .push x e (by simpa using hc) hr
    · exact .refuse x e _ _ (.inl rfl) (.inr rfl)

theorem next_offer (s : System) (x : Sender) (e : Event) (limit : Nat) :
    s.ledger.Next (s.offer x e limit).2.ledger := by
  unfold offer
  split
  · exact next_enqueue s e x
  · next h =>
    have isOpen : s.queue.closed = false := by simpa using fun hc => h (Or.inl hc)
    have full : s.queue.hasRoom = false := by simpa using fun hr => h (Or.inr (Or.inl hr))
    exact .await x isOpen full

theorem next_offerAgain (s : System) (x : Sender) (e : Event) (deadline : Nat) :
    s.ledger.Next (s.offerAgain x e deadline).2.ledger := by
  unfold offerAgain
  split
  · exact .refuse x e .queueClosed _ (.inr rfl) (.inl rfl)
  · next hc =>
    split
    · next hg =>
      rw [ledger_accepted]
      exact .use x e (by simpa using hc) hg
    · split
      · exact .refuse x e _ _ (.inr rfl) (.inr rfl)
      · exact .same

theorem next_offerAside (s : System) (e : Event) (limit : Nat) :
    s.ledger.Next (s.offerAside e limit).ledger := by
  have h := next_offer { s with hired := s.hired + 1 } { actor := .producer s.hired } e limit
  unfold offerAside
  split
  · next hs => rw [hs] at h; exact h
  · next hs => rw [hs] at h; exact h

theorem next_moveProducer (s : System) (number : Nat) :
    s.ledger.Next (s.moveProducer number).ledger := by
  unfold moveProducer
  split
  · exact .same
  · next p _ =>
    have h := next_offerAgain s { actor := .producer number } p.event p.deadline
    split
    · next hs => rw [hs] at h; exact h
    · next hs => rw [hs] at h; exact h

/-! ## Deliveries -/

theorem ledger_record (s : System) (r : Audit.Record) :
    (s.record r).ledger = { s.ledger with handed := r :: s.pipeline.offered } := by
  unfold record
  dsimp only
  split <;> simp [ledger, wake]

/-- What the end of a delivery does to the ledger. -/
theorem ledger_land (s : System) (f : Flight) (r : Audit.Record) :
    (s.land f r).ledger
      = { s.ledger with
          counts :=
            if r.success then { s.counts with delivered := s.counts.delivered + 1 }
            else { s.counts with failed := s.counts.failed + 1 }
          landings := { number := f.number, event := f.event, record := r } :: s.landings
          handed := r :: s.pipeline.offered
          flights := s.ledger.flights.filter (·.1 ≠ f.number) } := by
  -- who is woken then is no business of the ledger
  have hl : (s.land f r).ledger = (s.conclude f r).ledger := by
    unfold land
    dsimp only
    split <;> rfl
  rw [hl, conclude, ledger_record]
  simp [ledger, List.filter_map, Function.comp_def]

theorem next_land (s : System) (f : Flight) (r : Audit.Record) (h : f ∈ s.flights) :
    s.ledger.Next (s.land f r).ledger := by
  rw [ledger_land]
  exact .land f.number f.event r (List.mem_map_of_mem h)

theorem next_pursue (o : Outside) (s : System) (f : Flight) (h : f ∈ s.flights)
    (next : Next) : s.ledger.Next (s.pursue o f next).ledger := by
  cases next with
  | ended r => exact next_land s f r h
  | calling call whom =>
    unfold pursue
    dsimp only
    rw [ledger_setProgress]
    exact .same

theorem next_moveFlight (o : Outside) (s : System) (number : Nat) :
    s.ledger.Next (s.moveFlight o number).ledger := by
  unfold moveFlight
  split
  · exact .same
  · next f hf =>
    have hm := List.mem_of_find?_eq_some hf
    split
    · split
      · exact next_pursue o s f hm _
      · dsimp only
        rw [ledger_setProgress]
        exact .same
    · split
      · split
        next result resolver _ => exact next_pursue o { s with resolver } f hm _
      · exact .same
    · split
      · exact next_land s f _ hm
      · exact .same

/-! ## The worker -/

/-- **What taking an event does**: the queue is shorter, and a sender who was
waiting has its slot, and is woken. -/
theorem takeEvent_eq_some {s s' : System} {e : Event} (h : s.takeEvent = some (e, s')) :
    ∃ queue x, s.queue.take? = some (e, queue, x)
      ∧ s' = x.elim { s with queue } fun y => { s with queue }.wake y.actor := by
  unfold takeEvent at h
  obtain ⟨⟨e', queue, x⟩, ht, he⟩ := Option.map_eq_some_iff.1 h
  cases he
  exact ⟨queue, x, ht, rfl⟩

theorem takeEvent_eq_none {s : System} (h : s.takeEvent = none) : s.queue.take? = none :=
  Option.map_eq_none_iff.1 h

/-- To the worker between two events it makes no difference whether it drains
the queue. -/
theorem next_takeEvent {s s' : System} {e : Event} (draining : Bool)
    (hw : s.worker = Ledger.between draining) (h : s.takeEvent = some (e, s')) :
    s.ledger.Next ({ s' with worker := .holding e draining } : System).ledger := by
  obtain ⟨queue, x, ht, rfl⟩ := takeEvent_eq_some h
  cases x <;> exact .take e queue _ draining hw ht

theorem ledger_launch (s : System) (e : Event) :
    (s.launch e).ledger
      = { s.ledger with
          flights := s.ledger.flights ++ [(s.launched, e)]
          launched := s.launched + 1
          begun := e :: s.begun } := by
  unfold launch
  rw [ledger_wake]
  simp [ledger]

theorem next_moveWorker (s : System) : s.ledger.Next s.moveWorker.ledger := by
  unfold moveWorker
  split
  · exact .same
  · next hw =>
    split
    · exact .close hw
    · split
      · next h => exact next_takeEvent false hw h
      · split
        · exact .close hw
        · exact .same
  · next e draining hw =>
    split
    · next hf =>
      rw [ledger_launch]
      refine .launch e draining hw ?_
      unfold freeWorkers at hf
      simpa using Nat.lt_of_sub_pos hf
    · exact .same
  · next hw =>
    split
    · next h => exact next_takeEvent true hw h
    · next h => exact .part hw (takeEvent_eq_none h)
  · next hw =>
    split
    · next hq =>
      refine .leave hw ?_
      simpa [quorum, freeWorkers] using hq
    · exact .same
  · exact .same

/-! ## Poll cycles -/

/-- A move of a visit is at most one offer. -/
theorem VisitMove.next {o : Outside} {s s' : System} {x : Sender} {schedule : Config.Schedule}
    {p p' : Poller.Phase} (h : VisitMove o s x schedule p p' s') : s.ledger.Next s'.ledger := by
  cases h with
  | ask => exact .same
  | hear due answer isDue =>
    rw [endFetch, ledger_receive]
    exact .same
  | succeed roster t => exact .same
  | skip roster t member change left mute => exact .same
  | offer roster t member change left event result s' made ended =>
    have hoffer := next_offer (s.countTelling change) x event s.settings.fetchTimeout
    rw [ended] at hoffer
    rw [ledger_told]
    exact hoffer
  | wait roster t member change left event s' made waits =>
    have hoffer := next_offer (s.countTelling change) x event s.settings.fetchTimeout
    rw [waits] at hoffer
    exact hoffer
  | offered event deadline roster t left result s' ended =>
    have hoffer := next_offerAgain s x event deadline
    rw [ended] at hoffer
    rw [ledger_told]
    exact hoffer

theorem next_moveCycle (o : Outside) (s : System) (owner : Actor) (c : Poller.Cycle) :
    s.ledger.Next (s.moveCycle o owner c).2.2.ledger := by
  unfold moveCycle
  split
  · next v _ =>
    split
    · next h => exact (visitMove_of_moveVisit h).next
    · exact .same
  · split <;> exact .same

theorem next_moveLoop (o : Outside) (s : System) :
    s.ledger.Next (s.moveLoop o).ledger := by
  unfold moveLoop
  split
  · exact .same
  · split
    · exact .same
    · split <;> exact .same
  · next next c _ =>
    have h := next_moveCycle o s .poller c
    split
    · next hc => rw [hc] at h; exact h
    · next hc => rw [hc] at h; exact h
    · next hc => rw [hc] at h; exact h

theorem next_moveClient (o : Outside) (s : System) :
    s.ledger.Next (s.moveClient o).ledger := by
  unfold moveClient
  split
  · exact .same
  · split <;> exact .same
  · next event deadline _ =>
    have h := next_offerAgain s { actor := .client } event deadline
    split
    · next hs => rw [hs] at h; exact h
    · next hs => rw [hs] at h; exact h
  · next c _ =>
    have h := next_moveCycle o s .client c
    split
    · next hc => rw [hc] at h; exact h
    · next hc => rw [hc] at h; exact h
    · next hc => rw [hc] at h; exact h
  · split <;> exact .same
  · split
    · rw [(aside_signalWriter _).ledger, (aside_startWriter _).ledger]
      exact .same
    · exact .same
  · split <;> exact .same

theorem next_move (o : Outside) (s : System) (a : Actor) :
    s.ledger.Next (s.move o a).ledger := by
  cases a with
  | client => exact next_moveClient o s
  | poller => exact next_moveLoop o s
  | worker => exact next_moveWorker s
  | writer =>
    unfold move
    rw [ledger_moveWriter]
    exact .same
  | delivery n => exact next_moveFlight o s n
  | producer n => exact next_moveProducer s n

/-! ## Requests -/

theorem next_startWorker (s : System) : s.ledger.Next s.startWorker.ledger := by
  unfold startWorker
  split
  · next h => exact .start h
  · exact .same

theorem next_request (s : System) (r : Request) (hr : r.isRecord = false) :
    s.ledger.Next (s.request r).ledger := by
  -- what the client does then is no business of the ledger either
  have hsame : ∀ {s' : System}, s'.ledger = s.ledger → s.ledger.Next s'.ledger := by
    intro s' h
    rw [h]
    exact .same
  cases r with
  | sleep ms => exact .same
  | poll schedules => exact .same
  | record r times => cases hr
  | enqueue event => exact next_enqueue s event _
  | enqueueWithin event limit =>
    have h := next_offer s { actor := .client } event limit
    rw [request]
    split
    · next hs => rw [hs] at h; exact h
    · next hs => rw [hs] at h; exact h
  | offerAside event limit => exact next_offerAside s event limit
  | start =>
    rw [request, ledger_answer, (aside_startWriter _).ledger]
    exact next_startWorker s
  | shutdown =>
    rw [request, ledger_await, (aside_signalWorker _).ledger, (aside_startWriter _).ledger]
    exact next_startWorker s
  | finish =>
    rw [request, ledger_await, (aside_endEvents _).ledger]
    exact next_startWorker s
  | startWriter => exact hsame (aside_startWriter s).ledger
  | dropWriter => exact hsame (aside_dropWriter s).ledger
  | signal => exact hsame (aside_signalWorker s).ledger
  | leave => exact hsame (aside_endEvents s).ledger
  | shutdownWriter => exact hsame ((aside_signalWriter _).after (aside_startWriter s)).ledger
  | finishRecords => exact hsame ((aside_endRecords _).after (aside_startWriter s)).ledger
  | startPolling schedules => exact hsame (ledger_startPolling s schedules)
  | stopPolling =>
    rw [request]
    split
    · exact hsame (ledger_signalLoop s)
    · exact .same

/-- **Nothing else happens to the ledger**, whatever the service does. -/
theorem Advance.next {o : Outside} {s s' : System} (h : Advance o s s') :
    s.ledger.Next s'.ledger := by
  cases h with
  | move _ => exact next_move o s _
  | request r _ _ hr => exact next_request s r hr
  | turn _ _ => exact .same
  | call _ _ => exact .same
  | pass t => exact .same
  | elsewhere _ _ _ => exact .same

end System

end Rota.Relay
