import Rota.Proofs.Audit.Conservation
import Rota.Proofs.Directory.Meaning
import Rota.Proofs.Relay.Aside
import Rota.Proofs.Relay.Course
import Rota.Proofs.Relay.Visits

/-!
# What leaves the service

A delivery asks the directory at most once, makes at most one call, and ends
with one record. The **outbound** part of the state is what this goes through:
the deliveries under way, the calls made, the deliveries that have ended, and
the way of the records.

`Outbound.Step` lists once what can happen to it, each step with what the
service knows when it takes it, and `Advance.outbound` says that an advance is
such a step. What is called, and what is recorded of it, is then proved from
this list alone.
-/

namespace Rota.Relay

open Rota.Audit (Pipeline Record)

/-- **The way out** of the service. -/
structure Outbound where
  flights : List Flight
  /-- The number of deliveries begun. -/
  launched : Nat
  /-- The events whose deliveries have begun, the latest first. -/
  begun : List Event
  /-- The calls made, the latest first. -/
  attempts : List Attempt
  /-- The deliveries that have ended, the latest first. -/
  landings : List Landing
  pipeline : Pipeline

/-- The way out of a service. -/
def System.outbound (s : System) : Outbound where
  flights := s.flights
  launched := s.launched
  begun := s.begun
  attempts := s.attempts
  landings := s.landings
  pipeline := s.pipeline

/-- **What a delivery may do next** before it has made a call: what its event says, or
what follows from the answer of the directory. -/
inductive Flight.Ready (f : Flight) : Next → Prop
  | known {time : Time.Timestamp} {next : Next} (fresh : f.progress = .fresh)
      (first : Beginning.of time f.event = .known next) : Ready f next
  /-- Somebody was found who can be reached. -/
  | found {key : Key} {channel : Channel} {due : Nat}
      {answer : Option (Except Failure Identity)} {person : Identity}
      (asking : f.progress = .asking key channel due answer)
      (reachable : person.reachable channel = .ok ()) :
      Ready f (.calling (.push channel person f.event.id f.event.message)
        ⟨person.id, person.contact channel⟩)
  | unfound {time : Time.Timestamp} {key : Key} {channel : Channel} {due : Nat}
      {answer : Option (Except Failure Identity)} (failure : Failure)
      (asking : f.progress = .asking key channel due answer) :
      Ready f (.ended (.of time key.text "" f.event.delivery.label false failure.message))

namespace Outbound

/-- One of the deliveries under way goes on. -/
def setProgress (b : Outbound) (number : Nat) (p : Progress) : Outbound :=
  { b with
    flights := b.flights.map fun f =>
      if f.number = number then { f with progress := p } else f }

/-- A delivery ends, and its record is offered. -/
def land (b : Outbound) (f : Flight) (r : Record) : Outbound :=
  { b with
    flights := b.flights.filter (·.number ≠ f.number)
    landings := { number := f.number, event := f.event, record := r } :: b.landings
    pipeline := b.pipeline.offer r }

/-- **What can happen** on the way out. -/
inductive Step (b : Outbound) : Outbound → Prop
  | same : Step b b
  /-- The records go on their way. -/
  | write (pipeline : Pipeline) (next : b.pipeline.Next pipeline) : Step b { b with pipeline }
  /-- The delivery of an event begins. -/
  | launch (e : Event) :
      Step b
        { b with
          flights := b.flights ++ [{ number := b.launched, event := e }]
          launched := b.launched + 1
          begun := e :: b.begun }
  /-- The directory is asked whom an event is for. -/
  | ask (f : Flight) (flying : f ∈ b.flights) (fresh : f.progress = .fresh) (key : Key)
      (channel : Channel) (open_ : f.event.delivery = .push (.lookup key) channel) (due : Nat)
      (answer : Option (Except Failure Identity)) :
      Step b (b.setProgress f.number (.asking key channel due answer))
  /-- A call is made. -/
  | call (f : Flight) (flying : f ∈ b.flights) (call : Call) (whom : Addressee)
      (ready : f.Ready (.calling call whom)) (due : Nat) (answer : Option (Except Failure Unit)) :
      Step b
        ({ b with attempts := { number := f.number, call } :: b.attempts }.setProgress f.number
          (.calling whom due answer))
  /-- A delivery ends without a call. -/
  | miss (f : Flight) (flying : f ∈ b.flights) (r : Record) (ready : f.Ready (.ended r)) :
      Step b (b.land f r)
  /-- A delivery ends when its call was answered, or not in time. -/
  | hear (f : Flight) (flying : f ∈ b.flights) (whom : Addressee) (due : Nat)
      (answer : Option (Except Failure Unit)) (calling : f.progress = .calling whom due answer)
      (time : Time.Timestamp) (heard : Except Failure Unit) :
      Step b (b.land f (recordOf time f.event whom heard))

/-- **Records only go on their way**, whatever else leaves the service. -/
theorem Step.pipeline {b c : Outbound} (h : b.Step c) : b.pipeline.Next c.pipeline := by
  cases h with
  | same | launch _ | ask _ _ _ _ _ _ _ _ | call _ _ _ _ _ _ _ => exact .same
  | write _ next => exact next
  | miss _ _ r _ => exact .offer r
  | hear _ _ _ _ _ _ _ _ => exact .offer _

end Outbound

namespace System

/-! ## Moves that keep within the service -/

/-- **Nothing leaves the service**, and nobody is resolved. -/
structure Within (s s' : System) : Prop where
  outbound : s'.outbound = s.outbound
  resolver : s'.resolver = s.resolver

section Within

variable (s : System)

theorem Within.refl : s.Within s := ⟨rfl, rfl⟩

theorem Within.after {s t s' : System} (h' : t.Within s') (h : s.Within t) : s.Within s' :=
  ⟨h'.outbound.trans h.outbound, h'.resolver.trans h.resolver⟩

/-- Nothing happens on the way out. -/
theorem Within.step {s s' : System} (h : s.Within s') : s.outbound.Step s'.outbound := by
  rw [h.outbound]
  exact .same

theorem within_wakeWorker : s.Within s.wakeWorker := by
  unfold wakeWorker
  split <;> exact ⟨rfl, rfl⟩

theorem within_accepted (x : Sender) (e : Event) : s.Within (s.accepted x e) :=
  (within_wakeWorker _).after ⟨rfl, rfl⟩

theorem within_enqueue (e : Event) (x : Sender) : s.Within (s.enqueue e x).2 := by
  unfold enqueue
  split
  · exact ⟨rfl, rfl⟩
  · split
    · exact (within_accepted _ x e).after ⟨rfl, rfl⟩
    · exact ⟨rfl, rfl⟩

theorem within_offer (x : Sender) (e : Event) (limit : Nat) :
    s.Within (s.offer x e limit).2 := by
  unfold offer
  split
  · exact within_enqueue s e x
  · exact ⟨rfl, rfl⟩

theorem within_offerAgain (x : Sender) (e : Event) (deadline : Nat) :
    s.Within (s.offerAgain x e deadline).2 := by
  unfold offerAgain
  split
  · exact ⟨rfl, rfl⟩
  · split
    · exact (within_accepted _ x e).after ⟨rfl, rfl⟩
    · split <;> exact ⟨rfl, rfl⟩

theorem within_offerAside (e : Event) (limit : Nat) : s.Within (s.offerAside e limit) := by
  have h := within_offer { s with hired := s.hired + 1 } { actor := .producer s.hired } e limit
  unfold offerAside
  split
  · next hs =>
    rw [hs] at h
    exact ⟨h.outbound, h.resolver⟩
  · next hs =>
    rw [hs] at h
    exact ⟨h.outbound, h.resolver⟩

theorem within_moveProducer (number : Nat) : s.Within (s.moveProducer number) := by
  unfold moveProducer
  split
  · exact ⟨rfl, rfl⟩
  · next p _ =>
    have h := within_offerAgain s { actor := .producer number } p.event p.deadline
    split
    · next hs =>
      rw [hs] at h
      exact ⟨h.outbound, h.resolver⟩
    · next hs =>
      rw [hs] at h
      exact ⟨h.outbound, h.resolver⟩

theorem within_told (result : Except Failure Unit) : s.Within (s.told result) := by
  unfold told
  split <;> exact ⟨rfl, rfl⟩

theorem within_endFetch (x : Sender) (schedule : Config.Schedule)
    (answer : Option (Except Failure Roster.Snapshot)) :
    s.Within (s.endFetch x schedule answer).2 := by
  unfold endFetch receive
  split
  · split <;> exact ⟨rfl, rfl⟩
  · exact ⟨rfl, rfl⟩

theorem VisitMove.within {o : Outside} {x : Sender} {schedule : Config.Schedule}
    {p p' : Poller.Phase} {s' : System} (h : VisitMove o s x schedule p p' s') : s.Within s' := by
  cases h with
  | ask => exact ⟨rfl, rfl⟩
  | hear due answer isDue => exact within_endFetch ..
  | succeed roster t => exact .refl s
  | skip roster t member change left mute => exact ⟨rfl, rfl⟩
  | offer roster t member change left event result s' made ended =>
    have hoffer := within_offer (s.countTelling change) x event s.settings.fetchTimeout
    rw [ended] at hoffer
    exact (within_told _ _).after (hoffer.after ⟨rfl, rfl⟩)
  | wait roster t member change left event s' made waits =>
    have hoffer := within_offer (s.countTelling change) x event s.settings.fetchTimeout
    rw [waits] at hoffer
    exact hoffer.after ⟨rfl, rfl⟩
  | offered event deadline roster t left result s' ended =>
    have hoffer := within_offerAgain s x event deadline
    rw [ended] at hoffer
    exact (within_told _ _).after hoffer

theorem within_moveCycle (o : Outside) (owner : Actor) (c : Poller.Cycle) :
    s.Within (s.moveCycle o owner c).2.2 := by
  unfold moveCycle
  split
  · next v _ =>
    split
    · next h => exact VisitMove.within s (visitMove_of_moveVisit h)
    · exact .refl s
  · split <;> exact .refl s

theorem within_moveLoop (o : Outside) : s.Within (s.moveLoop o) := by
  unfold moveLoop
  split
  · exact ⟨rfl, rfl⟩
  · split
    · exact ⟨rfl, rfl⟩
    · split <;> exact ⟨rfl, rfl⟩
  · next next c _ =>
    have h := within_moveCycle s o .poller c
    split
    · next hc => rw [hc] at h; exact ⟨h.outbound, h.resolver⟩
    · next hc => rw [hc] at h; exact ⟨h.outbound, h.resolver⟩
    · next hc => rw [hc] at h; exact ⟨h.outbound, h.resolver⟩

theorem within_startWorker : s.Within s.startWorker := by
  unfold startWorker
  split <;> exact ⟨rfl, rfl⟩

theorem within_signalWorker : s.Within s.signalWorker :=
  (within_wakeWorker _).after ⟨rfl, rfl⟩

theorem within_endEvents : s.Within s.endEvents :=
  (within_wakeWorker _).after ⟨rfl, rfl⟩

theorem within_startPolling (schedules : List Config.Schedule) :
    s.Within (s.startPolling schedules) := by
  unfold startPolling
  split <;> exact ⟨rfl, rfl⟩

theorem within_signalLoop : s.Within s.signalLoop := by
  unfold signalLoop
  dsimp only
  split <;> exact ⟨rfl, rfl⟩

theorem within_takeEvent {s' : System} {e : Event} (h : s.takeEvent = some (e, s')) :
    s.Within s' := by
  unfold takeEvent at h
  obtain ⟨⟨e', queue, x⟩, -, he⟩ := Option.map_eq_some_iff.1 h
  cases he
  cases x <;> exact ⟨rfl, rfl⟩

end Within

/-! ## The writer, and what it is told -/

section Writer

variable (s : System)

/-- What a word to the writer does, whether or not the writer is woken by it. -/
theorem outbound_tellWriter (p : Pipeline) (woken : Bool) :
    (if woken then ({ s with pipeline := p } : System).wake .writer
      else { s with pipeline := p }).outbound = { s.outbound with pipeline := p } := by
  cases woken <;> rfl

theorem outbound_signalWriter :
    s.signalWriter.outbound
      = { s.outbound with pipeline := { s.pipeline with stopping := true } } :=
  outbound_tellWriter ..

theorem outbound_endRecords :
    s.endRecords.outbound
      = { s.outbound with pipeline := { s.pipeline with orphaned := true } } :=
  outbound_tellWriter ..

theorem outbound_record (r : Record) :
    (s.record r).outbound = { s.outbound with pipeline := s.pipeline.offer r } :=
  outbound_tellWriter ..

/-- The writer starts, if it has not, and is told something at once. -/
theorem step_startTold (stopping orphaned : Bool) :
    s.outbound.Step { s.startWriter.outbound with
      pipeline := { s.startWriter.pipeline with stopping, orphaned } } := by
  unfold startWriter
  split
  · next h => exact .write _ (.start stopping orphaned h)
  · exact .write _ (.tell stopping orphaned)

theorem step_startWriter : s.outbound.Step s.startWriter.outbound :=
  step_startTold s s.startWriter.pipeline.stopping s.startWriter.pipeline.orphaned

theorem step_dropWriter : s.outbound.Step s.dropWriter.outbound := by
  unfold dropWriter
  split
  · next h => exact .write _ (.drop h)
  · exact .same

theorem step_signalWriter : s.outbound.Step s.signalWriter.outbound := by
  rw [outbound_signalWriter]
  exact .write _ (.tell true s.pipeline.orphaned)

theorem step_endRecords : s.outbound.Step s.endRecords.outbound := by
  rw [outbound_endRecords]
  exact .write _ (.tell s.pipeline.stopping true)

theorem step_moveWriter (o : Outside) : s.outbound.Step (s.moveWriter o).outbound := by
  have h := Pipeline.next_move s.pipeline s.now (o.append s.appends)
  unfold moveWriter
  split
  next pipeline turn begun hm =>
  rw [hm] at h
  cases turn with
  | again | ended => exact .write _ h
  | waiting due => cases due <;> exact .write _ h

end Writer

/-! ## Deliveries -/

/-- Before the directory is asked, the key must be open. -/
theorem delivery_of_asking {time : Time.Timestamp} {e : Event} {key : Key} {channel : Channel}
    (h : Beginning.of time e = .asking key channel) :
    e.delivery = .push (.lookup key) channel := by
  unfold Beginning.of at h
  split at h
  · cases h
  · next hd =>
    cases h
    exact hd
  · split at h <;> cases h

theorem outbound_land (s : System) (f : Flight) (r : Record) :
    (s.land f r).outbound = s.outbound.land f r := by
  -- who is woken then is no business of what leaves the service
  have hl : (s.land f r).outbound = (s.conclude f r).outbound := by
    unfold land
    dsimp only
    split <;> rfl
  rw [hl, conclude, outbound_record]
  rfl

theorem step_pursue (o : Outside) (s : System) (f : Flight) (flying : f ∈ s.flights)
    {next : Next} (ready : f.Ready next) : s.outbound.Step (s.pursue o f next).outbound := by
  cases next with
  | ended r =>
    rw [pursue, outbound_land]
    exact .miss f flying r ready
  | calling call whom => exact .call f flying call whom ready _ _

theorem step_moveFlight (o : Outside) (s : System) (number : Nat) :
    s.outbound.Step (s.moveFlight o number).outbound := by
  unfold moveFlight
  split
  · exact .same
  · next f hf =>
    have hm := List.mem_of_find?_eq_some hf
    have hn : f.number = number := by simpa using List.find?_some hf
    split
    · next hp =>
      split
      · next hk => exact step_pursue o s f hm (.known hp hk)
      · next key channel hk =>
        refine hn ▸ .ask f hm hp key channel ?_ _ _
        exact delivery_of_asking hk
    · next key channel due answer hp =>
      split
      · have hfound := s.resolver.resolveFor_found s.clock key channel
          (Directory.Resolver.heard key answer)
        split
        next result resolver hr =>
        rw [hr] at hfound
        cases result with
        | ok person =>
          exact step_pursue o { s with resolver } f hm (.found hp hfound.reachable)
        | error failure => exact step_pursue o { s with resolver } f hm (.unfound failure hp)
      · exact .same
    · next whom due answer hp =>
      split
      · rw [outbound_land]
        exact .hear f hm whom due answer hp _ _
      · exact .same

/-! ## The worker -/

theorem step_launch (s : System) (e : Event) : s.outbound.Step (s.launch e).outbound :=
  .launch e

theorem step_moveWorker (s : System) : s.outbound.Step s.moveWorker.outbound := by
  -- taking an event leaves the way out alone
  have htake : ∀ {e : Event} {s' : System} {w : Worker}, s.takeEvent = some (e, s') →
      s.outbound.Step ({ s' with worker := w } : System).outbound := by
    intro e s' w h
    exact (within_takeEvent s h).step
  unfold moveWorker
  split
  · exact .same
  · split
    · exact .same
    · split
      · next h => exact htake h
      · split <;> exact .same
  · split
    · exact step_launch { s with worker := _ } _
    · exact .same
  · split
    · next h => exact htake h
    · exact .same
  · split <;> exact .same
  · exact .same

/-! ## The client and its requests -/

theorem step_startSignalled (s : System) : s.outbound.Step s.startWriter.signalWriter.outbound := by
  rw [outbound_signalWriter]
  exact step_startTold s true s.startWriter.pipeline.orphaned

theorem step_startOrphaned (s : System) : s.outbound.Step s.startWriter.endRecords.outbound := by
  rw [outbound_endRecords]
  exact step_startTold s s.startWriter.pipeline.stopping true

theorem step_moveClient (o : Outside) (s : System) :
    s.outbound.Step (s.moveClient o).outbound := by
  unfold moveClient
  split
  · exact .same
  · split <;> exact .same
  · next event deadline _ =>
    have h := within_offerAgain s { actor := .client } event deadline
    split
    · next hs => rw [hs] at h; exact h.step
    · next hs => rw [hs] at h; exact h.step
  · next c _ =>
    have h := within_moveCycle s o .client c
    split
    · next hc => rw [hc] at h; exact h.step
    · next hc => rw [hc] at h; exact h.step
    · next hc => rw [hc] at h; exact h.step
  · split <;> exact .same
  · split
    · exact step_startSignalled { s with client := .awaitingWriter }
    · exact .same
  · split <;> exact .same

theorem step_move (o : Outside) (s : System) (a : Actor) :
    s.outbound.Step (s.move o a).outbound := by
  cases a with
  | client => exact step_moveClient o s
  | poller => exact (within_moveLoop s o).step
  | worker => exact step_moveWorker s
  | writer => exact step_moveWriter s o
  | delivery n => exact step_moveFlight o s n
  | producer n => exact (within_moveProducer s n).step

theorem step_request (s : System) (r : Request) (plain : r.isRecord = false) :
    s.outbound.Step (s.request r).outbound := by
  have hstart := (within_startWorker s).outbound
  cases r with
  | sleep ms => exact .same
  | poll schedules => exact .same
  | record r times => cases plain
  | enqueue event => exact (within_enqueue s event _).step
  | enqueueWithin event limit =>
    have h := within_offer s { actor := .client } event limit
    rw [request]
    split
    · next hs => rw [hs] at h; exact h.step
    · next hs => rw [hs] at h; exact h.step
  | offerAside event limit => exact (within_offerAside s event limit).step
  | start =>
    have h := step_startWriter s.startWorker
    rw [hstart] at h
    exact h
  | startWriter => exact step_startWriter s
  | dropWriter => exact step_dropWriter s
  | signal => exact (within_signalWorker s).step
  | leave => exact (within_endEvents s).step
  | shutdown =>
    have h := step_startWriter s.startWorker
    rw [hstart] at h
    show s.outbound.Step s.startWorker.startWriter.signalWorker.outbound
    rw [(within_signalWorker _).outbound]
    exact h
  | shutdownWriter => exact step_startSignalled s
  | finish => exact ((within_endEvents _).after (within_startWorker s)).step
  | finishRecords => exact step_startOrphaned s
  | startPolling schedules => exact (within_startPolling s schedules).step
  | stopPolling =>
    rw [request]
    split
    · exact (within_signalLoop s).step
    · exact .same

/-- **Nothing else happens on the way out**, whatever the service does. -/
theorem Advance.outbound {o : Outside} {s s' : System} (h : Advance o s s') :
    s.outbound.Step s'.outbound := by
  cases h with
  | move _ => exact step_move o s _
  | request r _ _ plain => exact step_request s r plain
  | turn _ _ => exact .same
  | call _ _ => exact .same
  | pass _ => exact .same
  | elsewhere _ _ _ => exact .same

end System

end Rota.Relay
