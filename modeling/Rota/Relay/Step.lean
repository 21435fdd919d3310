import Rota.Relay.System

/-!
# Moves of the actors

What each actor does when it is its turn, one small move at a time. A move
changes the state, and either leaves the actor running or makes it wait. `step`
is one move of whoever is running, or the choice of who runs next.
-/

namespace Rota.Relay.System

open Rota.Poller (Visit Phase)
open Rota.Roster (Snapshot)

/-! ## Deliveries -/

/-- Change one of the deliveries under way. -/
def setProgress (s : System) (number : Nat) (p : Progress) : System :=
  { s with
    flights := s.flights.map fun f =>
      if f.number = number then { f with progress := p } else f }

/-- Does the worker wait for the end of a delivery? -/
def wantsRoom (s : System) : Bool :=
  match s.worker with
  | .holding .. | .parting => true
  | _ => false

/-- Count a delivery that has ended, and offer its record. -/
def conclude (s : System) (f : Flight) (r : Audit.Record) : System :=
  { s with
    counts :=
      if r.success then { s.counts with delivered := s.counts.delivered + 1 }
      else { s.counts with failed := s.counts.failed + 1 }
    landings := { number := f.number, event := f.event, record := r } :: s.landings
    flights := s.flights.filter (·.number ≠ f.number) }.record r

/-- **End a delivery**: count it, offer its record, and make room for the next
one. -/
def land (s : System) (f : Flight) (r : Audit.Record) : System :=
  let s := s.conclude f r
  if s.wantsRoom then (s.wake .worker).rest else s.rest

/-- Do what is next for a delivery: make its call, or end it. -/
def pursue (o : Outside) (s : System) (f : Flight) : Next → System
  | .ended r => s.land f r
  | .calling call whom =>
    let (wait, answer) := (o.call s.calls.length call).within s.settings.deliveryTimeout
    { s with attempts := { number := f.number, call } :: s.attempts }.setProgress f.number
      (.calling whom (s.now + wait) answer)

/-- **A move of a delivery.** -/
def moveFlight (o : Outside) (s : System) (number : Nat) : System :=
  match s.flights.find? (·.number = number) with
  | none => s.rest
  | some f =>
    match f.progress with
    | .fresh =>
      match Beginning.of s.settings.time f.event with
      | .known next => s.pursue o f next
      | .asking key channel =>
        let (wait, answer) := (o.lookup s.lookups key).within s.resolver.lookupTimeout
        { s with lookups := s.lookups + 1 }.setProgress number
          (.asking key channel (s.now + wait) answer)
    | .asking key channel due answer =>
      if due ≤ s.now then
        let (result, resolver) :=
          s.resolver.resolveFor s.clock key channel (Directory.Resolver.heard key answer)
        { s with resolver }.pursue o f
          (.ofResolved s.settings.time f.event key channel result)
      else s.restUntil due (.delivery number)
    | .calling whom due answer =>
      if due ≤ s.now then
        s.land f
          (recordOf s.settings.time f.event whom (heardCall s.settings.deliveryTimeout answer))
      else s.restUntil due (.delivery number)

/-! ## The worker -/

/-- Take the oldest event from the queue; a sender who gets its slot is
woken. -/
def takeEvent (s : System) : Option (Event × System) :=
  s.queue.take?.map fun (e, queue, sender) =>
    let s := { s with queue }
    (e, sender.elim s fun sender => s.wake sender.actor)

/-- **Close the queue**, and turn its waiting senders away. -/
def closeQueue (s : System) : System :=
  let (queue, senders) := s.queue.close
  { s with queue, agenda := s.agenda.wakeAll (senders.map Sender.actor) }

/-- Begin the delivery of an event. -/
def launch (s : System) (e : Event) : System :=
  let flight : Flight := { number := s.launched, event := e }
  { s with
    flights := s.flights ++ [flight]
    launched := s.launched + 1
    begun := e :: s.begun }.wake (.delivery s.launched)

/-- The number of free workers for which a parting worker waits; it is counted
in 32 bits. -/
def quorum (s : System) : Nat :=
  s.settings.workers % UInt32.size

/-- **A move of the worker.** -/
def moveWorker (s : System) : System :=
  match s.worker with
  | .unstarted => s.rest
  | .idle =>
    if s.stopWorker then { s.closeQueue with worker := .draining }
    else match s.takeEvent with
      | some (e, s) => { s with worker := .holding e false }
      | none => if s.orphaned then { s.closeQueue with worker := .draining } else s.rest
  | .holding e draining =>
    if 0 < s.freeWorkers then
      { s with worker := if draining then .draining else .idle }.launch e
    else s.rest
  | .draining =>
    match s.takeEvent with
    | some (e, s) => { s with worker := .holding e true }
    | none => { s with worker := .parting }
  | .parting =>
    if s.quorum ≤ s.freeWorkers then ({ s with worker := .gone }.wake .client).rest else s.rest
  | .gone => s.rest

/-! ## The writer -/

/-- **A move of the writer.** -/
def moveWriter (o : Outside) (s : System) : System :=
  let (pipeline, turn, begun) := s.pipeline.move s.now (o.append s.appends)
  let s := { s with pipeline, appends := if begun then s.appends + 1 else s.appends }
  match turn with
  | .again => s
  | .waiting none => s.rest
  | .waiting (some due) => s.restUntil due .writer
  | .ended => (s.wake .client).rest

/-! ## Poll cycles -/

/-- What is known of a roster when its fetch has ended: a visit that failed, or
one that goes on to tell the changes. -/
def receive (s : System) (schedule : Config.Schedule) :
    Option (Except Failure Snapshot) → Phase × System
  | some (.ok snapshot) =>
    let s := { s with pollCounts := { s.pollCounts with fetched := s.pollCounts.fetched + 1 } }
    if snapshot.members.isEmpty && schedule.expectMembers then
      (.failed,
        { s with
          pollCounts := { s.pollCounts with emptyRosters := s.pollCounts.emptyRosters + 1 } })
    else
      let (t, registry) := s.registry.record schedule.name snapshot
      (.telling snapshot t (Poller.changes t), { s with registry })
  | _ =>
    (.failed,
      { s with
        pollCounts := { s.pollCounts with fetchFailures := s.pollCounts.fetchFailures + 1 } })

/-- What follows when an offer has ended. -/
def told (s : System) (result : Except Failure Unit) : System :=
  match result with
  | .ok () => s
  | .error _ =>
    { s with
      pollCounts := { s.pollCounts with enqueueFailures := s.pollCounts.enqueueFailures + 1 } }

/-- **Begin a fetch.** The visit then waits for the roster, unless it is there
at once. -/
def beginFetch (o : Outside) (s : System) (sender : Sender) (schedule : Config.Schedule) :
    Phase × System :=
  let count := (s.fetches.get? schedule.name).getD 0
  let (wait, answer) := (o.fetch count schedule).within s.settings.fetchTimeout
  (.fetching (s.now + wait) answer,
    { s with
      fetches := s.fetches.put schedule.name (count + 1)
      agenda :=
        if wait = 0 then s.agenda
        else s.agenda.setAlarm (s.now + wait) sender.actor sender.slot })

/-- The fetch has ended. -/
def endFetch (s : System) (sender : Sender) (schedule : Config.Schedule)
    (answer : Option (Except Failure Snapshot)) : Phase × System :=
  { s with agenda := s.agenda.cancel sender.actor sender.slot }.receive schedule answer

/-- Offer the event that tells of a change. -/
def tellEvent (s : System) (sender : Sender) (event : Event) (snapshot : Snapshot)
    (t : Roster.Transition) (left : List (String × Change)) : Phase × System :=
  match s.offer sender event s.settings.fetchTimeout with
  | (some result, s) => (.telling snapshot t left, s.told result)
  | (none, s) => (.offering event (s.now + s.settings.fetchTimeout) snapshot t left, s)

/-- Count a change that is about to be told, and make an id for its event. -/
def countTelling (s : System) (change : Change) : System :=
  { s with pollCounts := s.pollCounts.tell change, ids := s.ids + 1 }

/-- Leave a change untold. -/
def forgo (s : System) (x : Unsent) : System :=
  { s with unsent := x :: s.unsent }

/-- **Tell of a change**, if it can be delivered. -/
def tell (s : System) (sender : Sender) (schedule : String) (snapshot : Snapshot)
    (t : Roster.Transition) (member : String) (change : Change)
    (left : List (String × Change)) : Phase × System :=
  match Poller.eventFor s.settings.templates s.settings.time schedule snapshot (freshId s.ids)
      member change with
  | none =>
    (.telling snapshot t left,
      (s.countTelling change).forgo { schedule, target := snapshot.target, member, change })
  | some event => (s.countTelling change).tellEvent sender event snapshot t left

/-- **A move of a visit**, unless it has to wait. -/
def moveVisit (o : Outside) (s : System) (sender : Sender) (v : Visit) :
    Option (Phase × System) :=
  match v.phase with
  | .fresh => some (s.beginFetch o sender v.schedule)
  | .fetching due answer =>
    if due ≤ s.now then some (s.endFetch sender v.schedule answer) else none
  | .telling _ t [] => some (.succeeded t, s)
  | .telling snapshot t ((member, change) :: left) =>
    some (s.tell sender v.schedule.name snapshot t member change left)
  | .offering event deadline snapshot t left =>
    match s.offerAgain sender event deadline with
    | (some result, s) => some (.telling snapshot t left, s.told result)
    | (none, _) => none
  | .succeeded _ => none
  | .failed => none

/-- **A move of a cycle**: of the visit whose turn it is, or on to the next
one. When all have had their turn the cycle has ended, or has to wait; it then
begins with the first visit again. -/
def moveCycle (o : Outside) (s : System) (owner : Actor) (c : Poller.Cycle) :
    Audit.Turn × Poller.Cycle × System :=
  match c.visits[c.cursor]? with
  | some v =>
    match s.moveVisit o { actor := owner, slot := c.cursor + 1 } v with
    | some (phase, s) =>
      (.again, { c with visits := c.visits.set c.cursor { v with phase } }, s)
    | none => (.again, { c with cursor := c.cursor + 1 }, s)
  | none =>
    if c.visits.all Visit.isOver then (.ended, c, s)
    else (.waiting none, { c with cursor := 0 }, s)

/-- A cycle over these schedules begins. -/
def beginCycle (s : System) (schedules : List Config.Schedule) : Poller.Cycle × System :=
  (.of schedules, { s with pollCounts := { s.pollCounts with cycles := s.pollCounts.cycles + 1 } })

/-- A cycle has ended: its report is kept. -/
def endCycle (s : System) (c : Poller.Cycle) : System :=
  { s with reports := c.report :: s.reports }

/-- How late, in milliseconds, a cycle may begin and still count as in time. -/
def lateness : Nat := 5

/-- **When the next cycle is due**: one interval after this one was due; but
after a delay, one interval from now. -/
def nextCycle (s : System) (due : Nat) : Nat :=
  if due + lateness < s.now then s.now + s.settings.interval else due + s.settings.interval

/-- **A move of the polling loop.** It looks at the signal to stop only between
cycles. -/
def moveLoop (o : Outside) (s : System) : System :=
  match s.loop with
  | .absent => s.rest
  | .waiting due =>
    if !s.polling then
      ({ s with loop := .absent, agenda := s.agenda.cancel .poller }.wake .client).rest
    else if due ≤ s.now then
      let next := s.nextCycle due
      let (c, s) := s.beginCycle s.loopSchedules
      { s with loop := .cycling next c, agenda := s.agenda.cancel .poller }
    else s.restUntil due .poller
  | .cycling next c =>
    match s.moveCycle o .poller c with
    | (.again, c, s) => { s with loop := .cycling next c }
    | (.ended, c, s) => { s.endCycle c with loop := .waiting next }
    | (.waiting _, c, s) => { s with loop := .cycling next c }.rest

/-! ## The client -/

/-- The client gets its answer. -/
def reply (s : System) (a : Answer) : System :=
  { s with client := .idle a, agenda := s.agenda.cancel .client }.rest

/-- **A move of the client.** -/
def moveClient (o : Outside) (s : System) : System :=
  match s.client with
  | .idle _ => s.rest
  | .sleeping due => if due ≤ s.now then s.reply .nothing else s.restUntil due .client
  | .offering event deadline =>
    match s.offerAgain { actor := .client } event deadline with
    | (some result, s) => s.reply (.offered result)
    | (none, s) => s.rest
  | .cycling c =>
    match s.moveCycle o .client c with
    | (.again, c, s) => { s with client := .cycling c }
    | (.ended, c, s) => (s.endCycle c).reply (.report c.report)
    | (.waiting _, c, s) => { s with client := .cycling c }.rest
  | .awaitingLoop =>
    match s.loop with
    | .absent => s.reply .nothing
    | _ => s.rest
  | .awaitingWorker =>
    if s.worker = .gone then { s with client := .awaitingWriter }.startWriter.signalWriter
    else s.rest
  | .awaitingWriter => if s.pipeline.isOver then s.reply .nothing else s.rest

/-! ## Others who offer events -/

/-- **A move of a producer** that waits for room. -/
def moveProducer (s : System) (number : Nat) : System :=
  match s.producers.find? (·.number = number) with
  | none => s.rest
  | some p =>
    match s.offerAgain { actor := .producer number } p.event p.deadline with
    | (some _, s) => { s with producers := s.producers.filter (·.number ≠ number) }.rest
    | (none, s) => s.rest

/-! ## Running -/

/-- A move of an actor. -/
def move (o : Outside) (s : System) : Actor → System
  | .client => s.moveClient o
  | .poller => s.moveLoop o
  | .worker => s.moveWorker
  | .writer => s.moveWriter o
  | .delivery n => s.moveFlight o n
  | .producer n => s.moveProducer n

/-- **One step**: a move of the actor that is running, or the choice of who runs
next. -/
def step (o : Outside) (s : System) : System :=
  match s.agenda.running with
  | some actor => s.move o actor
  | none => { s with agenda := s.agenda.turn }

/-- Has the client its answer? -/
def isAnswered (s : System) : Bool :=
  match s.client with
  | .idle _ => true
  | _ => false

/-- **Run until the client has its answer.** -/
def run (o : Outside) : Nat → System → System
  | 0, s => s
  | fuel + 1, s => if s.isAnswered then s else run o fuel (s.step o)

/-- **Run until everyone waits**, without letting time pass. -/
def settle (o : Outside) : Nat → System → System
  | 0, s => s
  | fuel + 1, s => if s.agenda.isSettled then s else settle o fuel (s.step o)

end Rota.Relay.System
