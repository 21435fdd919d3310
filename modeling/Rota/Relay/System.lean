import Rota.Audit.Pipeline
import Rota.Poller.Cycle
import Rota.Relay.Deliver
import Rota.Relay.Queue

/-!
# The running service

The state of everything that runs: the queue and the worker behind it, the
deliveries under way, the way of the audit records, the polling loop, and the
client whose requests drive it all. The operations here are those that need no
waiting.
-/

namespace Rota.Relay

open Rota.Roster (Registry Snapshot Transition)

/-- **The world outside** of the service: what it answers when it is asked. Each
answer may depend on how often it was asked before. -/
structure Outside where
  /-- The directory. -/
  lookup : Nat → Key → Reply (Except Failure Identity)
  /-- The transport, and the callback addresses. -/
  call : Nat → Call → Reply (Except Failure Unit)
  /-- The audit log. -/
  append : Nat → Audit.Record → Reply (Except Failure Unit)
  /-- The source of the schedules, asked for one of them for the first, the
  second, … time. -/
  fetch : Nat → Config.Schedule → Reply (Except Failure Snapshot)

/-- **What stays fixed** while the service runs. Times are in milliseconds. -/
structure Settings where
  /-- The number of deliveries that may be under way at once. -/
  workers : Nat := 8
  deliveryTimeout : Nat := 15000
  /-- The longest wait for a roster, and for room in the queue. -/
  fetchTimeout : Nat := 10000
  /-- From one poll cycle to the next. -/
  interval : Nat := 120000
  templates : Config.Templates := {}
  /-- The time of day, for new events and records. -/
  time : Time.Timestamp := .epoch
  deriving Inhabited

/-- **The counts of the queue.** -/
structure Counts where
  enqueued : Nat := 0
  rejected : Nat := 0
  delivered : Nat := 0
  failed : Nat := 0
  deriving DecidableEq, Repr, Inhabited

/-- **What the worker is doing.** -/
inductive Worker where
  | unstarted
  /-- It waits for an event, or for the signal to stop. -/
  | idle
  /-- It has taken an event and waits until a delivery may begin. -/
  | holding (event : Event) (draining : Bool)
  /-- It takes what is left in the closed queue. -/
  | draining
  /-- It waits for the deliveries under way. -/
  | parting
  | gone
  deriving DecidableEq, Repr, Inhabited

/-- **How far a delivery has got.** -/
inductive Progress where
  | fresh
  /-- The directory was asked; its answer, or the end of the wait for it, is
  due. -/
  | asking (key : Key) (channel : Channel) (due : Nat) (answer : Option (Except Failure Identity))
  /-- The call was made; its answer, or the end of the wait for it, is due. -/
  | calling (whom : Addressee) (due : Nat) (answer : Option (Except Failure Unit))
  deriving Inhabited

/-- **A delivery under way.** -/
structure Flight where
  number : Nat
  event : Event
  progress : Progress := .fresh
  deriving Inhabited

/-- **An offer that has ended**: who offered which event, and how it ended. -/
structure Offer where
  sender : Sender
  event : Event
  result : Except Failure Unit
  deriving Inhabited

/-- **A change that was not told**, as the target of its roster gives no address. -/
structure Unsent where
  schedule : String
  target : Roster.Target
  member : String
  change : Change
  deriving DecidableEq, Repr, Inhabited

/-- **A delivery that has ended**, with its record. -/
structure Landing where
  number : Nat
  event : Event
  record : Audit.Record
  deriving Inhabited

/-- **A call that was made**, and the number of the delivery that made it. -/
structure Attempt where
  number : Nat
  call : Call
  deriving DecidableEq, Repr, Inhabited

/-- **Someone who waits for room** in the queue until the deadline, while the
client goes on. -/
structure Producer where
  number : Nat
  event : Event
  deadline : Nat
  deriving Inhabited

/-- **The polling loop.** -/
inductive Loop where
  | absent
  /-- It waits for the next cycle, or for the signal to stop. -/
  | waiting (due : Nat)
  /-- A cycle is under way, and the next one is due at the given time. -/
  | cycling (next : Nat) (cycle : Poller.Cycle)
  deriving Inhabited

/-- The cycle that the loop has under way. -/
def Loop.cycle? : Loop → Option Poller.Cycle
  | cycling _ c => some c
  | _ => none

@[simp] theorem Loop.cycle?_eq_some {l : Loop} {c : Poller.Cycle} :
    l.cycle? = some c ↔ ∃ next, l = .cycling next c := by
  cases l <;> simp [cycle?]

/-- **What the client gets** for a request. -/
inductive Answer where
  | nothing
  | offered (result : Except Failure Unit)
  | report (r : Poller.Report)
  deriving Inhabited

/-- **What the client is doing.** -/
inductive Client where
  /-- It has its answer. -/
  | idle (answer : Answer)
  | sleeping (end_ : Nat)
  /-- Its event waits for room in the queue until the deadline. -/
  | offering (event : Event) (deadline : Nat)
  | cycling (cycle : Poller.Cycle)
  /-- It waits for the end of the polling loop. -/
  | awaitingLoop
  /-- It waits for the end of the worker, and then of the writer if it shall
  stop too. -/
  | awaitingWorker
  | awaitingWriter
  deriving Inhabited

/-- The cycle that the client has under way. -/
def Client.cycle? : Client → Option Poller.Cycle
  | cycling c => some c
  | _ => none

@[simp] theorem Client.cycle?_eq_some {c : Client} {d : Poller.Cycle} :
    c.cycle? = some d ↔ c = .cycling d := by
  cases c <;> simp [cycle?]

/-- **The state of the service.** -/
structure System where
  settings : Settings := {}
  agenda : Agenda := {}
  queue : Queue
  counts : Counts := {}
  worker : Worker := .unstarted
  /-- Has the worker been told to stop? -/
  stopWorker : Bool := false
  /-- Is nobody left who could offer an event? -/
  orphaned : Bool := false
  /-- The offers that have ended, the latest first. -/
  offers : List Offer := []
  /-- Those who wait for room besides the client and the visits. -/
  producers : List Producer := []
  /-- The number of producers so far. -/
  hired : Nat := 0
  flights : List Flight := []
  /-- The number of deliveries begun so far. -/
  launched : Nat := 0
  /-- The events whose deliveries have begun, the latest first. -/
  begun : List Event := []
  /-- The deliveries that have ended, the latest first. -/
  landings : List Landing := []
  resolver : Directory.Resolver := {}
  /-- The clock by which the ages of remembered people are measured. -/
  clock : Nat := 0
  pipeline : Audit.Pipeline
  registry : Registry := {}
  pollCounts : Poller.Counts := {}
  /-- The changes that were not told, the latest first. -/
  unsent : List Unsent := []
  /-- The reports on the cycles that have ended, the latest first. -/
  reports : List Poller.Report := []
  loop : Loop := .absent
  /-- The schedules of the polling loop. -/
  loopSchedules : List Config.Schedule := []
  /-- Is the loop meant to run? -/
  polling : Bool := false
  client : Client := .idle .nothing
  /-- The number of ids given out. -/
  ids : Nat := 0
  /-- The number of questions to the directory. -/
  lookups : Nat := 0
  /-- The number of appends begun. -/
  appends : Nat := 0
  /-- The number of fetches, by the name of the schedule. -/
  fetches : Keyed Nat := ∅
  /-- The calls made by the deliveries, the latest first. -/
  attempts : List Attempt := []
  deriving Inhabited

/-- **A fresh id**, with the marks of a random one. -/
def freshId (n : Nat) : String :=
  "00000000-0000-4000-8000-" ++
    String.ofList (List.replicate (12 - (Nat.toDigits 16 n).length) '0' ++ Nat.toDigits 16 n)

/-- So many seconds, in milliseconds. -/
def seconds (n : UInt64) : Nat :=
  n.toNat * 1000

namespace System

/-- A service at rest, with so much room in its queue and in its audit buffer.
Neither can be without any room at all, and there is at least one worker. -/
def new (settings : Settings) (capacity auditCapacity : Nat) (audited : Bool) (grace : Nat)
    (resolver : Directory.Resolver) : System :=
  { settings := { settings with workers := max settings.workers 1 }
    queue := { capacity := max capacity 1 }
    pipeline :=
      { enabled := audited
        capacity := max auditCapacity 1
        writer := if audited then .unstarted else .gone
        grace }
    resolver }

/-- **The service that a configuration asks for.** -/
def of (c : Config) (time : Time.Timestamp := .epoch) : System :=
  new
    { workers := c.dispatcher.workers.toNat
      deliveryTimeout := seconds c.dispatcher.deliveryTimeout
      fetchTimeout := seconds c.poller.fetchTimeout
      interval := seconds c.poller.interval
      templates := c.templates
      time }
    c.dispatcher.queueCapacity.toNat c.audit.bufferCapacity.toNat c.audit.enabled
    (seconds c.audit.flushGrace)
    { maxAge := c.directory.cacheMaxAge.map seconds
      lookupTimeout := seconds c.directory.lookupTimeout }

/-- The time in milliseconds. -/
def now (s : System) : Nat :=
  s.agenda.now

/-- The calls made, the latest first. -/
def calls (s : System) : List Call :=
  s.attempts.map Attempt.call

/-- Wake an actor. -/
def wake (s : System) (actor : Actor) : System :=
  { s with agenda := s.agenda.wake actor }

/-- The actor that is running stops. -/
def rest (s : System) : System :=
  { s with agenda := s.agenda.rest }

/-- The actor that is running waits for an alarm. -/
def restUntil (s : System) (due : Nat) (actor : Actor) (slot : Nat := 0) : System :=
  { s with agenda := (s.agenda.setAlarm due actor slot).rest }

/-- Wake the worker if it waits for an event. -/
def wakeWorker (s : System) : System :=
  if s.worker = .idle then s.wake .worker else s

/-- The number of deliveries that may still begin. -/
def freeWorkers (s : System) : Nat :=
  s.settings.workers - s.flights.length

/-- A fresh id. -/
def newId (s : System) : String × System :=
  (freshId s.ids, { s with ids := s.ids + 1 })

/-! ## Offering events -/

/-- Count an event that was accepted, and tell the worker. -/
def accepted (s : System) (sender : Sender) (e : Event) : System :=
  { s with
    counts := { s.counts with enqueued := s.counts.enqueued + 1 }
    offers := { sender, event := e, result := .ok () } :: s.offers }.wakeWorker

/-- Count an event that was turned away. -/
def rejected (s : System) (sender : Sender) (e : Event) (failure : Failure) : System :=
  { s with
    counts := { s.counts with rejected := s.counts.rejected + 1 }
    offers := { sender, event := e, result := .error failure } :: s.offers }

/-- **Offer an event** without waiting for room. -/
def enqueue (s : System) (e : Event) (sender : Sender := { actor := .client }) :
    Except Failure Unit × System :=
  if s.queue.closed then (.error .queueClosed, s.rejected sender e .queueClosed)
  else if s.queue.hasRoom then (.ok (), { s with queue := s.queue.push e }.accepted sender e)
  else (.error (.queueFull s.queue.capacity),
    s.rejected sender e (.queueFull s.queue.capacity))

/-- **Begin to offer an event**, waiting for room at most so long. There is no
result yet if the sender has to wait. -/
def offer (s : System) (sender : Sender) (e : Event) (limit : Nat) :
    Option (Except Failure Unit) × System :=
  if s.queue.closed ∨ s.queue.hasRoom ∨ limit = 0 then
    let (result, s) := s.enqueue e sender
    (some result, s)
  else
    (none,
      { s with
        queue := s.queue.await sender
        agenda := s.agenda.setAlarm (s.now + limit) sender.actor sender.slot })

/-- The sender waits no longer. -/
def withdraw (s : System) (sender : Sender) : System :=
  { s with
    queue := s.queue.withdraw sender
    agenda := s.agenda.cancel sender.actor sender.slot }

/-- **Go on offering an event**: a closed queue comes first, then a slot that
was handed over, then the deadline. -/
def offerAgain (s : System) (sender : Sender) (e : Event) (deadline : Nat) :
    Option (Except Failure Unit) × System :=
  if s.queue.closed then
    (some (.error .queueClosed), (s.withdraw sender).rejected sender e .queueClosed)
  else if sender ∈ s.queue.granted then
    let s := { s with
      queue := s.queue.use sender e
      agenda := s.agenda.cancel sender.actor sender.slot }
    (some (.ok ()), s.accepted sender e)
  else if deadline ≤ s.now then
    (some (.error (.queueFull s.queue.capacity)),
      (s.withdraw sender).rejected sender e (.queueFull s.queue.capacity))
  else (none, s)

/-- **Have somebody else offer an event**, waiting for room at most so long. -/
def offerAside (s : System) (e : Event) (limit : Nat) : System :=
  match { s with hired := s.hired + 1 }.offer { actor := .producer s.hired } e limit with
  | (some _, s) => s
  | (none, s') =>
    { s' with
      producers := s'.producers ++ [{ number := s.hired, event := e, deadline := s.now + limit }] }

/-! ## The audit records -/

/-- **Offer a record**, and wake the writer if it waits for one. -/
def record (s : System) (r : Audit.Record) : System :=
  let s' := { s with pipeline := s.pipeline.offer r }
  if s.pipeline.wantsRecord then s'.wake .writer else s'

/-! ## Starting and stopping -/

/-- Start the worker, once. -/
def startWorker (s : System) : System :=
  if s.worker = .unstarted then { s with worker := .idle }.wake .worker else s

/-- Start the writer, once. -/
def startWriter (s : System) : System :=
  match s.pipeline.writer with
  | .unstarted => { s with pipeline := s.pipeline.start }.wake .writer
  | _ => s

/-- Tell the worker to stop. -/
def signalWorker (s : System) : System :=
  { s with stopWorker := true }.wakeWorker

/-- Tell the writer to stop. -/
def signalWriter (s : System) : System :=
  let s' := { s with pipeline := { s.pipeline with stopping := true } }
  if s.pipeline.wantsRecord then s'.wake .writer else s'

/-- Nobody will offer an event again. -/
def endEvents (s : System) : System :=
  { s with orphaned := true }.wakeWorker

/-- Nobody will offer a record again. -/
def endRecords (s : System) : System :=
  let s' := { s with pipeline := { s.pipeline with orphaned := true } }
  if s.pipeline.wantsRecord then s'.wake .writer else s'

/-- **Start the polling loop**, unless it is running. -/
def startPolling (s : System) (schedules : List Config.Schedule) : System :=
  if s.polling then s
  else
    { s with polling := true, loop := .waiting s.now, loopSchedules := schedules }.wake .poller

/-- Tell the polling loop to stop. -/
def signalLoop (s : System) : System :=
  let s' := { s with polling := false }
  match s.loop with
  | .waiting _ => s'.wake .poller
  | _ => s'

end System

end Rota.Relay
