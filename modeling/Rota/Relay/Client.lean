import Rota.Relay.Step

/-!
# Requests of the client

What the client can ask of the running service. A request begins at once; some
are answered on the spot, others keep the client waiting while everybody else
goes on. `serve` runs the service until the client has its answer, and then
until everyone waits.
-/

namespace Rota.Relay

/-- **A request.** -/
inductive Request where
  /-- Let so many milliseconds pass. -/
  | sleep (ms : Nat)
  /-- Offer an event, and do not wait for room. -/
  | enqueue (event : Event)
  /-- Offer an event, and wait for room at most so long. -/
  | enqueueWithin (event : Event) (limit : Nat)
  /-- Have somebody else offer an event, who waits for room at most so long. -/
  | offerAside (event : Event) (limit : Nat)
  /-- Offer a record, so many times. -/
  | record (r : Audit.Record) (times : Nat)
  /-- Start the worker and the writer. -/
  | start
  /-- Start the writer. -/
  | startWriter
  /-- Drop the writer, if it was not started. -/
  | dropWriter
  /-- Tell the worker to stop, and do not wait for it. -/
  | signal
  /-- Never offer an event again, and do not wait for anyone. -/
  | leave
  /-- Stop the worker, and then the writer. -/
  | shutdown
  /-- Stop the writer. -/
  | shutdownWriter
  /-- Never offer an event again: the worker ends by itself, and then the writer
  is stopped. -/
  | finish
  /-- Never offer a record again: the writer ends by itself. -/
  | finishRecords
  /-- Run a poll cycle. -/
  | poll (schedules : List Config.Schedule)
  | startPolling (schedules : List Config.Schedule)
  | stopPolling
  deriving Inhabited

namespace System

/-- The client has its answer at once. -/
def answer (s : System) (a : Answer) : System :=
  { s with client := .idle a }

/-- The client begins to wait for something. -/
def await (s : System) (c : Client) : System :=
  { s with client := c, agenda := { s.agenda with running := some .client, called := false } }

/-- Offer a record several times. -/
def recordTimes (s : System) (r : Audit.Record) : Nat → System
  | 0 => s
  | times + 1 => (s.record r).recordTimes r times

/-- Drop the writer, if it was not started. -/
def dropWriter (s : System) : System :=
  match s.pipeline.writer with
  | .unstarted => { s with pipeline := s.pipeline.dropWriter }
  | _ => s

/-- **Begin a request.** -/
def request (s : System) : Request → System
  | .sleep ms => s.await (.sleeping (s.now + ms))
  | .enqueue event =>
    let (result, s) := s.enqueue event
    s.answer (.offered result)
  | .enqueueWithin event limit =>
    match s.offer { actor := .client } event limit with
    | (some result, s) => s.answer (.offered result)
    | (none, s) => s.await (.offering event (s.now + limit))
  | .offerAside event limit => (s.offerAside event limit).answer .nothing
  | .record r times => (s.recordTimes r times).answer .nothing
  | .start => s.startWorker.startWriter.answer .nothing
  | .startWriter => s.startWriter.answer .nothing
  | .dropWriter => s.dropWriter.answer .nothing
  | .signal => s.signalWorker.answer .nothing
  | .leave => s.endEvents.answer .nothing
  | .shutdown => (s.startWorker.startWriter.signalWorker).await .awaitingWorker
  | .shutdownWriter => s.startWriter.signalWriter.await .awaitingWriter
  | .finish => s.startWorker.endEvents.await .awaitingWorker
  | .finishRecords => s.startWriter.endRecords.await .awaitingWriter
  | .poll schedules =>
    let (cycle, s) := s.beginCycle schedules
    s.await (.cycling cycle)
  | .startPolling schedules => (s.startPolling schedules).answer .nothing
  | .stopPolling =>
    if s.polling then s.signalLoop.await .awaitingLoop else s.answer .nothing

/-- What the client got for its last request. -/
def answered (s : System) : Answer :=
  match s.client with
  | .idle a => a
  | _ => .nothing

/-- **Serve a request**: the time that passed until the client had its answer,
and the service once everyone waits again. The fuel bounds the number of
steps. -/
def serve (o : Outside) (fuel : Nat) (s : System) (r : Request) : Nat × System :=
  let s' := run o fuel (s.request r)
  (s'.now - s.now, settle o fuel s')

end System

end Rota.Relay
