import Rota.Proofs.Relay.Visits

/-!
# The moves of the actors

What an actor does when it runs depends on what it waits for, and on whether that has come. This
module lists once, for each of them, what its moves are: `FlightStep` for a delivery,
`WorkerMove`, `LoopMove`, `ClientMove`, and `ProducerMove` for whoever else offers events. Each
move stands there with the condition under which it is made and the service that it leads to. So
what a move keeps is proved case by case from these lists, and not from the definition of the
move.
-/

namespace Rota.Relay.System

open Rota.Poller (Cycle Visit)

variable {o : Outside} {s : System}

/-! ## Deliveries -/

/-- **A move of a delivery** with this number. -/
inductive FlightStep (o : Outside) (s : System) (number : Nat) : System → Prop
  | rest (absent : s.flights.find? (·.number = number) = none) : FlightStep o s number s.rest
  /-- What it has to do is known at once. -/
  | begin {f : Flight} {next : Next} (found : s.flights.find? (·.number = number) = some f)
      (fresh : f.progress = .fresh)
      (known : Beginning.of s.settings.time f.event = .known next) :
      FlightStep o s number (s.pursue o f next)
  /-- Its receiver is looked up. -/
  | ask {f : Flight} {key : Key} {channel : Channel}
      (found : s.flights.find? (·.number = number) = some f) (fresh : f.progress = .fresh)
      (asks : Beginning.of s.settings.time f.event = .asking key channel) :
      FlightStep o s number
        ({ s with lookups := s.lookups + 1 }.setProgress number
          (.asking key channel
            (s.now + ((o.lookup s.lookups key).within s.resolver.lookupTimeout).1)
            ((o.lookup s.lookups key).within s.resolver.lookupTimeout).2))
  /-- The directory has answered. -/
  | hear {f : Flight} {key : Key} {channel : Channel} {due : Nat}
      {answer : Option (Except Failure Identity)} {result : Except Failure Identity}
      {resolver : Directory.Resolver}
      (found : s.flights.find? (·.number = number) = some f)
      (asking : f.progress = .asking key channel due answer) (isDue : due ≤ s.now)
      (resolves : s.resolver.resolveFor s.clock key channel (Directory.Resolver.heard key answer)
        = (result, resolver)) :
      FlightStep o s number
        ({ s with resolver }.pursue o f (.ofResolved s.settings.time f.event key channel result))
  /-- The call has ended. -/
  | land {f : Flight} {whom : Addressee} {due : Nat} {answer : Option (Except Failure Unit)}
      (found : s.flights.find? (·.number = number) = some f)
      (calling : f.progress = .calling whom due answer) (isDue : due ≤ s.now) :
      FlightStep o s number
        (s.land f
          (recordOf s.settings.time f.event whom (heardCall s.settings.deliveryTimeout answer)))
  /-- It waits for an answer. -/
  | wait {f : Flight} {due : Nat} (found : s.flights.find? (·.number = number) = some f)
      (waits : (∃ key channel answer, f.progress = .asking key channel due answer)
        ∨ ∃ whom answer, f.progress = .calling whom due answer)
      (early : s.now < due) : FlightStep o s number (s.restUntil due (.delivery number))

/-- **A delivery makes no other moves.** -/
theorem flightStep (number : Nat) : FlightStep o s number (s.moveFlight o number) := by
  unfold moveFlight
  split
  · next absent => exact .rest absent
  · next f found =>
    split
    · next fresh =>
      split
      · next known => exact .begin found fresh known
      · next asks => exact .ask found fresh asks
    · next asking =>
      split
      · next isDue =>
        split
        next resolves => exact .hear found asking isDue resolves
      · next early => exact .wait found (.inl ⟨_, _, _, asking⟩) (Nat.not_le.1 early)
    · next calling =>
      split
      · next isDue => exact .land found calling isDue
      · next early => exact .wait found (.inr ⟨_, _, calling⟩) (Nat.not_le.1 early)

/-! ## The worker -/

/-- **A move of the worker.** -/
inductive WorkerMove (s : System) : System → Prop
  | unstarted (unstarted : s.worker = .unstarted) : WorkerMove s s.rest
  /-- No event is accepted any more. -/
  | close (idle : s.worker = .idle)
      (stops : s.stopWorker = true ∨ s.takeEvent = none ∧ s.orphaned = true) :
      WorkerMove s { s.closeQueue with worker := .draining }
  | take {e : Event} {t : System} (idle : s.worker = .idle) (running : s.stopWorker = false)
      (takes : s.takeEvent = some (e, t)) : WorkerMove s { t with worker := .holding e false }
  | idle (idle : s.worker = .idle) (running : s.stopWorker = false) (empty : s.takeEvent = none)
      (attached : s.orphaned = false) : WorkerMove s s.rest
  | launch {e : Event} {draining : Bool} (holding : s.worker = .holding e draining)
      (room : 0 < s.freeWorkers) :
      WorkerMove s ({ s with worker := if draining then .draining else .idle }.launch e)
  | hold {e : Event} {draining : Bool} (holding : s.worker = .holding e draining)
      (full : s.freeWorkers = 0) : WorkerMove s s.rest
  /-- What is left in the queue is taken as well. -/
  | drain {e : Event} {t : System} (draining : s.worker = .draining)
      (takes : s.takeEvent = some (e, t)) : WorkerMove s { t with worker := .holding e true }
  | part (draining : s.worker = .draining) (empty : s.takeEvent = none) :
      WorkerMove s { s with worker := .parting }
  | leave (parting : s.worker = .parting) (free : s.quorum ≤ s.freeWorkers) :
      WorkerMove s ({ s with worker := .gone }.wake .client).rest
  | await (parting : s.worker = .parting) (missing : s.freeWorkers < s.quorum) :
      WorkerMove s s.rest
  | gone (gone : s.worker = .gone) : WorkerMove s s.rest

/-- **The worker makes no other moves.** -/
theorem workerMove : WorkerMove s s.moveWorker := by
  unfold moveWorker
  split
  · next unstarted => exact .unstarted unstarted
  · next idle =>
    split
    · next stops => exact .close idle (.inl stops)
    · next running =>
      have running : s.stopWorker = false := Bool.eq_false_iff.2 running
      split
      · next takes => exact .take idle running takes
      · next empty =>
        split
        · next orphaned => exact .close idle (.inr ⟨empty, orphaned⟩)
        · next attached => exact .idle idle running empty (Bool.eq_false_iff.2 attached)
  · next holding =>
    split
    · next room => exact .launch holding room
    · next full => exact .hold holding (Nat.eq_zero_of_not_pos full)
  · next draining =>
    split
    · next takes => exact .drain draining takes
    · next empty => exact .part draining empty
  · next parting =>
    split
    · next free => exact .leave parting free
    · next missing => exact .await parting (Nat.not_le.1 missing)
  · next gone => exact .gone gone

/-! ## The polling loop -/

/-- **A move of the loop.** -/
inductive LoopMove (o : Outside) (s : System) : System → Prop
  | rest (absent : s.loop = .absent) : LoopMove o s s.rest
  /-- It was told to stop, and is gone. -/
  | halt {due : Nat} (waits : s.loop = .waiting due) (off : s.polling = false) :
      LoopMove o s
        (({ s with loop := .absent, agenda := s.agenda.cancel .poller } : System).wake .client).rest
  /-- A cycle over its schedules begins. -/
  | begin {due : Nat} (waits : s.loop = .waiting due) (on : s.polling = true)
      (isDue : due ≤ s.now) :
      LoopMove o s
        { (s.beginCycle s.loopSchedules).2 with
          loop := .cycling (s.nextCycle due) (.of s.loopSchedules)
          agenda := s.agenda.cancel .poller }
  | wait {due : Nat} (waits : s.loop = .waiting due) (on : s.polling = true)
      (early : s.now < due) : LoopMove o s (s.restUntil due .poller)
  /-- Its cycle goes on. -/
  | goOn {next : Nat} {c c' : Cycle} {t : System} (cycling : s.loop = .cycling next c)
      (moves : CycleMove o s .poller c (.again, c', t)) :
      LoopMove o s { t with loop := .cycling next c' }
  | finish {next : Nat} {c : Cycle} (cycling : s.loop = .cycling next c)
      (allOver : c.visits.all Visit.isOver = true) :
      LoopMove o s { s.endCycle c with loop := .waiting next }
  | wrap {next : Nat} {c : Cycle} (cycling : s.loop = .cycling next c)
      (passed : c.visits[c.cursor]? = none) (busy : c.visits.all Visit.isOver = false) :
      LoopMove o s ({ s with loop := .cycling next { c with cursor := 0 } } : System).rest

/-- **The loop makes no other moves.** -/
theorem loopMove : LoopMove o s (s.moveLoop o) := by
  unfold moveLoop
  split
  · next hl => exact .rest hl
  · next due hl =>
    split
    · next hp => exact .halt hl (by simpa using hp)
    · next hp =>
      have on : s.polling = true := by simpa using hp
      split
      · next hdue => exact .begin hl on hdue
      · next hdue => exact .wait hl on (Nat.not_le.1 hdue)
  · next next c hl =>
    have hmove := cycleMove o s .poller c
    generalize s.moveCycle o .poller c = moved at hmove ⊢
    cases hmove with
    | visit turn moves => exact .goOn hl (.visit turn moves)
    | skip turn rests => exact .goOn hl (.skip turn rests)
    | finish passed allOver => exact .finish hl allOver
    | wrap passed busy => exact .wrap hl passed busy

/-! ## The client -/

/-- **A move of the client.** -/
inductive ClientMove (o : Outside) (s : System) : System → Prop
  | idle {a : Answer} (idle : s.client = .idle a) : ClientMove o s s.rest
  | sleep {due : Nat} (sleeping : s.client = .sleeping due) (early : s.now < due) :
      ClientMove o s (s.restUntil due .client)
  | rise {due : Nat} (sleeping : s.client = .sleeping due) (isDue : due ≤ s.now) :
      ClientMove o s (s.reply .nothing)
  /-- There is still no room for its event. -/
  | hold {event : Event} {deadline : Nat} {t : System}
      (offering : s.client = .offering event deadline)
      (waits : s.offerAgain { actor := .client } event deadline = (none, t)) :
      ClientMove o s t.rest
  | offered {event : Event} {deadline : Nat} {result : Except Failure Unit} {t : System}
      (offering : s.client = .offering event deadline)
      (ended : s.offerAgain { actor := .client } event deadline = (some result, t)) :
      ClientMove o s (t.reply (.offered result))
  /-- Its cycle goes on. -/
  | goOn {c c' : Cycle} {t : System} (cycling : s.client = .cycling c)
      (moves : CycleMove o s .client c (.again, c', t)) :
      ClientMove o s { t with client := .cycling c' }
  | finish {c : Cycle} (cycling : s.client = .cycling c)
      (allOver : c.visits.all Visit.isOver = true) :
      ClientMove o s ((s.endCycle c).reply (.report c.report))
  | wrap {c : Cycle} (cycling : s.client = .cycling c) (passed : c.visits[c.cursor]? = none)
      (busy : c.visits.all Visit.isOver = false) :
      ClientMove o s ({ s with client := .cycling { c with cursor := 0 } } : System).rest
  | awaitLoop (awaits : s.client = .awaitingLoop) (present : s.loop ≠ .absent) :
      ClientMove o s s.rest
  /-- The loop that it waits for is gone. -/
  | halted (awaits : s.client = .awaitingLoop) (absent : s.loop = .absent) :
      ClientMove o s (s.reply .nothing)
  | awaitWorker (awaits : s.client = .awaitingWorker) (present : s.worker ≠ .gone) :
      ClientMove o s s.rest
  /-- The worker is gone, and the client goes on to wait for the writer. -/
  | parted (awaits : s.client = .awaitingWorker) (gone : s.worker = .gone) :
      ClientMove o s ({ s with client := .awaitingWriter } : System).startWriter.signalWriter
  | awaitWriter (awaits : s.client = .awaitingWriter) (busy : s.pipeline.isOver = false) :
      ClientMove o s s.rest
  | written (awaits : s.client = .awaitingWriter) (isOver : s.pipeline.isOver = true) :
      ClientMove o s (s.reply .nothing)

/-- **The client makes no other moves.** -/
theorem clientMove : ClientMove o s (s.moveClient o) := by
  unfold moveClient
  split
  · next idle => exact .idle idle
  · next sleeping =>
    split
    · next isDue => exact .rise sleeping isDue
    · next early => exact .sleep sleeping (Nat.not_le.1 early)
  · next offering =>
    split
    · next ended => exact .offered offering ended
    · next waits => exact .hold offering waits
  · next c cycling =>
    have hmove := cycleMove o s .client c
    generalize s.moveCycle o .client c = moved at hmove ⊢
    cases hmove with
    | visit turn moves => exact .goOn cycling (.visit turn moves)
    | skip turn rests => exact .goOn cycling (.skip turn rests)
    | finish passed allOver => exact .finish cycling allOver
    | wrap passed busy => exact .wrap cycling passed busy
  · next awaits =>
    split
    · next absent => exact .halted awaits absent
    · next present => exact .awaitLoop awaits present
  · next awaits =>
    split
    · next gone => exact .parted awaits gone
    · next present => exact .awaitWorker awaits present
  · next awaits =>
    split
    · next isOver => exact .written awaits isOver
    · next busy => exact .awaitWriter awaits (Bool.eq_false_iff.2 busy)

/-! ## Others who offer events -/

/-- **A move of a producer** with this number. -/
inductive ProducerMove (s : System) (number : Nat) : System → Prop
  | rest (absent : s.producers.find? (·.number = number) = none) : ProducerMove s number s.rest
  | hold {p : Producer} {t : System} (found : s.producers.find? (·.number = number) = some p)
      (waits : s.offerAgain { actor := .producer number } p.event p.deadline = (none, t)) :
      ProducerMove s number t.rest
  | offered {p : Producer} {result : Except Failure Unit} {t : System}
      (found : s.producers.find? (·.number = number) = some p)
      (ended : s.offerAgain { actor := .producer number } p.event p.deadline = (some result, t)) :
      ProducerMove s number { t with producers := t.producers.filter (·.number ≠ number) }.rest

/-- **A producer makes no other moves.** -/
theorem producerMove (number : Nat) : ProducerMove s number (s.moveProducer number) := by
  unfold moveProducer
  split
  · next absent => exact .rest absent
  · next found =>
    split
    · next ended => exact .offered found ended
    · next waits => exact .hold found waits

end Rota.Relay.System
