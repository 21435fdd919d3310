import Rota.Audit.Record
import Rota.Failure
import Rota.Relay.Reply

/-!
# The way of audit records

Records are offered to a bounded buffer, which never makes anybody wait: when
it is full, the newest record is dropped. A single writer takes the records
from the buffer and appends them to the log, one after the other. When it is
told to stop, it closes the buffer and flushes what is left, for a limited
time; what is not written by then is abandoned.
-/

namespace Rota.Audit

open Rota.Relay (Reply)

/-- An append that was begun: its record, when its reply is due, and what the
reply says. An append without a due time never ends. -/
structure Append where
  record : Record
  due : Option Nat
  answer : Except Failure Unit
  deriving Inhabited

/-- Is the reply to an append there? -/
def Append.isDue (a : Append) (now : Nat) : Bool :=
  a.due.any (· ≤ now)

/-- **What the writer is doing.** -/
inductive Writer where
  | unstarted
  /-- It waits for a record. -/
  | idle
  | appending (a : Append)
  /-- It takes what is left, until a deadline. -/
  | flushing (deadline : Nat)
  | appendingLast (a : Append) (deadline : Nat)
  | gone
  deriving Inhabited

/-- **How a writer ended.** -/
inductive Ending where
  /-- It was never started. -/
  | dropped
  /-- Nothing was left to take. -/
  | finished
  /-- Its time was up, and somebody stopped it at this time. -/
  | cutOff (time : Nat)
  deriving DecidableEq, Repr, Inhabited

/-- **The buffer and the writer behind it**, with the counts of what became of
the records. -/
structure Pipeline where
  /-- Are records kept at all? -/
  enabled : Bool := true
  /-- The room in the buffer. -/
  capacity : Nat
  buffer : List Record := []
  closed : Bool := false
  writer : Writer := .unstarted
  dropped : Nat := 0
  failed : Nat := 0
  /-- The records offered so far, the latest first. -/
  offered : List Record := []
  /-- The records that found room in the buffer, the latest first. -/
  accepted : List Record := []
  /-- The appends begun, the latest first. -/
  attempted : List Append := []
  /-- The records in the log, in order. -/
  stored : List Record := []
  /-- The append that was cut off, if one was. -/
  cut : Option Append := none
  /-- The records that were accepted and that nobody took, in order. -/
  discarded : List Record := []
  /-- When the flush began, if it has. -/
  flushed : Option Nat := none
  /-- How the writer ended, if it has. -/
  ending : Option Ending := none
  /-- Has the writer been told to stop? -/
  stopping : Bool := false
  /-- Is nobody left who could offer a record? -/
  orphaned : Bool := false
  /-- The time that the flush may take. -/
  grace : Nat := 5000
  deriving Inhabited

/-- **How an actor goes on** after a move. -/
inductive Turn where
  /-- It runs on. -/
  | again
  /-- It waits, at most until the given time. -/
  | waiting (end_ : Option Nat)
  /-- It has ended. -/
  | ended
  deriving DecidableEq, Repr, Inhabited

namespace Pipeline

/-- The number of records written. -/
def written (p : Pipeline) : Nat :=
  p.stored.length

/-- **The records that were accepted and given up**, in order. -/
def abandoned (p : Pipeline) : List Record :=
  p.cut.toList.map Append.record ++ p.discarded

/-- **Offer a record.** It is dropped if the buffer is full or closed. -/
def offer (p : Pipeline) (r : Record) : Pipeline :=
  let p := { p with offered := r :: p.offered }
  if !p.enabled then p
  else if p.closed || p.capacity ≤ p.buffer.length then { p with dropped := p.dropped + 1 }
  else { p with buffer := p.buffer ++ [r], accepted := r :: p.accepted }

/-- Does the writer wait for a record? -/
def wantsRecord (p : Pipeline) : Bool :=
  match p.writer with
  | .idle => true
  | _ => false

/-- Has the writer ended? -/
def isOver (p : Pipeline) : Bool :=
  match p.writer with
  | .gone => true
  | _ => false

/-- Start the writer. -/
def start (p : Pipeline) : Pipeline :=
  { p with writer := .idle }

/-- Drop a writer that was not started, and with it all that waits for it. -/
def dropWriter (p : Pipeline) : Pipeline :=
  { p with
    writer := .gone
    closed := true
    buffer := []
    discarded := p.buffer
    ending := some .dropped }

/-- Begin to append a record. -/
def begin (now : Nat) (r : Record) (reply : Reply (Except Failure Unit)) : Append :=
  { record := r, due := reply.delay.map (now + ·), answer := reply.answer }

/-- Count what came of an append. -/
def conclude (p : Pipeline) (a : Append) : Pipeline :=
  match a.answer with
  | .ok () => { p with stored := p.stored ++ [a.record] }
  | .error _ => { p with failed := p.failed + 1 }

/-- **Close the buffer**, and take what is left in it while there is time. -/
def beginFlush (p : Pipeline) (now : Nat) : Pipeline :=
  { p with closed := true, writer := .flushing (now + p.grace), flushed := some now }

/-- **Take the oldest record**, to append it. -/
def take (p : Pipeline) (a : Append) (rest : List Record) (writer : Writer) : Pipeline :=
  { p with buffer := rest, attempted := a :: p.attempted, writer }

/-- Nothing is left to take. -/
def finish (p : Pipeline) : Pipeline :=
  { p with writer := .gone, ending := some .finished }

/-- **Stop the writer** in the middle of an append. Its record is given up, and with
it all that is left. -/
def cutOff (p : Pipeline) (now : Nat) (a : Append) : Pipeline :=
  { p with
    writer := .gone
    buffer := []
    cut := some a
    discarded := p.buffer
    ending := some (.cutOff now) }

/-- **One move of the writer.** The log's reply to the next append is given;
the answer tells whether that append was begun. -/
def move (p : Pipeline) (now : Nat) (reply : Record → Reply (Except Failure Unit)) :
    Pipeline × Turn × Bool :=
  match p.writer with
  | .unstarted => (p, .waiting none, false)
  | .gone => (p, .waiting none, false)
  | .idle =>
    if p.stopping then (p.beginFlush now, .again, false)
    else match p.buffer with
      | r :: rest =>
        let a := begin now r (reply r)
        (p.take a rest (.appending a), .again, true)
      | [] =>
        if p.orphaned then (p.beginFlush now, .again, false) else (p, .waiting none, false)
  | .appending a =>
    if a.isDue now then ({ p.conclude a with writer := .idle }, .again, false)
    else (p, .waiting a.due, false)
  | .flushing deadline =>
    match p.buffer with
    | r :: rest =>
      let a := begin now r (reply r)
      (p.take a rest (.appendingLast a deadline), .again, true)
    | [] => (p.finish, .ended, false)
  | .appendingLast a deadline =>
    if a.isDue now then ({ p.conclude a with writer := .flushing deadline }, .again, false)
    else if deadline ≤ now then (p.cutOff now a, .ended, false)
    else (p, .waiting (some (a.due.elim deadline (min · deadline))), false)

/-- Every record offered is noted, whatever becomes of it. -/
@[simp] theorem offered_offer (p : Pipeline) (r : Record) :
    (p.offer r).offered = r :: p.offered := by
  unfold offer
  dsimp only
  split
  · rfl
  · split <;> rfl

/-- The writer offers no records. -/
@[simp] theorem offered_move (p : Pipeline) (now : Nat)
    (reply : Record → Reply (Except Failure Unit)) :
    (p.move now reply).1.offered = p.offered := by
  have hc : ∀ a, (p.conclude a).offered = p.offered := by
    intro a
    unfold conclude
    split <;> rfl
  unfold move
  split
  · rfl
  · rfl
  · split
    · rfl
    · split
      · rfl
      · split <;> rfl
  · split
    · exact hc _
    · rfl
  · split <;> rfl
  · split
    · exact hc _
    · split <;> rfl

end Pipeline

end Rota.Audit
