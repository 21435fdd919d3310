import Rota.Proofs.Relay.Alarms
import Rota.Proofs.Relay.Attendance

/-!
# The writer is woken in time

The writer has nothing to do until a record comes, it is told something, or the append under way
ends or runs out of time. `Pipeline.Waits` says when this is so, and until when at most.

What the others do to the writer is said once (`System.Leaves`): they leave it at what it is
doing, and wake it if it waits for a record. So the writer that has something to do is running
or was woken, and the one that waits for a time has its alarm set to exactly this time
(`Watch`). This holds whatever happens (`Happening.watch`).
-/

namespace Rota.Audit

open Rota.Relay (Reply)

theorem Append.isDue_eq_false_iff {a : Append} {now : Nat} :
    a.isDue now = false ↔ ∀ due, a.due = some due → now < due := by
  unfold isDue
  cases a.due <;> simp

/-- The time for which a writer waits, if it waits for any. -/
def Writer.alarm? : Writer → Option Nat
  | appending a => a.due
  | appendingLast a deadline => some (a.due.elim deadline (min · deadline))
  | _ => none

namespace Pipeline

variable {p q : Pipeline} {now t due : Nat} {d : Option Nat}
  {reply : Record → Reply (Except Failure Unit)}

/-- **The writer waits**, and at most until the given time. -/
inductive Waits (p : Pipeline) (now : Nat) : Option Nat → Prop
  | unstarted (doing : p.writer = .unstarted) : Waits p now none
  | idle (doing : p.writer = .idle) (stopping : p.stopping = false) (empty : p.buffer = [])
      (orphaned : p.orphaned = false) : Waits p now none
  | appending {a : Append} (doing : p.writer = .appending a) (early : a.isDue now = false) :
      Waits p now a.due
  | appendingLast {a : Append} {deadline : Nat} (doing : p.writer = .appendingLast a deadline)
      (early : a.isDue now = false) (left : now < deadline) :
      Waits p now (some (a.due.elim deadline (min · deadline)))
  | gone (doing : p.writer = .gone) : Waits p now none

/-- A writer that waits does nothing if it is woken. -/
theorem Waits.move (h : p.Waits now d) : p.move now reply = (p, .waiting d, false) := by
  unfold Pipeline.move
  cases h with
  | unstarted doing | gone doing => rw [doing]
  | idle doing stopping empty orphaned => simp only [doing, stopping, empty, orphaned]; rfl
  | appending doing early => simp only [doing, early]; rfl
  | appendingLast doing early left =>
    simp only [doing, early, if_neg (Nat.not_le.2 left)]
    rfl

/-- **What a move of the writer can do**, and how the writer goes on after it. -/
inductive Moved (p : Pipeline) (now : Nat) (reply : Record → Reply (Except Failure Unit)) :
    Pipeline × Turn × Bool → Prop
  | wait {d : Option Nat} (waits : p.Waits now d) : Moved p now reply (p, .waiting d, false)
  | flush (doing : p.writer = .idle) : Moved p now reply (p.beginFlush now, .again, false)
  | take {r : Record} {rest : List Record} (doing : p.writer = .idle)
      (running : p.stopping = false) (oldest : p.buffer = r :: rest) :
      Moved p now reply
        (p.take (begin now r (reply r)) rest (.appending (begin now r (reply r))), .again, true)
  | conclude {a : Append} (doing : p.writer = .appending a) :
      Moved p now reply ({ p.conclude a with writer := .idle }, .again, false)
  | takeLast {r : Record} {rest : List Record} {deadline : Nat}
      (doing : p.writer = .flushing deadline) (oldest : p.buffer = r :: rest) :
      Moved p now reply
        (p.take (begin now r (reply r)) rest (.appendingLast (begin now r (reply r)) deadline),
          .again, true)
  | concludeLast {a : Append} {deadline : Nat} (doing : p.writer = .appendingLast a deadline) :
      Moved p now reply ({ p.conclude a with writer := .flushing deadline }, .again, false)
  | finish {deadline : Nat} (doing : p.writer = .flushing deadline) :
      Moved p now reply (p.finish, .ended, false)
  | cutOff {a : Append} {deadline : Nat} (doing : p.writer = .appendingLast a deadline) :
      Moved p now reply (p.cutOff now a, .ended, false)

/-- **The writer makes no other move.** -/
theorem moved (p : Pipeline) (now : Nat) (reply : Record → Reply (Except Failure Unit)) :
    p.Moved now reply (p.move now reply) := by
  unfold Pipeline.move
  split
  · next doing => exact .wait (.unstarted doing)
  · next doing => exact .wait (.gone doing)
  · next doing =>
    split
    · exact .flush doing
    · next hstopping =>
      have running : p.stopping = false := Bool.eq_false_iff.2 hstopping
      split
      · next hb => exact .take doing running hb
      · next hb =>
        split
        · exact .flush doing
        · next horphaned => exact .wait (.idle doing running hb (Bool.eq_false_iff.2 horphaned))
  · next doing =>
    split
    · exact .conclude doing
    · next hdue => exact .wait (.appending doing (Bool.eq_false_iff.2 hdue))
  · next doing =>
    split
    · next hb => exact .takeLast doing hb
    · exact .finish doing
  · next doing =>
    split
    · exact .concludeLast doing
    · next hdue =>
      split
      · exact .cutOff doing
      · next hleft =>
        exact .wait (.appendingLast doing (Bool.eq_false_iff.2 hdue) (Nat.not_le.1 hleft))

/-- A writer that does nothing waits. -/
theorem waits_of_move (h : (p.move now reply).2.1 = .waiting d) : p.Waits now d := by
  have hm := p.moved now reply
  generalize p.move now reply = m at h hm
  cases hm with
  | wait waits =>
    cases h
    exact waits
  | _ => cases h

theorem Waits.eq_alarm? (h : p.Waits now d) : d = p.writer.alarm? := by
  cases h with
  | unstarted doing | gone doing | idle doing _ _ _ | appending doing _ | appendingLast doing _ _ =>
    rw [doing]
    rfl

/-- A writer that has ended is gone. -/
theorem writer_of_ended (h : (p.move now reply).2.1 = .ended) :
    (p.move now reply).1.writer = .gone := by
  have hm := p.moved now reply
  generalize p.move now reply = m at h hm
  cases hm with
  | finish _ | cutOff _ => rfl
  | _ => cases h

/-- A writer waits for a time that has yet to come. -/
theorem Waits.lt (h : p.Waits now (some due)) : now < due := by
  generalize hd : some due = d at h
  cases h with
  | unstarted | idle | gone => cases hd
  | appending _ early => exact Append.isDue_eq_false_iff.1 early _ hd.symm
  | @appendingLast a deadline _ early left =>
    cases hd
    cases ha : a.due with
    | none => exact left
    | some due => exact Nat.lt_min.2 ⟨Append.isDue_eq_false_iff.1 early due ha, left⟩

/-- **A writer goes on waiting** until its time has come. -/
theorem Waits.later (h : p.Waits now d) (ht : ∀ due, d = some due → t < due) : p.Waits t d := by
  cases h with
  | unstarted doing => exact .unstarted doing
  | idle doing stopping empty orphaned => exact .idle doing stopping empty orphaned
  | appending doing _ => exact .appending doing (Append.isDue_eq_false_iff.2 ht)
  | @appendingLast a deadline doing _ _ =>
    have hlt := ht _ rfl
    have early : a.isDue t = false := Append.isDue_eq_false_iff.2 fun due ha => by
      rw [ha] at hlt
      exact (Nat.lt_min.1 hlt).1
    have left : t < deadline := by
      cases ha : a.due with
      | none => rwa [ha] at hlt
      | some due =>
        rw [ha] at hlt
        exact (Nat.lt_min.1 hlt).2
    exact .appendingLast doing early left
  | gone doing => exact .gone doing

/-- When its time has come it has something to do. -/
theorem Waits.not_later (h : p.Waits now (some due)) (ht : due ≤ t) : ¬ p.Waits t d := by
  intro h'
  obtain rfl := h'.eq_alarm?.trans h.eq_alarm?.symm
  exact Nat.not_lt.2 ht h'.lt

/-- A writer that does not wait for a record only goes by what it is doing. -/
theorem Waits.congr (hdoing : q.writer = p.writer) (hwants : p.wantsRecord = false)
    (h : p.Waits now d) : q.Waits now d := by
  cases h with
  | unstarted doing => exact .unstarted (hdoing.trans doing)
  | idle doing _ _ _ =>
    rw [wantsRecord, doing] at hwants
    cases hwants
  | appending doing early => exact .appending (hdoing.trans doing) early
  | appendingLast doing early left => exact .appendingLast (hdoing.trans doing) early left
  | gone doing => exact .gone (hdoing.trans doing)

/-- A writer that waits for a record waits for no time. -/
theorem Waits.eq_none_of_wantsRecord (h : p.Waits now d) (hwants : p.wantsRecord = true) :
    d = none := by
  cases h with
  | unstarted | idle | gone => rfl
  | appending doing _ | appendingLast doing _ _ =>
    rw [wantsRecord, doing] at hwants
    cases hwants

end Pipeline

end Rota.Audit

namespace Rota.Relay

open Rota.Audit (Pipeline Record)

namespace Agenda

/-- **The writer is looked after**: if it has something to do it is running or was woken, and
if it waits for a time its alarm is set. -/
inductive Watch (p : Pipeline) (a : Agenda) : Prop
  | awake (up : a.running = some .writer ∨ a.IsWoken .writer) (unset : a.alarmsOf .writer = [])
  | waiting {d : Option Nat} (waits : p.Waits a.now d)
      (set : a.alarmsOf .writer = d.toList.map (⟨·, .writer, 0⟩))

/-- When everyone waits, so does the writer. -/
theorem Watch.waits_of_isSettled {p : Pipeline} {a : Agenda} (h : Watch p a)
    (settled : a.isSettled = true) :
    ∃ d, p.Waits a.now d ∧ a.alarmsOf .writer = d.toList.map (⟨·, .writer, 0⟩) := by
  cases h with
  | awake up _ =>
    obtain ⟨hrun, hwoken⟩ := not_isWoken_of_isSettled settled
    rcases up with hup | hup
    · cases hrun.symm.trans hup
    · exact absurd hup (hwoken _)
  | waiting waits set => exact ⟨_, waits, set⟩

variable {a : Agenda} {me : Actor}

theorem mem_alarms_of_alarmsOf {d : Option Nat} {due : Nat}
    (set : a.alarmsOf me = d.toList.map (⟨·, me, 0⟩)) (hd : d = some due) :
    ⟨due, me, 0⟩ ∈ a.alarms := by
  have hmem : ⟨due, me, 0⟩ ∈ a.alarmsOf me := by
    rw [set, hd]
    exact List.mem_cons_self
  exact List.mem_of_mem_filter hmem

theorem alarmsOf_setAlarm (h : a.alarmsOf me = []) (due slot : Nat) :
    (a.setAlarm due me slot).alarmsOf me = [⟨due, me, slot⟩] := by
  have hnone : a.alarms.any (fun x => x.actor == me && x.slot == slot) = false := by
    refine List.any_eq_false.2 fun x hx => ?_
    have hne : x.actor ≠ me := by simpa using List.filter_eq_nil_iff.1 h x hx
    simp [hne]
  unfold setAlarm
  rw [hnone]
  show (a.alarms ++ [_]).filter _ = _
  rw [List.filter_append]
  show a.alarmsOf me ++ _ = _
  rw [h]
  simp

/-- An alarm that is set is not set again. -/
theorem setAlarm_of_mem {due due' slot : Nat} (h : ⟨due', me, slot⟩ ∈ a.alarms) :
    a.setAlarm due me slot = a := by
  unfold setAlarm
  rw [if_pos (List.any_eq_true.2 ⟨_, h, by simp⟩)]

theorem alarmsOf_pass (a : Agenda) (t : Nat) (me : Actor) :
    (a.pass t).alarmsOf me = (a.alarmsOf me).filter fun x => t < x.due := by
  unfold alarmsOf
  rw [alarms_pass, List.filter_filter, List.filter_filter]
  exact List.filter_congr fun x _ => Bool.and_comm _ _

/-- **Whoever has an alarm that is due** is woken by it. -/
theorem isWoken_pass {x : Alarm} {t : Nat} (h : x ∈ a.alarmsOf me) (hdue : x.due ≤ t) :
    (a.pass t).IsWoken me := by
  obtain ⟨hx, hme⟩ := List.mem_filter.1 h
  obtain rfl := of_decide_eq_true hme
  refine (isWoken_wakeAll ..).2 (.inr (List.mem_map_of_mem (List.mem_filter.2 ⟨hx, ?_⟩)))
  exact decide_eq_true hdue

end Agenda

namespace System

/-! ## What the others do to the writer -/

/-- **The writer is left to itself**: it goes on with what it was doing, unless it is started or
dropped; and what it hears of is nothing to it, or it is woken. -/
structure Leaves (s s' : System) : Prop where
  spares : s.Spares .writer s'
  grace : s'.pipeline.grace = s.pipeline.grace
  stopping : s.pipeline.stopping = true → s'.pipeline.stopping = true
  writer : s'.pipeline.writer = s.pipeline.writer
    ∨ s.pipeline.writer = .unstarted ∧ (s'.pipeline.writer = .idle ∨ s'.pipeline.writer = .gone)
  heard : (∀ now d, s.pipeline.Waits now d → s'.pipeline.Waits now d)
    ∨ s'.agenda.IsWoken .writer ∧ ∀ now d, s.pipeline.Waits now d → d = none

section Leaves

variable {s t s' : System}

/-- Much that happens is nothing to the writer. -/
theorem Leaves.of_pipeline (hs : s.Spares .writer s') (h : s'.pipeline = s.pipeline) :
    s.Leaves s' where
  spares := hs
  grace := congrArg Pipeline.grace h
  stopping := fun hstopping => h ▸ hstopping
  writer := .inl (congrArg Pipeline.writer h)
  heard := .inl fun _ _ hw => h ▸ hw

theorem Leaves.refl (s : System) : s.Leaves s := .of_pipeline (.refl s) rfl

theorem Within.leaves (h : s.Within s') (hs : s.Spares .writer s') : s.Leaves s' :=
  .of_pipeline hs (congrArg Outbound.pipeline h.outbound)

theorem Leaves.after (h' : t.Leaves s') (h : s.Leaves t) : s.Leaves s' where
  spares := h'.spares.after h.spares
  grace := h'.grace.trans h.grace
  stopping := h'.stopping ∘ h.stopping
  writer := by
    rcases h.writer with hw | ⟨hu, hw⟩
    · rcases h'.writer with hw' | ⟨hu', hw'⟩
      · exact .inl (hw'.trans hw)
      · exact .inr ⟨hw.symm.trans hu', hw'⟩
    · refine .inr ⟨hu, ?_⟩
      rcases h'.writer with hw' | ⟨-, hw'⟩
      · rwa [hw']
      · exact hw'
  heard := by
    rcases h.heard with hkeep | ⟨hwoken, hnone⟩
    · rcases h'.heard with hkeep' | ⟨hwoken', hnone'⟩
      · exact .inl fun now d hw => hkeep' now d (hkeep now d hw)
      · exact .inr ⟨hwoken', fun now d hw => hnone' now d (hkeep now d hw)⟩
    · exact .inr ⟨h'.spares.woken hwoken, hnone⟩

theorem Leaves.rest (h : s.Leaves s') : s.Leaves s'.rest :=
  (Leaves.of_pipeline (Spares.refl s').rest rfl).after h

theorem Leaves.answer (h : s.Leaves s') (a : Answer) : s.Leaves (s'.answer a) :=
  after (t := s') (.of_pipeline (.refl _) rfl) h

theorem Leaves.await (h : s.Leaves s') (c : Client) : s.Leaves (s'.await c) :=
  after (t := s') (.of_pipeline ((Spares.refl s').await c nofun) rfl) h

/-- **A word to the writer** that is doing something else is nothing to it; and if it waits for
a record it is woken. -/
theorem leaves_tellWriter (s : System) (p : Pipeline) (hgrace : p.grace = s.pipeline.grace)
    (hstopping : s.pipeline.stopping = true → p.stopping = true)
    (hwriter : p.writer = s.pipeline.writer) :
    s.Leaves
      (if s.pipeline.wantsRecord then ({ s with pipeline := p } : System).wake .writer
      else { s with pipeline := p }) := by
  have hs : s.Spares .writer _ := spares_tellWriter s p s.pipeline.wantsRecord
  cases hwants : s.pipeline.wantsRecord with
  | true =>
    rw [hwants] at hs
    refine ⟨hs, hgrace, hstopping, .inl hwriter, .inr ⟨?_, fun _ _ hw => ?_⟩⟩
    · exact (Agenda.isWoken_wake ..).2 (.inr rfl)
    · exact hw.eq_none_of_wantsRecord hwants
  | false =>
    rw [hwants] at hs
    exact ⟨hs, hgrace, hstopping, .inl hwriter, .inl fun _ _ hw => hw.congr hwriter hwants⟩

variable (s)

theorem leaves_record (r : Record) : s.Leaves (s.record r) := by
  have h : (s.pipeline.offer r).grace = s.pipeline.grace
      ∧ (s.pipeline.offer r).stopping = s.pipeline.stopping
      ∧ (s.pipeline.offer r).writer = s.pipeline.writer := by
    unfold Pipeline.offer
    dsimp only
    split
    · exact ⟨rfl, rfl, rfl⟩
    · split <;> exact ⟨rfl, rfl, rfl⟩
  exact leaves_tellWriter s _ h.1 (fun hs => h.2.1.trans hs) h.2.2

theorem leaves_signalWriter : s.Leaves s.signalWriter :=
  leaves_tellWriter s _ rfl (fun _ => rfl) rfl

theorem leaves_endRecords : s.Leaves s.endRecords :=
  leaves_tellWriter s _ rfl id rfl

theorem leaves_startWriter : s.Leaves s.startWriter := by
  have hs : s.Spares .writer s.startWriter := spares_startWriter s
  unfold startWriter at hs ⊢
  split at hs
  · next hu =>
    refine ⟨hs, rfl, id, .inr ⟨hu, .inl rfl⟩, .inr ⟨?_, fun _ _ hw => ?_⟩⟩
    · exact (Agenda.isWoken_wake ..).2 (.inr rfl)
    · rw [hw.eq_alarm?, hu]
      rfl
  · exact .refl s

theorem leaves_dropWriter : s.Leaves s.dropWriter := by
  have hs : s.Spares .writer s.dropWriter := spares_dropWriter s
  unfold dropWriter at hs ⊢
  split at hs
  · next hu =>
    refine ⟨hs, rfl, id, .inr ⟨hu, .inr rfl⟩, .inl fun now d hw => ?_⟩
    have hd : d = none := by
      rw [hw.eq_alarm?, hu]
      rfl
    exact hd ▸ .gone rfl
  · exact .refl s

/-! ### Moves -/

variable (o : Outside)

theorem leaves_land (f : Flight) (r : Record) : s.Leaves (s.land f r) := by
  have h : s.Leaves (s.conclude f r) := by
    unfold conclude
    exact (leaves_record _ r).after (.of_pipeline (.refl _) rfl)
  unfold land
  dsimp only
  split
  · exact ((Leaves.of_pipeline (Spares.wake (.refl _) _) rfl).after h).rest
  · exact h.rest

theorem leaves_pursue (f : Flight) (next : Next) : s.Leaves (s.pursue o f next) := by
  cases next with
  | ended r => exact leaves_land s f r
  | calling call whom => exact .of_pipeline (.refl _) rfl

theorem leaves_moveFlight (number : Nat) : s.Leaves (s.moveFlight o number) := by
  have hwait : ∀ due, s.Leaves (s.restUntil due (.delivery number)) := fun due =>
    .of_pipeline ((Spares.refl s).restUntil due _ nofun) rfl
  unfold moveFlight
  split
  · exact (Leaves.refl s).rest
  · next f _ =>
    split
    · split
      · exact leaves_pursue s o f _
      · exact .of_pipeline (.refl _) rfl
    · split
      · split
        next result resolver _ =>
        exact (leaves_pursue { s with resolver } o f _).after (.of_pipeline (.refl _) rfl)
      · exact hwait _
    · split
      · exact leaves_land s f _
      · exact hwait _

theorem pipeline_moveWorker : s.moveWorker.pipeline = s.pipeline := by
  have htake : ∀ {e : Event} {s' : System}, s.takeEvent = some (e, s') →
      s'.pipeline = s.pipeline := fun he =>
    congrArg Outbound.pipeline (within_takeEvent s he).outbound
  unfold moveWorker
  split
  · rfl
  · split
    · rfl
    · split
      · next he =>
        have h := htake he
        exact h
      · split <;> rfl
  · split <;> rfl
  · split
    · next he =>
      have h := htake he
      exact h
    · rfl
  · split <;> rfl
  · rfl

/-- **The client** only tells the writer to stop, once the worker is gone. -/
theorem pipeline_moveClient : (s.moveClient o).pipeline = s.pipeline
    ∨ s.moveClient o = { s with client := .awaitingWriter }.startWriter.signalWriter := by
  unfold moveClient
  split
  · exact .inl rfl
  · split <;> exact .inl rfl
  · next event deadline _ =>
    have h := congrArg Outbound.pipeline
      (within_offerAgain s { actor := .client } event deadline).outbound
    split
    · next hs =>
      rw [hs] at h
      exact .inl h
    · next hs =>
      rw [hs] at h
      exact .inl h
  · next c _ =>
    have h := congrArg Outbound.pipeline (within_moveCycle s o .client c).outbound
    split
    · next hc =>
      rw [hc] at h
      exact .inl h
    · next hc =>
      rw [hc] at h
      exact .inl h
    · next hc =>
      rw [hc] at h
      exact .inl h
  · split <;> exact .inl rfl
  · split
    · exact .inr rfl
    · exact .inl rfl
  · split <;> exact .inl rfl

theorem leaves_moveClient : s.Leaves (s.moveClient o) := by
  rcases pipeline_moveClient s o with h | h
  · exact .of_pipeline (spares_moveClient o s nofun) h
  · rw [h]
    exact (leaves_signalWriter _).after
      ((leaves_startWriter _).after (.of_pipeline (.refl _) rfl))

/-- **A move of another actor** leaves the writer to itself. -/
theorem leaves_move {a : Actor} (hne : a ≠ .writer) : s.Leaves (s.move o a) := by
  cases a with
  | client => exact leaves_moveClient s o
  | poller => exact (within_moveLoop s o).leaves (spares_moveLoop o s nofun)
  | worker => exact .of_pipeline (spares_moveWorker s) (pipeline_moveWorker s)
  | writer => exact absurd rfl hne
  | delivery n => exact leaves_moveFlight s o n
  | producer n => exact (within_moveProducer s n).leaves (spares_moveProducer s n nofun)

/-! ### Requests -/

theorem leaves_recordTimes (r : Record) (times : Nat) : s.Leaves (s.recordTimes r times) := by
  induction times generalizing s with
  | zero => exact .refl s
  | succ times ih => exact (ih _).after (leaves_record s r)

/-- **A request** leaves the writer to itself. -/
theorem leaves_request (r : Request) : s.Leaves (s.request r) := by
  have hs : s.Spares .writer (s.request r) := spares_request s r nofun nofun
  have hwithin : ∀ {s'}, s.Within s' → (s.request r).pipeline = s'.pipeline →
      s.Leaves (s.request r) := fun hw hp =>
    .of_pipeline hs (hp.trans (congrArg Outbound.pipeline hw.outbound))
  have hworker : s.Leaves s.startWorker := (within_startWorker s).leaves (spares_startWorker s)
  have hstart : s.Leaves s.startWriter := leaves_startWriter s
  cases r with
  | sleep ms => exact hwithin (.refl s) rfl
  | poll schedules => exact hwithin (.refl s) rfl
  | enqueue event => exact hwithin (within_enqueue s event _) rfl
  | enqueueWithin event limit =>
    refine hwithin (within_offer s { actor := .client } event limit) ?_
    rw [request]
    split <;> next he => rw [he]; rfl
  | offerAside event limit => exact hwithin (within_offerAside s event limit) rfl
  | signal => exact hwithin (within_signalWorker s) rfl
  | leave => exact hwithin (within_endEvents s) rfl
  | startPolling schedules => exact hwithin (within_startPolling s schedules) rfl
  | stopPolling =>
    refine hwithin (within_signalLoop s) ?_
    rw [request]
    split
    · rfl
    · exact (congrArg Outbound.pipeline (within_signalLoop s).outbound).symm
  | record r times => exact (leaves_recordTimes s r times).answer _
  | start => exact ((leaves_startWriter _).after hworker).answer _
  | startWriter => exact hstart.answer _
  | dropWriter => exact (leaves_dropWriter s).answer _
  | shutdown =>
    have hsignal := (within_signalWorker s.startWorker.startWriter).leaves (spares_signalWorker _)
    exact (hsignal.after ((leaves_startWriter _).after hworker)).await _
  | shutdownWriter => exact ((leaves_signalWriter _).after hstart).await _
  | finish =>
    exact (((within_endEvents _).leaves (spares_endEvents _)).after hworker).await _
  | finishRecords => exact ((leaves_endRecords _).after hstart).await _

theorem running_recordTimes (r : Record) (times : Nat) :
    (s.recordTimes r times).agenda.running = s.agenda.running := by
  induction times generalizing s with
  | zero => rfl
  | succ times ih => exact (ih _).trans (quiet_record s r).stirs.running

/-- A request that is answered at once stops nobody who is running. -/
theorem running_request (r : Request) (prompt : r.isPrompt = true) :
    (s.request r).agenda.running = s.agenda.running := by
  cases r with
  | enqueue event => exact (quiet_enqueue s event _).stirs.running
  | offerAside event limit =>
    rw [request, offerAside]
    split
    · next hs => exact (offer_some hs).stirs.running
    · next hs => exact (offer_none hs).2.running
  | record r times => exact running_recordTimes s r times
  | start =>
    exact ((aside_startWriter _).quiet.after (quiet_startWorker s)).stirs.running
  | startWriter => exact (aside_startWriter s).stirs.running
  | dropWriter => exact (aside_dropWriter s).stirs.running
  | signal => exact (aside_signalWorker s).stirs.running
  | leave => exact (aside_endEvents s).stirs.running
  | startPolling schedules =>
    rw [request, startPolling]
    split
    · rfl
    · exact Agenda.running_wake _ _
  | _ => cases prompt

end Leaves

/-! ## The writer is looked after -/

section Watch

open Agenda (Watch)

variable {o : Outside} {s s' : System}

/-- The writer is still looked after when it is left to itself. -/
theorem Leaves.watch (hl : s.Leaves s') (h : Watch s.pipeline s.agenda)
    (hrun : s.agenda.running = some .writer → s'.agenda.running = some .writer) :
    Watch s'.pipeline s'.agenda := by
  cases h with
  | awake up unset =>
    exact .awake (up.imp hrun hl.spares.woken) (hl.spares.alarms.trans unset)
  | @waiting d waits set =>
    have set' := hl.spares.alarms.trans set
    rcases hl.heard with hkeep | ⟨hwoken, hnone⟩
    · exact .waiting (hl.spares.now ▸ hkeep _ _ waits) set'
    · rw [hnone _ _ waits] at set'
      exact .awake (.inr hwoken) set'

section MoveWriter

variable (o : Outside) (s : System)

theorem pipeline_moveWriter :
    (s.moveWriter o).pipeline = (s.pipeline.move s.now (o.append s.appends)).1 := by
  unfold moveWriter
  rcases s.pipeline.move s.now (o.append s.appends) with ⟨pipeline, turn, begun⟩
  rcases turn with _ | (_ | due) | _ <;> rfl

theorem client_moveWriter : (s.moveWriter o).client = s.client := by
  unfold moveWriter
  rcases s.pipeline.move s.now (o.append s.appends) with ⟨pipeline, turn, begun⟩
  rcases turn with _ | (_ | due) | _ <;> rfl

/-- How the writer goes on after a move. -/
theorem agenda_moveWriter :
    (s.moveWriter o).agenda =
      match (s.pipeline.move s.now (o.append s.appends)).2.1 with
      | .again => s.agenda
      | .waiting none => s.agenda.rest
      | .waiting (some due) => (s.agenda.setAlarm due .writer).rest
      | .ended => (s.agenda.wake .client).rest := by
  unfold moveWriter
  rcases s.pipeline.move s.now (o.append s.appends) with ⟨pipeline, turn, begun⟩
  rcases turn with _ | (_ | due) | _ <;> rfl

end MoveWriter

/-- **When the writer stops running**, it has its alarm set or nothing to wait for. -/
theorem watch_moveWriter (hrun : s.agenda.running = some .writer)
    (h : Watch s.pipeline s.agenda) :
    Watch (s.moveWriter o).pipeline (s.moveWriter o).agenda := by
  have hwaits : ∀ d, (s.pipeline.move s.now (o.append s.appends)).2.1 = .waiting d →
      s.pipeline.Waits s.now d := fun d => Pipeline.waits_of_move
  have hended : (s.pipeline.move s.now (o.append s.appends)).2.1 = .ended →
      (s.pipeline.move s.now (o.append s.appends)).1.writer = .gone := Pipeline.writer_of_ended
  rw [pipeline_moveWriter, agenda_moveWriter]
  cases h with
  | awake up unset =>
    split
    · exact .awake (.inl hrun) unset
    · next hturn =>
      have waits := hwaits none hturn
      rw [waits.move]
      exact .waiting waits unset
    · next due hturn =>
      have waits := hwaits (some due) hturn
      rw [waits.move]
      refine .waiting (d := some due) ?_ (Agenda.alarmsOf_setAlarm unset due 0)
      exact (Agenda.now_setAlarm s.agenda due .writer 0).symm ▸ waits
    · next hturn =>
      refine .waiting (d := none) (.gone (hended hturn)) ?_
      exact (Agenda.Spares.wake s.agenda .client).alarms.trans unset
  | @waiting d waits set =>
    -- it was woken for nothing, and its alarm is still set
    have hmove : s.pipeline.move s.now (o.append s.appends) = (s.pipeline, .waiting d, false) :=
      waits.move
    rw [hmove]
    cases d with
    | none => exact .waiting waits set
    | some due =>
      dsimp only
      rw [Agenda.setAlarm_of_mem (Agenda.mem_alarms_of_alarmsOf set rfl)]
      exact .waiting waits set

/-- **Time passes**, and wakes the writer if its time has come. -/
theorem watch_pass (t : Nat) (h : Watch s.pipeline s.agenda) :
    Watch s.pipeline (s.agenda.pass t) := by
  cases h with
  | awake up unset =>
    refine .awake (up.imp (fun hr => (s.agenda.running_pass t).trans hr) ?_) ?_
    · exact (Agenda.Stirs.pass s.agenda t).woken _
    · rw [Agenda.alarmsOf_pass, unset]
      rfl
  | @waiting d waits set =>
    cases d with
    | none =>
      refine .waiting (waits.later nofun) ?_
      rw [Agenda.alarmsOf_pass, set]
      rfl
    | some due =>
      have hset : s.agenda.alarmsOf .writer = [⟨due, .writer, 0⟩] := set
      by_cases ht : t < due
      · refine .waiting (d := some due) (waits.later fun due' he => ?_) ?_
        · cases he
          rw [Agenda.now_pass]
          exact Nat.max_lt.2 ⟨waits.lt, ht⟩
        · rw [Agenda.alarmsOf_pass, hset]
          simp [ht]
      · refine .awake (.inr ?_) ?_
        · exact Agenda.isWoken_pass (hset ▸ List.mem_cons_self) (Nat.not_lt.1 ht)
        · rw [Agenda.alarmsOf_pass, hset]
          simp [ht]

/-- **What happens to the writer**: it is left to itself, makes a move of its own, or nothing. -/
theorem Happening.leaves_or_moves (h : Happening o s s') :
    s.Leaves s' ∨ s' = s.moveWriter o ∨ s'.pipeline = s.pipeline := by
  cases h with
  | record r => exact .inl (leaves_record s r)
  | request r times _ => exact .inl (leaves_request s _)
  | start => exact .inl (leaves_startWriter s)
  | stop => exact .inl (leaves_signalWriter s)
  | leave => exact .inl (leaves_endRecords s)
  | drop => exact .inl (leaves_dropWriter s)
  | advance hadv =>
    cases hadv with
    | @move a _ =>
      by_cases ha : a = .writer
      · subst ha
        exact .inr (.inl rfl)
      · exact .inl (leaves_move s o ha)
    | turn _ _ | call _ _ | pass _ | elsewhere _ _ _ => exact .inr (.inr rfl)
    | request r _ _ _ => exact .inl (leaves_request s r)

/-- **The writer is looked after**, whatever happens. -/
theorem Happening.watch (hh : Happening o s s') (h : Watch s.pipeline s.agenda) :
    Watch s'.pipeline s'.agenda := by
  have hstirs : ∀ {s'}, s.Leaves s' → s.agenda.Stirs s'.agenda → Watch s'.pipeline s'.agenda :=
    fun hl hs => hl.watch h fun hrun => hs.running.trans hrun
  cases hh with
  | record r => exact hstirs (leaves_record s r) (quiet_record s r).stirs
  | request r times answered =>
    exact (leaves_request s _).watch h fun hrun => (running_request s _ rfl).trans hrun
  | start => exact hstirs (leaves_startWriter s) (aside_startWriter s).stirs
  | stop => exact hstirs (leaves_signalWriter s) (aside_signalWriter s).stirs
  | leave => exact hstirs (leaves_endRecords s) (aside_endRecords s).stirs
  | drop => exact hstirs (leaves_dropWriter s) (aside_dropWriter s).stirs
  | advance hadv =>
    cases hadv with
    | @move a hrun =>
      by_cases ha : a = .writer
      · subst ha
        exact watch_moveWriter hrun h
      · have hleaves := leaves_move s o ha
        exact hleaves.watch h fun hw => absurd (Option.some.inj (hrun.symm.trans hw)) ha
    | @turn a idle ready =>
      cases h with
      | awake up unset =>
        refine .awake ?_ unset
        by_cases ha : a = .writer
        · exact .inl (congrArg some ha)
        · refine .inr (isWoken_turn (Ne.symm ha) (up.resolve_left fun hrun => ?_))
          cases idle.symm.trans hrun
      | waiting waits set => exact .waiting waits set
    | call idle called =>
      cases h with
      | awake up unset =>
        refine .awake (.inr (up.resolve_left fun hrun => ?_)) unset
        cases idle.symm.trans hrun
      | waiting waits set => exact .waiting waits set
    | pass t => exact watch_pass t h
    | request r answered free plain =>
      refine (leaves_request s r).watch h fun hrun => ?_
      refine (running_request s r (free.resolve_left fun hnone => ?_)).trans hrun
      cases hnone.symm.trans hrun
    | elsewhere resolver clock ids => exact h

/-- At first the writer waits to be started. -/
theorem watch_new (settings : Settings) (capacity auditCapacity : Nat) (audited : Bool)
    (grace : Nat) (resolver : Directory.Resolver) :
    let s := new settings capacity auditCapacity audited grace resolver
    Watch s.pipeline s.agenda := by
  cases audited with
  | true => exact .waiting (.unstarted rfl) rfl
  | false => exact .waiting (.gone rfl) rfl

end Watch

end System

end Rota.Relay
