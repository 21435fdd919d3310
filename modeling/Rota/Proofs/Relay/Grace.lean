import Rota.Proofs.Relay.Closing

/-!
# How long the writer takes to stop

A writer that is told to stop should be done within its grace. It is done within its grace after
the end of the append that is under way at the signal, and not before that append has ended
(`stopsWithin`). Where no append is under way this is the grace; a slow log makes it longer
(`not_stopsWithin_grace`).

`StopsWithin` takes it from the outside, with anything else happening meanwhile, and from the
inside: when everyone waits, the writer has an alarm that is due by then. A client that asks for
the end of the writer while all others are at rest is therefore answered, as the writer has less
and less to do (`toil_move`).
-/

namespace Rota.Audit.Pipeline

open Rota.Relay (Reply)

variable {p : Pipeline} {now : Nat} {reply : Record → Reply (Except Failure Unit)}

/-- **How much a writer has to do yet**, once it is started, if no further record comes. -/
def toil (p : Pipeline) : Nat :=
  match p.writer with
  | .unstarted | .appending _ => 2 * p.buffer.length + 4
  | .idle | .appendingLast .. => 2 * p.buffer.length + 3
  | .flushing _ => 2 * p.buffer.length + 2
  | .gone => 0

/-- **Each move** leaves a writer that does not wait less to do, and one that runs on is not
done. -/
theorem toil_move (h : ∀ due, (p.move now reply).2.1 ≠ .waiting due) :
    (p.move now reply).1.toil < p.toil
      ∧ ((p.move now reply).2.1 = .again → (p.move now reply).1.isOver = false) := by
  have hm := p.moved now reply
  generalize p.move now reply = m at h hm ⊢
  cases hm with
  | wait _ => exact absurd rfl (h _)
  | finish doing | cutOff doing =>
    refine ⟨?_, (nomatch ·)⟩
    simp [toil, doing, finish, cutOff]
  | take doing _ oldest =>
    refine ⟨?_, fun _ => rfl⟩
    simp only [toil, doing, take, oldest, List.length_cons]
    omega
  | flush doing =>
    refine ⟨?_, fun _ => rfl⟩
    simp [toil, doing, beginFlush]
  | conclude doing =>
    rw [conclude_eq]
    refine ⟨?_, fun _ => rfl⟩
    simp [toil, doing]
  | takeLast doing oldest =>
    refine ⟨?_, fun _ => rfl⟩
    simp only [toil, doing, take, oldest, List.length_cons]
    omega
  | concludeLast doing =>
    rw [conclude_eq]
    refine ⟨?_, fun _ => rfl⟩
    simp [toil, doing]

end Rota.Audit.Pipeline

namespace Rota.Relay

namespace Agenda

/-- **Nobody but the writer has an alarm**: and who is running, who is ready, and whether the
client was called. -/
structure Solo (a : Agenda) (running : Option Actor) (ready : List Actor)
    (called : Bool) : Prop where
  alarms : ∀ x ∈ a.alarms, x.actor = .writer
  running : a.running = running
  ready : a.ready = ready
  called : a.called = called

theorem Solo.setAlarm {a : Agenda} {running : Option Actor} {ready : List Actor} {called : Bool}
    (h : a.Solo running ready called) (due : Nat) :
    (a.setAlarm due .writer).rest.Solo none ready called := by
  unfold Agenda.setAlarm
  split
  · exact { h with running := rfl }
  · refine { h with running := rfl, alarms := fun x hx => ?_ }
    rcases List.mem_append.1 hx with hx | hx
    · exact h.alarms x hx
    · rw [List.mem_singleton.1 hx]

end Agenda

namespace System

open Rota.Audit (Append Pipeline Record)
open Agenda (Watch)

variable {o : Outside} {s s' : System} {limit fuel : Nat} {ready : List Actor} {called : Bool}

theorem Closing.course (h : s.Closing limit) (hc : Relation.ReflTransGen (Punctual o) s s') :
    s'.Closing limit := by
  induction hc with
  | refl => exact h
  | tail _ hp ih => exact ih.punctual hp

theorem now_le_of_punctual (hc : Relation.ReflTransGen (Punctual o) s s') : s.now ≤ s'.now := by
  induction hc with
  | refl => exact Nat.le_refl _
  | tail _ hp ih => exact Nat.le_trans ih hp.now_le

theorem appending_of_course {a : Append} {due : Nat} (hdue : a.due = some due)
    (hc : Relation.ReflTransGen (Punctual o) s s') (h : s.pipeline.writer = .appending a) :
    s'.pipeline.writer = .appending a ∨ due ≤ s'.now := by
  induction hc with
  | refl => exact .inl h
  | tail _ hp ih => exact appending_of_punctual hdue hp ih

/-- A service that has its answer stays as it is. -/
theorem run_of_isAnswered {more : Nat} (h : (run o fuel s).isAnswered = true)
    (hle : fuel ≤ more) : run o more s = run o fuel s := by
  induction fuel generalizing s more with
  | zero =>
    cases more with
    | zero => rfl
    | succ more =>
      have hs : s.isAnswered = true := h
      simp only [run, hs, if_true]
  | succ fuel ih =>
    cases more with
    | zero => exact absurd hle (Nat.not_succ_le_zero _)
    | succ more =>
      unfold run at h ⊢
      split at h
      · next hs => rw [if_pos hs, if_pos hs]
      · next hs =>
        rw [if_neg hs, if_neg hs]
        exact ih h (Nat.le_of_succ_le_succ hle)

/-! ## A client that waits for the writer -/

/-- **The client waits for the writer**, and all others are at rest. -/
structure Awaited (s : System) (limit : Nat) (running : Option Actor) (ready : List Actor)
    (called : Bool) : Prop where
  closing : s.Closing limit
  client : s.client = .awaitingWriter
  solo : s.agenda.Solo running ready called
  now : s.now ≤ limit

/-- **The client gets its answer** by the limit, and the writer is done. -/
def Ends (o : Outside) (s : System) (limit : Nat) : Prop :=
  ∃ fuel, (run o fuel s).isAnswered = true ∧ (run o fuel s).pipeline.isOver = true
    ∧ (run o fuel s).now ≤ limit

theorem step_of_running {a : Actor} (h : s.agenda.running = some a) : s.step o = s.move o a := by
  unfold step
  rw [h]

theorem step_of_idle (h : s.agenda.running = none) :
    s.step o = { s with agenda := s.agenda.turn } := by
  unfold step
  rw [h]

theorem Ends.of_step (hclient : s.client = .awaitingWriter) (h : Ends o (s.step o) limit) :
    Ends o s limit := by
  obtain ⟨fuel, h⟩ := h
  refine ⟨fuel + 1, ?_⟩
  have hidle : s.isAnswered = false := by rw [isAnswered, hclient]
  rw [run, hidle]
  exact h

namespace Awaited

variable {running running' : Option Actor} {ready' : List Actor} {called' : Bool}

/-- What a step has to keep. -/
theorem of_step (h : s.Awaited limit running ready called) (hstep : s.step o = s')
    (hclient : s'.client = s.client) (hsolo : s'.agenda.Solo running' ready' called')
    (hnow : s'.now ≤ limit) : s'.Awaited limit running' ready' called' where
  closing := hstep ▸ h.closing.course (punctual_step o s)
  client := hclient.trans h.client
  solo := hsolo
  now := hnow

/-- A client that sees that the writer is gone gets its answer. -/
theorem ends_of_isOver (h : s.Awaited limit (some .client) ready called)
    (hover : s.pipeline.isOver = true) : Ends o s limit := by
  refine .of_step h.client ?_
  rw [step_of_running h.solo.running, move, moveClient, h.client]
  dsimp only
  rw [if_pos hover]
  exact ⟨0, rfl, hover, h.now⟩

/-- Otherwise it rests. -/
theorem rest (h : s.Awaited limit (some .client) ready called)
    (hover : s.pipeline.isOver = false) :
    (s.step o).Awaited limit none ready called ∧ (s.step o).pipeline = s.pipeline := by
  have hstep : s.step o = s.rest := by
    rw [step_of_running h.solo.running, move, moveClient, h.client]
    simp [hover]
  rw [hstep]
  exact ⟨h.of_step hstep rfl { h.solo with running := rfl } h.now, rfl⟩

/-- The client that was called is next when nobody else is ready. -/
theorem call (h : s.Awaited limit none [] true) :
    (s.step o).Awaited limit (some .client) [] false ∧ (s.step o).pipeline = s.pipeline := by
  have hturn : s.agenda.turn = s.agenda.callClient := by
    simp [Agenda.turn, h.solo.ready, h.solo.called]
  have hstep : s.step o = { s with agenda := s.agenda.callClient } := by
    rw [step_of_idle h.solo.running, hturn]
  rw [hstep]
  exact ⟨h.of_step hstep rfl { h.solo with running := rfl, called := rfl } h.now, rfl⟩

/-- The writer that was woken is next. -/
theorem turn (h : s.Awaited limit none [.writer] called) :
    (s.step o).Awaited limit (some .writer) [] called
      ∧ (s.step o).pipeline = s.pipeline ∧ (s.step o).now = s.now := by
  have hturn : s.agenda.turn = { s.agenda with running := some .writer, ready := [] } := by
    simp [Agenda.turn, h.solo.ready]
  have hstep : s.step o
      = { s with agenda := { s.agenda with running := some .writer, ready := [] } } := by
    rw [step_of_idle h.solo.running, hturn]
  rw [hstep]
  exact ⟨h.of_step hstep rfl { h.solo with running := rfl, ready := rfl } h.now, rfl, rfl⟩

/-- **Time jumps** to the alarm of the writer, and then it has something to do. -/
theorem jump (h : s.Awaited limit none [] false) (hover : s.pipeline.isOver = false) :
    (s.step o).Awaited limit none [.writer] false ∧ (s.step o).pipeline = s.pipeline
      ∧ ∀ d, ¬ s.pipeline.Waits (s.step o).now d := by
  have settled : s.agenda.isSettled = true := by
    simp [Agenda.isSettled, h.solo.running, h.solo.ready, h.solo.called]
  obtain ⟨d, waits, set⟩ := h.closing.watch.waits_of_isSettled settled
  obtain ⟨due, rfl, hlt, hle⟩ := Pipeline.exists_alarm_of_endsBy h.closing.stopping
    h.closing.endsBy hover waits
  have halarms : s.agenda.alarms = [⟨due, .writer, 0⟩] := by
    have hall : s.agenda.alarmsOf .writer = s.agenda.alarms :=
      List.filter_eq_self.2 fun x hx => decide_eq_true (h.solo.alarms x hx)
    exact hall.symm.trans set
  have hpass : s.agenda.pass due
      = { s.agenda with now := due, ready := [.writer], alarms := [] } := by
    have hmax : max s.agenda.now due = due := Nat.max_eq_right (Nat.le_of_lt hlt)
    simp [Agenda.pass, Agenda.wakeAll, Agenda.wake, halarms, hmax, h.solo.ready]
  have hturn : s.agenda.turn
      = { s.agenda with now := due, ready := [.writer], alarms := [] } := by
    have hnext : s.agenda.nextDue? = some due := by simp [Agenda.nextDue?, halarms]
    simp [Agenda.turn, Agenda.jump, h.solo.ready, h.solo.called, hnext, hpass]
  have hstep : s.step o
      = { s with agenda := { s.agenda with now := due, ready := [.writer], alarms := [] } } := by
    rw [step_of_idle h.solo.running, hturn]
  rw [hstep]
  have hnone : ∀ x ∈ ([] : List Alarm), x.actor = .writer := fun x hx =>
    absurd hx List.not_mem_nil
  exact ⟨h.of_step hstep rfl { h.solo with alarms := hnone, ready := rfl } hle, rfl,
    fun d => waits.not_later (Nat.le_refl due)⟩

/-- **A move of the writer**: it runs on and has less to do, or it waits, or it is done and calls
the client. -/
theorem write (h : s.Awaited limit (some .writer) [] false) :
    ((s.step o).Awaited limit (some .writer) [] false
        ∧ (s.step o).pipeline.toil < s.pipeline.toil ∧ (s.step o).pipeline.isOver = false)
      ∨ ((s.step o).Awaited limit none [] false ∧ (s.step o).pipeline = s.pipeline
        ∧ ∃ d, s.pipeline.Waits s.now d)
      ∨ ((s.step o).Awaited limit none [] true ∧ (s.step o).pipeline.isOver = true) := by
  have hstep : s.step o = s.moveWriter o := step_of_running h.solo.running
  have hagenda := agenda_moveWriter o s
  have hawaited : ∀ {running called}, (s.moveWriter o).agenda.Solo running [] called →
      (s.moveWriter o).Awaited limit running [] called := fun hsolo =>
    h.of_step hstep (client_moveWriter o s) hsolo ((now_move o s .writer).symm ▸ h.now)
  rw [hstep, pipeline_moveWriter]
  split at hagenda
  all_goals
    rw [hagenda] at hawaited
  · next hturn =>
    obtain ⟨hless, hover⟩ := Pipeline.toil_move fun due hw => nomatch hturn.symm.trans hw
    exact .inl ⟨hawaited h.solo, hless, hover hturn⟩
  · next hturn =>
    have waits := Pipeline.waits_of_move hturn
    refine .inr (.inl ⟨hawaited { h.solo with running := rfl }, ?_, _, waits⟩)
    exact congrArg Prod.fst waits.move
  · next due hturn =>
    have waits := Pipeline.waits_of_move hturn
    exact .inr (.inl ⟨hawaited (h.solo.setAlarm due), congrArg Prod.fst waits.move, _, waits⟩)
  · next hturn =>
    refine .inr (.inr ⟨hawaited { h.solo with running := rfl, called := rfl }, ?_⟩)
    rw [Pipeline.isOver, Pipeline.writer_of_ended hturn]

/-- Once the writer is done, the client is called and gets its answer. -/
theorem ends_of_called (h : s.Awaited limit none [] true) (hover : s.pipeline.isOver = true) :
    Ends o s limit := by
  obtain ⟨h', hsame⟩ := h.call (o := o)
  exact .of_step h.client (h'.ends_of_isOver (hsame ▸ hover))

/-- **A writer that waits** has something to do when its time has come. -/
theorem ends_of_resting (h : s.Awaited limit none [] false) (hover : s.pipeline.isOver = false)
    (hnext : ∀ s' : System, s'.Awaited limit (some .writer) [] false →
      s'.pipeline = s.pipeline → (∀ d, ¬ s'.pipeline.Waits s'.now d) → Ends o s' limit) :
    Ends o s limit := by
  obtain ⟨h₁, hsame₁, hwaits⟩ := h.jump (o := o) hover
  obtain ⟨h₂, hsame₂, hnow⟩ := h₁.turn (o := o)
  refine .of_step h.client (.of_step h₁.client (hnext _ h₂ (hsame₂.trans hsame₁) ?_))
  rw [hsame₂, hsame₁, hnow]
  exact hwaits

/-- **A writer that is running** comes to an end: it has less and less to do. -/
theorem ends_of_writing (h : s.Awaited limit (some .writer) [] false)
    (hover : s.pipeline.isOver = false) : Ends o s limit := by
  induction htoil : s.pipeline.toil using Nat.strongRecOn generalizing s with
  | _ n ih =>
    subst htoil
    -- a writer that does not wait has less to do after its move, or is done
    have hbusy : ∀ s' : System, s'.Awaited limit (some .writer) [] false →
        s'.pipeline = s.pipeline → (∀ d, ¬ s'.pipeline.Waits s'.now d) → Ends o s' limit := by
      intro s' h' hsame hwaits
      refine .of_step h'.client ?_
      rcases h'.write (o := o) with ⟨h₁, hlt, hover₁⟩ | ⟨-, -, d, hd⟩ | ⟨h₁, hover₁⟩
      · exact ih _ (hsame ▸ hlt) h₁ hover₁ rfl
      · exact absurd hd (hwaits d)
      · exact h₁.ends_of_called hover₁
    refine .of_step h.client ?_
    rcases h.write (o := o) with ⟨h₁, hlt, hover₁⟩ | ⟨h₁, hsame, -⟩ | ⟨h₁, hover₁⟩
    · exact ih _ hlt h₁ hover₁ rfl
    · refine h₁.ends_of_resting (hsame ▸ hover) fun s' h' hsame' => ?_
      exact hbusy s' h' (hsame'.trans hsame)
    · exact h₁.ends_of_called hover₁

/-- **The client that waits for the writer** gets its answer. -/
theorem ends (h : s.Awaited limit (some .client) ready false)
    (hready : ready = [] ∨ ready = [.writer]) : Ends o s limit := by
  cases hover : s.pipeline.isOver with
  | true => exact h.ends_of_isOver hover
  | false =>
    obtain ⟨h₁, hsame₁⟩ := h.rest (o := o) hover
    rw [← hsame₁] at hover
    refine .of_step h.client ?_
    rcases hready with rfl | rfl
    · exact h₁.ends_of_resting hover fun s' h' hsame' _ => h'.ends_of_writing (hsame' ▸ hover)
    · obtain ⟨h₂, hsame₂, -⟩ := h₁.turn (o := o)
      exact .of_step h₁.client (h₂.ends_of_writing (hsame₂ ▸ hover))

end Awaited

/-! ## What a signal comes to -/

/-- A writer that was started is not started again. -/
theorem startWriter_of_ne (started : s.pipeline.writer ≠ .unstarted) : s.startWriter = s := by
  unfold startWriter
  split
  · next h => exact absurd h started
  · rfl

theorem stopping_signalWriter (s : System) : s.signalWriter.pipeline.stopping = true := by
  have h := congrArg Outbound.pipeline (outbound_signalWriter s)
  exact congrArg Pipeline.stopping h

/-- The signal wakes nobody but the writer. -/
theorem agenda_signalWriter (h : s.agenda.ready = []) :
    (s.signalWriter.agenda.ready = [] ∨ s.signalWriter.agenda.ready = [.writer])
      ∧ s.signalWriter.agenda.alarms = s.agenda.alarms ∧ s.signalWriter.agenda.now = s.now := by
  unfold signalWriter
  dsimp only
  split
  · refine ⟨.inr ?_, Agenda.alarms_wake _ _, Agenda.now_wake _ _⟩
    simp [wake, Agenda.wake, h]
  · exact ⟨.inl h, rfl, rfl⟩

/-- **A request to stop the writer**: the client waits, and the writer is woken if it waits for a
record. -/
theorem InTime.awaited (h : s.InTime) (started : s.pipeline.writer ≠ .unstarted)
    (settled : s.agenda.isSettled = true)
    (alone : ∀ x ∈ s.agenda.alarms, x.actor = .writer) :
    ∃ ready, (ready = [] ∨ ready = [.writer]) ∧
      (s.request .shutdownWriter).Awaited
        (s.now + (s.pipeline.writer.lag s.now + s.pipeline.grace)) (some .client) ready false := by
  obtain ⟨⟨hrun, hready⟩, -⟩ : (s.agenda.running = none ∧ s.agenda.ready = [])
      ∧ s.agenda.called = false := by
    simpa [Agenda.isSettled] using settled
  have hidle : s.agenda.running ≠ some .writer := by simp [hrun]
  have hclosing := h.closing started (leaves_request s .shutdownWriter)
    (stopping_signalWriter s.startWriter)
    ((leaves_request s .shutdownWriter).watch h.watch fun hw => absurd hw hidle)
  have hrequest : s.request .shutdownWriter = s.signalWriter.await .awaitingWriter := by
    rw [request, startWriter_of_ne started]
  rw [hrequest] at hclosing ⊢
  obtain ⟨hr, halarms, hnow⟩ := agenda_signalWriter hready
  refine ⟨s.signalWriter.agenda.ready, hr, hclosing, rfl, ⟨?_, rfl, rfl, rfl⟩, ?_⟩
  · show ∀ x ∈ s.signalWriter.agenda.alarms, x.actor = .writer
    rw [halarms]
    exact alone
  · show s.signalWriter.agenda.now ≤ _
    rw [hnow]
    exact Nat.le_add_right _ _

/-- **The writer stops within so much time** after the signal. -/
structure StopsWithin (o : Outside) (s : System) (wait : Nat) : Prop where
  /-- It is done when that time is over, whatever happens meanwhile. -/
  ended : ∀ s', Relation.ReflTransGen (Punctual o) s.signalWriter s' →
    s'.pipeline.isOver = true ∨ s'.now ≤ s.now + wait
  /-- Until then, it has an alarm that is due by then whenever everyone waits. -/
  alarm : ∀ s', Relation.ReflTransGen (Punctual o) s.signalWriter s' →
    s'.agenda.isSettled = true → s'.pipeline.isOver = false →
    ∃ due, ⟨due, .writer, 0⟩ ∈ s'.agenda.alarms ∧ s'.now < due ∧ due ≤ s.now + wait
  /-- A client that asks for it when all others are at rest has its answer by then. -/
  served : s.isAnswered = true → s.agenda.isSettled = true →
    (∀ x ∈ s.agenda.alarms, x.actor = .writer) →
    ∃ enough, ∀ fuel, enough ≤ fuel →
      (run o fuel (s.request .shutdownWriter)).isAnswered = true
        ∧ (run o fuel (s.request .shutdownWriter)).pipeline.isOver = true
        ∧ (s.serve o fuel .shutdownWriter).1 ≤ wait

theorem InTime.course (finite : ∀ n r, ∃ d, (o.append n r).delay = some d) (h : s.InTime)
    (hc : Relation.ReflTransGen (Punctual o) s s') : s'.InTime := by
  induction hc with
  | refl => exact h
  | tail _ hp ih => exact ih.punctual finite hp

/-- **The writer is not done** before the append under way has ended. -/
theorem InTime.isOver_eq_false (h : s.InTime) (started : s.pipeline.writer ≠ .unstarted)
    (hc : Relation.ReflTransGen (Punctual o) s.signalWriter s')
    (hlt : s'.now < s.now + s.pipeline.writer.lag s.now) : s'.pipeline.isOver = false := by
  have hleaves := leaves_signalWriter s
  have hmono : s.now ≤ s'.now := by
    have hle := now_le_of_punctual hc
    rwa [show s.signalWriter.now = s.now from hleaves.spares.now] at hle
  cases hw : s.pipeline.writer with
  | appending a =>
    obtain ⟨due, hdue⟩ := h.ends a hw
    have hbusy : s.signalWriter.pipeline.writer = .appending a :=
      (hleaves.writer.resolve_right fun hu => started hu.1).trans hw
    simp only [hw, Audit.Writer.lag, hdue, Option.elim] at hlt
    have hlater : s'.pipeline.writer = .appending a :=
      (appending_of_course hdue hc hbusy).resolve_right (by omega)
    rw [Pipeline.isOver, hlater]
  | _ =>
    rw [hw] at hlt
    exact absurd hmono (Nat.not_le.2 hlt)

/-- **A writer that is told to stop** is done by its grace after the end of the append under way,
and not before that append has ended. -/
theorem stopsWithin (finite : ∀ n r, ∃ d, (o.append n r).delay = some d) {settings : Settings}
    {capacity auditCapacity grace : Nat} {resolver : Directory.Resolver}
    (h : Relation.ReflTransGen (Punctual o)
      (new settings capacity auditCapacity true grace resolver) s)
    (started : s.pipeline.writer ≠ .unstarted) :
    s.StopsWithin o (s.pipeline.writer.lag s.now + grace)
      ∧ ∀ s', Relation.ReflTransGen (Punctual o) s.signalWriter s' →
        s'.now < s.now + s.pipeline.writer.lag s.now → s'.pipeline.isOver = false := by
  have hin : s.InTime := (inTime_new ..).course finite h
  have hgrace : s.pipeline.grace = grace :=
    ((course_of_happenings
      (Relation.ReflTransGen.mono (fun _ _ => Punctual.happening) _ _ h)).conserved
        (Pipeline.conserved_new ..)).2.2
  have hleaves := leaves_signalWriter s
  have hclosing : ∀ s', Relation.ReflTransGen (Punctual o) s.signalWriter s' →
      s'.Closing (s.now + (s.pipeline.writer.lag s.now + s.pipeline.grace)) := fun s' hc =>
    (hin.closing started hleaves (stopping_signalWriter s)
      (hleaves.watch hin.watch (aside_signalWriter s).stirs.running.trans)).course hc
  rw [hgrace] at hclosing
  refine ⟨⟨fun s' hc => ?_, fun s' hc settled hover => ?_, fun _ settled alone => ?_⟩,
    fun s' hc hlt => ?_⟩
  · cases hover : s'.pipeline.isOver with
    | true => exact .inl rfl
    | false => exact .inr (Pipeline.now_le_of_endsBy (hclosing s' hc).endsBy hover)
  · obtain ⟨d, waits, set⟩ := (hclosing s' hc).watch.waits_of_isSettled settled
    obtain ⟨due, hd, hlt, hle⟩ := Pipeline.exists_alarm_of_endsBy (hclosing s' hc).stopping
      (hclosing s' hc).endsBy hover waits
    exact ⟨due, Agenda.mem_alarms_of_alarmsOf set hd, hlt, hle⟩
  · obtain ⟨ready, hready, hawaited⟩ := hin.awaited started settled alone
    obtain ⟨enough, hanswered, hover, hle⟩ := hawaited.ends (o := o) hready
    refine ⟨enough, fun fuel hfuel => ?_⟩
    have hrun := run_of_isAnswered hanswered hfuel
    rw [serve, hrun]
    refine ⟨hanswered, hover, ?_⟩
    rw [hgrace] at hle
    dsimp only
    omega
  · exact hin.isOver_eq_false started hc hlt

/-! ## A log that is slow -/

/-- A log that takes ten seconds for each record. -/
def slowLog : Outside where
  lookup := fun _ key => { answer := .error (.unknownPerson key.text) }
  call := fun _ _ => { answer := .ok () }
  append := fun _ _ => { delay := some 10000, answer := .ok () }
  fetch := fun _ _ => { answer := .error (.fetch "no source") }

/-- A service whose writer may take a second to stop, and has been at a record for a
millisecond. -/
def caughtWriting : System :=
  let started := ((new {} 8 2 true 1000 {}).serve slowLog 20 .startWriter).2
  let offered := (started.serve slowLog 20 (.record default 1)).2
  (offered.serve slowLog 20 (.sleep 1)).2

theorem punctual_caughtWriting :
    Relation.ReflTransGen (Punctual slowLog) (new {} 8 2 true 1000 {}) caughtWriting :=
  .trans (punctual_serve _ _ 20 .startWriter (by decide +kernel) (by decide +kernel))
    (.trans (punctual_serve _ _ 20 (.record default 1) (by decide +kernel) (by decide +kernel))
      (punctual_serve _ _ 20 (.sleep 1) (by decide +kernel) (by decide +kernel)))

theorem lag_caughtWriting : caughtWriting.pipeline.writer.lag caughtWriting.now = 9999 := by
  decide +kernel

theorem started_caughtWriting : caughtWriting.pipeline.writer ≠ .unstarted := by
  intro h
  have hlag := lag_caughtWriting
  rw [h] at hlag
  cases hlag

/-- The writer stops when the record is written and the grace is over, at the latest. -/
theorem caughtWriting_stopsWithin :
    (∀ n r, ∃ d, (slowLog.append n r).delay = some d)
      ∧ caughtWriting.pipeline.writer ≠ .unstarted
      ∧ caughtWriting.StopsWithin slowLog (9999 + 1000) := by
  have finite : ∀ n r, ∃ d, (slowLog.append n r).delay = some d := fun _ _ => ⟨10000, rfl⟩
  refine ⟨finite, started_caughtWriting, ?_⟩
  rw [← lag_caughtWriting]
  exact (stopsWithin finite punctual_caughtWriting started_caughtWriting).1

/-- **The grace is not enough** for a writer that is caught at a record: with a grace of one
second it takes almost ten. -/
theorem not_stopsWithin_grace :
    (∀ n r, ∃ d, (slowLog.append n r).delay = some d)
      ∧ Relation.ReflTransGen (Punctual slowLog) (new {} 8 2 true 1000 {}) caughtWriting
      ∧ (caughtWriting.serve slowLog 20 .shutdownWriter).1 = 9999
      ∧ ¬ caughtWriting.StopsWithin slowLog 1000 := by
  refine ⟨fun _ _ => ⟨10000, rfl⟩, punctual_caughtWriting, by decide +kernel, fun h => ?_⟩
  -- time jumps to the end of the append, and the writer has not even begun its flush
  have hover : (caughtWriting.signalWriter.step slowLog).pipeline.isOver = false := by
    decide +kernel
  have hnow : (caughtWriting.signalWriter.step slowLog).now = 10000 := by decide +kernel
  rcases h.ended _ (punctual_step slowLog _) with hdone | hle
  · cases hover.symm.trans hdone
  · rw [hnow] at hle
    exact absurd hle (by decide +kernel)

end System

end Rota.Relay
