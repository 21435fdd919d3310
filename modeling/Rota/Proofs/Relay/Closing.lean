import Rota.Proofs.Relay.Waking

/-!
# The writer closes in time

A writer that is told to stop flushes what is left, and this takes no longer than its grace. But
it hears of the signal only when it takes up the next record: an append that was begun before
goes on until it ends, and only then does the flush begin.

`Writer.EndsBy` says by when the writer is done, at each moment after the signal. It is kept
because the alarm of the writer is never later, and time does not pass it (`Closing.punctual`).
Before the signal, what has to be kept is `InTime`; it makes the limit the grace after the end
of the append under way (`InTime.closing`). Until then that append goes on
(`appending_of_punctual`).
-/

namespace Rota.Audit

open Rota.Relay (Reply)

/-- **How long the append under way takes yet**, if the flush has not begun. -/
def Writer.lag (now : Nat) : Writer → Nat
  | appending a => a.due.elim 0 (· - now)
  | _ => 0

/-- **By when a writer is done** that is told to stop. -/
inductive Writer.EndsBy (now grace limit : Nat) : Writer → Prop
  | idle (le : now + grace ≤ limit) : EndsBy now grace limit .idle
  | appending {a : Append} {due : Nat} (ends : a.due = some due)
      (le : max now due + grace ≤ limit) : EndsBy now grace limit (.appending a)
  | flushing {deadline : Nat} (left : now ≤ deadline) (le : deadline ≤ limit) :
      EndsBy now grace limit (.flushing deadline)
  | appendingLast {a : Append} {deadline : Nat} (left : now ≤ deadline) (le : deadline ≤ limit) :
      EndsBy now grace limit (.appendingLast a deadline)
  | gone : EndsBy now grace limit .gone

namespace Pipeline

variable {p : Pipeline} {now grace limit t : Nat} {d : Option Nat}
  {reply : Record → Reply (Except Failure Unit)}

theorem stopping_move : (p.move now reply).1.stopping = p.stopping := by
  have hm := p.moved now reply
  generalize p.move now reply = m at hm ⊢
  cases hm with
  | conclude _ | concludeLast _ => rw [conclude_eq]
  | _ => rfl

theorem grace_move : (p.move now reply).1.grace = p.grace :=
  (p.next_move now reply).fixed.2.2

/-- A flush has so much time from when it begins. -/
theorem deadline?_move {deadline : Nat}
    (h : (p.move now reply).1.writer.deadline? = some deadline) :
    p.writer.deadline? = some deadline ∨ deadline = now + p.grace := by
  have hm := p.moved now reply
  generalize p.move now reply = m at h hm
  cases hm with
  | wait _ => exact .inl h
  | flush _ => exact .inr (Option.some.inj h).symm
  | take _ _ _ | conclude _ | finish _ | cutOff _ => cases h
  | takeLast doing _ | concludeLast doing =>
    rw [doing]
    exact .inl h

/-- An append begins with the reply of the log. -/
theorem appending_move {a : Append} (h : (p.move now reply).1.writer = .appending a) :
    p.writer = .appending a ∨ ∃ r, a = begin now r (reply r) := by
  have hm := p.moved now reply
  generalize p.move now reply = m at h hm
  cases hm with
  | wait _ => exact .inl h
  | @take r _ _ _ _ =>
    cases h
    exact .inr ⟨r, rfl⟩
  | _ => cases h

/-- In its flush the writer waits until the deadline at most. -/
theorem alarm_le_deadline (a : Append) (deadline : Nat) :
    a.due.elim deadline (min · deadline) ≤ deadline := by
  cases a.due with
  | none => exact Nat.le_refl _
  | some due => exact Nat.min_le_right _ _

theorem Waits.le_deadline {deadline : Nat} (h : p.Waits now d)
    (hd : p.writer.deadline? = some deadline) : ∃ due, d = some due ∧ due ≤ deadline := by
  cases h with
  | unstarted doing | idle doing _ _ _ | appending doing _ | gone doing =>
    rw [doing] at hd
    cases hd
  | appendingLast doing _ _ =>
    rw [doing] at hd
    cases hd
    exact ⟨_, rfl, alarm_le_deadline _ _⟩

/-- **A move of the writer** puts nothing off. -/
theorem endsBy_move (stopping : p.stopping = true) (h : p.writer.EndsBy now p.grace limit) :
    (p.move now reply).1.writer.EndsBy now p.grace limit := by
  have hm := p.moved now reply
  generalize p.move now reply = m at hm ⊢
  cases hm with
  | wait _ => exact h
  | finish _ | cutOff _ => exact .gone
  | take _ running _ => cases stopping.symm.trans running
  | flush doing =>
    rw [doing] at h
    cases h with
    | idle le => exact .flushing (Nat.le_add_right _ _) le
  | conclude doing =>
    rw [doing] at h
    cases h with
    | appending _ le =>
      exact .idle (Nat.le_trans (Nat.add_le_add_right (Nat.le_max_left _ _) _) le)
  | takeLast doing _ =>
    rw [doing] at h
    cases h with
    | flushing left le => exact .appendingLast left le
  | concludeLast doing =>
    rw [doing] at h
    cases h with
    | appendingLast left le => exact .flushing left le

/-- **Time passes** while the writer waits, until its alarm at most, and puts nothing off. -/
theorem endsBy_pass (stopping : p.stopping = true) (h : p.writer.EndsBy now grace limit)
    (waits : p.Waits now d) (ht : ∀ due, d = some due → t ≤ due) :
    p.writer.EndsBy (max now t) grace limit := by
  cases waits with
  | unstarted doing =>
    rw [doing] at h
    cases h
  | idle _ running _ _ => cases stopping.symm.trans running
  | @appending a doing early =>
    rw [doing] at h ⊢
    cases h with
    | @appending _ due ends le =>
      refine .appending ends ?_
      rwa [Nat.max_assoc, Nat.max_eq_right (ht due ends)]
  | @appendingLast a deadline doing early left =>
    rw [doing] at h ⊢
    cases h with
    | appendingLast _ le =>
      have hle : t ≤ deadline := Nat.le_trans (ht _ rfl) (alarm_le_deadline a deadline)
      exact .appendingLast (Nat.max_le.2 ⟨Nat.le_of_lt left, hle⟩) le
  | gone doing =>
    rw [doing]
    exact .gone

/-- A writer that is not done has time left. -/
theorem now_le_of_endsBy (h : p.writer.EndsBy now grace limit) (hover : p.isOver = false) :
    now ≤ limit := by
  unfold isOver at hover
  generalize p.writer = w at h hover
  cases h with
  | idle le => exact Nat.le_trans (Nat.le_add_right _ _) le
  | appending _ le =>
    exact Nat.le_trans (Nat.le_max_left _ _) (Nat.le_trans (Nat.le_add_right _ _) le)
  | flushing left le | appendingLast left le => exact Nat.le_trans left le
  | gone => cases hover

/-- If it waits, it waits for a time that is not beyond the limit. -/
theorem exists_alarm_of_endsBy (stopping : p.stopping = true)
    (h : p.writer.EndsBy now grace limit) (hover : p.isOver = false) (waits : p.Waits now d) :
    ∃ due, d = some due ∧ now < due ∧ due ≤ limit := by
  have hsome : ∃ due, d = some due ∧ due ≤ limit := by
    cases waits with
    | unstarted doing =>
      rw [doing] at h
      cases h
    | idle _ running _ _ => cases stopping.symm.trans running
    | appending doing _ =>
      rw [doing] at h
      cases h with
      | @appending _ due ends le =>
        exact ⟨due, ends, Nat.le_trans (Nat.le_max_right _ _)
          (Nat.le_trans (Nat.le_add_right _ _) le)⟩
    | @appendingLast a deadline doing _ _ =>
      rw [doing] at h
      cases h with
      | appendingLast _ le => exact ⟨_, rfl, Nat.le_trans (alarm_le_deadline a deadline) le⟩
    | gone doing =>
      rw [isOver, doing] at hover
      cases hover
  obtain ⟨due, rfl, hle⟩ := hsome
  exact ⟨due, rfl, waits.lt, hle⟩

end Pipeline

end Rota.Audit

namespace Rota.Relay.System

open Rota.Audit (Append Pipeline Record)
open Agenda (Watch)

variable {o : Outside} {s s' : System} {limit : Nat}

theorem now_pass (s : System) (t : Nat) :
    ({ s with agenda := s.agenda.pass t } : System).now = max s.now t :=
  s.agenda.now_pass t

/-! ## Before the signal -/

/-- **The writer is in time**: a flush that has begun keeps to its deadline, and the append
under way ends. -/
structure InTime (s : System) : Prop where
  watch : Watch s.pipeline s.agenda
  flushing : ∀ deadline, s.pipeline.writer.deadline? = some deadline →
    s.now ≤ deadline ∧ deadline ≤ s.now + s.pipeline.grace
  ends : ∀ a, s.pipeline.writer = .appending a → ∃ due, a.due = some due

theorem inTime_new (settings : Settings) (capacity auditCapacity : Nat) (audited : Bool)
    (grace : Nat) (resolver : Directory.Resolver) :
    (new settings capacity auditCapacity audited grace resolver).InTime where
  watch := watch_new ..
  flushing := fun _ h => by cases audited <;> cases h
  ends := fun _ h => by cases audited <;> cases h

/-- The writer stays in time if it is left to itself. -/
theorem Leaves.inTime (hl : s.Leaves s') (h : s.InTime) (watch : Watch s'.pipeline s'.agenda) :
    s'.InTime := by
  have hnow : s'.now = s.now := hl.spares.now
  refine ⟨watch, fun deadline hd => ?_, fun a ha => ?_⟩
  · rw [hnow, hl.grace]
    rcases hl.writer with hw | ⟨-, hw | hw⟩
    · exact h.flushing deadline (hw ▸ hd)
    · rw [hw] at hd
      cases hd
    · rw [hw] at hd
      cases hd
  · rcases hl.writer with hw | ⟨-, hw | hw⟩
    · exact h.ends a (hw.symm.trans ha)
    · cases hw.symm.trans ha
    · cases hw.symm.trans ha

theorem InTime.punctual (finite : ∀ n r, ∃ d, (o.append n r).delay = some d) (h : s.InTime)
    (hp : Punctual o s s') : s'.InTime := by
  cases hp with
  | pass t settled due =>
    obtain ⟨d, waits, set⟩ := h.watch.waits_of_isSettled settled
    refine ⟨watch_pass t h.watch, fun deadline hd => ?_, h.ends⟩
    obtain ⟨x, rfl, hx⟩ := waits.le_deadline hd
    have ht : t ≤ x := due _ (Agenda.mem_alarms_of_alarmsOf set rfl)
    obtain ⟨hle, hge⟩ := h.flushing deadline hd
    rw [now_pass]
    exact ⟨Nat.max_le.2 ⟨hle, Nat.le_trans ht hx⟩,
      Nat.le_trans hge (Nat.add_le_add_right (Nat.le_max_left _ _) _)⟩
  | happen hh now =>
    have watch := hh.watch h.watch
    rcases hh.leaves_or_moves with hl | rfl | hsame
    · exact hl.inTime h watch
    · refine ⟨watch, ?_, ?_⟩
      · rw [pipeline_moveWriter, Pipeline.grace_move, now]
        intro deadline hd
        rcases Pipeline.deadline?_move hd with hd | rfl
        · exact h.flushing deadline hd
        · exact ⟨Nat.le_add_right _ _, Nat.le_refl _⟩
      · rw [pipeline_moveWriter]
        intro a ha
        rcases Pipeline.appending_move ha with ha | ⟨r, rfl⟩
        · exact h.ends a ha
        · obtain ⟨d, hd⟩ := finite s.appends r
          exact ⟨s.now + d, congrArg (Option.map _) hd⟩
    · refine ⟨watch, ?_, ?_⟩
      · rw [hsame, now]
        exact h.flushing
      · rw [hsame]
        exact h.ends

/-! ## After the signal -/

/-- **The writer is closing**, and done by the limit. -/
structure Closing (s : System) (limit : Nat) : Prop where
  stopping : s.pipeline.stopping = true
  endsBy : s.pipeline.writer.EndsBy s.now s.pipeline.grace limit
  watch : Watch s.pipeline s.agenda

/-- **Once the writer is told to stop**, it is done by its grace after the end of the append
under way. -/
theorem InTime.closing (h : s.InTime) (started : s.pipeline.writer ≠ .unstarted)
    (hl : s.Leaves s') (stopping : s'.pipeline.stopping = true)
    (watch : Watch s'.pipeline s'.agenda) :
    s'.Closing (s.now + (s.pipeline.writer.lag s.now + s.pipeline.grace)) := by
  refine ⟨stopping, ?_, watch⟩
  have hnow : s'.now = s.now := hl.spares.now
  rw [hnow, hl.grace, hl.writer.resolve_right fun hu => started hu.1]
  have hflushing := h.flushing
  have hends := h.ends
  cases hw : s.pipeline.writer with
  | unstarted => exact absurd hw started
  | idle => exact .idle (Nat.add_le_add_left (Nat.le_add_left _ _) _)
  | appending a =>
    obtain ⟨due, hdue⟩ := hends a hw
    refine .appending hdue ?_
    simp only [Audit.Writer.lag, hdue, Option.elim]
    omega
  | flushing deadline =>
    rw [hw] at hflushing
    obtain ⟨left, le⟩ := hflushing deadline rfl
    exact .flushing left (Nat.le_trans le (Nat.add_le_add_left (Nat.le_add_left _ _) _))
  | appendingLast a deadline =>
    rw [hw] at hflushing
    obtain ⟨left, le⟩ := hflushing deadline rfl
    exact .appendingLast left (Nat.le_trans le (Nat.add_le_add_left (Nat.le_add_left _ _) _))
  | gone => exact .gone

theorem Closing.punctual (h : s.Closing limit) (hp : Punctual o s s') : s'.Closing limit := by
  cases hp with
  | pass t settled due =>
    obtain ⟨d, waits, set⟩ := h.watch.waits_of_isSettled settled
    have hpass := Pipeline.endsBy_pass h.stopping h.endsBy waits
      fun x hx => due _ (Agenda.mem_alarms_of_alarmsOf set hx)
    refine ⟨h.stopping, ?_, watch_pass t h.watch⟩
    rw [now_pass]
    exact hpass
  | happen hh now =>
    have watch := hh.watch h.watch
    rcases hh.leaves_or_moves with hl | rfl | hsame
    · refine ⟨hl.stopping h.stopping, ?_, watch⟩
      rw [now, hl.grace]
      rcases hl.writer with hw | ⟨hu, -⟩
      · rw [hw]
        exact h.endsBy
      · have hends := h.endsBy
        rw [hu] at hends
        cases hends
    · refine ⟨?_, ?_, watch⟩
      · rw [pipeline_moveWriter, Pipeline.stopping_move]
        exact h.stopping
      · rw [now, pipeline_moveWriter, Pipeline.grace_move]
        exact Pipeline.endsBy_move h.stopping h.endsBy
    · refine ⟨?_, ?_, watch⟩
      · rw [hsame]
        exact h.stopping
      · rw [now, hsame]
        exact h.endsBy

theorem Punctual.now_le (hp : Punctual o s s') : s.now ≤ s'.now := by
  cases hp with
  | happen _ now => exact Nat.le_of_eq now.symm
  | pass t _ _ =>
    rw [now_pass]
    exact Nat.le_max_left _ _

/-- **An append under way** goes on until it ends. -/
theorem appending_of_punctual {a : Append} {due : Nat} (hdue : a.due = some due)
    (hp : Punctual o s s') (h : s.pipeline.writer = .appending a ∨ due ≤ s.now) :
    s'.pipeline.writer = .appending a ∨ due ≤ s'.now := by
  by_cases hlate : due ≤ s.now
  · exact .inr (Nat.le_trans hlate hp.now_le)
  · have hw := h.resolve_right hlate
    have waits : s.pipeline.Waits s.now a.due := .appending hw
      (Audit.Append.isDue_eq_false_iff.2 fun x hx =>
        Option.some.inj (hdue.symm.trans hx) ▸ Nat.not_le.1 hlate)
    refine .inl ?_
    cases hp with
    | pass t _ _ => exact hw
    | happen hh _ =>
      rcases hh.leaves_or_moves with hl | rfl | hsame
      · exact (hl.writer.resolve_right fun hu => nomatch hu.1.symm.trans hw).trans hw
      · rw [pipeline_moveWriter, waits.move]
        exact hw
      · rw [hsame]
        exact hw

end Rota.Relay.System
