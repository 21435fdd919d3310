import Rota.Proofs.Poller.Faithful
import Rota.Proofs.Poller.Looping

/-!
# Time goes on

At each moment everyone comes to rest (`exists_settled`), as every step leaves less to do. When
everyone waits, time jumps to the next alarm. Every alarm lies ahead (`Agenda.Ahead`): it is set
for a time to come, and gone when that time has come. So the service gets on in time.

What always has an alarm by some limit until it happens, does happen (`exists_of_alarm`). That
it has happened by then is a matter of the alarms, too: time does not pass an alarm that is set.
-/

namespace Rota.Relay

namespace Agenda

/-- **Every alarm lies ahead.** -/
def Ahead (a : Agenda) : Prop :=
  ∀ x ∈ a.alarms, a.now < x.due

variable {a b : Agenda}

/-- If nothing happens to the alarms of anybody, they lie ahead as before. -/
theorem Ahead.spared (h : a.Ahead) (hs : ∀ me, a.Spares me b) : b.Ahead := by
  intro x hx
  have hmem : x ∈ b.alarmsOf x.actor := List.mem_filter.2 ⟨hx, by simp⟩
  rw [(hs x.actor).alarms] at hmem
  rw [(hs x.actor).now]
  exact h x (List.mem_of_mem_filter hmem)

theorem Ahead.setAlarm (h : a.Ahead) {due : Nat} (hdue : a.now < due) (actor : Actor)
    (slot : Nat) : (a.setAlarm due actor slot).Ahead := by
  unfold Agenda.setAlarm
  split
  · exact h
  · intro x hx
    rcases List.mem_append.1 hx with hx | hx
    · exact h x hx
    · rw [List.mem_singleton.1 hx]
      exact hdue

theorem Ahead.cancel (h : a.Ahead) (actor : Actor) (slot : Nat) : (a.cancel actor slot).Ahead :=
  fun x hx => h x (List.mem_of_mem_filter hx)

theorem Ahead.pass (h : a.Ahead) (t : Nat) : (a.pass t).Ahead := by
  intro x hx
  rw [alarms_pass] at hx
  rw [now_pass]
  obtain ⟨hx, ht⟩ := List.mem_filter.1 hx
  exact Nat.max_lt.2 ⟨h x hx, of_decide_eq_true ht⟩

end Agenda

namespace System

open Agenda (Ahead)

variable {o : Outside} {s s' : System}

/-! ## Everyone comes to rest -/

/-- **The service is in order**: its accounts are sound, and the cycles of its polling loop, if it
has one, are some time apart. -/
structure InOrder (s : System) : Prop where
  sound : s.ledger.Sound
  apart : s.loop ≠ .absent → 0 < s.settings.interval

theorem InOrder.nodup (h : s.InOrder) : (s.flights.map Flight.number).Nodup := by
  have hn := h.sound.conserved.nodup
  rwa [flights_ledger, List.map_map] at hn

/-- No loop starts by itself. -/
theorem loop_step_of_absent (h : s.loop = .absent) : (s.step o).loop = .absent := by
  unfold step
  split
  · next a _ =>
    by_cases hpoller : a = .poller
    · subst hpoller
      rw [move, moveLoop, h]
      exact h
    · exact (loop_move hpoller).1.trans h
  · exact h

theorem InOrder.step (h : s.InOrder) : (s.step o).InOrder where
  sound := (Course.sound (course_step o s) h.sound).1
  apart := by
    have hsettings : (s.step o).settings = s.settings := by
      unfold System.step
      split
      · exact (enters_move _).settings
      · rfl
    intro hloop
    rw [hsettings]
    exact h.apart fun habsent => hloop (loop_step_of_absent habsent)

/-- **Everyone comes to rest**, whatever is under way, and no time passes meanwhile. -/
theorem exists_settled (h : s.InOrder) : ∃ n, (settle o n s).agenda.isSettled = true
    ∧ (settle o n s).now = s.now := by
  induction hl : s.load using Load.wellFounded_less.induction generalizing s with
  | _ l ih =>
    subst hl
    cases hs : s.agenda.isSettled with
    | true => exact ⟨0, hs, rfl⟩
    | false =>
      obtain ⟨hless, hsame⟩ := less_step (o := o) h.apart h.nodup hs
      obtain ⟨n, hsettled, hnow⟩ := ih _ hless h.step rfl
      refine ⟨n + 1, ?_, ?_⟩ <;> rw [settle, hs]
      · exact hsettled
      · exact hnow.trans hsame

/-! ## Every alarm lies ahead -/

section Moves

variable (h : s.agenda.Ahead)

include h

theorem ahead_restUntil {due : Nat} (early : s.now < due) (actor : Actor) (slot : Nat) :
    (s.restUntil due actor slot).agenda.Ahead :=
  h.setAlarm early actor slot

theorem ahead_offer (x : Sender) (e : Event) (limit : Nat) :
    (s.offer x e limit).2.agenda.Ahead := by
  unfold offer
  split
  · exact h.spared fun me => spares_enqueue s e x
  · next hwait =>
    have hlimit : limit ≠ 0 := fun hzero => hwait (.inr (.inr hzero))
    exact h.setAlarm (Nat.lt_add_of_pos_right (Nat.pos_of_ne_zero hlimit)) _ _

theorem ahead_offerAgain (x : Sender) (e : Event) (deadline : Nat) :
    (s.offerAgain x e deadline).2.agenda.Ahead := by
  have hcancel : (s.agenda.cancel x.actor x.slot).Ahead := h.cancel _ _
  unfold offerAgain
  split
  · exact hcancel
  · split
    · exact hcancel.spared fun me => spares_accepted
        { s with queue := s.queue.use x e, agenda := s.agenda.cancel x.actor x.slot } x e
    · split
      · exact hcancel
      · exact h

theorem ahead_moveFlight (number : Nat) : (s.moveFlight o number).agenda.Ahead := by
  have hmove := flightStep (o := o) (s := s) number
  generalize s.moveFlight o number = t at hmove ⊢
  cases hmove with
  | rest _ | ask _ _ _ => exact h
  | @begin f next _ _ _ => exact h.spared fun me => spares_pursue o s f next
  | @hear f _ _ _ _ _ resolver _ _ _ _ =>
    exact h.spared fun me => spares_pursue o { s with resolver } f _
  | @land f _ _ _ _ _ _ => exact h.spared fun me => spares_land s f _
  | wait _ _ early => exact ahead_restUntil h early _ _

theorem ahead_moveWriter : (s.moveWriter o).agenda.Ahead := by
  have hlt : ∀ due, (s.pipeline.move s.now (o.append s.appends)).2.1 = .waiting (some due) →
      s.now < due := fun due hturn => (Audit.Pipeline.waits_of_move hturn).lt
  rw [agenda_moveWriter]
  split
  · exact h
  · exact h
  · next due hturn => exact h.setAlarm (hlt due hturn) _ _
  · exact h.spared fun me => .trans (.wake _ _) (.rest _)

theorem VisitMove.ahead {x : Sender} {schedule : Config.Schedule} {p p' : Poller.Phase}
    (hm : VisitMove o s x schedule p p' s') : s'.agenda.Ahead := by
  cases hm with
  | ask =>
    unfold beginFetch
    dsimp only
    split
    · exact h
    · next hwait => exact h.setAlarm (Nat.lt_add_of_pos_right (Nat.pos_of_ne_zero hwait)) _ _
  | hear due answer isDue =>
    have hcancel : (s.agenda.cancel x.actor x.slot).Ahead := h.cancel _ _
    exact hcancel.spared fun me =>
      spares_receive { s with agenda := s.agenda.cancel x.actor x.slot } schedule answer
  | succeed roster t | skip roster t member change left mute => exact h
  | offer roster t member change left event result s' made ended =>
    have hoffer := ahead_offer (s := s.countTelling change) h x event s.settings.fetchTimeout
    rw [ended] at hoffer
    exact hoffer.spared fun me => spares_told s' result
  | wait roster t member change left event s' made waits =>
    have hoffer := ahead_offer (s := s.countTelling change) h x event s.settings.fetchTimeout
    rw [waits] at hoffer
    exact hoffer
  | offered event deadline roster t left result s' ended =>
    have hoffer := ahead_offerAgain h x event deadline
    rw [ended] at hoffer
    exact hoffer.spared fun me => spares_told s' result

theorem CycleMove.ahead {owner : Actor} {c : Poller.Cycle}
    {moved : Audit.Turn × Poller.Cycle × System} (hm : CycleMove o s owner c moved) :
    moved.2.2.agenda.Ahead := by
  cases hm with
  | visit turn moves => exact VisitMove.ahead h (visitMove_of_moveVisit moves)
  | skip _ _ | finish _ _ | wrap _ _ => exact h

theorem ahead_moveLoop : (s.moveLoop o).agenda.Ahead := by
  have hmove := loopMove (o := o) (s := s)
  have hcancel : (s.agenda.cancel .poller).Ahead := h.cancel _ _
  generalize s.moveLoop o = t at hmove ⊢
  cases hmove with
  | rest _ | finish _ _ | wrap _ _ _ => exact h
  | halt _ _ => exact hcancel.spared fun me => .trans (.wake _ .client) (.rest _)
  | begin _ _ _ => exact hcancel
  | wait _ _ early => exact ahead_restUntil h early _ _
  | goOn _ moves => exact CycleMove.ahead h moves

theorem ahead_moveClient : (s.moveClient o).agenda.Ahead := by
  have hmove := clientMove (o := o) (s := s)
  generalize s.moveClient o = t at hmove ⊢
  cases hmove with
  | idle _ | wrap _ _ _ | awaitLoop _ _ | awaitWorker _ _ | awaitWriter _ _ => exact h
  | sleep _ early => exact ahead_restUntil h early _ _
  | rise _ _ | finish _ _ | halted _ _ | written _ _ => exact h.cancel _ _
  | @hold event deadline t _ waits =>
    have hoffer := ahead_offerAgain h { actor := .client } event deadline
    rw [waits] at hoffer
    exact hoffer
  | @offered event deadline result t _ ended =>
    have hoffer := ahead_offerAgain h { actor := .client } event deadline
    rw [ended] at hoffer
    exact hoffer.cancel _ _
  | goOn _ moves => exact CycleMove.ahead h moves
  | parted _ _ =>
    refine h.spared fun me => ?_
    have hs : s.Spares me
        ({ s with client := .awaitingWriter } : System).startWriter.signalWriter :=
      (spares_signalWriter _).after ((spares_startWriter _).after (.refl _))
    exact hs

theorem ahead_moveProducer (number : Nat) : (s.moveProducer number).agenda.Ahead := by
  have hmove := producerMove (s := s) number
  generalize s.moveProducer number = t at hmove ⊢
  cases hmove with
  | rest _ => exact h
  | @hold p t _ waits =>
    have hoffer := ahead_offerAgain h { actor := .producer number } p.event p.deadline
    rw [waits] at hoffer
    exact hoffer
  | @offered p result t _ ended =>
    have hoffer := ahead_offerAgain h { actor := .producer number } p.event p.deadline
    rw [ended] at hoffer
    exact hoffer

theorem ahead_move (a : Actor) : (s.move o a).agenda.Ahead := by
  cases a with
  | client => exact ahead_moveClient h
  | poller => exact ahead_moveLoop h
  | worker => exact h.spared fun me => spares_moveWorker s
  | writer => exact ahead_moveWriter h
  | delivery n => exact ahead_moveFlight h n
  | producer n => exact ahead_moveProducer h n

theorem ahead_offerAside (e : Event) (limit : Nat) :
    (s.offerAside e limit).agenda.Ahead := by
  have hoffer := ahead_offer (s := { s with hired := s.hired + 1 }) h
    { actor := .producer s.hired } e limit
  unfold offerAside
  split
  · next hs =>
    rw [hs] at hoffer
    exact hoffer
  · next hs =>
    rw [hs] at hoffer
    exact hoffer

theorem ahead_request (r : Request) : (s.request r).agenda.Ahead := by
  have hawait : ∀ {t : System} (c : Client), (∀ me, s.Spares me t) →
      (t.await c).agenda.Ahead := by
    intro t c hs
    have ht : t.agenda.Ahead := h.spared hs
    exact ht
  cases r with
  | sleep ms | poll schedules => exact h
  | enqueue event => exact h.spared fun me => spares_enqueue s event _
  | enqueueWithin event limit =>
    have hoffer := ahead_offer h { actor := .client } event limit
    rw [request]
    split <;> next hs => rw [hs] at hoffer; exact hoffer
  | offerAside event limit => exact ahead_offerAside h event limit
  | record r times => exact h.spared fun me => spares_recordTimes s r times
  | start => exact h.spared fun me => (spares_startWriter _).after (spares_startWorker s)
  | startWriter => exact h.spared fun me => spares_startWriter s
  | dropWriter => exact h.spared fun me => spares_dropWriter s
  | signal => exact h.spared fun me => spares_signalWorker s
  | leave => exact h.spared fun me => spares_endEvents s
  | shutdown =>
    exact hawait _ fun me =>
      (spares_signalWorker _).after ((spares_startWriter _).after (spares_startWorker s))
  | shutdownWriter =>
    exact hawait _ fun me => (spares_signalWriter _).after (spares_startWriter s)
  | finish => exact hawait _ fun me => (spares_endEvents _).after (spares_startWorker s)
  | finishRecords => exact hawait _ fun me => (spares_endRecords _).after (spares_startWriter s)
  | startPolling schedules => exact h.spared fun me => spares_startPolling s schedules
  | stopPolling =>
    rw [request]
    split
    · exact hawait _ fun me => spares_signalLoop s
    · exact h

end Moves

/-- **Every alarm lies ahead**, whatever happens. -/
theorem Advance.ahead (hadv : Advance o s s') (h : s.agenda.Ahead) : s'.agenda.Ahead := by
  cases hadv with
  | move _ => exact ahead_move h _
  | turn _ _ | call _ _ | elsewhere _ _ _ => exact h
  | pass t => exact h.pass t
  | request r _ _ _ => exact ahead_request h r

theorem Course.ahead (hc : Course o s s') (h : s.agenda.Ahead) : s'.agenda.Ahead := by
  induction hc with
  | refl => exact h
  | tail _ hadv ih => exact hadv.ahead ih

/-! ## Time goes on -/

/-- **When everyone waits**, time jumps ahead to the next alarm, and not beyond it. -/
theorem now_step_of_isSettled (settled : s.agenda.isSettled = true) (h : s.agenda.Ahead)
    {x : Alarm} (hx : x ∈ s.agenda.alarms) : s.now < (s.step o).now ∧ (s.step o).now ≤ x.due := by
  obtain ⟨⟨hrun, hready⟩, hcalled⟩ : (s.agenda.running = none ∧ s.agenda.ready = [])
      ∧ s.agenda.called = false := by
    simpa [Agenda.isSettled] using settled
  obtain ⟨t, ht⟩ : ∃ t, s.agenda.nextDue? = some t := by
    refine Option.ne_none_iff_exists'.1 fun hnone => ?_
    rw [Agenda.nextDue?, List.min?_eq_none_iff, List.map_eq_nil_iff] at hnone
    rw [hnone] at hx
    cases hx
  obtain ⟨hmem, hmin⟩ := List.min?_eq_some_iff.1 ht
  obtain ⟨y, hy, rfl⟩ := List.mem_map.1 hmem
  have hstep : (s.step o).now = y.due := by
    have hmax : max s.agenda.now y.due = y.due := Nat.max_eq_right (Nat.le_of_lt (h y hy))
    rw [step_of_idle hrun]
    show s.agenda.turn.now = y.due
    simp only [Agenda.turn, hready, hcalled, Bool.false_eq_true, if_false, Agenda.jump, ht]
    split
    · exact (s.agenda.now_pass y.due).trans hmax
    · exact (s.agenda.now_pass y.due).trans hmax
  rw [hstep]
  exact ⟨h y hy, hmin _ (List.mem_map_of_mem hx)⟩

theorem steps_add (m n : Nat) : s.steps o (m + n) = (s.steps o m).steps o n := by
  induction m generalizing s with
  | zero => rw [Nat.zero_add, steps]
  | succ m ih =>
    rw [Nat.succ_add, steps, steps]
    exact ih

theorem exists_steps_settle (n : Nat) : ∃ k, settle o n s = s.steps o k := by
  induction n generalizing s with
  | zero => exact ⟨0, rfl⟩
  | succ n ih =>
    cases hs : s.agenda.isSettled with
    | true => exact ⟨0, by simp [settle, hs, steps]⟩
    | false =>
      obtain ⟨k, hk⟩ := ih (s := s.step o)
      exact ⟨k + 1, by simp [settle, hs, steps, hk]⟩

/-- What every step keeps is kept by any number of them. -/
theorem steps_induction {inv : System → Prop} (hstep : ∀ s, inv s → inv (s.step o)) (h : inv s)
    (n : Nat) : inv (s.steps o n) := by
  induction n generalizing s with
  | zero => exact h
  | succ n ih => exact ih (hstep s h)

theorem InOrder.steps (h : s.InOrder) (n : Nat) : (s.steps o n).InOrder :=
  steps_induction (fun _ h => h.step) h n

theorem ahead_steps (h : s.agenda.Ahead) (n : Nat) : (s.steps o n).agenda.Ahead :=
  steps_induction (fun t ht => (course_step o t).ahead ht) h n

/-- **What always has an alarm** by some limit when everyone waits, until it happens, does
happen. -/
theorem exists_of_alarm {P inv : System → Prop} {limit : Nat}
    (hstep : ∀ s, inv s → inv (s.step o))
    (halarm : ∀ s, inv s → s.agenda.isSettled = true →
      P s ∨ ∃ x ∈ s.agenda.alarms, x.due ≤ limit)
    (h : inv s) (order : s.InOrder) (ahead : s.agenda.Ahead) : ∃ n, P (s.steps o n) := by
  induction hk : limit - s.now using Nat.strongRecOn generalizing s with
  | _ k ih =>
    subst hk
    obtain ⟨n, settled, hnow⟩ := exists_settled (o := o) order
    obtain ⟨m, hm⟩ := exists_steps_settle (o := o) (s := s) n
    rw [hm] at settled hnow
    have h' := steps_induction hstep h m
    have ahead' := ahead_steps (o := o) ahead m
    have order' := order.steps (o := o) m
    rcases halarm _ h' settled with hp | ⟨x, hx, hle⟩
    · exact ⟨m, hp⟩
    · -- time jumps on, and there is less of it left
      obtain ⟨hlt, hdue⟩ := now_step_of_isSettled (o := o) settled ahead' hx
      have hless : limit - ((s.steps o m).step o).now < limit - s.now := by omega
      obtain ⟨n', hp⟩ := ih _ hless (hstep _ h') order'.step ((course_step o _).ahead ahead') rfl
      refine ⟨m + (n' + 1), ?_⟩
      rw [steps_add]
      exact hp

end System

end Rota.Relay
