import Mathlib.Algebra.Order.Floor.Div
import Rota.Proofs.Relay.Barrier
import Rota.Proofs.Relay.Flying
import Rota.Proofs.Relay.Onward

/-!
# How long the worker takes to stop

A worker that is told to stop begins the deliveries of the events it finds, as many at once as
it may, and is gone when all have ended. Each delivery ends by a time that is known when it
begins, and makes room for the next one then.

So the events can be numbered, those first whose deliveries are under way, and it is clear when
the delivery of each begins and ends at the latest: if there are three workers, the first three
end within one stint, the next three within two, and so on (`Drain`). A service that drains keeps
to this plan (`Draining.steady`): while everyone waits, an event is left only if all workers are
busy, and one of them must be at an event that far ahead of it that it ends in time
(`Drain.deadline_le_opening`).
-/

namespace Rota.Relay

/-- **How a worker drains the queue**: when it is told to, and with what. -/
structure Drain where
  /-- The time at which it is told to stop. -/
  start : Nat
  /-- The number of the delivery that begins next. -/
  first : Nat
  /-- The number of deliveries under way. -/
  flying : Nat
  /-- The number of events that were ever accepted. -/
  total : Nat
  workers : Nat
  /-- The longest time that a delivery takes. -/
  stint : Nat

namespace Drain

variable (d : Drain) {m n : Nat}

/-- The place of a delivery in line; those under way come first. -/
def place (number : Nat) : Nat :=
  d.flying + number - d.first

/-- The number of events to be delivered. -/
def size : Nat :=
  d.flying + (d.total - d.first)

/-- **By when a delivery begins.** -/
def opening (number : Nat) : Nat :=
  d.start + d.place number / d.workers * d.stint

/-- **By when a delivery ends.** -/
def deadline (number : Nat) : Nat :=
  d.start + (d.place number / d.workers + 1) * d.stint

/-- **By when all have ended.** -/
def close : Nat :=
  d.start + d.size ⌈/⌉ d.workers * d.stint

theorem opening_add_stint (number : Nat) : d.opening number + d.stint = d.deadline number := by
  rw [opening, deadline, Nat.succ_mul, Nat.add_assoc]

theorem start_le_opening (number : Nat) : d.start ≤ d.opening number :=
  Nat.le_add_right _ _

theorem start_add_stint_le (number : Nat) : d.start + d.stint ≤ d.deadline number :=
  d.opening_add_stint number ▸ Nat.add_le_add_right (d.start_le_opening number) _

theorem opening_mono (h : m ≤ n) : d.opening m ≤ d.opening n := by
  refine Nat.add_le_add_left (Nat.mul_le_mul_right _ (Nat.div_le_div_right ?_)) _
  unfold place
  omega

variable {d}

/-- **A delivery makes room** for the one that comes as many places later as there are workers. -/
theorem deadline_le_opening (hworkers : 0 < d.workers) (hmn : m + d.workers ≤ n)
    (hn : d.first + d.workers ≤ d.flying + n) : d.deadline m ≤ d.opening n := by
  refine Nat.add_le_add_left (Nat.mul_le_mul_right _ ?_) _
  have hplace : d.place m + d.workers ≤ d.place n := by
    unfold place
    omega
  rw [← Nat.add_div_right _ hworkers]
  exact Nat.div_le_div_right hplace

/-- **Every delivery ends** by the time by which all have ended. -/
theorem deadline_le_close (hworkers : 0 < d.workers) (hm : d.place m < d.size) :
    d.deadline m ≤ d.close := by
  refine Nat.add_le_add_left (Nat.mul_le_mul_right _ ?_) _
  rw [← Nat.add_div_right _ hworkers, Nat.ceilDiv_eq_add_pred_div]
  exact Nat.div_le_div_right (by omega)

end Drain

namespace Ledger.Next

variable {l l' : Ledger}

/-- A delivery is under way from when it begins. -/
theorem length_flights_le (h : l.Next l') :
    l'.flights.length + l.launched ≤ l.flights.length + l'.launched := by
  cases h with
  | launch _ _ _ _ =>
    rw [List.length_append, List.length_singleton, Nat.add_right_comm]
    exact Nat.le_refl _
  | land _ _ _ _ => exact Nat.add_le_add_right (List.length_filter_le _ _) _
  | _ => exact Nat.le_refl _

theorem started (h : l.Next l') (hw : l.worker ≠ .unstarted) : l'.worker ≠ .unstarted := by
  cases h with
  | launch _ draining _ _ => cases draining <;> exact nofun
  | take _ _ _ _ _ _ | close _ | part _ _ | leave _ _ | start _ => exact nofun
  | _ => exact hw

/-- A worker that is gone does not come back. -/
theorem gone (h : l.Next l') (hw : l.worker = .gone) : l'.worker = .gone := by
  cases h with
  | launch _ _ holding _ => cases hw.symm.trans holding
  | take _ _ _ draining free _ =>
    have hbetween := hw.symm.trans free
    cases draining <;> cases hbetween
  | close idle => cases hw.symm.trans idle
  | part draining _ => cases hw.symm.trans draining
  | start unstarted => cases hw.symm.trans unstarted
  | leave _ _ => rfl
  | _ => exact hw

theorem enqueued_le (h : l.Next l') : l.counts.enqueued ≤ l'.counts.enqueued := by
  cases h with
  | push _ _ _ _ | use _ _ _ _ => exact Nat.le_succ _
  | land _ _ r _ =>
    dsimp only
    split <;> exact Nat.le_refl _
  | _ => exact Nat.le_refl _

/-- Deliveries that have ended stay on the list. -/
theorem landings_suffix (h : l.Next l') : l.landings <:+ l'.landings := by
  cases h with
  | land _ _ _ _ => exact List.suffix_cons _ _
  | _ => exact List.suffix_rfl

end Ledger.Next

namespace System

variable {o : Outside} {s t s' : System} {d : Drain}

/-- **The events to be delivered**: those queued, held or under way. -/
def undelivered (s : System) : List Event :=
  s.queue.items ++ s.worker.held ++ s.flights.map Flight.event

/-- Each event that was accepted is queued, held, or its delivery has begun. -/
theorem Tended.enqueued_eq (h : s.Tended) :
    s.counts.enqueued = s.launched + s.worker.held.length + s.queue.items.length := by
  have henq : s.counts.enqueued = (admitted s.offers).length := h.sound.counted.enqueued_eq
  have hadm : admitted s.offers = s.begun.reverse ++ s.worker.held ++ s.queue.items :=
    h.sound.conserved.admitted_eq
  rw [henq, hadm, List.length_append, List.length_append, List.length_reverse, h.numbered]

/-! ## The plan -/

/-- What a drain that begins now looks like. -/
def drain (s : System) : Drain where
  start := s.now
  first := s.launched
  flying := s.flights.length
  total := s.counts.enqueued
  workers := s.settings.workers
  stint := s.resolver.lookupTimeout + s.settings.deliveryTimeout

theorem Tended.size_drain (h : s.Tended) : s.drain.size = s.undelivered.length := by
  have henq := h.enqueued_eq
  simp only [Drain.size, drain, undelivered, List.length_append, List.length_map]
  omega

/-- **A drain fits a service** that has neither more events nor other means. -/
structure Fits (s : System) (d : Drain) : Prop where
  total : s.counts.enqueued = d.total
  workers : s.settings.workers = d.workers
  stint : s.resolver.lookupTimeout + s.settings.deliveryTimeout = d.stint
  some_workers : 0 < d.workers

/-- **The worker drains the queue**, and is in time. -/
structure Draining (s : System) (d : Drain) : Prop where
  signalled : s.stopWorker = true
  started : s.worker ≠ .unstarted
  first_le : d.first ≤ s.launched
  flights_le : s.flights.length + d.first ≤ d.flying + s.launched
  endBy : s.FlightsEndBy s.resolver.lookupTimeout s.settings.deliveryTimeout d.deadline
  /-- An event that is left will be taken up in time. -/
  opens : s.launched < d.total → s.now ≤ d.opening s.launched
  closes : s.worker ≠ .gone → s.now ≤ d.close

/-- Among so many different numbers one is small. -/
theorem exists_small {numbers : List Nat} {n k : Nat} (hn : numbers.Nodup)
    (hlt : ∀ i ∈ numbers, i < n) (hk : numbers.length = k) (hpos : 0 < k) :
    ∃ i ∈ numbers, i + k ≤ n := by
  by_contra hnone
  have hlarge : ∀ i ∈ numbers, n < i + k := fun i hi =>
    Nat.lt_of_not_le fun hle => hnone ⟨i, hi, hle⟩
  have hsub : numbers ⊆ List.range' (n + 1 - k) (n - (n + 1 - k)) := by
    intro i hi
    have := hlt i hi
    have := hlarge i hi
    rw [List.mem_range'_1]
    omega
  have hle := (List.subperm_of_subset hn hsub).length_le
  rw [List.length_range'] at hle
  omega

namespace Draining

variable (h : s.Draining d) (tended : s.Tended)

include h tended

/-- **A delivery that waits** has an alarm that is due in time. -/
theorem exists_alarm (settled : s.agenda.isSettled = true) {f : Flight} (hf : f ∈ s.flights) :
    ∃ due, ⟨due, .delivery f.number, 0⟩ ∈ s.agenda.alarms ∧ s.now < due
      ∧ due ≤ d.deadline f.number := by
  obtain ⟨due, waits, hlt, hmem⟩ := (tended.escorted.flights f hf).waits_of_isSettled settled
  exact ⟨due, hmem, hlt, (h.endBy f hf).due_le waits⟩

variable (fits : s.Fits d)

include fits

/-- **When everyone waits and an event is left**, all workers are busy, and one of them is at an
event far ahead of it. -/
theorem exists_ahead (settled : s.agenda.isSettled = true) (hleft : s.launched < d.total) :
    ∃ f ∈ s.flights, d.deadline f.number ≤ d.opening s.launched := by
  have henq := tended.enqueued_eq
  rw [fits.total] at henq
  have hne : s.worker.held ++ s.queue.items ≠ [] := by
    intro hnil
    obtain ⟨hheld, hitems⟩ := List.append_eq_nil_iff.1 hnil
    rw [hheld, hitems, List.length_nil] at henq
    omega
  have hfull := (full_of_rests tended.sound (tended.manned.rests_of_isSettled settled) h.started
    hne).1
  rw [fits.workers] at hfull
  have hcon := tended.sound.conserved
  obtain ⟨i, hi, hle⟩ := exists_small hcon.nodup_flights
    (List.forall_mem_map.2 fun f hf => hcon.number_lt hf)
    ((List.length_map _).trans hfull) fits.some_workers
  obtain ⟨f, hf, rfl⟩ := List.mem_map.1 hi
  have hflights := h.flights_le
  exact ⟨f, hf, Drain.deadline_le_opening fits.some_workers hle (by omega)⟩

/-- **When everyone waits and the worker is not gone**, a delivery is under way. -/
theorem exists_flying (settled : s.agenda.isSettled = true) (hgone : s.worker ≠ .gone) :
    ∃ f ∈ s.flights, d.deadline f.number ≤ d.close := by
  have hpos : 0 < s.flights.length := by
    have hworkers := fits.workers
    have hsome := fits.some_workers
    cases tended.manned.rests_of_isSettled settled with
    | unstarted doing => exact absurd doing h.started
    | idle doing empty running attached => cases running.symm.trans h.signalled
    | holding doing full =>
      have hle : s.settings.workers ≤ s.flights.length := full
      omega
    | parting doing missing =>
      have hlt : s.settings.workers - s.flights.length < s.settings.workers % UInt32.size := missing
      have hmod := Nat.mod_le s.settings.workers UInt32.size
      omega
    | gone doing => exact absurd doing hgone
  obtain ⟨f, hf⟩ := List.exists_mem_of_length_pos hpos
  refine ⟨f, hf, Drain.deadline_le_close fits.some_workers ?_⟩
  have henq := tended.enqueued_eq
  have hnumber := tended.sound.conserved.number_lt hf
  have hflights := h.flights_le
  have hfirst := h.first_le
  have htotal := fits.total
  unfold Drain.place Drain.size
  omega

/-- **A service that drains keeps to its plan.** -/
theorem steady (hstep : Steady o s s') (fits' : s'.Fits d) : s'.Draining d := by
  obtain ⟨htimely, hlookup⟩ := hstep
  have hsettings : s'.settings = s.settings := (htimely.advance.enters tended.attended).settings
  have hnext := htimely.advance.next
  have hlaunched : s.launched ≤ s'.launched := hnext.launched_le
  have hlen : s'.flights.length + s.launched ≤ s.flights.length + s'.launched := by
    have hle := hnext.length_flights_le
    rwa [flights_ledger, flights_ledger, List.length_map, List.length_map] at hle
  have hflights := h.flights_le
  have hstart : s'.worker ≠ .unstarted := hnext.started h.started
  have hgone : s'.worker ≠ .gone → s.worker ≠ .gone := fun hne hw => hne (hnext.gone hw)
  have hendBy : s'.FlightsEndBy s.resolver.lookupTimeout s.settings.deliveryTimeout d.deadline →
      s'.FlightsEndBy s'.resolver.lookupTimeout s'.settings.deliveryTimeout d.deadline := by
    rw [hlookup, hsettings]
    exact id
  cases htimely with
  | happen hadv now =>
    refine ⟨hadv.stopWorker h.signalled, hstart, Nat.le_trans h.first_le hlaunched, by omega,
      hendBy (h.endBy.advance hadv now rfl rfl fun e draining hw => ?_), fun hlt => ?_,
      fun hne => ?_⟩
    · -- the event that the worker holds is taken up in time
      have henq := tended.enqueued_eq
      have hheld : s.worker.held.length = 1 := by rw [hw]; rfl
      have htotal := fits.total
      rw [fits.stint, ← d.opening_add_stint]
      exact Nat.add_le_add_right (h.opens (by omega)) _
    · rw [now]
      exact Nat.le_trans (h.opens (by omega)) (d.opening_mono hlaunched)
    · rw [now]
      exact h.closes (hgone hne)
  | pass t settled due =>
    have hnow : ({ s with agenda := s.agenda.pass t } : System).now = max s.now t :=
      Agenda.now_pass _ _
    have ht : ∀ f ∈ s.flights, t ≤ d.deadline f.number := fun f hf => by
      obtain ⟨x, hx, -, hle⟩ := exists_alarm h tended settled hf
      exact Nat.le_trans (due _ hx) hle
    refine ⟨h.signalled, h.started, h.first_le, hflights, h.endBy.pass tended.escorted settled due,
      fun hlt => ?_, fun hne => ?_⟩
    · obtain ⟨f, hf, hle⟩ := exists_ahead h tended fits settled hlt
      rw [hnow]
      exact Nat.max_le.2 ⟨h.opens hlt, Nat.le_trans (ht f hf) hle⟩
    · obtain ⟨f, hf, hle⟩ := exists_flying h tended fits settled hne
      rw [hnow]
      exact Nat.max_le.2 ⟨h.closes hne, Nat.le_trans (ht f hf) hle⟩

end Draining

/-! ## From the word to stop -/

/-- A word that changes nothing but who is told what leaves everything in its place. -/
theorem Tended.told (h : s.Tended) (hledger : s.ledger.Next s'.ledger) (quiet : s.Quiet s')
    (heeds : s.Heeds s') (hs : ∀ me, s.Spares me s') (hflights : s'.flights = s.flights) :
    s'.Tended where
  sound := h.sound.next hledger
  attended := attended_quiet h.attended quiet
  manned := heeds.manned h.manned fun hrun => quiet.stirs.running.trans hrun
  escorted := h.escorted.spared hflights hledger.launched_le (fun _ => hs _) fun _ hrun =>
    quiet.stirs.running.trans hrun
  numbered := hledger.launched_eq h.numbered

theorem Tended.startWorker (h : s.Tended) : s.startWorker.Tended :=
  h.told (next_startWorker s) (quiet_startWorker s) (heeds_startWorker s)
    (fun _ => spares_startWorker s) (within_startWorker s).unheard.flights

theorem Tended.signalWorker (h : s.Tended) : s.signalWorker.Tended :=
  h.told ((aside_signalWorker s).ledger ▸ .same) (aside_signalWorker s).quiet (heeds_signalWorker s)
    (fun _ => spares_signalWorker s) (aside_signalWorker s).unheard.flights

/-- **Within a stint** all deliveries that are under way end. -/
def WithinStint (s : System) : Prop :=
  s.FlightsEndBy s.resolver.lookupTimeout s.settings.deliveryTimeout
    fun _ => s.now + (s.resolver.lookupTimeout + s.settings.deliveryTimeout)

/-- **A worker that is told to stop** begins to drain the queue. -/
theorem draining (hend : s.WithinStint) (signalled : s.stopWorker = true)
    (started : s.worker ≠ .unstarted) : s.Draining s.drain where
  signalled := signalled
  started := started
  first_le := Nat.le_refl _
  flights_le := Nat.le_refl _
  endBy := hend.mono s.drain.start_add_stint_le
  opens := fun _ => s.drain.start_le_opening _
  closes := fun _ => Nat.le_add_right _ _

theorem Course.enqueued_le (hc : Course o s s') : s.counts.enqueued ≤ s'.counts.enqueued := by
  induction hc with
  | refl => exact Nat.le_refl _
  | tail _ hadv ih => exact Nat.le_trans ih hadv.next.enqueued_le

theorem Course.landings_suffix (hc : Course o s s') : s.landings <:+ s'.landings := by
  induction hc with
  | refl => exact List.suffix_rfl
  | tail _ hadv ih => exact ih.trans hadv.next.landings_suffix

/-- A drain fits the service as long as no further event is accepted. -/
theorem fits_of_steady (h : s.Tended) (hworkers : 0 < s.settings.workers)
    (hc : Relation.ReflTransGen (Steady o) s s')
    (henq : s'.counts.enqueued = s.counts.enqueued) : s'.Fits s.drain where
  total := henq
  workers := congrArg Settings.workers (Course.settings (course_of_steady hc) h)
  stint := by
    rw [lookupTimeout_of_steady hc, Course.settings (course_of_steady hc) h]
    rfl
  some_workers := hworkers

/-- **It keeps to its plan** as long as no further event is accepted. -/
theorem draining_of_steady (h : s.Tended) (hworkers : 0 < s.settings.workers)
    (hd : s.Draining s.drain) (hc : Relation.ReflTransGen (Steady o) s s')
    (henq : s'.counts.enqueued = s.counts.enqueued) : s'.Draining s.drain := by
  induction hc with
  | refl => exact hd
  | @tail t t' hc hstep ih =>
    have hcourse := course_of_steady hc
    have henq' : t.counts.enqueued = s.counts.enqueued :=
      Nat.le_antisymm (henq ▸ hstep.advance.next.enqueued_le) (Course.enqueued_le hcourse)
    exact (ih henq').steady (Course.tended hcourse h) (fits_of_steady h hworkers hc henq') hstep
      (fits_of_steady h hworkers (hc.tail hstep) henq)

/-! ## The worker stops in time -/

/-- **All events have been delivered** that were to be, and each has its outcome. -/
structure Drained (s s' : System) : Prop where
  finished : s'.Finished
  ended : ∃ ended, s'.landings = ended ++ s.landings
    ∧ (ended.map Landing.event).Perm s.undelivered
  counted : s'.counts.delivered + s'.counts.failed
    = s.counts.delivered + s.counts.failed + s.undelivered.length

theorem drained_of_gone (h : s.Tended) (hw : s.settings.workers < UInt32.size)
    (hc : Course o s s') (henq : s'.counts.enqueued = s.counts.enqueued)
    (hgone : s'.worker = .gone) : s.Drained s' := by
  have h' := Course.tended hc h
  have hfinished := finished_of_sound h'.sound (Course.settings hc h ▸ hw) hgone
  obtain ⟨ended, hended⟩ := Course.landings_suffix hc
  -- no event was accepted meanwhile
  have hadmitted : admitted s'.offers = admitted s.offers := by
    obtain ⟨later, hlater⟩ := Course.offers_suffix hc
    have hlen : s'.counts.enqueued = (admitted s'.offers).length := h'.sound.counted.enqueued_eq
    have hlen₀ : s.counts.enqueued = (admitted s.offers).length := h.sound.counted.enqueued_eq
    rw [← hlater, admitted_append] at hlen ⊢
    rw [henq, hlen₀, List.length_append] at hlen
    rw [List.eq_nil_of_length_eq_zero (Nat.left_eq_add.1 hlen), List.append_nil]
  have hperm : (ended.map Landing.event).Perm s.undelivered := by
    have hp := h.sound.conserved.admitted_perm
    rw [map_snd_flights_ledger] at hp
    have hp' := hfinished.ended
    rw [hadmitted, ← hended, List.map_append] at hp'
    exact (List.perm_append_right_iff _).1 (hp'.symm.trans hp)
  refine ⟨hfinished, ⟨ended, hended.symm, hperm⟩, ?_⟩
  have hcount : s'.counts.delivered + s'.counts.failed = s'.landings.length :=
    h'.sound.counted.finished_eq
  have hcount₀ : s.counts.delivered + s.counts.failed = s.landings.length :=
    h.sound.counted.finished_eq
  rw [hcount, hcount₀, ← hended, List.length_append, ← hperm.length_eq, List.length_map,
    Nat.add_comm]

/-- **The worker stops within so much time**, if no further event is accepted. -/
structure DrainsWithin (o : Outside) (s : System) (wait : Nat) : Prop where
  /-- It is gone when that time is over, whatever else happens meanwhile. -/
  ended : ∀ s', Relation.ReflTransGen (Steady o) s s' →
    s'.counts.enqueued = s.counts.enqueued → s'.worker = .gone ∨ s'.now ≤ s.now + wait
  /-- Until then, whenever everyone waits, a delivery has an alarm that is due by then. -/
  alarm : ∀ s', Relation.ReflTransGen (Steady o) s s' →
    s'.counts.enqueued = s.counts.enqueued → s'.agenda.isSettled = true → s'.worker ≠ .gone →
    ∃ n due, ⟨due, .delivery n, 0⟩ ∈ s'.agenda.alarms ∧ s'.now < due ∧ due ≤ s.now + wait
  /-- So it does end, in a service that is left to run. -/
  returns : 0 < s.settings.interval →
    (∀ n, (s.steps o n).counts.enqueued = s.counts.enqueued) →
    ∃ n, (s.steps o n).worker = .gone ∧ (s.steps o n).now ≤ s.now + wait
  /-- If it waits for all of its deliveries, every event has its outcome by then. -/
  drained : s.settings.workers < UInt32.size → ∀ s', Relation.ReflTransGen (Steady o) s s' →
    s'.counts.enqueued = s.counts.enqueued → s'.worker = .gone → s.Drained s'

theorem steady_steps (o : Outside) (s : System) (n : Nat) :
    Relation.ReflTransGen (Steady o) s (s.steps o n) := by
  induction n generalizing s with
  | zero => exact .refl
  | succ n ih => exact (steady_step o s).trans (ih _)

/-- What comes about in a service that is left to run comes about by a move that takes no time,
unless time alone can bring it about. -/
theorem exists_steps_now {P : System → Prop} [DecidablePred P]
    (hP : ∀ (s : System) (agenda : Agenda), P { s with agenda } → P s)
    (h : ∃ n, P (s.steps o n)) :
    ∃ n, P (s.steps o n) ∧ (s.steps o n = s
      ∨ ∃ m, ¬ P (s.steps o m) ∧ (s.steps o n).now = (s.steps o m).now) := by
  refine ⟨Nat.find h, Nat.find_spec h, ?_⟩
  cases hn : Nat.find h with
  | zero => exact .inl rfl
  | succ m =>
    have hm : ¬ P (s.steps o m) := Nat.find_min h (hn ▸ Nat.lt_succ_self m)
    refine .inr ⟨m, hm, ?_⟩
    have hsucc : s.steps o (m + 1) = (s.steps o m).step o := steps_add m 1
    have hp := Nat.find_spec h
    rw [hn, hsucc] at hp
    rw [hsucc]
    unfold step at hp ⊢
    split at hp
    · exact now_move o _ _
    · exact absurd (hP _ _ hp) hm

/-- **A worker that is told to stop** is gone when every event could have taken its turn, as many
at a time as there are workers, and taken both timeouts. -/
theorem drainsWithin_of_tended (h : s.Tended) (ahead : s.agenda.Ahead)
    (hworkers : 0 < s.settings.workers) (hend : s.WithinStint) (signalled : s.stopWorker = true)
    (started : s.worker ≠ .unstarted) :
    s.DrainsWithin o (s.undelivered.length ⌈/⌉ s.settings.workers
      * (s.resolver.lookupTimeout + s.settings.deliveryTimeout)) := by
  generalize hwait : s.undelivered.length ⌈/⌉ s.settings.workers
    * (s.resolver.lookupTimeout + s.settings.deliveryTimeout) = wait
  have hclose : s.drain.close = s.now + wait := by
    rw [Drain.close, h.size_drain, ← hwait]
    rfl
  have hplan : ∀ s', Relation.ReflTransGen (Steady o) s s' →
      s'.counts.enqueued = s.counts.enqueued →
      s'.Tended ∧ s'.Fits s.drain ∧ s'.Draining s.drain := fun s' hc henq =>
    ⟨Course.tended (course_of_steady hc) h, fits_of_steady h hworkers hc henq,
      draining_of_steady h hworkers (draining hend signalled started) hc henq⟩
  have hended : ∀ s', Relation.ReflTransGen (Steady o) s s' →
      s'.counts.enqueued = s.counts.enqueued → s'.worker = .gone ∨ s'.now ≤ s.now + wait := by
    intro s' hc henq
    by_cases hgone : s'.worker = .gone
    · exact .inl hgone
    · exact .inr (hclose ▸ (hplan s' hc henq).2.2.closes hgone)
  have halarm : ∀ s', Relation.ReflTransGen (Steady o) s s' →
      s'.counts.enqueued = s.counts.enqueued → s'.agenda.isSettled = true → s'.worker ≠ .gone →
      ∃ n due, ⟨due, .delivery n, 0⟩ ∈ s'.agenda.alarms ∧ s'.now < due ∧ due ≤ s.now + wait := by
    intro s' hc henq settled hgone
    obtain ⟨tended, fits, hd⟩ := hplan s' hc henq
    obtain ⟨f, hf, hle⟩ := hd.exists_flying tended fits settled hgone
    obtain ⟨due, hmem, hlt, hdue⟩ := hd.exists_alarm tended settled hf
    exact ⟨f.number, due, hmem, hlt, hclose ▸ Nat.le_trans hdue hle⟩
  refine ⟨hended, halarm, fun hinterval hnone => ?_, fun hw s' hc henq hgone =>
    drained_of_gone h hw (course_of_steady hc) henq hgone⟩
  have hsteps : ∃ n, (s.steps o n).worker = .gone := by
    let inv : System → Prop := fun t => Relation.ReflTransGen (Steady o) s t
      ∧ ∀ n, (t.steps o n).counts.enqueued = s.counts.enqueued
    have hstep : ∀ t, inv t → inv (t.step o) := fun t ht =>
      ⟨ht.1.trans (steady_step o t), fun n => ht.2 (n + 1)⟩
    have hnext : ∀ t, inv t → t.agenda.isSettled = true →
        t.worker = .gone ∨ ∃ x ∈ t.agenda.alarms, x.due ≤ s.now + wait := by
      intro t ht settled
      by_cases hgone : t.worker = .gone
      · exact .inl hgone
      · obtain ⟨n, due, hmem, -, hle⟩ := halarm t ht.1 (ht.2 0) settled hgone
        exact .inr ⟨_, hmem, hle⟩
    exact exists_of_alarm hstep hnext ⟨.refl, hnone⟩ ⟨h.sound, fun _ => hinterval⟩ ahead
  obtain ⟨n, hgone, hsame | ⟨m, hm, hnow⟩⟩ :=
    exists_steps_now (P := fun t => t.worker = .gone) (fun _ _ => id) hsteps
  · refine ⟨n, hgone, ?_⟩
    rw [hsame]
    exact Nat.le_add_right _ _
  · refine ⟨n, hgone, ?_⟩
    rw [hnow]
    exact (hended _ (steady_steps o s m) (hnone m)).resolve_left hm

section New

variable {settings : Settings} {capacity auditCapacity : Nat} {audited : Bool} {grace : Nat}
  {resolver : Directory.Resolver}

theorem stopWorker_signalWorker (s : System) : s.signalWorker.stopWorker = true := by
  unfold signalWorker wakeWorker
  split <;> rfl

theorem started_startWorker (s : System) : s.startWorker.worker ≠ .unstarted := by
  unfold startWorker
  split
  · exact nofun
  · next hw => exact hw

/-- What there is to be delivered is the same before and after the word to stop. -/
theorem undelivered_startWorker (s : System) : s.startWorker.undelivered = s.undelivered := by
  unfold startWorker
  split
  · next hw =>
    unfold undelivered
    rw [hw]
    rfl
  · rfl

theorem undelivered_signalWorker (s : System) : s.signalWorker.undelivered = s.undelivered := by
  obtain ⟨_, _, _, _, hs⟩ := (aside_signalWorker s).eq
  rw [hs]
  rfl

/-- **A worker that is told to stop** – and started, if it was not – is gone when every event could
have taken its turn, as many at a time as there are workers, and taken both timeouts. -/
theorem drainsWithin
    (h : Relation.ReflTransGen (Steady o)
      (new settings capacity auditCapacity audited grace resolver) s) :
    s.startWorker.signalWorker.DrainsWithin o
      (s.undelivered.length ⌈/⌉ max settings.workers 1
        * (resolver.lookupTimeout + settings.deliveryTimeout)) := by
  have hcourse := course_of_steady h
  have hnew := tended_new settings capacity auditCapacity audited grace resolver
  have htended : s.Tended := Course.tended hcourse hnew
  have hsettings : s.settings = { settings with workers := max settings.workers 1 } :=
    Course.settings hcourse hnew
  have hlookup : s.resolver.lookupTimeout = resolver.lookupTimeout := lookupTimeout_of_steady h
  have hend : s.WithinStint := by
    have hend := flightsEndBy_of_steady h hnew rfl
    rw [WithinStint, hlookup, hsettings]
    exact hend
  have hahead : s.agenda.Ahead := Course.ahead hcourse fun _ hx => absurd hx List.not_mem_nil
  -- the word changes none of this
  have hspares : ∀ me, s.Spares me s.startWorker.signalWorker := fun me =>
    (spares_signalWorker _).after (spares_startWorker s)
  have hsame : s.startWorker.signalWorker.settings = s.settings :=
    (aside_signalWorker _).posts.settings.trans (posts_startWorker s).settings
  have hunheard : s.Unheard s.startWorker.signalWorker :=
    (aside_signalWorker _).unheard.after (within_startWorker s).unheard
  have hnow : s.startWorker.signalWorker.now = s.now := (hspares .worker).now
  have hdrains := drainsWithin_of_tended (o := o) htended.startWorker.signalWorker
    (hahead.spared hspares) ?_ ?_ (stopWorker_signalWorker _) ?_
  · rwa [undelivered_signalWorker, undelivered_startWorker, hsame, hunheard.resolver, hlookup,
      hsettings] at hdrains
  · rw [hsame, hsettings]
    exact Nat.lt_of_lt_of_le Nat.one_pos (Nat.le_max_right _ _)
  · unfold WithinStint FlightsEndBy
    rw [hsame, hunheard.resolver, hunheard.flights, hnow]
    exact hend
  · obtain ⟨_, _, _, _, hs⟩ := (aside_signalWorker s.startWorker).eq
    rw [hs]
    exact started_startWorker s

/-- Two workers, and five events. The directory takes its five seconds for each, and the calls are
never answered, so that each delivery takes twenty seconds. The worker that is told to stop is
gone after a minute, in which two, two and one delivery ended. -/
theorem drainsWithin_minute :
    let o : Outside :=
      { lookup := fun _ key =>
          { delay := some 5000, answer := .ok { id := key.text, email := "a@b.c" } }
        call := fun _ _ => { delay := none, answer := .ok () }
        append := fun _ _ => { answer := .ok () }
        fetch := fun _ _ => { answer := .error (.fetch "no source") } }
    let event (key : String) : Event :=
      { id := key, delivery := .push (.lookup (.userId key)) .slack, title := "t", message := "m" }
    let fresh := new { workers := 2 } 8 8 true 5000 {}
    let s := fresh.serveAll o 60
      (.start :: ["a", "b", "c", "d", "e"].map fun key => .enqueue (event key))
    Relation.ReflTransGen (Steady o) fresh s
      ∧ (s.undelivered = [event "d", event "e", event "c", event "a", event "b"]
        ∧ (s.serve o 200 .shutdown).1 = 60000
        ∧ (s.serve o 200 .shutdown).2.worker = .gone
        ∧ (s.serve o 200 .shutdown).2.counts.failed = 5)
      ∧ s.startWorker.signalWorker.DrainsWithin o 60000 := by
  intro o event fresh s
  have hsteady : Relation.ReflTransGen (Steady o) fresh s :=
    steady_serveAll o 60 fresh _ (by decide +kernel)
  have hrun : s.undelivered = [event "d", event "e", event "c", event "a", event "b"]
      ∧ (s.serve o 200 .shutdown).1 = 60000 ∧ (s.serve o 200 .shutdown).2.worker = .gone
      ∧ (s.serve o 200 .shutdown).2.counts.failed = 5 := by decide +kernel
  have hdrains := drainsWithin hsteady
  rw [hrun.1] at hdrains
  exact ⟨hsteady, hrun, by simpa [Nat.ceilDiv_eq_add_pred_div] using hdrains⟩

end New

end System

end Rota.Relay
