import Mathlib.Algebra.GroupWithZero.Nat
import Rota.Proofs.Poller.Rounds

/-!
# The poller's counts

The poller counts what happens at each place where it happens: a fetch that fails, an
empty roster, a change that is about to be told, an event that the queue turns away.
The reports say what came of the cycles that have ended, and the visits under way
stand for the entries that are still to come. So each count is compared with a total
over the reports and the visits together (`Book.total`).

A move of a visit changes the counts and the totals alike (`Agree.goes`), and when a
cycle ends, its report takes over what its visits stood for (`Poller.sum_report`).
Hence the counts agree with the totals at any moment, however many cycles are under
way at once (`Agree.next`).
-/

namespace Rota

open Rota.Roster (Snapshot Transition)

namespace Poller

/-! ## What a visit stands for -/

/-- The transition of a roster that was recorded. -/
def Phase.transition? : Phase → Option Transition
  | .telling _ t _ | .offering _ _ _ t _ | .succeeded t => some t
  | _ => none

/-- The changes still to be told. -/
def Phase.untold : Phase → List (String × Change)
  | .telling _ _ left | .offering _ _ _ _ left => left
  | _ => []

/-- One for a visit whose roster was recorded. -/
def recorded (p : Phase) : Nat :=
  p.transition?.elim 0 fun _ => 1

/-- One for a visit that has failed. -/
def missed : Phase → Nat
  | .failed => 1
  | _ => 0

/-- The number of members whose duty started, or ended. -/
def changed (change : Change) (p : Phase) : Nat :=
  p.transition?.elim 0 fun t => (changes t).countP fun x => x.2 = change

/-- The number of changes of this kind that are still to be told. -/
def untold (change : Change) (p : Phase) : Nat :=
  p.untold.countP fun x => x.2 = change

/-- One for a visit whose event waits for room. -/
def waiting (p : Phase) : Nat :=
  if p.isOffering then 1 else 0

theorem countP_changes_started (t : Transition) :
    ((changes t).countP fun x => x.2 = .started) = t.started.length := by
  simp [changes, List.countP_map, Function.comp_def]

theorem countP_changes_ended (t : Transition) :
    ((changes t).countP fun x => x.2 = .ended) = t.ended.length := by
  simp [changes, List.countP_map, Function.comp_def]

/-! ## Totals -/

/-- A total over the visits of a cycle. -/
def Cycle.sum (c : Cycle) (m : Phase → Nat) : Nat :=
  (c.visits.map fun v => m v.phase).sum

/-- The same total over the entries of a report. -/
def Report.sum (r : Report) (m : Phase → Nat) : Nat :=
  (r.transitions.map fun t => m (.succeeded t.2)).sum + r.failed.length * m .failed

/-- **The report on a cycle** whose visits are over comes to the same total. -/
theorem sum_report {c : Cycle} (allOver : c.visits.all Visit.isOver = true) (m : Phase → Nat) :
    c.report.sum m = c.sum m := by
  unfold Cycle.report Report.sum Cycle.sum
  dsimp only
  generalize c.visits = visits at allOver ⊢
  induction visits with
  | nil => simp
  | cons v rest ih =>
    rw [List.all_cons, Bool.and_eq_true] at allOver
    have hrest := ih allOver.2
    have hv := allOver.1
    rw [List.map_cons, List.sum_cons, ← hrest]
    unfold Visit.isOver at hv
    split at hv
    · next t hp =>
      simp only [hp, List.filterMap_cons, List.map_cons, List.sum_cons]
      omega
    · next hp =>
      simp only [hp, List.filterMap_cons, List.length_cons, Nat.succ_mul]
      omega
    · cases hv

/-- A total when one visit has made a move. -/
theorem sum_set {c : Cycle} {v : Visit} (turn : c.visits[c.cursor]? = some v) (phase : Phase)
    (m : Phase → Nat) :
    ({ c with visits := c.visits.set c.cursor { v with phase } } : Cycle).sum m + m v.phase
      = c.sum m + m phase :=
  sum_map_set turn (fun v => m v.phase) { v with phase }

end Poller

namespace Book

open Poller (Cycle Goes Phase Visit changed missed recorded untold waiting)

/-- **A total** over the reports and the visits under way. -/
def total (b : Book) (m : Phase → Nat) : Nat :=
  (b.reports.map (·.sum m)).sum + b.client.elim 0 (·.sum m) + b.loop.elim 0 (·.sum m)

section Total

variable {o : Relay.Outside} {schedule : Config.Schedule} {b b' : Book} {m : Phase → Nat}
  {phase phase' : Phase}

theorem total_withCycle {owner : Relay.Actor} (polls : owner = .client ∨ owner = .poller)
    (c : Option Cycle) : (b.withCycle c owner).total m + (b.cycleOf owner).elim 0 (·.sum m)
      = b.total m + c.elim 0 (·.sum m) := by
  rcases polls with rfl | rfl
  · show (b.reports.map _).sum + c.elim 0 _ + b.loop.elim 0 _ + b.client.elim 0 _
      = (b.reports.map _).sum + b.client.elim 0 _ + b.loop.elim 0 _ + c.elim 0 _
    omega
  · show (b.reports.map _).sum + b.client.elim 0 _ + c.elim 0 _ + b.loop.elim 0 _
      = (b.reports.map _).sum + b.client.elim 0 _ + b.loop.elim 0 _ + c.elim 0 _
    omega

/-- Between the cycles, a total is one over the reports. -/
theorem total_resting (client : b.client = none) (loop : b.loop = none)
    {f : Poller.Report → Nat} (hf : ∀ r, r.sum m = f r) : b.total m = (b.reports.map f).sum := by
  unfold total
  rw [client, loop, List.map_congr_left fun r _ => hf r]
  rfl

/-- What the visits have reported is not changed by a move of one of them. -/
theorem total_goes (h : Goes o schedule b phase phase' b') : b'.total m = b.total m := by
  obtain ⟨-, hreports, hcycles⟩ := h.fixed
  unfold total
  rw [hreports, show b'.client = b.client from hcycles .client,
    show b'.loop = b.loop from hcycles .poller]

/-- **What can happen to the counts**: a move of a visit, or nothing but that another cycle
is counted. -/
inductive Accounts (o : Relay.Outside) (b b' : Book) : Prop
  | quiet (cycles : Nat) (counts : b'.counts = { b.counts with cycles })
      (offers : b'.offers = b.offers) (unsent : b'.unsent = b.unsent)
      (total : ∀ m : Phase → Nat, m .fresh = 0 → b'.total m = b.total m)
  | visit (schedule : Config.Schedule) (phase phase' : Phase) (moved : Book)
      (goes : Goes o schedule b phase phase' moved) (counts : b'.counts = moved.counts)
      (offers : b'.offers = moved.offers) (unsent : b'.unsent = moved.unsent)
      (total : ∀ m : Phase → Nat, b'.total m + m phase = b.total m + m phase')

@[simp] theorem counts_withCycle (c : Option Cycle) (owner : Relay.Actor) :
    (b.withCycle c owner).counts = b.counts := by
  cases owner <;> rfl

@[simp] theorem offers_withCycle (c : Option Cycle) (owner : Relay.Actor) :
    (b.withCycle c owner).offers = b.offers := by
  cases owner <;> rfl

@[simp] theorem unsent_withCycle (c : Option Cycle) (owner : Relay.Actor) :
    (b.withCycle c owner).unsent = b.unsent := by
  cases owner <;> rfl

theorem Next.accounts (h : b.Next o b') : Accounts o b b' := by
  cases h with
  | same => exact .quiet b.counts.cycles rfl rfl rfl fun _ _ => rfl
  | start owner schedules polls free =>
    refine .quiet (b.counts.cycles + 1) (counts_withCycle ..) (offers_withCycle ..)
      (unsent_withCycle ..) fun m hm => ?_
    have ht := total_withCycle (b := b.count { b.counts with cycles := b.counts.cycles + 1 })
      (m := m) polls (some (.of schedules))
    have hfree : (b.count { b.counts with cycles := b.counts.cycles + 1 }).cycleOf owner = none :=
      free
    have hnew : (Cycle.of schedules).sum m = 0 := by
      unfold Cycle.sum Cycle.of
      simp [Function.comp_def, hm]
    rw [hfree] at ht
    simp only [Option.elim_none, Option.elim_some, hnew, Nat.add_zero] at ht
    exact ht
  | visit owner c v phase moved cycle turn goes =>
    have polls := polls_of_cycleOf cycle
    refine .visit v.schedule v.phase phase moved goes (counts_withCycle ..)
      (offers_withCycle ..) (unsent_withCycle ..) fun m => ?_
    have ht := total_withCycle (b := moved) (m := m) polls
      (some { c with visits := c.visits.set c.cursor { v with phase } })
    have hset := Poller.sum_set turn phase m
    rw [goes.fixed.2.2 owner, cycle, total_goes goes] at ht
    simp only [Option.elim_some] at ht
    omega
  | turn owner c n cycle =>
    refine .quiet b.counts.cycles (counts_withCycle ..) (offers_withCycle ..)
      (unsent_withCycle ..) fun m _ => ?_
    have ht := total_withCycle (b := b) (m := m) (polls_of_cycleOf cycle)
      (some { c with cursor := n })
    have hsum : ({ c with cursor := n } : Cycle).sum m = c.sum m := rfl
    rw [cycle] at ht
    simp only [Option.elim_some, hsum] at ht
    omega
  | finish owner c cycle allOver =>
    refine .quiet b.counts.cycles (counts_withCycle ..) (offers_withCycle ..)
      (unsent_withCycle ..) fun m _ => ?_
    have ht := total_withCycle (b := { b with reports := c.report :: b.reports }) (m := m)
      (polls_of_cycleOf cycle) none
    have hcycle : ({ b with reports := c.report :: b.reports } : Book).cycleOf owner = some c :=
      cycle
    have hreports : ({ b with reports := c.report :: b.reports } : Book).total m
        = c.sum m + b.total m := by
      unfold total
      dsimp only
      rw [List.map_cons, List.sum_cons, Poller.sum_report allOver]
      omega
    rw [hcycle, hreports] at ht
    simp only [Option.elim_none, Option.elim_some] at ht
    omega

end Total

/-! ## The counts agree with the totals -/

/-- **The counts agree** with these totals, and with what became of the events. -/
structure Agree (counts : Poller.Counts) (offers : List Relay.Offer)
    (unsent : List Relay.Unsent) (total : (Phase → Nat) → Nat) : Prop where
  /-- A fetch has failed, or has brought an empty roster. -/
  missed_eq : counts.fetchFailures + counts.emptyRosters = total missed
  recorded_eq : counts.fetched = counts.emptyRosters + total recorded
  /-- The changes of a recorded roster are counted one by one. -/
  started_eq : counts.started + total (untold .started) = total (changed .started)
  ended_eq : counts.ended + total (untold .ended) = total (changed .ended)
  /-- A change that is counted has been accepted or turned away by the queue, or was not
  told, or still waits for room. -/
  told_eq : counts.started + counts.ended = (Relay.admitted offers).length
    + counts.enqueueFailures + unsent.length + total waiting

section Agree

variable {o : Relay.Outside} {schedule : Config.Schedule} {b b' moved : Book}
  {phase phase' : Phase}

/-- A change that is counted is no longer to be told. -/
theorem tell_counts (counts : Poller.Counts) (member : String) (change : Change)
    (left : List (String × Change)) :
    (counts.tell change).started + left.countP (fun x => x.2 = .started)
        = counts.started + ((member, change) :: left).countP (fun x => x.2 = .started)
      ∧ (counts.tell change).ended + left.countP (fun x => x.2 = .ended)
        = counts.ended + ((member, change) :: left).countP (fun x => x.2 = .ended)
      ∧ (counts.tell change).started + (counts.tell change).ended
        = counts.started + counts.ended + 1
      ∧ (counts.tell change).fetched = counts.fetched
      ∧ (counts.tell change).fetchFailures = counts.fetchFailures
      ∧ (counts.tell change).emptyRosters = counts.emptyRosters
      ∧ (counts.tell change).enqueueFailures = counts.enqueueFailures := by
  simp only [List.countP_cons]
  cases change with
  | started =>
    refine ⟨?_, ?_, ?_, rfl, rfl, rfl, rfl⟩
    all_goals
      simp only [Poller.Counts.tell, decide_true, reduceCtorEq, decide_false, if_true,
        Bool.false_eq_true, if_false]
      omega
  | ended =>
    refine ⟨?_, ?_, ?_, rfl, rfl, rfl, rfl⟩
    all_goals
      simp only [Poller.Counts.tell, decide_true, reduceCtorEq, decide_false, if_true,
        Bool.false_eq_true, if_false]
      omega

/-- How the offer of an event has ended is either seen in the queue, or counted. -/
theorem heed_counts (counts : Poller.Counts) (x : Relay.Offer) (offers : List Relay.Offer) :
    (Relay.admitted (x :: offers)).length + (counts.heed x.result).enqueueFailures
        = (Relay.admitted offers).length + counts.enqueueFailures + 1
      ∧ (counts.heed x.result).started = counts.started
      ∧ (counts.heed x.result).ended = counts.ended
      ∧ (counts.heed x.result).fetched = counts.fetched
      ∧ (counts.heed x.result).fetchFailures = counts.fetchFailures
      ∧ (counts.heed x.result).emptyRosters = counts.emptyRosters := by
  obtain ⟨sender, event, result⟩ := x
  cases result with
  | ok _ =>
    refine ⟨?_, rfl, rfl, rfl, rfl, rfl⟩
    rw [Relay.admitted_ok, List.length_append, List.length_singleton]
    simp only [Poller.Counts.heed]
    omega
  | error failure =>
    refine ⟨?_, rfl, rfl, rfl, rfl, rfl⟩
    rw [Relay.admitted_error]
    simp only [Poller.Counts.heed]
    omega

/-- A fetch that has ended badly is counted as one of the two kinds. -/
theorem fail_counts (counts : Poller.Counts) (answer : Poller.Heard) :
    (counts.fail answer).fetchFailures + (counts.fail answer).emptyRosters
        = counts.fetchFailures + counts.emptyRosters + 1
      ∧ (counts.fail answer).fetched + counts.emptyRosters
        = counts.fetched + (counts.fail answer).emptyRosters
      ∧ (counts.fail answer).started = counts.started
      ∧ (counts.fail answer).ended = counts.ended
      ∧ (counts.fail answer).enqueueFailures = counts.enqueueFailures := by
  unfold Poller.Counts.fail
  split
  · refine ⟨?_, ?_, rfl, rfl, rfl⟩
    · dsimp only
      omega
    · dsimp only
      omega
  · exact ⟨Nat.succ_add _ _, rfl, rfl, rfl, rfl⟩

/-- **A move of a visit** changes the counts as it changes the totals. -/
theorem Agree.goes (h : Agree b.counts b.offers b.unsent b.total)
    (goes : Goes o schedule b phase phase' moved) {total : (Phase → Nat) → Nat}
    (htotal : ∀ m, total m + m phase = b.total m + m phase') :
    Agree moved.counts moved.offers moved.unsent total := by
  obtain ⟨hmissed, hrecorded, hstarted, hended, htold⟩ := h
  have tmissed := htotal missed
  have trecorded := htotal recorded
  have tstarted := htotal (changed .started)
  have tended := htotal (changed .ended)
  have ustarted := htotal (untold .started)
  have uended := htotal (untold .ended)
  have twaiting := htotal waiting
  cases goes
  -- what the move of the visit means for each of the totals
  all_goals
    simp only [missed, recorded, changed, untold, waiting, Phase.transition?, Phase.untold,
      Phase.isOffering, Option.elim_none, Option.elim_some, List.countP_nil, Bool.false_eq_true,
      if_true, if_false, Nat.add_zero] at tmissed trecorded tstarted tended ustarted uended twaiting
  case fetch due =>
    refine ⟨?_, ?_, ?_, ?_, ?_⟩
    all_goals
      dsimp only
      omega
  case fail due answer bad =>
    obtain ⟨hf, he, hs, hn, hq⟩ := fail_counts b.counts answer
    refine ⟨?_, ?_, ?_, ?_, ?_⟩
    all_goals
      simp only [Book.count]
      omega
  case receive due answer roster good =>
    refine ⟨?_, ?_, ?_, ?_, ?_⟩
    all_goals
      simp only [Book.count, Poller.Counts.succeed]
      omega
  case succeed roster t => exact ⟨by omega, by omega, by omega, by omega, by omega⟩
  case skip roster t member change left mute =>
    obtain ⟨hs, he, hboth, hf, hff, hr, hq⟩ := tell_counts b.counts member change left
    refine ⟨?_, ?_, ?_, ?_, ?_⟩
    all_goals
      simp only [Book.count, Book.forgo, List.length_cons]
      omega
  case offer roster t member change left x deliverable origin =>
    obtain ⟨hs, he, hboth, hf, hff, hr, hq⟩ := tell_counts b.counts member change left
    obtain ⟨hx, xs, xe, xf, xff, xr⟩ := heed_counts (b.counts.tell change) x b.offers
    refine ⟨?_, ?_, ?_, ?_, ?_⟩
    all_goals
      simp only [Book.count]
      omega
  case wait roster t member change left event deadline deliverable origin =>
    obtain ⟨hs, he, hboth, hf, hff, hr, hq⟩ := tell_counts b.counts member change left
    refine ⟨?_, ?_, ?_, ?_, ?_⟩
    all_goals
      simp only [Book.count]
      omega
  case offered event deadline roster t left x same =>
    obtain ⟨hx, xs, xe, xf, xff, xr⟩ := heed_counts b.counts x b.offers
    refine ⟨?_, ?_, ?_, ?_, ?_⟩
    all_goals
      simp only [Book.count]
      omega

/-- **The counts go on agreeing with the totals**, whatever happens next. -/
theorem Agree.next (h : Agree b.counts b.offers b.unsent b.total) (hb : b.Next o b') :
    Agree b'.counts b'.offers b'.unsent b'.total := by
  cases hb.accounts with
  | quiet cycles counts offers unsent total =>
    obtain ⟨hmissed, hrecorded, hstarted, hended, htold⟩ := h
    rw [counts, offers, unsent]
    refine ⟨?_, ?_, ?_, ?_, ?_⟩
    · rw [total missed rfl]
      exact hmissed
    · rw [total recorded rfl]
      exact hrecorded
    · rw [total (untold .started) rfl, total (changed .started) rfl]
      exact hstarted
    · rw [total (untold .ended) rfl, total (changed .ended) rfl]
      exact hended
    · rw [total waiting rfl]
      exact htold
  | visit schedule phase phase' moved goes counts offers unsent total =>
    rw [counts, offers, unsent]
    exact h.goes goes total

end Agree

end Book

/-! ## The reports -/

namespace Poller

/-- **A report lists these names**: each of them in one of its two lists, and in either
list in their order. -/
structure Report.Lists (r : Report) (names : List String) : Prop where
  transitions : (r.transitions.map Prod.fst).Sublist names
  failed : r.failed.Sublist names
  all : (r.transitions.map Prod.fst ++ r.failed).Perm names

/-- **The report on a cycle** lists its schedules. -/
theorem lists_report {c : Cycle} (allOver : c.visits.all Visit.isOver = true) :
    c.report.Lists (c.visits.map fun v => v.schedule.name) := by
  unfold Cycle.report
  generalize c.visits = visits at allOver ⊢
  induction visits with
  | nil => exact ⟨.slnil, .slnil, .nil⟩
  | cons v rest ih =>
    rw [List.all_cons, Bool.and_eq_true] at allOver
    obtain ⟨htransitions, hfailed, hall⟩ := ih allOver.2
    have hv := allOver.1
    unfold Visit.isOver at hv
    split at hv
    · next t hp =>
      refine ⟨?_, ?_, ?_⟩
      all_goals simp only [hp, List.filterMap_cons, List.map_cons, List.cons_append]
      · exact htransitions.cons_cons _
      · exact hfailed.cons _
      · exact hall.cons _
    · next hp =>
      refine ⟨?_, ?_, ?_⟩
      all_goals simp only [hp, List.filterMap_cons, List.map_cons]
      · exact htransitions.cons _
      · exact hfailed.cons_cons _
      · exact List.perm_middle.trans (hall.cons _)
    · cases hv

section Sums

variable (r : Report)

theorem sum_missed : r.sum missed = r.failed.length := by
  simp [Report.sum, missed]

theorem sum_recorded : r.sum recorded = r.transitions.length := by
  simp [Report.sum, recorded, Phase.transition?]

theorem sum_started :
    r.sum (changed .started) = (r.transitions.map fun t => t.2.started.length).sum := by
  simp [Report.sum, changed, Phase.transition?, countP_changes_started]

theorem sum_ended :
    r.sum (changed .ended) = (r.transitions.map fun t => t.2.ended.length).sum := by
  simp [Report.sum, changed, Phase.transition?, countP_changes_ended]

/-- Nothing is left to be told when a cycle is over. -/
theorem sum_untold (change : Change) : r.sum (untold change) = 0 := by
  simp [Report.sum, untold, Phase.untold]

theorem sum_waiting : r.sum waiting = 0 := by
  simp [Report.sum, waiting, Phase.isOffering]

end Sums

end Poller

end Rota
