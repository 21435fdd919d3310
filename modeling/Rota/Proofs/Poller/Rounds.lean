import Mathlib.Data.List.Nodup
import Rota.Proofs.Poller.Book

/-!
# Rounds of polling

One cycle after the other over the same schedules, no two of which have the
same name, while anything else goes on: other senders fill the queue, the
worker stops, visits wait for room, and the schedules are fetched at the same
time and answer in any order.

Each schedule has a page of its own in the book (`Book.page`). Where a visit
has got to tells what must stand on the page of its schedule (`Page.At`), as a
function of the fetches of this schedule alone. A move of the visit keeps that
(`Goes.at`), and touches no other page (`Goes.page_of_ne`). So whatever happens
next, the reports, the registry and the events offered go on being those that
`Rota.Proofs.Poller.Fetches` computes, schedule by schedule (`Kept.next`).
-/

namespace Rota

open Rota.Roster (Snapshot Transition History)
open Rota.Poller (Heard Phase Goes goodRoster? transition? history? told deliverable changes
  reportOf)

/-! ## The page of a schedule -/

/-- **What the book says of one schedule**: how often it was fetched, its history, and the
changes that were told. -/
structure Page where
  fetched : Nat
  history : Option History
  tellings : List (String × Change)

/-- The change of a schedule that an event tells of. -/
def Event.changeOf? (e : Event) (name : String) : Option (String × Change) :=
  match e.origin with
  | .roster schedule member change => if schedule = name then some (member, change) else none
  | .inbound => none

namespace Book

/-- **The page of a schedule.** -/
def page (b : Book) (name : String) : Page where
  fetched := b.fetched name
  history := b.registry.histories.get? name
  tellings := (b.offers.filterMap fun x => x.event.changeOf? name).reverse

variable {b : Book} {name : String}

@[simp] theorem page_count (c : Poller.Counts) : (b.count c).page name = b.page name := rfl

@[simp] theorem page_forgo (x : Relay.Unsent) : (b.forgo x).page name = b.page name := rfl

theorem page_put (other : String) (n : Nat) :
    ({ b with fetches := b.fetches.put other n } : Book).page name
      = { b.page name with fetched := if name = other then n else b.fetched name } := by
  unfold page fetched
  rw [Keyed.get?_put]
  split <;> rfl

theorem page_record (other : String) (roster : Snapshot) :
    ({ b with registry := (b.registry.record other roster).2 } : Book).page name
      = { b.page name with
          history :=
            if name = other then some ((b.registry.history other).record roster).2
            else b.registry.histories.get? name } := by
  unfold page
  rw [show (b.registry.record other roster).2.histories
    = b.registry.histories.put other ((b.registry.history other).record roster).2 from rfl,
    Keyed.get?_put]
  rfl

theorem page_offer (x : Relay.Offer) :
    ({ b with offers := x :: b.offers } : Book).page name
      = { b.page name with
          tellings := (b.page name).tellings ++ (x.event.changeOf? name).toList } := by
  unfold page
  rw [List.filterMap_cons]
  split
  · next h =>
    rw [h, Option.toList_none, List.append_nil]
    rfl
  · next h =>
    rw [h, List.reverse_cons]
    rfl

end Book

/-- **What must stand on the page of a schedule** when `n` cycles have ended, and its visit
in the cycle under way, if there is one, has got so far. -/
def Page.At (p : Page) (schedule : Config.Schedule) (heard : Nat → Heard) (n : Nat) :
    Phase → Prop
  | .fresh => p = ⟨n, history? schedule heard n, told schedule heard n⟩
  | .fetching _ answer =>
    answer = heard n ∧ p = ⟨n + 1, history? schedule heard n, told schedule heard n⟩
  | .telling roster t left =>
    goodRoster? schedule (heard n) = some roster ∧ transition? schedule heard n = some t
      ∧ ∃ done, changes t = done ++ left
        ∧ p = ⟨n + 1, history? schedule heard (n + 1),
            told schedule heard n ++ deliverable roster done⟩
  | .offering event _ roster t left =>
    goodRoster? schedule (heard n) = some roster ∧ transition? schedule heard n = some t
      ∧ ∃ done member change, changes t = done ++ (member, change) :: left
        ∧ (Poller.deliveryFor roster.target member).isSome = true
        ∧ event.origin = .roster schedule.name member change
        ∧ p = ⟨n + 1, history? schedule heard (n + 1),
            told schedule heard n ++ deliverable roster done⟩
  | .succeeded t =>
    transition? schedule heard n = some t
      ∧ p = ⟨n + 1, history? schedule heard (n + 1), told schedule heard (n + 1)⟩
  | .failed =>
    goodRoster? schedule (heard n) = none
      ∧ p = ⟨n + 1, history? schedule heard (n + 1), told schedule heard (n + 1)⟩

namespace Poller

variable {o : Relay.Outside} {schedule : Config.Schedule} {b b' : Book} {phase phase' : Phase}
  {n : Nat} {name : String}

theorem Goes.fixed (h : Goes o schedule b phase phase' b') :
    b'.timeout = b.timeout ∧ b'.reports = b.reports ∧ ∀ a, b'.cycleOf a = b.cycleOf a := by
  cases h <;> exact ⟨rfl, rfl, fun a => by cases a <;> rfl⟩

theorem changeOf?_self {e : Event} {member : String} {change : Change}
    (h : e.origin = .roster name member change) : e.changeOf? name = some (member, change) := by
  unfold Event.changeOf?
  rw [h]
  exact if_pos rfl

theorem changeOf?_of_ne {e : Event} {other member : String} {change : Change}
    (h : e.origin = .roster other member change) (hne : name ≠ other) :
    e.changeOf? name = none := by
  unfold Event.changeOf?
  rw [h]
  exact if_neg (Ne.symm hne)

/-- **A move of a visit** leaves the pages of the other schedules alone. -/
theorem Goes.page_of_ne (h : Goes o schedule b phase phase' b') {heard : Nat → Heard}
    (hp : (b.page schedule.name).At schedule heard n phase) (hne : name ≠ schedule.name) :
    b'.page name = b.page name := by
  cases h with
  | fetch due => rw [Book.page_put, if_neg hne]; rfl
  | receive due answer roster good => rw [Book.page_count, Book.page_record, if_neg hne]; rfl
  | offer roster t member change left x deliverable origin =>
    rw [Book.page_count, Book.page_offer, changeOf?_of_ne origin hne]
    simp
  | offered event deadline roster t left x same =>
    obtain ⟨-, -, done, member, change, -, -, origin, -⟩ := hp
    rw [Book.page_count, Book.page_offer, same, changeOf?_of_ne origin hne]
    simp
  | fail _ _ _ | succeed _ _ | skip _ _ _ _ _ _ | wait _ _ _ _ _ _ _ _ _ => rfl

/-- **A move of a visit** leaves on the page of its schedule what must stand there. -/
theorem Goes.at (h : Goes o schedule b phase phase' b')
    (hp : (b.page schedule.name).At schedule (o.heard b.timeout schedule) n phase) :
    (b'.page schedule.name).At schedule (o.heard b.timeout schedule) n phase' := by
  cases h with
  | fetch due =>
    have hf : b.fetched schedule.name = n := congrArg Page.fetched hp
    refine ⟨by rw [hf], ?_⟩
    rw [Book.page_put, if_pos rfl, hp, hf]
  | fail due answer bad =>
    obtain ⟨rfl, hp⟩ := hp
    refine ⟨bad, ?_⟩
    rw [Book.page_count, hp, history?_succ_bad bad, told_succ, toldBy_bad bad, List.append_nil]
  | receive due answer roster good =>
    obtain ⟨rfl, hp⟩ := hp
    obtain ⟨ht, hh⟩ := Poller.record_history? good
    have hhist : b.registry.history schedule.name
        = (history? schedule (o.heard b.timeout schedule) n).getD { name := schedule.name } :=
      congrArg (fun h => h.getD { name := schedule.name }) (congrArg Page.history hp)
    rw [← hhist] at ht hh
    refine ⟨good, ht, [], rfl, ?_⟩
    rw [Book.page_count, Book.page_record, if_pos rfl, hp, hh]
    simp [deliverable]
  | succeed roster t =>
    obtain ⟨good, ht, done, hdone, hp⟩ := hp
    rw [List.append_nil] at hdone
    refine ⟨ht, ?_⟩
    rw [hp, told_succ, toldBy_good good ht, hdone]
  | skip roster t member change left mute =>
    obtain ⟨good, ht, done, hdone, hp⟩ := hp
    refine ⟨good, ht, done ++ [(member, change)], by rw [hdone]; simp, ?_⟩
    rw [Book.page_forgo, Book.page_count, hp]
    simp [deliverable, mute]
  | offer roster t member change left x deliverable origin =>
    obtain ⟨good, ht, done, hdone, hp⟩ := hp
    refine ⟨good, ht, done ++ [(member, change)], by rw [hdone]; simp, ?_⟩
    rw [Book.page_count, Book.page_offer, changeOf?_self origin, hp]
    simp [Poller.deliverable, deliverable]
  | wait roster t member change left event deadline deliverable origin =>
    obtain ⟨good, ht, done, hdone, hp⟩ := hp
    exact ⟨good, ht, done, member, change, hdone, deliverable, origin, hp⟩
  | offered event deadline roster t left x same =>
    obtain ⟨good, ht, done, member, change, hdone, hdel, origin, hp⟩ := hp
    refine ⟨good, ht, done ++ [(member, change)], by rw [hdone]; simp, ?_⟩
    rw [Book.page_count, Book.page_offer, same, changeOf?_self origin, hp]
    simp [deliverable, hdel]

/-- A fetch changes something, if only nothing, when it is good. -/
theorem isNone_goodRoster? {schedule : Config.Schedule} {heard : Nat → Heard} {n : Nat} :
    (goodRoster? schedule (heard n)).isNone = (transition? schedule heard n).isNone := by
  unfold transition?
  rw [Option.isNone_map]

/-- **The report on a cycle** whose visits are over says what it should. -/
theorem report_eq {c : Cycle} {schedules : List Config.Schedule}
    {heard : Config.Schedule → Nat → Heard} (hv : c.visits.map Visit.schedule = schedules)
    (hover : c.visits.all Visit.isOver = true)
    (hat : ∀ v ∈ c.visits, (b.page v.schedule.name).At v.schedule (heard v.schedule) n v.phase) :
    c.report = reportOf schedules heard n := by
  subst hv
  have hcase : ∀ v ∈ c.visits,
      (∃ t, v.phase = .succeeded t ∧ transition? v.schedule (heard v.schedule) n = some t)
        ∨ v.phase = .failed ∧ transition? v.schedule (heard v.schedule) n = none := by
    intro v hm
    have ho := List.all_eq_true.1 hover v hm
    have ha := hat v hm
    unfold Visit.isOver at ho
    split at ho
    · next t hp =>
      rw [hp] at ha
      exact .inl ⟨t, hp, ha.1⟩
    · next hp =>
      rw [hp] at ha
      refine .inr ⟨hp, Option.isNone_iff_eq_none.1 ?_⟩
      rw [← isNone_goodRoster?, ha.1]
      rfl
    · cases ho
  unfold Cycle.report reportOf
  rw [List.filterMap_map, List.filterMap_map]
  congr 1
  · refine List.filterMap_congr fun v hm => ?_
    rcases hcase v hm with ⟨t, hp, ht⟩ | ⟨hp, ht⟩
    · simp [hp, ht]
    · simp [hp, ht]
  · refine List.filterMap_congr fun v hm => ?_
    rcases hcase v hm with ⟨t, hp, ht⟩ | ⟨hp, ht⟩
    · simp [hp, ht, isNone_goodRoster?]
    · simp [hp, ht, isNone_goodRoster?]

/-- When a visit is over, its schedule is ready for the next cycle. -/
theorem at_fresh_of_isOver {v : Visit} {p : Page} {heard : Nat → Heard}
    (hover : v.isOver = true) (hp : p.At v.schedule heard n v.phase) :
    p.At v.schedule heard (n + 1) .fresh := by
  unfold Visit.isOver at hover
  split at hover
  · next h =>
    rw [h] at hp
    exact hp.2
  · next h =>
    rw [h] at hp
    exact hp.2
  · cases hover

end Poller

namespace Book

variable {o : Relay.Outside} {schedules : List Config.Schedule} {b b' : Book}
  {a owner : Relay.Actor} {c : Option Poller.Cycle} {name : String}

theorem cycleOf_withCycle (h : owner = .client ∨ owner = .poller) :
    (b.withCycle c owner).cycleOf owner = c := by
  rcases h with rfl | rfl <;> rfl

theorem cycleOf_withCycle_of_ne (h : a ≠ owner) :
    (b.withCycle c owner).cycleOf a = b.cycleOf a := by
  cases owner with
  | client => cases a <;> first | rfl | exact absurd rfl h
  | poller => cases a <;> first | rfl | exact absurd rfl h
  | _ => rfl

theorem polls_of_cycleOf {c : Poller.Cycle} (h : b.cycleOf a = some c) :
    a = .client ∨ a = .poller := by
  cases a with
  | client => exact .inl rfl
  | poller => exact .inr rfl
  | _ => cases h

section WithCycle

variable (b c owner)

@[simp] theorem page_withCycle : (b.withCycle c owner).page name = b.page name := by
  cases owner <;> rfl

@[simp] theorem reports_withCycle : (b.withCycle c owner).reports = b.reports := by
  cases owner <;> rfl

@[simp] theorem timeout_withCycle : (b.withCycle c owner).timeout = b.timeout := by
  cases owner <;> rfl

end WithCycle

/-! ## One cycle at a time -/

/-- **At most one cycle is under way**, and it visits these schedules. -/
structure Single (b : Book) (schedules : List Config.Schedule) : Prop where
  alone : b.client = none ∨ b.loop = none
  visits_eq : ∀ a c, b.cycleOf a = some c → c.visits.map Poller.Visit.schedule = schedules

theorem Single.unique (h : b.Single schedules) {c d : Poller.Cycle}
    (ha : b.cycleOf a = some c) (ho : b.cycleOf owner = some d) : a = owner := by
  rcases polls_of_cycleOf ha with rfl | rfl <;> rcases polls_of_cycleOf ho with rfl | rfl
  · rfl
  · rcases h.alone with hn | hn
    · cases hn.symm.trans ha
    · cases hn.symm.trans ho
  · rcases h.alone with hn | hn
    · cases hn.symm.trans ho
    · cases hn.symm.trans ha
  · rfl

/-- While an actor has a cycle under way, nobody else has one. -/
theorem Single.cycleOf_eq_none (h : b.Single schedules) {d : Poller.Cycle}
    (ho : b.cycleOf owner = some d) (ha : a ≠ owner) : b.cycleOf a = none :=
  Option.eq_none_iff_forall_ne_some.2 fun _ hc => ha (h.unique hc ho)

/-- **The book is as the fetches make it.** -/
structure Kept (b : Book) (o : Relay.Outside) (schedules : List Config.Schedule) : Prop where
  reports_eq : b.reports.reverse
    = (List.range b.reports.length).map (reportOf schedules (o.heard b.timeout))
  resting : (∀ a, b.cycleOf a = none) → ∀ schedule ∈ schedules,
    (b.page schedule.name).At schedule (o.heard b.timeout schedule) b.reports.length .fresh
  visiting : ∀ a c, b.cycleOf a = some c → ∀ v ∈ c.visits,
    (b.page v.schedule.name).At v.schedule (o.heard b.timeout v.schedule) b.reports.length v.phase
  others : ∀ name, (∀ schedule ∈ schedules, name ≠ schedule.name) → b.page name = ⟨0, none, []⟩

namespace Kept

/-- What is counted makes no difference. -/
theorem count (h : b.Kept o schedules) (c : Poller.Counts) : (b.count c).Kept o schedules :=
  ⟨h.reports_eq, h.resting, h.visiting, h.others⟩

/-- **A cycle is under way**, and its visits are where the fetches have brought them. -/
theorem withCycle {c : Poller.Cycle} (polls : owner = .client ∨ owner = .poller)
    (alone : ∀ a, a ≠ owner → b.cycleOf a = none)
    (reports : b.reports.reverse
      = (List.range b.reports.length).map (reportOf schedules (o.heard b.timeout)))
    (visits : ∀ v ∈ c.visits, (b.page v.schedule.name).At v.schedule
      (o.heard b.timeout v.schedule) b.reports.length v.phase)
    (others : ∀ name, (∀ schedule ∈ schedules, name ≠ schedule.name) →
      b.page name = ⟨0, none, []⟩) :
    (b.withCycle (some c) owner).Kept o schedules := by
  have hown := cycleOf_withCycle (b := b) (c := some c) polls
  refine ⟨?_, fun hno => ?_, fun a d hd v hv => ?_, fun name hname => ?_⟩
  · rw [reports_withCycle, timeout_withCycle]
    exact reports
  · cases hown.symm.trans (hno owner)
  · rw [page_withCycle, timeout_withCycle, reports_withCycle]
    by_cases ha : a = owner
    · subst ha
      cases hown.symm.trans hd
      exact visits v hv
    · rw [cycleOf_withCycle_of_ne ha, alone a ha] at hd
      cases hd
  · rw [page_withCycle]
    exact others name hname

theorem start {started : List Config.Schedule} (h : b.Kept o schedules)
    (polls : owner = .client ∨ owner = .poller) (free : b.cycleOf owner = none)
    (hs' : (b.withCycle (some (.of started)) owner).Single schedules) :
    (b.withCycle (some (.of started)) owner).Kept o schedules := by
  have hown := cycleOf_withCycle (b := b) (c := some (.of started)) polls
  have hstarted : started = schedules := by
    rw [← hs'.visits_eq owner _ hown]
    simp [Poller.Cycle.of, Function.comp_def]
  have alone : ∀ a, a ≠ owner → b.cycleOf a = none := by
    intro a ha
    rw [← cycleOf_withCycle_of_ne (c := some (.of started)) ha]
    exact hs'.cycleOf_eq_none hown ha
  have hnone : ∀ a, b.cycleOf a = none := fun a =>
    Decidable.byCases (fun ha : a = owner => ha ▸ free) (alone a)
  refine withCycle polls alone h.reports_eq (fun v hv => ?_) h.others
  obtain ⟨schedule, hm, rfl⟩ := List.mem_map.1 hv
  exact h.resting hnone schedule (hstarted ▸ hm)

theorem turn {c : Poller.Cycle} {n : Nat} (h : b.Kept o schedules) (hs : b.Single schedules)
    (cycle : b.cycleOf owner = some c) :
    (b.withCycle (some { c with cursor := n }) owner).Kept o schedules :=
  withCycle (polls_of_cycleOf cycle) (fun _ ha => hs.cycleOf_eq_none cycle ha) h.reports_eq
    (h.visiting owner c cycle) h.others

theorem visit {c : Poller.Cycle} {v : Poller.Visit} {phase : Phase} (h : b.Kept o schedules)
    (hs : b.Single schedules) (hnames : (schedules.map Config.Schedule.name).Nodup)
    (cycle : b.cycleOf owner = some c) (turn : c.visits[c.cursor]? = some v)
    (goes : Goes o v.schedule b v.phase phase b') :
    (b'.withCycle (some { c with visits := c.visits.set c.cursor { v with phase } }) owner).Kept
      o schedules := by
  obtain ⟨htimeout, hreports, hcycles⟩ := goes.fixed
  have hvm : v ∈ c.visits := List.mem_of_getElem? turn
  have hat := h.visiting owner c cycle v hvm
  have hvs := hs.visits_eq owner c cycle
  -- two visits of a cycle that are not the same are of schedules with other names
  have hne : ∀ j w, j ≠ c.cursor → c.visits[j]? = some w → w.schedule.name ≠ v.schedule.name := by
    intro j w hj hw he
    rw [← hvs, List.map_map] at hnames
    refine hj ((List.getElem?_inj ?_ hnames).1 ?_)
    · rw [List.length_map]
      exact (List.getElem?_eq_some_iff.1 hw).1
    · rw [List.getElem?_map, List.getElem?_map, hw, turn]
      exact congrArg some he
  refine withCycle (polls_of_cycleOf cycle) (fun a ha => ?_) ?_ (fun w hw => ?_)
    fun name hname => ?_
  · rw [hcycles]
    exact hs.cycleOf_eq_none cycle ha
  · rw [hreports, htimeout]
    exact h.reports_eq
  · rw [hreports, htimeout]
    obtain ⟨j, hj⟩ := List.mem_iff_getElem?.1 hw
    by_cases hjc : j = c.cursor
    · -- the visit that made the move
      subst hjc
      rw [List.getElem?_set_self (List.getElem?_eq_some_iff.1 turn).1] at hj
      cases hj
      have hgo := goes.at hat
      exact hgo
    · rw [List.getElem?_set_ne (Ne.symm hjc)] at hj
      rw [goes.page_of_ne hat (hne j w hjc hj)]
      exact h.visiting owner c cycle w (List.mem_of_getElem? hj)
  · have hv : v.schedule ∈ schedules := hvs ▸ List.mem_map_of_mem hvm
    rw [goes.page_of_ne hat (hname _ hv)]
    exact h.others name hname

theorem finish {c : Poller.Cycle} (h : b.Kept o schedules) (hs : b.Single schedules)
    (cycle : b.cycleOf owner = some c) (allOver : c.visits.all Poller.Visit.isOver = true) :
    (({ b with reports := c.report :: b.reports } : Book).withCycle none owner).Kept
      o schedules := by
  have polls := polls_of_cycleOf cycle
  have hvs := hs.visits_eq owner c cycle
  have hcycles : ∀ a, ({ b with reports := c.report :: b.reports } : Book).cycleOf a
      = b.cycleOf a := fun a => by cases a <;> rfl
  have hreport : c.report = reportOf schedules (o.heard b.timeout) b.reports.length :=
    Poller.report_eq hvs allOver (h.visiting owner c cycle)
  refine ⟨?_, fun _ schedule hm => ?_, fun a d hd => ?_, fun name hname => ?_⟩
  · rw [reports_withCycle, timeout_withCycle]
    show (c.report :: b.reports).reverse = (List.range (b.reports.length + 1)).map _
    rw [List.reverse_cons, h.reports_eq, List.range_succ, List.map_append, hreport]
    rfl
  · -- the cycle is over, so all its schedules are ready for the next one
    rw [page_withCycle, timeout_withCycle, reports_withCycle]
    rw [← hvs] at hm
    obtain ⟨v, hv, rfl⟩ := List.mem_map.1 hm
    exact Poller.at_fresh_of_isOver (List.all_eq_true.1 allOver v hv)
      (h.visiting owner c cycle v hv)
  · by_cases ha : a = owner
    · subst ha
      rw [cycleOf_withCycle polls] at hd
      cases hd
    · rw [cycleOf_withCycle_of_ne ha, hcycles, hs.cycleOf_eq_none cycle ha] at hd
      cases hd
  · rw [page_withCycle]
    exact h.others name hname

/-- **The book stays as the fetches make it**, whatever happens next. -/
theorem next (h : b.Kept o schedules) (hnames : (schedules.map Config.Schedule.name).Nodup)
    (hb : b.Next o b') (hs : b.Single schedules) (hs' : b'.Single schedules) :
    b'.Kept o schedules := by
  cases hb with
  | same => exact h
  | start owner started polls free => exact (h.count _).start polls free hs'
  | visit owner c v phase b' cycle turn goes => exact h.visit hs hnames cycle turn goes
  | turn owner c n cycle => exact h.turn hs cycle
  | finish owner c cycle allOver => exact h.finish hs cycle allOver

end Kept

end Book

end Rota
