import Rota.Proofs.Poller.Faithful
import Rota.Proofs.Poller.Tally
import Rota.Roster.Source

/-!
# No change of duty disappears

When no cycle is under way, the counts of the poller agree with the reports and with
the queue. Every report lists every schedule once, among the transitions or among those
that failed; every fetch has become an entry of a report; and every change that was
counted was accepted by the queue, or turned away and counted as such, or was for a
callback without an address (`Polling.tallied`).

A configuration that passes the check has an address for every callback. If moreover
the rosters carry the targets of their schedules, as those from the configured source
do, nothing is ever left untold.
-/

namespace Rota

open Rota.Roster (Snapshot)

/-- What is heard in time is what was answered. -/
theorem Relay.Reply.answer_of_within {α : Type} {r : Relay.Reply α} {limit : Nat} {a : α}
    (h : (r.within limit).2 = some a) : r.answer = a := by
  unfold Relay.Reply.within at h
  split at h
  · split at h
    · exact Option.some.inj h
    · cases h
  · cases h

namespace Poller

/-! ## Changes that are not told -/

/-- **What cannot be delivered** is for a callback without an address. -/
theorem deliveryFor_eq_none_iff (target : Roster.Target) (member : String) :
    deliveryFor target member = none
      ↔ target.medium = .callback ∧ target.callbackUrl = none := by
  unfold deliveryFor
  cases target.medium <;> simp [Medium.channel?]

/-- A good roster is one that came. -/
theorem eq_of_goodRoster? {schedule : Config.Schedule} {answer : Heard} {roster : Snapshot}
    (h : goodRoster? schedule answer = some roster) : answer = some (.ok roster) := by
  unfold goodRoster? at h
  split at h
  · split at h
    · cases h
    · cases h
      rfl
  · cases h

/-- A report lists each name once if the names are all different. -/
theorem Report.Lists.count_eq_one {r : Report} {names : List String} (h : r.Lists names)
    (hnames : names.Nodup) {name : String} (hm : name ∈ names) :
    (r.transitions.map Prod.fst).count name + r.failed.count name = 1 := by
  rw [← List.count_append, h.all.count_eq, hnames.count, if_pos hm]

/-- Reports that list the same names have as many entries. -/
theorem sum_lengths {reports : List Report} {names : List String}
    (h : ∀ r ∈ reports, r.Lists names) :
    (reports.map (·.transitions.length)).sum + (reports.map (·.failed.length)).sum
      = reports.length * names.length := by
  induction reports with
  | nil => exact (Nat.zero_mul _).symm
  | cons r rest ih =>
    have hrest := ih fun x hx => h x (List.mem_cons_of_mem r hx)
    have hr := (h r List.mem_cons_self).all.length_eq
    rw [List.length_append, List.length_map] at hr
    simp only [List.map_cons, List.sum_cons, List.length_cons, Nat.succ_mul]
    omega

/-- The roster that a visit has got. -/
def Phase.roster? : Phase → Option Snapshot
  | .fetching _ (some (.ok roster)) | .telling roster _ _ | .offering _ _ roster _ _ => some roster
  | _ => none

/-- **A visit is addressed** if its roster, once it is there, has the target of the
schedule. -/
def Visit.Addressed (v : Visit) : Prop :=
  ∀ roster, v.phase.roster? = some roster → roster.target = v.schedule.target

end Poller

/-- **The source gives every roster the target of its schedule.** -/
def Relay.Outside.Carries (o : Relay.Outside) (schedules : List Config.Schedule) : Prop :=
  ∀ schedule ∈ schedules, ∀ n roster,
    (o.fetch n schedule).answer = .ok roster → roster.target = schedule.target

/-- The rosters that are looked for at the configured source have these targets. -/
theorem Relay.Outside.carries_of_source {o : Relay.Outside} {schedules : List Config.Schedule}
    (source : Roster.Source)
    (asked : ∀ schedule ∈ schedules, ∀ n, ∃ network time,
      (o.fetch n schedule).answer = (source.current network time schedule).2) :
    o.Carries schedules := by
  intro schedule hm n roster h
  obtain ⟨network, time, ha⟩ := asked schedule hm n
  rw [ha] at h
  unfold Roster.Source.current at h
  dsimp only at h
  cases hs : (source.search (source.page network) schedule Roster.maxPages source.start).2 with
  | error failure =>
    rw [hs] at h
    cases h
  | ok listed =>
    rw [hs] at h
    cases h
    rfl

namespace Config

/-- A schedule that passes the check has an address if it needs one. -/
theorem deliverable_of_schedulesFault? {seen : List String} {schedules : List Schedule}
    (h : schedulesFault? seen schedules = none) {schedule : Schedule} (hm : schedule ∈ schedules)
    (member : String) : Poller.deliveryFor schedule.target member ≠ none := by
  induction schedules generalizing seen with
  | nil => cases hm
  | cons s rest ih =>
    unfold schedulesFault? at h
    cases hfault : scheduleFault? seen s with
    | some fault =>
      rw [hfault] at h
      cases h
    | none =>
      rw [hfault] at h
      rcases List.mem_cons.1 hm with rfl | hm
      · intro hnone
        obtain ⟨hmedium, hurl⟩ := (Poller.deliveryFor_eq_none_iff _ member).1 hnone
        have hblank : isBlankOption schedule.callbackUrl = true := by
          rw [show schedule.callbackUrl = none from hurl]
          rfl
        unfold scheduleFault? at hfault
        split at hfault
        · cases hfault
        · split at hfault
          · cases hfault
          · rw [if_pos ⟨hmedium, hblank⟩] at hfault
            cases hfault
      · exact ih h hm

/-- **A configuration that passes the check** has an address for every change of duty. -/
theorem deliverable_of_validate {c : Config} (h : c.validate = .ok ()) {schedule : Schedule}
    (hm : schedule ∈ c.schedules) (member : String) :
    Poller.deliveryFor schedule.target member ≠ none := by
  have hfault : c.fault? = none := by
    unfold validate at h
    cases hf : c.fault? with
    | none => rfl
    | some fault =>
      rw [hf] at h
      cases h
  unfold fault? at hfault
  repeat' split at hfault
  all_goals first | cases hfault | exact deliverable_of_schedulesFault? hfault hm member

end Config

namespace Book

open Poller (Cycle Goes Phase Visit)

/-- **The cycles under way visit these schedules.** -/
def Visits (b : Book) (schedules : List Config.Schedule) : Prop :=
  ∀ a c, b.cycleOf a = some c → c.visits.map Visit.schedule = schedules

/-- All visits under way are addressed. -/
def Addressed (b : Book) : Prop :=
  ∀ a c, b.cycleOf a = some c → ∀ v ∈ c.visits, v.Addressed

section Step

variable {o : Relay.Outside} {b b' moved : Book} {schedules : List Config.Schedule}
  {schedule : Config.Schedule} {phase phase' : Phase}

/-- **A report that is new** lists the schedules. -/
theorem Next.lists (h : b.Next o b') (visits : b.Visits schedules)
    (old : ∀ r ∈ b.reports, r.Lists (schedules.map Config.Schedule.name)) :
    ∀ r ∈ b'.reports, r.Lists (schedules.map Config.Schedule.name) := by
  cases h with
  | same => exact old
  | start owner started polls free =>
    rw [reports_withCycle]
    exact old
  | visit owner c v phase moved cycle turn goes =>
    rw [reports_withCycle, goes.fixed.2.1]
    exact old
  | turn owner c n cycle =>
    rw [reports_withCycle]
    exact old
  | finish owner c cycle allOver =>
    rw [reports_withCycle]
    intro r hr
    rcases List.mem_cons.1 hr with rfl | hr
    · have hlists := Poller.lists_report allOver
      rw [← visits owner c cycle, List.map_map]
      exact hlists
    · exact old r hr

/-- **A change is left untold** only if it cannot be delivered. -/
theorem Next.unsent (h : b.Next o b')
    (old : ∀ x ∈ b.unsent, Poller.deliveryFor x.target x.member = none) :
    ∀ x ∈ b'.unsent, Poller.deliveryFor x.target x.member = none := by
  cases h.accounts with
  | quiet cycles counts offers unsent total =>
    rw [unsent]
    exact old
  | visit schedule phase phase' moved goes counts offers unsent total =>
    rw [unsent]
    cases goes with
    | skip roster t member change left mute =>
      intro x hx
      rcases List.mem_cons.1 hx with rfl | hx
      · exact mute
      · exact old x hx
    | _ => exact old

/-- **A visit stays addressed** when it makes a move, and tells every change that has an
address. -/
theorem addressed_goes (goes : Goes o schedule b phase phase' moved)
    (carries : ∀ n roster, (o.fetch n schedule).answer = .ok roster →
      roster.target = schedule.target)
    (deliverable : ∀ member, Poller.deliveryFor schedule.target member ≠ none)
    (addressed : ({ schedule, phase } : Visit).Addressed) :
    ({ schedule, phase := phase' } : Visit).Addressed ∧ moved.unsent = b.unsent := by
  cases goes with
  | fetch due =>
    refine ⟨fun roster h => ?_, rfl⟩
    have hheard : o.heard b.timeout schedule (b.fetched schedule.name) = some (.ok roster) := by
      dsimp only [Phase.roster?] at h
      split at h
      · next heq =>
        cases h
        exact (Phase.fetching.inj heq).2
      · next heq => cases heq
      · next heq => cases heq
      · cases h
    exact carries _ roster (Relay.Reply.answer_of_within hheard)
  | fail due answer bad => exact ⟨fun _ h => (nomatch h), rfl⟩
  | receive due answer roster good =>
    refine ⟨fun r h => ?_, rfl⟩
    cases h
    exact addressed roster (Poller.eq_of_goodRoster? good ▸ rfl)
  | succeed roster t => exact ⟨fun _ h => (nomatch h), rfl⟩
  | skip roster t member change left mute =>
    rw [addressed roster rfl] at mute
    exact absurd mute (deliverable member)
  | offer roster t member change left x deliverable origin => exact ⟨addressed, rfl⟩
  | wait roster t member change left event deadline deliverable origin => exact ⟨addressed, rfl⟩
  | offered event deadline roster t left x same => exact ⟨addressed, rfl⟩

/-- The cycles under way stay addressed if the visits of the one that goes on do. -/
theorem Addressed.withCycle {owner : Relay.Actor} {c : Option Cycle} (h : b.Addressed)
    (polls : owner = .client ∨ owner = .poller) (visits : ∀ d ∈ c, ∀ v ∈ d.visits, v.Addressed) :
    (b.withCycle c owner).Addressed := by
  intro a d hd
  by_cases ha : a = owner
  · subst ha
    rw [cycleOf_withCycle polls] at hd
    exact visits d hd
  · rw [cycleOf_withCycle_of_ne ha] at hd
    exact h a d hd

/-- **Nothing is left untold** as long as every schedule has an address that its rosters
carry. -/
theorem Next.addressed (h : b.Next o b') (visits : b.Visits schedules)
    (carries : o.Carries schedules)
    (deliverable : ∀ schedule ∈ schedules, ∀ member,
      Poller.deliveryFor schedule.target member ≠ none)
    (addressed : b.Addressed) : b'.Addressed ∧ b'.unsent = b.unsent := by
  cases h with
  | same => exact ⟨addressed, rfl⟩
  | start owner started polls free =>
    refine ⟨Addressed.withCycle ?_ polls fun d hd v hv => ?_, unsent_withCycle ..⟩
    · exact addressed
    · -- a visit that has just begun has no roster yet
      cases hd
      obtain ⟨schedule, -, rfl⟩ := List.mem_map.1 hv
      exact fun _ h => nomatch h
  | visit owner c v phase moved cycle turn goes =>
    have hv : v ∈ c.visits := List.mem_of_getElem? turn
    have hm : v.schedule ∈ schedules :=
      visits owner c cycle ▸ List.mem_map_of_mem hv
    obtain ⟨hphase, hunsent⟩ := addressed_goes goes (carries _ hm) (deliverable _ hm)
      (addressed owner c cycle v hv)
    refine ⟨Addressed.withCycle (fun a d hd => ?_) (polls_of_cycleOf cycle) fun d hd w hw => ?_, ?_⟩
    · rw [goes.fixed.2.2] at hd
      exact addressed a d hd
    · cases hd
      rcases List.mem_or_eq_of_mem_set hw with hw | rfl
      · exact addressed owner c cycle w hw
      · exact hphase
    · rw [unsent_withCycle]
      exact hunsent
  | turn owner c n cycle =>
    refine ⟨addressed.withCycle (polls_of_cycleOf cycle) fun d hd => ?_, unsent_withCycle ..⟩
    cases hd
    exact addressed owner c cycle
  | finish owner c cycle allOver =>
    refine ⟨Addressed.withCycle ?_ (polls_of_cycleOf cycle) fun d hd => ?_, unsent_withCycle ..⟩
    · exact addressed
    · cases hd

/-- **The book tallies**: the counts agree with the totals, the reports list the schedules,
and what was not told could not be. -/
structure Tallies (b : Book) (schedules : List Config.Schedule) : Prop where
  visits : b.Visits schedules
  agree : Agree b.counts b.offers b.unsent b.total
  lists : ∀ r ∈ b.reports, r.Lists (schedules.map Config.Schedule.name)
  mute : ∀ x ∈ b.unsent, Poller.deliveryFor x.target x.member = none

/-- **The book goes on tallying**, whatever happens next. -/
theorem Tallies.next (h : b.Tallies schedules) (hb : b.Next o b') (visits : b'.Visits schedules) :
    b'.Tallies schedules where
  visits := visits
  agree := h.agree.next hb
  lists := hb.lists h.visits h.lists
  mute := hb.unsent h.mute

end Step

end Book

namespace Relay.System

open Poller (Phase recorded)

/-- **Polling**: a course in which every cycle visits these schedules, be it one cycle after
the other or several at once. -/
abbrev Polling (o : Outside) (schedules : List Config.Schedule) : System → System → Prop :=
  Relation.ReflTransGen fun s s' => Advance o s s' ∧ s'.book.Visits schedules

section Polling

variable {o : Outside} {schedules : List Config.Schedule} {settings : Settings}
  {capacity auditCapacity : Nat} {audited : Bool} {grace : Nat} {resolver : Directory.Resolver}
  {s s' : System}

theorem Polling.course (h : Polling o schedules s s') : Course o s s' :=
  Relation.ReflTransGen.mono (fun _ _ hs => hs.1) _ _ h

theorem Rounds.polling (h : Rounds o schedules s s') : Polling o schedules s s' :=
  Relation.ReflTransGen.mono (fun _ _ hs => ⟨hs.1, hs.2.visits_eq⟩) _ _ h

theorem Polling.tallies
    (h : Polling o schedules (new settings capacity auditCapacity audited grace resolver) s) :
    s.book.Tallies schedules := by
  induction h with
  | refl =>
    refine ⟨fun a c hc => ?_, ⟨rfl, rfl, rfl, rfl, rfl⟩, fun _ h => (nomatch h),
      fun _ h => (nomatch h)⟩
    cases a <;> cases hc
  | tail hpolling hadv ih => exact ih.next (Course.book (Polling.course hpolling) hadv.1) hadv.2

/-- **Where every schedule has an address** that its rosters carry, nothing is left untold. -/
theorem Polling.whole
    (h : Polling o schedules (new settings capacity auditCapacity audited grace resolver) s)
    (carries : o.Carries schedules)
    (deliverable : ∀ schedule ∈ schedules, ∀ member,
      Poller.deliveryFor schedule.target member ≠ none) :
    s.book.Addressed ∧ s.unsent = [] := by
  induction h with
  | refl =>
    refine ⟨fun a c hc => ?_, rfl⟩
    cases a <;> cases hc
  | tail hpolling hadv ih =>
    obtain ⟨haddressed, hunsent⟩ := (Course.book (Polling.course hpolling) hadv.1).addressed
      (Polling.tallies hpolling).visits carries deliverable ih.1
    exact ⟨haddressed, hunsent.trans ih.2⟩

end Polling

/-- The events that the queue has accepted from the poller. -/
def fromPoller (s : System) : List Event :=
  admitted (s.offers.filter fun x => x.sender.slot ≠ 0)

/-- **What the poller has counted adds up.** -/
structure Tallied (s : System) (o : Outside) (schedules : List Config.Schedule) : Prop where
  /-- The reports list the schedules in their order, and no others. -/
  lists : ∀ r ∈ s.reports, r.Lists (schedules.map Config.Schedule.name)
  /-- Every schedule is listed once in every report. -/
  once : ∀ r ∈ s.reports, ∀ schedule ∈ schedules,
    (r.transitions.map Prod.fst).count schedule.name + r.failed.count schedule.name = 1
  /-- Every schedule was fetched once in every cycle, for better or worse. -/
  polls_eq : s.pollCounts.fetched + s.pollCounts.fetchFailures
    = s.reports.length * schedules.length
  failed_eq : (s.reports.map (·.failed.length)).sum
    = s.pollCounts.fetchFailures + s.pollCounts.emptyRosters
  transitions_eq : (s.reports.map (·.transitions.length)).sum + s.pollCounts.emptyRosters
    = s.pollCounts.fetched
  started_eq : s.pollCounts.started
    = (s.reports.map fun r => (r.transitions.map fun t => t.2.started.length).sum).sum
  ended_eq : s.pollCounts.ended
    = (s.reports.map fun r => (r.transitions.map fun t => t.2.ended.length).sum).sum
  /-- Every change was accepted by the queue, or turned away, or not told. -/
  told_eq : s.pollCounts.started + s.pollCounts.ended
    = s.fromPoller.length + s.pollCounts.enqueueFailures + s.unsent.length
  /-- What was not told was for a callback without an address. -/
  mute : ∀ x ∈ s.unsent, x.target.medium = .callback ∧ x.target.callbackUrl = none
  /-- In a configuration that passes the check there are no such callbacks. -/
  whole : ∀ c : Config, c.validate = .ok () → c.schedules = schedules → o.Carries schedules →
    s.unsent = []

section Tallied

variable {o : Outside} {schedules : List Config.Schedule} {settings : Settings}
  {capacity auditCapacity : Nat} {audited : Bool} {grace : Nat} {resolver : Directory.Resolver}
  {s : System}

/-- **What the poller has counted adds up** whenever no cycle is under way. -/
theorem Polling.tallied (hnames : (schedules.map Config.Schedule.name).Nodup)
    (h : Polling o schedules (new settings capacity auditCapacity audited grace resolver) s)
    (client : s.client.cycle? = none) (loop : s.loop.cycle? = none) :
    s.Tallied o schedules := by
  obtain ⟨-, hagree, hreports, hmute⟩ := Polling.tallies h
  have hlists : ∀ r ∈ s.reports, r.Lists (schedules.map Config.Schedule.name) := hreports
  -- between the cycles, the totals are those of the reports
  have htotal : ∀ {m : Phase → Nat} {f : Poller.Report → Nat}, (∀ r, r.sum m = f r) →
      s.book.total m = (s.reports.map f).sum := fun hf => Book.total_resting client loop hf
  have hzero : ∀ {m : Phase → Nat}, (∀ r : Poller.Report, r.sum m = 0) → s.book.total m = 0 := by
    intro m hm
    rw [htotal hm]
    simp
  have hmissed : s.pollCounts.fetchFailures + s.pollCounts.emptyRosters = _ :=
    hagree.missed_eq.trans (htotal Poller.sum_missed)
  have hrecorded : s.pollCounts.fetched = s.pollCounts.emptyRosters + s.book.total recorded :=
    hagree.recorded_eq
  rw [htotal Poller.sum_recorded] at hrecorded
  have hstarted := hagree.started_eq
  rw [hzero (Poller.sum_untold · .started), htotal Poller.sum_started] at hstarted
  have hended := hagree.ended_eq
  rw [hzero (Poller.sum_untold · .ended), htotal Poller.sum_ended] at hended
  have htold := hagree.told_eq
  rw [hzero Poller.sum_waiting] at htold
  have hlengths := Poller.sum_lengths hlists
  rw [List.length_map] at hlengths
  refine {
    lists := hlists
    once := fun r hr schedule hm =>
      (hlists r hr).count_eq_one hnames (List.mem_map_of_mem hm)
    polls_eq := ?_
    failed_eq := hmissed.symm
    transitions_eq := by omega
    started_eq := hstarted
    ended_eq := hended
    told_eq := htold
    mute := fun x hx => (Poller.deliveryFor_eq_none_iff _ x.member).1 (hmute x hx)
    whole := fun c hvalid hc carries => ?_ }
  · rw [← hlengths]
    omega
  · subst hc
    exact (Polling.whole h carries fun _ hm member =>
      Config.deliverable_of_validate hvalid hm member).2

end Tallied

/-! ## Three rounds -/

namespace Sample

/-- Two schedules. The second one has its changes sent to a callback. -/
def schedules (callbackUrl : Option String) : List Config.Schedule :=
  [{ name := "a" }, { name := "b", medium := .callback, callbackUrl }]

/-- A roster of a schedule, with its target. -/
def roster (schedule : Config.Schedule) (members : List String) : Roster.Snapshot :=
  { scheduleId := "i", name := schedule.name, members, target := schedule.target }

/-- The rosters with these members. Those without members never come. -/
def source (members : Nat → String → Option (List String)) : Outside where
  lookup _ key := { answer := .error (.unknownPerson key.text) }
  call _ _ := { answer := .ok () }
  append _ _ := { answer := .ok () }
  fetch n schedule :=
    match members n schedule.name with
    | some members => { answer := .ok (roster schedule members) }
    | none => { delay := none, answer := .error (.fetch "down") }

/-- The members of three rounds. One of the rosters never comes, and another one is empty. -/
def members : Nat → String → Option (List String)
  | 0, "a" => some ["x"]
  | 2, "a" => some ["y"]
  | 0, "b" => some ["v"]
  | 1, "b" => some []
  | 2, "b" => some ["w"]
  | _, _ => none

theorem carries_source (members : Nat → String → Option (List String))
    (schedules : List Config.Schedule) : (source members).Carries schedules := by
  intro schedule _ n roster h
  unfold source at h
  dsimp only at h
  split at h
  · cases h
    rfl
  · cases h

/-- A service whose queue has room for one event. -/
def start : System :=
  new { fetchTimeout := 100 } 1 4 true 5000 {}

/-- The service after one more round. -/
def poll (callbackUrl : Option String) (s : System) : System :=
  (s.request (.poll (schedules callbackUrl))).steps (source members) 60

/-- The service after three rounds. -/
def polled (callbackUrl : Option String) : System :=
  poll callbackUrl (poll callbackUrl (poll callbackUrl start))

end Sample

/-- Three rounds over two schedules, one of which has its changes sent to a callback. Without
an address for it, these changes are not told. With an address, the configuration passes the
check, and they are offered to the queue, which has room for a single event. -/
theorem tallied_three_rounds :
    ((Sample.polled none).Tallied (Sample.source Sample.members) (Sample.schedules none)
        ∧ (Sample.polled none).unsent.length = 2)
      ∧ (Sample.polled (some "https://x.org")).Tallied (Sample.source Sample.members)
          (Sample.schedules (some "https://x.org"))
        ∧ (Sample.polled (some "https://x.org")).unsent = [] := by
  have hrounds : ∀ url, url = none ∨ url = some "https://x.org" →
      Rounds (Sample.source Sample.members) (Sample.schedules url) Sample.start
        (Sample.polled url) := by
    rintro url (rfl | rfl)
    all_goals
      refine (Relation.ReflTransGen.trans ?_ (rounds_poll 60 (by decide +kernel)
        (by decide +kernel) (by decide +kernel) (by decide +kernel))).trans
        (rounds_poll 60 (by decide +kernel) (by decide +kernel) (by decide +kernel)
          (by decide +kernel))
      exact rounds_poll 60 rfl rfl (by decide +kernel) (by decide +kernel)
  have hmute : (Sample.polled none).Tallied (Sample.source Sample.members)
      (Sample.schedules none) :=
    Polling.tallied (by decide +kernel) (Rounds.polling (hrounds _ (.inl rfl)))
      (by decide +kernel) (by decide +kernel)
  have hloud : (Sample.polled (some "https://x.org")).Tallied (Sample.source Sample.members)
      (Sample.schedules (some "https://x.org")) :=
    Polling.tallied (by decide +kernel) (Rounds.polling (hrounds _ (.inr rfl)))
      (by decide +kernel) (by decide +kernel)
  exact ⟨⟨hmute, by decide +kernel⟩, hloud,
    hloud.whole { schedules := Sample.schedules (some "https://x.org") } (by decide +kernel) rfl
      (Sample.carries_source _ _)⟩

end Relay.System

end Rota
