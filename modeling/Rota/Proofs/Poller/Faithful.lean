import Rota.Proofs.Poller.Rounds

/-!
# Polling is faithful to the fetches

After any number of rounds, and at any moment of the next one, what the poller
has reported, recorded and told of a schedule is what the good fetches of this
schedule make it (`Rounds.faithful`). A fetch that is not good puts the schedule
on the list of those that failed, and changes nothing else. What happened to the
other schedules, how long anybody took, and whether events found room in the
queue makes no difference (`Faithful.independent`).
-/

namespace Rota

open Rota.Poller (Phase goodRoster? transition? history? toldBy reportOf)

namespace Book

instance (b : Book) (schedules : List Config.Schedule) : Decidable (b.Single schedules) :=
  decidable_of_iff
    ((b.client = none ∨ b.loop = none)
      ∧ (∀ c ∈ b.client, c.visits.map Poller.Visit.schedule = schedules)
      ∧ ∀ c ∈ b.loop, c.visits.map Poller.Visit.schedule = schedules)
    ⟨fun ⟨alone, client, loop⟩ => ⟨alone, fun a c h => by
        rcases polls_of_cycleOf h with rfl | rfl
        · exact client c h
        · exact loop c h⟩,
      fun h => ⟨h.alone, fun c hc => h.visits_eq .client c hc,
        fun c hc => h.visits_eq .poller c hc⟩⟩

theorem Next.timeout_eq {o : Relay.Outside} {b b' : Book} (h : b.Next o b') :
    b'.timeout = b.timeout := by
  cases h with
  | same => rfl
  | visit _ _ _ _ _ _ _ goes => rw [timeout_withCycle, goes.fixed.1]
  | start _ _ _ _ => exact timeout_withCycle ..
  | turn _ _ _ _ | finish _ _ _ _ => rw [timeout_withCycle]

/-- How far the visit of a schedule has got in the cycle under way. -/
def phaseOf (b : Book) (name : String) : Phase :=
  match b.client.or b.loop with
  | none => .fresh
  | some c =>
    ((c.visits.find? fun v => v.schedule.name = name).map Poller.Visit.phase).getD .fresh

/-- **Each schedule is where its own fetches have brought it.** -/
theorem Kept.at {o : Relay.Outside} {b : Book} {schedules : List Config.Schedule}
    (h : b.Kept o schedules) (hs : b.Single schedules)
    (hnames : (schedules.map Config.Schedule.name).Nodup) {schedule : Config.Schedule}
    (hm : schedule ∈ schedules) :
    (b.page schedule.name).At schedule (o.heard b.timeout schedule) b.reports.length
      (b.phaseOf schedule.name) := by
  have hcycle : ∀ a c, b.cycleOf a = some c → b.client.or b.loop = some c →
      (b.page schedule.name).At schedule (o.heard b.timeout schedule) b.reports.length
        (b.phaseOf schedule.name) := by
    intro a c hc hor
    have hvs := hs.visits_eq a c hc
    rw [← hvs] at hm
    obtain ⟨v, hv, rfl⟩ := List.mem_map.1 hm
    -- the visit found by its name is the visit of the schedule
    cases hf : c.visits.find? fun w => w.schedule.name = v.schedule.name with
    | none => exact absurd (List.find?_eq_none.1 hf v hv) (by simp)
    | some w =>
      have hw := List.mem_of_find?_eq_some hf
      have hname : w.schedule.name = v.schedule.name := by
        simpa using List.find?_some hf
      have hsame : w.schedule = v.schedule := by
        rw [← hvs] at hnames
        exact List.inj_on_of_nodup_map hnames (List.mem_map_of_mem hw)
          (List.mem_map_of_mem hv) hname
      have hphase : b.phaseOf v.schedule.name = w.phase := by
        unfold phaseOf
        rw [hor]
        dsimp only
        rw [hf]
        rfl
      rw [hphase, ← hsame]
      exact h.visiting a c hc w hw
  cases hclient : b.client with
  | some c => exact hcycle .client c hclient (by rw [hclient]; rfl)
  | none =>
    cases hloop : b.loop with
    | some c => exact hcycle .poller c hloop (by rw [hclient, hloop]; rfl)
    | none =>
      have hphase : b.phaseOf schedule.name = .fresh := by
        unfold phaseOf
        rw [hclient, hloop]
        rfl
      rw [hphase]
      refine h.resting (fun a => ?_) schedule hm
      cases a with
      | client => exact hclient
      | poller => exact hloop
      | _ => rfl

end Book

namespace Relay.System

/-- **Rounds of polling**: a course in which at most one cycle is under way at any moment,
and every cycle visits these schedules. -/
abbrev Rounds (o : Outside) (schedules : List Config.Schedule) : System → System → Prop :=
  Relation.ReflTransGen fun s s' => Advance o s s' ∧ s'.book.Single schedules

section Rounds

variable {o : Outside} {schedules : List Config.Schedule} {settings : Settings}
  {capacity auditCapacity : Nat} {audited : Bool} {grace : Nat} {resolver : Directory.Resolver}
  {s s' : System}

theorem Rounds.course (h : Rounds o schedules s s') : Course o s s' :=
  Relation.ReflTransGen.mono (fun _ _ hs => hs.1) _ _ h

/-- At first nothing was fetched. -/
theorem kept_new :
    (new settings capacity auditCapacity audited grace resolver).book.Kept o schedules
      ∧ (new settings capacity auditCapacity audited grace resolver).book.Single schedules := by
  have hnone : ∀ a, (new settings capacity auditCapacity audited grace resolver).book.cycleOf a
      = none := fun a => by cases a <;> rfl
  refine ⟨⟨rfl, fun _ _ _ => rfl, fun a c hc => ?_, fun _ _ => rfl⟩, .inl rfl, fun a c hc => ?_⟩
  · cases (hnone a).symm.trans hc
  · cases (hnone a).symm.trans hc

theorem Rounds.kept (hnames : (schedules.map Config.Schedule.name).Nodup)
    (h : Rounds o schedules (new settings capacity auditCapacity audited grace resolver) s) :
    s.book.Kept o schedules ∧ s.book.Single schedules
      ∧ s.book.timeout = settings.fetchTimeout := by
  induction h with
  | refl =>
    exact ⟨(kept_new (o := o)).1, (kept_new (o := o)).2, rfl⟩
  | tail hrounds hadv ih =>
    obtain ⟨hkept, hsingle, htimeout⟩ := ih
    have hnext := Course.book (Rounds.course hrounds) hadv.1
    exact ⟨hkept.next hnames hnext hsingle hadv.2, hadv.2, hnext.timeout_eq.trans htimeout⟩

end Rounds

/-! ## Rounds step by step -/

/-- So many steps, one after the other. -/
def steps (o : Outside) : Nat → System → System
  | 0, s => s
  | n + 1, s => steps o n (s.step o)

/-- Is at most one cycle under way after each of so many steps, over these schedules? -/
def isSingleFor (o : Outside) (schedules : List Config.Schedule) : Nat → System → Bool
  | 0, _ => true
  | n + 1, s =>
    decide ((s.step o).book.Single schedules) && isSingleFor o schedules n (s.step o)

section Steps

variable {o : Outside} {schedules : List Config.Schedule} {s : System}

theorem rounds_step (hs : s.book.Single schedules) (hs' : (s.step o).book.Single schedules) :
    Rounds o schedules s (s.step o) := by
  unfold step at *
  split
  · next a h =>
    rw [h] at hs'
    exact .single ⟨.move h, hs'⟩
  · next h =>
    -- whoever runs next, the book stays as it is
    have hkeep : ∀ t, Relation.ReflTransGen (Shuffle o) s t →
        Rounds o schedules s t ∧ t.book = s.book := by
      intro t ht
      induction ht with
      | refl => exact ⟨.refl, rfl⟩
      | tail _ hshuffle ih =>
        obtain ⟨hadv, agenda, rfl⟩ := hshuffle
        refine ⟨ih.1.tail ⟨hadv, ?_⟩, ih.2⟩
        rw [← ih.2] at hs
        exact hs
    exact (hkeep _ (shuffle_turn o s h)).1

theorem rounds_steps (n : Nat) (hs : s.book.Single schedules)
    (h : s.isSingleFor o schedules n = true) : Rounds o schedules s (s.steps o n) := by
  induction n generalizing s with
  | zero => exact .refl
  | succ n ih =>
    unfold isSingleFor at h
    rw [Bool.and_eq_true, decide_eq_true_iff] at h
    exact (rounds_step hs h.1).trans (ih h.1 h.2)

/-- **A round** that the client asks for. -/
theorem rounds_poll (n : Nat) (answered : s.isAnswered = true)
    (idle : s.agenda.running = none)
    (h : (s.request (.poll schedules)).isSingleFor o schedules n = true)
    (hs : (s.request (.poll schedules)).book.Single schedules) :
    Rounds o schedules s ((s.request (.poll schedules)).steps o n) :=
  .head ⟨.request (.poll schedules) answered (.inl idle) rfl, hs⟩ (rounds_steps n hs h)

end Steps

/-! ## What the fetches make of it -/

/-- **What was reported, recorded and told is what the fetches make it.** -/
structure Faithful (s : System) (o : Outside) (timeout : Nat)
    (schedules : List Config.Schedule) : Prop where
  /-- Round by round the reports say what the fetches of that round changed. -/
  reports_eq : s.reports.reverse
    = (List.range s.reports.length).map (reportOf schedules (o.heard timeout))
  /-- The history of a schedule, and the changes told of it, are those of its own fetches. -/
  page_at : ∀ schedule ∈ schedules,
    (s.book.page schedule.name).At schedule (o.heard timeout schedule) s.reports.length
      (s.book.phaseOf schedule.name)
  /-- The registry knows no other names. -/
  unknown : ∀ name, (∀ schedule ∈ schedules, name ≠ schedule.name) →
    s.registry.histories.get? name = none
  /-- A fetch that is not good is a failure, and changes nothing. -/
  bad : ∀ schedule ∈ schedules, ∀ n, goodRoster? schedule (o.heard timeout schedule n) = none →
    schedule.name ∈ (reportOf schedules (o.heard timeout) n).failed
      ∧ transition? schedule (o.heard timeout schedule) n = none
      ∧ history? schedule (o.heard timeout schedule) (n + 1)
        = history? schedule (o.heard timeout schedule) n
      ∧ toldBy schedule (o.heard timeout schedule) n = []

section Faithful

variable {o : Outside} {schedules : List Config.Schedule} {settings : Settings}
  {capacity auditCapacity : Nat} {audited : Bool} {grace : Nat} {resolver : Directory.Resolver}
  {s : System}

/-- **Polling is faithful to the fetches**, after any number of rounds. -/
theorem Rounds.faithful (hnames : (schedules.map Config.Schedule.name).Nodup)
    (h : Rounds o schedules (new settings capacity auditCapacity audited grace resolver) s) :
    s.Faithful o settings.fetchTimeout schedules := by
  obtain ⟨hkept, hsingle, htimeout⟩ := Rounds.kept hnames h
  rw [← htimeout]
  refine ⟨hkept.reports_eq, fun schedule hm => hkept.at hsingle hnames hm,
    fun name hname => congrArg Page.history (hkept.others name hname),
    fun schedule hm n hbad => ⟨?_, ?_, Poller.history?_succ_bad hbad, Poller.toldBy_bad hbad⟩⟩
  · refine List.mem_filterMap.2 ⟨schedule, hm, ?_⟩
    rw [hbad]
    rfl
  · unfold transition?
    rw [hbad]
    rfl

/-- Three rounds over two schedules. The first schedule is slow, then fails, and then has
somebody else on duty; the second one does not answer in time, then has nobody on duty,
and then somebody. Only one of the two events finds room in the queue. -/
theorem faithful_three_rounds :
    let roster : Config.Schedule → List String → Except Failure Roster.Snapshot :=
      fun schedule members => .ok { scheduleId := "i", name := schedule.name, members }
    let o : Outside :=
      { lookup := fun _ key => { answer := .error (.unknownPerson key.text) }
        call := fun _ _ => { answer := .ok () }
        append := fun _ _ => { answer := .ok () }
        fetch := fun n schedule =>
          if schedule.name = "a" then
            if n = 0 then { delay := some 3, answer := roster schedule ["x"] }
            else if n = 1 then { answer := .error (.fetch "down") }
            else { answer := roster schedule ["y"] }
          else if n = 0 then { delay := none, answer := roster schedule ["z"] }
          else if n = 1 then { answer := roster schedule [] }
          else { answer := roster schedule ["z"] } }
    let schedules : List Config.Schedule := [{ name := "a" }, { name := "b" }]
    let poll : System → System := fun s => (s.request (.poll schedules)).steps o 60
    let s := poll (poll (poll (new { fetchTimeout := 100 } 1 4 true 5000 {})))
    s.reports.reverse
        = [{ transitions := [("a", {})], failed := ["b"] },
          { failed := ["a", "b"] },
          { transitions := [("a", { started := ["y"], ended := ["x"] }), ("b", {})] }]
      ∧ s.Faithful o 100 schedules := by
  intro roster o schedules poll s
  have hnames : (schedules.map Config.Schedule.name).Nodup := by decide +kernel
  have h₁ : Rounds o schedules (new { fetchTimeout := 100 } 1 4 true 5000 {}) _ :=
    rounds_poll 60 rfl rfl (by decide +kernel) (by decide +kernel)
  have h₂ := h₁.trans
    (rounds_poll 60 (by decide +kernel) (by decide +kernel) (by decide +kernel)
      (by decide +kernel))
  have h₃ : Rounds o schedules (new { fetchTimeout := 100 } 1 4 true 5000 {}) s := h₂.trans
    (rounds_poll 60 (by decide +kernel) (by decide +kernel) (by decide +kernel)
      (by decide +kernel))
  exact ⟨by decide +kernel, Rounds.faithful hnames h₃⟩

end Faithful

/-! ## One schedule does not depend on another -/

section Independent

variable {s₁ s₂ : System} {o₁ o₂ : Outside} {timeout₁ timeout₂ : Nat}
  {schedules₁ schedules₂ : List Config.Schedule} {schedule : Config.Schedule}

/-- The transitions reported of a schedule, round by round. -/
theorem Faithful.transitions_eq (h : s₁.Faithful o₁ timeout₁ schedules₁)
    (hnames : (schedules₁.map Config.Schedule.name).Nodup) (hm : schedule ∈ schedules₁) :
    s₁.reports.reverse.map (·.transitions.lookup schedule.name)
      = (List.range s₁.reports.length).map (transition? schedule (o₁.heard timeout₁ schedule)) := by
  rw [h.reports_eq, List.map_map]
  exact List.map_congr_left fun n _ => Poller.lookup_transitions_reportOf n hnames hm

/-- **Two services that hear the same of a schedule** report the same of it after as many
rounds, and their registries hold the same history of it: whatever else they poll, and
whatever becomes of their events. -/
theorem Faithful.independent (h₁ : s₁.Faithful o₁ timeout₁ schedules₁)
    (h₂ : s₂.Faithful o₂ timeout₂ schedules₂)
    (hnames₁ : (schedules₁.map Config.Schedule.name).Nodup)
    (hnames₂ : (schedules₂.map Config.Schedule.name).Nodup)
    (hm₁ : schedule ∈ schedules₁) (hm₂ : schedule ∈ schedules₂)
    (hheard : o₁.heard timeout₁ schedule = o₂.heard timeout₂ schedule)
    (hrounds : s₁.reports.length = s₂.reports.length) :
    s₁.reports.reverse.map (·.transitions.lookup schedule.name)
        = s₂.reports.reverse.map (·.transitions.lookup schedule.name)
      ∧ (s₁.book.phaseOf schedule.name = .fresh → s₂.book.phaseOf schedule.name = .fresh →
          s₁.registry.histories.get? schedule.name
            = s₂.registry.histories.get? schedule.name) := by
  refine ⟨?_, fun hp₁ hp₂ => ?_⟩
  · rw [h₁.transitions_eq hnames₁ hm₁, h₂.transitions_eq hnames₂ hm₂, hheard, hrounds]
  · have hat₁ := h₁.page_at schedule hm₁
    have hat₂ := h₂.page_at schedule hm₂
    rw [hp₁] at hat₁
    rw [hp₂] at hat₂
    have hhist₁ := congrArg Page.history hat₁
    have hhist₂ := congrArg Page.history hat₂
    rw [hheard, hrounds] at hhist₁
    exact hhist₁.trans hhist₂.symm

end Independent

end Relay.System

end Rota
