import Mathlib.Data.List.MinMax
import Rota.Proofs.Poller.Waiting

/-!
# How long a cycle takes

A visit waits for its roster, and then for room in the queue with each change that it tells,
never longer than the longest wait for each. So it is clear by when a visit gets on, whatever the
source and the queue do (`Phase.InTime`), and the bound starts afresh at any moment. A cycle is
over when its slowest visit is: when one wait for the rosters, and one for each of the changes of
the visit that tells the most, could have passed (`Course.endsInTime`).

What a cycle holds up it holds up no longer than that: the client that asked for it, or the one
that told the polling loop to stop.
-/

namespace Rota

open Rota.Poller (Cycle Phase Visit Report Heard changes)
open Rota.Roster (Snapshot Transition)

/-! ## How much there is to tell -/

namespace Poller

/-- The number of changes that a visit knows of. -/
def Phase.size : Phase → Nat
  | telling _ t _ | offering _ _ _ t _ | succeeded t => t.size
  | _ => 0

/-- **The most changes** of any visit of a cycle, as far as they are known. -/
def Cycle.most (c : Cycle) : Nat :=
  (c.visits.map fun v => v.phase.size).foldr max 0

/-- **The most changes** of any schedule in a report. -/
def Report.most (r : Report) : Nat :=
  (r.transitions.map fun x => x.2.size).foldr max 0

theorem length_changes (t : Transition) : (changes t).length = t.size := by
  rw [changes, List.length_append, List.length_map, List.length_map]
  rfl

section Most

variable {c : Cycle} {v : Visit} {p : Phase} {i : Nat}

theorem size_le_most (h : v ∈ c.visits) : v.phase.size ≤ c.most :=
  List.le_max_of_le' 0 (List.mem_map_of_mem h) (Nat.le_refl _)

theorem foldr_max_set {l : List Visit} (h : l[i]? = some v) (hle : v.phase.size ≤ p.size) :
    (l.map fun w => w.phase.size).foldr max 0
      ≤ ((l.set i { v with phase := p }).map fun w => w.phase.size).foldr max 0 := by
  induction l generalizing i with
  | nil => cases h
  | cons w rest ih =>
    cases i with
    | zero =>
      cases h
      exact max_le_max_right _ hle
    | succ i => exact max_le_max_left _ (ih h)

/-- A visit that comes to know of changes does not lessen the number. -/
theorem most_le_set (h : c.visits[i]? = some v) (hle : v.phase.size ≤ p.size) :
    c.most ≤ ({ c with visits := c.visits.set i { v with phase := p } } : Cycle).most :=
  foldr_max_set h hle

/-- It stays the same if the visit knew of them before. -/
theorem most_set (h : c.visits[i]? = some v) (hsame : p.size = v.phase.size) :
    ({ c with visits := c.visits.set i { v with phase := p } } : Cycle).most = c.most := by
  unfold Cycle.most
  rw [map_set_eq h hsame]

/-- **A cycle that is over** reports all the changes that it knew of. -/
theorem most_report (h : c.visits.all Visit.isOver = true) : c.report.most = c.most := by
  unfold Report.most Cycle.report Cycle.most
  induction hv : c.visits generalizing c with
  | nil => rfl
  | cons v rest ih =>
    rw [hv, List.all_cons, Bool.and_eq_true] at h
    have hrest := ih (c := { c with visits := rest }) h.2 rfl
    have hover := h.1
    unfold Visit.isOver at hover
    split at hover
    · next t hp =>
      simp only [List.filterMap_cons, hp, List.map_cons, List.foldr_cons]
      exact congrArg (max t.size) hrest
    · next hp =>
      simp only [List.filterMap_cons, hp, List.map_cons, List.foldr_cons]
      exact hrest.trans (Nat.zero_max _).symm
    · cases hover

/-- **A cycle goes on** with the same schedules. Once all rosters are there, no more changes come
to be known. -/
structure Cycle.After (c c' : Cycle) : Prop where
  schedules : c'.visits.map Visit.schedule = c.visits.map Visit.schedule
  most_le : c.most ≤ c'.most
  heard : (∀ v ∈ c.visits, v.phase.fetches = 0) →
    c'.most = c.most ∧ ∀ v ∈ c'.visits, v.phase.fetches = 0

theorem Cycle.After.refl (c : Cycle) : c.After c :=
  ⟨rfl, Nat.le_refl _, fun h => ⟨rfl, h⟩⟩

theorem Cycle.After.turn (c : Cycle) (n : Nat) : c.After { c with cursor := n } :=
  ⟨rfl, Nat.le_refl _, fun h => ⟨rfl, h⟩⟩

theorem Cycle.After.trans {c c' c'' : Cycle} (h : c.After c') (h' : c'.After c'') :
    c.After c'' where
  schedules := h'.schedules.trans h.schedules
  most_le := Nat.le_trans h.most_le h'.most_le
  heard := fun hc => by
    obtain ⟨hmost, hc'⟩ := h.heard hc
    obtain ⟨hmost', hc''⟩ := h'.heard hc'
    exact ⟨hmost'.trans hmost, hc''⟩

/-- A cycle goes on when a visit makes a move that brings no more changes than the visit's roster
does. -/
theorem Cycle.After.set (h : c.visits[i]? = some v) (hle : v.phase.size ≤ p.size)
    (hheard : v.phase.fetches = 0 → p.size = v.phase.size ∧ p.fetches = 0) :
    c.After { c with visits := c.visits.set i { v with phase := p } } where
  schedules := map_set_eq h rfl
  most_le := most_le_set h hle
  heard := fun hc => by
    obtain ⟨hsame, hp⟩ := hheard (hc v (List.mem_of_getElem? h))
    refine ⟨most_set h hsame, fun w hw => ?_⟩
    rcases List.mem_or_eq_of_mem_set hw with hw | rfl
    · exact hc w hw
    · exact hp

end Most

/-! ## By when a visit gets on -/

/-- **A visit is in time**, counted from `start`: it waits once for its roster, and once with each
change that it has told or is about to. -/
inductive Phase.InTime (start wait now : Nat) : Phase → Prop
  | fresh (inTime : now ≤ start) : InTime start wait now .fresh
  | fetching (due : Nat) (answer : Heard) (dueBy : due ≤ start + wait)
      (inTime : now ≤ start + wait) : InTime start wait now (.fetching due answer)
  | telling (roster : Snapshot) (t : Transition) (left : List (String × Change)) (told : Nat)
      (all : told + left.length = t.size) (inTime : now ≤ start + wait * (1 + told)) :
      InTime start wait now (.telling roster t left)
  | offering (event : Event) (deadline : Nat) (roster : Snapshot) (t : Transition)
      (left : List (String × Change)) (told : Nat) (all : told + 1 + left.length = t.size)
      (dueBy : deadline ≤ start + wait * (1 + (told + 1)))
      (inTime : now ≤ start + wait * (1 + (told + 1))) :
      InTime start wait now (.offering event deadline roster t left)
  | succeeded (t : Transition) : InTime start wait now (.succeeded t)
  | failed : InTime start wait now .failed

section InTime

variable {start wait now due t : Nat} {p : Phase}

theorem limit_mono {m n : Nat} (start wait : Nat) (h : m ≤ n) :
    start + wait * (1 + m) ≤ start + wait * (1 + n) :=
  Nat.add_le_add_left (Nat.mul_le_mul_left _ (Nat.add_le_add_left h 1)) _

/-- **The count may start afresh** at any moment. -/
theorem Phase.InTime.afresh (h : p.InTime start wait now) (hle : start ≤ t) :
    p.InTime t wait t := by
  cases h with
  | fresh _ => exact .fresh (Nat.le_refl _)
  | fetching due answer dueBy _ =>
    exact .fetching due answer (by omega) (Nat.le_add_right _ _)
  | telling roster tr left told all _ =>
    exact .telling roster tr left told all (Nat.le_add_right _ _)
  | offering event deadline roster tr left told all dueBy _ =>
    exact .offering event deadline roster tr left told all (by omega) (Nat.le_add_right _ _)
  | succeeded tr => exact .succeeded tr
  | failed => exact .failed

/-- A visit waits at most until one wait for its roster and one with each of its changes could
have passed. -/
theorem Phase.InTime.due_le (h : p.InTime start wait now) (hd : p.due? = some due) :
    due ≤ start + wait * (1 + p.size) := by
  cases h with
  | fetching d answer dueBy _ =>
    cases hd
    rw [Nat.mul_add, Nat.mul_one]
    omega
  | offering event deadline roster tr left told all dueBy _ =>
    cases hd
    exact Nat.le_trans dueBy (limit_mono start wait (by show told + 1 ≤ tr.size; omega))
  | fresh _ | telling _ _ _ _ _ _ | succeeded _ | failed => cases hd

/-- The roster itself is there after one wait. -/
theorem Phase.InTime.fetched (h : p.InTime start wait now) (hp : p.fetches ≠ 0)
    (hd : p.due? = some due) : due ≤ start + wait := by
  cases h with
  | fetching d answer dueBy _ =>
    cases hd
    exact dueBy
  | fresh _ => cases hd
  | telling _ _ _ _ _ _ | offering _ _ _ _ _ _ _ _ _ | succeeded _ | failed =>
    exact absurd rfl hp

/-- **A visit that waits** stays in time up to the end of its wait. -/
theorem Phase.InTime.pass (h : p.InTime start wait now) (hd : p.due? = some due)
    (ht : t ≤ due) : p.InTime start wait (max now t) := by
  cases h with
  | fetching d answer dueBy inTime =>
    cases hd
    exact .fetching _ answer dueBy (by omega)
  | offering event deadline roster tr left told all dueBy inTime =>
    cases hd
    exact .offering event _ roster tr left told all dueBy
      (Nat.max_le.2 ⟨inTime, Nat.le_trans ht dueBy⟩)
  | fresh _ | telling _ _ _ _ _ _ | succeeded _ | failed => cases hd

/-- Nor does it matter to a visit that is over how much time passes. -/
theorem Visit.inTime_of_isOver {v : Visit} (h : v.isOver = true) :
    v.phase.InTime start wait now := by
  unfold isOver at h
  split at h
  · next hp =>
    rw [hp]
    exact .succeeded _
  · next hp =>
    rw [hp]
    exact .failed
  · cases h

/-- **A cycle is in time** if all its visits are. -/
def Cycle.InTime (c : Cycle) (start wait now : Nat) : Prop :=
  ∀ v ∈ c.visits, v.phase.InTime start wait now

end InTime

end Poller

namespace Relay.System

variable {o : Outside} {s s' s₀ : System} {owner : Actor} {x : Sender} {start : Nat}
  {schedule : Config.Schedule} {p p' : Phase}

theorem inTime_receive (s : System) (schedule : Config.Schedule) (answer : Poller.Heard)
    {wait now : Nat} (h : now ≤ start + wait) :
    (s.receive schedule answer).1.InTime start wait now := by
  unfold receive
  split
  · split
    · exact .failed
    · refine .telling _ _ _ 0 (by rw [Nat.zero_add, Poller.length_changes]) ?_
      rwa [Nat.add_zero, Nat.mul_one]
  · exact .failed

/-- **A move of a visit** is in time if the visit was. -/
theorem VisitMove.inTime (hm : VisitMove o s x schedule p p' s')
    (h : p.InTime start s.settings.fetchTimeout s.now) :
    p'.InTime start s.settings.fetchTimeout s'.now := by
  have hnow : s'.now = s.now := hm.eases.1.now
  have hsettings : s'.settings = s.settings := hm.settings
  cases hm with
  | ask =>
    cases h with
    | fresh inTime =>
      have hle := (o.fetch ((s.fetches.get? schedule.name).getD 0) schedule).within_le
        s.settings.fetchTimeout
      rw [hnow]
      exact .fetching _ _ (Nat.add_le_add inTime hle) (Nat.le_add_right_of_le inTime)
  | hear due answer isDue =>
    cases h with
    | fetching _ _ dueBy inTime =>
      rw [hnow]
      exact inTime_receive _ schedule answer inTime
  | succeed roster t => exact .succeeded t
  | skip roster t member change left mute =>
    cases h with
    | telling _ _ _ told all inTime =>
      rw [List.length_cons] at all
      exact .telling roster t left (told + 1) (by omega)
        (Nat.le_trans inTime (Poller.limit_mono _ _ (Nat.le_succ told)))
  | offer roster t member change left event result s₁ made ended =>
    cases h with
    | telling _ _ _ told all inTime =>
      rw [List.length_cons] at all
      rw [hnow]
      exact .telling roster t left (told + 1) (by omega)
        (Nat.le_trans inTime (Poller.limit_mono _ _ (Nat.le_succ told)))
  | wait roster t member change left event _ made waits =>
    cases h with
    | telling _ _ _ told all inTime =>
      rw [List.length_cons] at all
      have hby : s.now + s.settings.fetchTimeout
          ≤ start + s.settings.fetchTimeout * (1 + (told + 1)) := by
        rw [← Nat.add_assoc 1 told 1, Nat.mul_succ, ← Nat.add_assoc]
        exact Nat.add_le_add_right inTime _
      rw [hnow, hsettings]
      exact .offering event _ roster t left told (by omega) hby
        (Nat.le_trans (Nat.le_add_right _ _) hby)
  | offered event deadline roster t left result s₁ ended =>
    cases h with
    | offering _ _ _ _ _ told all dueBy inTime =>
      rw [hnow]
      exact .telling roster t left (told + 1) all inTime

/-- A visit that comes to know of changes did not before. -/
theorem VisitMove.size (hm : VisitMove o s x schedule p p' s') :
    p.size ≤ p'.size ∧ (p.fetches = 0 → p'.size = p.size ∧ p'.fetches = 0) := by
  cases hm with
  | ask => exact ⟨Nat.le_refl _, fun h => (nomatch h)⟩
  | hear due answer isDue => exact ⟨Nat.zero_le _, fun h => (nomatch h)⟩
  | _ => exact ⟨Nat.le_refl _, fun _ => ⟨rfl, rfl⟩⟩

/-! ## What becomes of a cycle -/

/-- **What becomes of a cycle** as long as no time passes. -/
inductive Becomes (start : Nat) (owner : Actor) (c : Cycle) (s s' : System) : Prop
  | goesOn (c' : Cycle) (cycle : s'.book.cycleOf owner = some c') (after : c.After c')
      (inTime : c'.InTime start s.settings.fetchTimeout s.now)
  /-- It is over, and reported on. -/
  | ends (absent : s'.book.cycleOf owner = none) (allOver : c.visits.all Visit.isOver = true)
      (reports : s'.reports = c.report :: s.reports)
      (answer : owner = .client → s'.client = .idle (.report c.report))

theorem Proceeds.becomes (h : Proceeds o owner s s') {c : Cycle}
    (hc : s.book.cycleOf owner = some c)
    (inTime : c.InTime start s.settings.fetchTimeout s.now) :
    Becomes start owner c s s' := by
  have hsame : ∀ {n : Nat}, s'.book.cycleOf owner = some { c with cursor := n } →
      Becomes start owner c s s' := fun cycle => .goesOn _ cycle (.turn c _) inTime
  cases h with
  | free absent _ _ _ | begin _ absent _ _ _ _ => cases absent.symm.trans hc
  | still cycle _ _ _ _ | rouse cycle _ _ _ _ => exact hsame (cycle.trans hc)
  | visit d v phase t cycle turn moves cycle' running stirs agenda =>
    cases cycle.symm.trans hc
    refine .goesOn _ cycle' (.set turn moves.size.1 moves.size.2) fun w hw => ?_
    rcases List.mem_or_eq_of_mem_set hw with hw | rfl
    · exact inTime w hw
    · have hphase := moves.inTime (inTime v (List.mem_of_getElem? turn))
      rwa [show t.now = s.now from moves.eases.1.now] at hphase
  | skip d v cycle turn rests cycle' running agenda =>
    cases cycle.symm.trans hc
    exact hsame cycle'
  | finish d cycle allOver absent' reports answer alarms now =>
    cases cycle.symm.trans hc
    exact .ends absent' allOver reports answer
  | wrap d cycle running passed busy cycle' agenda =>
    cases cycle.symm.trans hc
    exact hsame cycle'
  | pass t passed =>
    subst passed
    exact hsame hc

/-- **The service is on track**: its accounts are in order, nobody is forgotten, and the cycles
under way are in time. -/
structure OnTrack (s : System) : Prop where
  sound : s.ledger.Sound
  attended : Attended s.standing s.agenda
  minded : s.Minded
  looked : ∀ owner, owner = .client ∨ owner = .poller → s.Looked owner
  inTime : ∀ owner c, s.book.cycleOf owner = some c →
    c.InTime s.now s.settings.fetchTimeout s.now

theorem Advance.now_le (hadv : Advance o s s') : s.now ≤ s'.now := by
  cases hadv with
  | move _ => exact Nat.le_of_eq (now_move o s _).symm
  | turn _ _ | call _ _ | elsewhere _ _ _ => exact Nat.le_refl _
  | pass t => exact Nat.le_trans (Nat.le_max_left _ _) (Nat.le_of_eq (Agenda.now_pass _ _).symm)
  | request r _ _ _ => exact Nat.le_of_eq (now_request s r).symm

section OnTrack

variable {settings : Settings} {capacity auditCapacity : Nat} {audited : Bool} {grace : Nat}
  {resolver : Directory.Resolver}

theorem OnTrack.proceeds (h : s.OnTrack) (hadv : Advance o s s')
    (polls : owner = .client ∨ owner = .poller) : Proceeds o owner s s' :=
  hadv.proceeds h.attended (fun hclosed => (h.sound.shut.nobody hclosed).2) polls

theorem OnTrack.next (h : s.OnTrack) (hadv : Advance o s s') : s'.OnTrack where
  sound := (Course.sound (.single hadv) h.sound).1
  attended := Course.attended (.single hadv) h.sound h.attended
  minded := hadv.minded h.minded
  looked := fun owner polls => (h.proceeds hadv polls).looked (h.looked owner polls)
  inTime := by
    intro owner c hc
    have hp := h.proceeds hadv (Book.polls_of_cycleOf hc)
    rw [show s'.settings = s.settings from (hadv.enters h.attended).settings]
    cases hd : s.book.cycleOf owner with
    | some d =>
      suffices hsame : c.InTime s.now s.settings.fetchTimeout s.now from
        fun v hv => (hsame v hv).afresh hadv.now_le
      cases hp.becomes hd (h.inTime owner d hd) with
      | goesOn c' cycle after inTime =>
        cases hc.symm.trans cycle
        exact inTime
      | ends absent _ _ _ => cases hc.symm.trans absent
    | none =>
      -- it has just begun
      cases hp with
      | begin schedules absent cycle running alarms now =>
        cases hc.symm.trans cycle
        intro v hv
        obtain ⟨schedule, -, rfl⟩ := List.mem_map.1 hv
        exact .fresh (Nat.le_refl _)
      | free _ absent' _ _ => cases hc.symm.trans absent'
      | still cycle _ _ _ _ | rouse cycle _ _ _ _ => cases hc.symm.trans (cycle.trans hd)
      | visit _ _ _ _ cycle _ _ _ _ _ _ | skip _ _ cycle _ _ _ _ _ | finish _ cycle _ _ _ _ _ _
      | wrap _ cycle _ _ _ _ _ => cases hd.symm.trans cycle
      | pass t passed =>
        subst passed
        cases hd.symm.trans hc

theorem onTrack_new :
    (new settings capacity auditCapacity audited grace resolver).OnTrack where
  sound := sound_new ..
  attended := attended_new ..
  minded := minded_new ..
  looked := fun _ polls => looked_new _ _ _ _ _ _ polls
  inTime := fun owner c hc => by
    rcases Book.polls_of_cycleOf hc with rfl | rfl <;> cases hc

theorem Course.onTrack (hc : Course o s s') (h : s.OnTrack) : s'.OnTrack := by
  induction hc with
  | refl => exact h
  | tail _ hadv ih => exact ih.next hadv

end OnTrack

/-! ## What a cycle holds up -/

/-- **An actor holds somebody up**: its cycle is under way, or the client waits for the loop that
it told to stop. -/
def HeldUp (s : System) (owner : Actor) : Prop :=
  s.book.cycleOf owner ≠ none ∨ owner = .poller ∧ s.client = .awaitingLoop

/-- **While an actor holds somebody up**, all that can happen as time passes. -/
abbrev During (o : Outside) (owner : Actor) : System → System → Prop :=
  Relation.ReflTransGen fun s s' => Timely o s s' ∧ s.HeldUp owner

theorem course_of_during (h : During o owner s s') : Course o s s' :=
  Relation.ReflTransGen.mono (fun _ _ hs => hs.1.advance) _ _ h

/-- A step is nothing else. -/
theorem during_step (held : s.HeldUp owner) : During o owner s (s.step o) := by
  unfold step
  split
  · next a hrun => exact .single ⟨.happen (.move hrun) (now_move o s a), held⟩
  · next hidle =>
    -- a choice of who runs next leaves everyone at what he was doing
    have hturn := timely_turn o s hidle
    generalize ({ s with agenda := s.agenda.turn } : System) = s' at hturn
    have hheld : During o owner s s' ∧ s'.HeldUp owner := by
      induction hturn with
      | refl => exact ⟨.refl, held⟩
      | tail _ ht ih =>
        obtain ⟨timely, agenda, rfl⟩ := ht
        exact ⟨ih.1.tail ⟨timely, ih.2⟩, ih.2⟩
    exact hheld.1

/-- **A cycle takes its time**, counted from `start`: it is under way, or it is over and reported
on. -/
inductive Lasts (c₀ : Cycle) (start wait : Nat) (owner : Actor) (s : System) : Prop
  | underWay (c : Cycle) (cycle : s.book.cycleOf owner = some c) (after : c₀.After c)
      (inTime : c.InTime start wait s.now) (now : s.now ≤ start + wait * (1 + c.most))
  | ended (c : Cycle) (rest : List Report) (absent : s.book.cycleOf owner = none)
      (after : c₀.After c) (allOver : c.visits.all Visit.isOver = true)
      (reports : s.reports = c.report :: rest)
      (answer : owner = .client → s.client = .idle (.report c.report))
      (now : s.now ≤ start + wait * (1 + c.report.most))

section Lasts

variable {c c₀ : Cycle} {wait : Nat}

/-- When everyone waits and somebody is held up, a cycle is under way. -/
theorem OnTrack.cycling (track : s.OnTrack) (settled : s.agenda.isSettled = true)
    (held : s.HeldUp owner) : ∃ c, s.book.cycleOf owner = some c := by
  rcases held with hcycle | ⟨rfl, hawaits⟩
  · exact Option.ne_none_iff_exists'.1 hcycle
  · obtain ⟨next, c, hl⟩ := track.minded.cycling settled hawaits
    exact ⟨c, Loop.cycle?_eq_some.2 ⟨next, hl⟩⟩

/-- **When everyone waits while a cycle is under way**, one of its visits has an alarm. -/
theorem OnTrack.exists_alarm (track : s.OnTrack) (settled : s.agenda.isSettled = true)
    (hc : s.book.cycleOf owner = some c) :
    ∃ k v due, c.visits[k]? = some v ∧ v.phase.due? = some due ∧ s.now < due
      ∧ ⟨due, owner, k + 1⟩ ∈ s.agenda.alarms := by
  obtain ⟨⟨v, hv, hover⟩, hwaits⟩ :=
    (track.looked owner (Book.polls_of_cycleOf hc)).waits settled hc
  obtain ⟨k, hk⟩ := List.getElem?_of_mem hv
  obtain ⟨due, hdue, hlt, hmem⟩ := hwaits k v hk hover
  exact ⟨k, v, due, hk, hdue, hlt, hmem⟩

/-- Nothing is reported on without a cycle. -/
theorem Entry.reports {b : Book} (h : s.Entry o b) (hnone : ∀ a, s.book.cycleOf a = none) :
    b.reports = s.reports := by
  cases h with
  | same => rfl
  | start a schedules polls free => rcases polls with rfl | rfl <;> rfl
  | visit a c v phase s' cycle turn moves => cases (hnone a).symm.trans cycle
  | turn a c n cycle | finish a c cycle allOver => cases (hnone a).symm.trans cycle

/-- **A cycle under way** takes its time. -/
theorem lasts_of_underWay (track : s.OnTrack) (hwait : s.settings.fetchTimeout = wait)
    (hc : s.book.cycleOf owner = some c) (after : c₀.After c)
    (inTime : c.InTime start wait s.now) (now : s.now ≤ start + wait * (1 + c.most))
    (ht : Timely o s s') : s'.Lasts c₀ start wait owner := by
  have polls := Book.polls_of_cycleOf hc
  cases ht with
  | happen hadv hnow =>
    rw [← hwait] at inTime
    cases (track.proceeds hadv polls).becomes hc inTime with
    | goesOn c' cycle after' inTime' =>
      rw [hwait, ← hnow] at inTime'
      rw [← hnow] at now
      exact .underWay c' cycle (after.trans after') inTime'
        (Nat.le_trans now (Poller.limit_mono _ _ after'.most_le))
    | ends absent allOver reports answer =>
      refine .ended c s.reports absent after allOver reports answer ?_
      rwa [hnow, Poller.most_report allOver]
  | pass t settled due =>
    have hnow : ({ s with agenda := s.agenda.pass t } : System).now = max s.now t :=
      Agenda.now_pass _ _
    have hwaits := ((track.looked owner polls).waits settled hc).2
    obtain ⟨k, v, d, hk, hd, -, hmem⟩ := track.exists_alarm settled hc
    refine .underWay c hc after (fun w hw => ?_) ?_ <;> rw [hnow]
    · cases hover : w.isOver with
      | true => exact Visit.inTime_of_isOver hover
      | false =>
        obtain ⟨i, hi⟩ := List.getElem?_of_mem hw
        obtain ⟨e, he, -, hset⟩ := hwaits i w hi hover
        exact (inTime w hw).pass he (due _ hset)
    · have hv := List.mem_of_getElem? hk
      refine Nat.max_le.2 ⟨now, Nat.le_trans (due _ hmem) ?_⟩
      exact Nat.le_trans ((inTime v hv).due_le hd)
        (Poller.limit_mono _ _ (Poller.size_le_most hv))

/-- **A loop that was told to stop** begins no cycle when one is over. -/
theorem OnTrack.halted (track : s.OnTrack) (absent : s.book.cycleOf .poller = none)
    (awaits : s.client = .awaitingLoop) (hadv : Advance o s s') :
    s'.book.cycleOf .poller = none := by
  have hloop : s.loop.cycle? = none := absent
  have hanswered : s.isAnswered = false := by rw [isAnswered, awaits]
  cases hadv.loops with
  | still loop _ _ => exact (congrArg Loop.cycle? loop).trans hloop
  | start _ answered _ _ _ _ _ | stop answered _ _ _ _ _ => cases hanswered.symm.trans answered
  | begin _ _ on _ _ _ _ => cases (track.minded.off awaits).symm.trans on
  | goOn _ c _ cycling _ _ _ _ | finish _ c cycling _ _ _ _ _ =>
    rw [cycling] at hloop
    cases hloop
  | halt _ _ _ loop _ _ => exact congrArg Loop.cycle? loop

/-- Nor does it keep anybody waiting. -/
theorem OnTrack.stopped (track : s.OnTrack) (absent : s.book.cycleOf .poller = none)
    (awaits : s.client = .awaitingLoop) (ht : Timely o s s') :
    s'.book.cycleOf .poller = none ∧ s'.reports = s.reports ∧ s'.now = s.now := by
  have hloop : s.loop.cycle? = none := absent
  have hclient : s.client.cycle? = none := by rw [awaits]; rfl
  have hadv := ht.advance
  refine ⟨track.halted absent awaits hadv,
    (hadv.enters track.attended).entry.reports fun a => ?_, ?_⟩
  · cases a <;> first | rfl | exact hclient | exact hloop
  · cases ht with
    | happen _ now => exact now
    | pass t settled _ =>
      obtain ⟨next, c, hl⟩ := track.minded.cycling settled awaits
      rw [hl] at hloop
      cases hloop

theorem Lasts.next (h : s.Lasts c₀ start wait owner) (track : s.OnTrack)
    (hwait : s.settings.fetchTimeout = wait) (ht : Timely o s s') (held : s.HeldUp owner) :
    s'.Lasts c₀ start wait owner := by
  cases h with
  | underWay c cycle after inTime now =>
    exact lasts_of_underWay track hwait cycle after inTime now ht
  | ended c rest absent after allOver reports answer now =>
    obtain ⟨rfl, awaits⟩ := held.resolve_left fun hne => hne absent
    obtain ⟨habsent, hreports, hnow⟩ := track.stopped absent awaits ht
    exact .ended c rest habsent after allOver (hreports.trans reports) nofun (hnow ▸ now)

theorem lasts_during (hd : During o owner s s') (track : s.OnTrack)
    (h : s.Lasts c₀ start s.settings.fetchTimeout owner) :
    s'.OnTrack ∧ s'.settings = s.settings
      ∧ s'.Lasts c₀ start s.settings.fetchTimeout owner := by
  induction hd with
  | refl => exact ⟨track, rfl, h⟩
  | tail _ ht ih =>
    obtain ⟨track', hsettings, h'⟩ := ih
    have hadv := ht.1.advance
    exact ⟨track'.next hadv, (hadv.enters track'.attended).settings.trans hsettings,
      h'.next track' (congrArg Settings.fetchTimeout hsettings) ht.1 ht.2⟩

/-- The count starts afresh at any moment. -/
theorem OnTrack.lasts (track : s.OnTrack) (hc : s.book.cycleOf owner = some c) :
    s.Lasts c s.now s.settings.fetchTimeout owner :=
  .underWay c hc (.refl c) (track.inTime owner c hc) (Nat.le_add_right _ _)

/-! ## Everyone is let go -/

/-- **An actor holds somebody up for ever**, if the service is left to run. -/
def Endless (o : Outside) (s : System) (owner : Actor) : Prop :=
  ∀ n, (s.steps o n).HeldUp owner

/-- What would be so for ever in a service that is left to run. -/
structure Endures (o : Outside) (c₀ : Cycle) (start wait : Nat) (owner : Actor) (s : System) :
    Prop where
  track : s.OnTrack
  timeout : s.settings.fetchTimeout = wait
  endless : s.Endless o owner
  lasts : s.Lasts c₀ start wait owner

namespace Endures

theorem step (h : s.Endures o c₀ start wait owner) :
    (s.step o).Endures o c₀ start wait owner := by
  obtain ⟨track, rfl, endless, lasts⟩ := h
  obtain ⟨track', hsettings, lasts'⟩ := lasts_during (during_step (endless 0)) track lasts
  exact ⟨track', congrArg Settings.fetchTimeout hsettings, fun n => endless (n + 1), lasts'⟩

theorem steps (h : s.Endures o c₀ start wait owner) (n : Nat) :
    (s.steps o n).Endures o c₀ start wait owner :=
  steps_induction (fun _ h => h.step) h n

/-- The count starts afresh when everyone waits. -/
theorem afresh (h : s.Endures o c₀ start wait owner) (hc : s.book.cycleOf owner = some c) :
    s.Endures o c s.now wait owner := by
  obtain ⟨track, rfl, endless, -⟩ := h
  exact ⟨track, rfl, endless, track.lasts hc⟩

/-- When everyone waits, the cycle is under way. -/
theorem underWay (h : s.Endures o c₀ start wait owner) (settled : s.agenda.isSettled = true) :
    ∃ c, s.book.cycleOf owner = some c ∧ c₀.After c ∧ c.InTime start wait s.now := by
  obtain ⟨c, hc⟩ := h.track.cycling settled (h.endless 0)
  cases h.lasts with
  | underWay d cycle after inTime now =>
    cases hc.symm.trans cycle
    exact ⟨c, hc, after, inTime⟩
  | ended d rest absent after allOver reports answer now => cases hc.symm.trans absent

variable (order : s.InOrder) (ahead : s.agenda.Ahead)

include order ahead

/-- **The rosters have come** when one wait could have passed. -/
theorem exists_heard (h : s.Endures o c₀ start wait owner) :
    ∃ n, (s.steps o n).agenda.isSettled = true ∧ ∃ c,
      (s.steps o n).book.cycleOf owner = some c ∧ ∀ v ∈ c.visits, v.phase.fetches = 0 := by
  have hstep : ∀ t : System, t.Endures o c₀ start wait owner →
      (t.step o).Endures o c₀ start wait owner := fun _ ht => ht.step
  have halarm : ∀ t : System, t.Endures o c₀ start wait owner → t.agenda.isSettled = true →
      (t.agenda.isSettled = true ∧ ∃ c, t.book.cycleOf owner = some c
        ∧ ∀ v ∈ c.visits, v.phase.fetches = 0)
      ∨ ∃ x ∈ t.agenda.alarms, x.due ≤ start + wait := by
    intro t ht settled
    obtain ⟨c, hc, -, inTime⟩ := ht.underWay settled
    by_cases hheard : ∀ v ∈ c.visits, v.phase.fetches = 0
    · exact .inl ⟨settled, c, hc, hheard⟩
    · simp only [not_forall] at hheard
      obtain ⟨v, hv, hfetches⟩ := hheard
      have hover : v.isOver = false := by
        unfold Visit.isOver
        split
        · next hp => exact absurd (by rw [hp]; rfl) hfetches
        · next hp => exact absurd (by rw [hp]; rfl) hfetches
        · rfl
      obtain ⟨k, hk⟩ := List.getElem?_of_mem hv
      obtain ⟨due, hdue, -, hmem⟩ :=
        ((ht.track.looked owner (Book.polls_of_cycleOf hc)).waits settled hc).2 k v hk hover
      exact .inr ⟨_, hmem, (inTime v hv).fetched hfetches hdue⟩
  exact exists_of_alarm hstep halarm h order ahead

/-- **Nobody is held up for ever.** -/
theorem elim (h : s.Endures o c₀ start wait owner) : False := by
  obtain ⟨n, settled, c₁, hc₁, heard⟩ := h.exists_heard order ahead
  have h₁ := (h.steps n).afresh hc₁
  have order₁ := order.steps (o := o) n
  have ahead₁ := ahead_steps (o := o) ahead n
  generalize s.steps o n = s₁ at h₁ order₁ ahead₁
  -- from now on the number of changes is known, and so is the limit
  have hstep : ∀ t : System, t.Endures o c₁ s₁.now wait owner →
      (t.step o).Endures o c₁ s₁.now wait owner := fun _ ht => ht.step
  have halarm : ∀ t : System, t.Endures o c₁ s₁.now wait owner → t.agenda.isSettled = true →
      False ∨ ∃ x ∈ t.agenda.alarms, x.due ≤ s₁.now + wait * (1 + c₁.most) := by
    intro t ht settled
    obtain ⟨c, hc, after, inTime⟩ := ht.underWay settled
    obtain ⟨k, v, due, hk, hdue, -, hmem⟩ := ht.track.exists_alarm settled hc
    have hv := List.mem_of_getElem? hk
    have hle := Nat.le_trans ((inTime v hv).due_le hdue)
      (Poller.limit_mono _ _ (Poller.size_le_most hv))
    rw [(after.heard heard).1] at hle
    exact .inr ⟨_, hmem, hle⟩
  obtain ⟨_, hfalse⟩ := exists_of_alarm hstep halarm h₁ order₁ ahead₁
  exact hfalse

end Endures

/-- **Whoever is held up is let go**, if the service is left to run. -/
theorem OnTrack.exists_released (track : s.OnTrack) (order : s.InOrder)
    (ahead : s.agenda.Ahead) :
    ∃ n, During o owner s (s.steps o n) ∧ ¬ (s.steps o n).HeldUp owner := by
  by_contra hnever
  have hduring : ∀ n, During o owner s (s.steps o n) := by
    intro n
    induction n with
    | zero => exact .refl
    | succ n ih =>
      have held : (s.steps o n).HeldUp owner := by
        by_contra hreleased
        exact hnever ⟨n, ih, hreleased⟩
      rw [steps_add n 1]
      exact ih.trans (during_step held)
  have hendless : s.Endless o owner := fun n => by
    by_contra hreleased
    exact hnever ⟨n, hduring n, hreleased⟩
  -- when everyone waits, the cycle is under way that holds somebody up
  obtain ⟨n, settled, -⟩ := exists_settled (o := o) order
  obtain ⟨m, hm⟩ := exists_steps_settle (o := o) (s := s) n
  rw [hm] at settled
  have track' := Course.onTrack (course_of_during (hduring m)) track
  obtain ⟨c, hc⟩ := track'.cycling settled (hendless m)
  refine Endures.elim (o := o) (order.steps m) (ahead_steps ahead m)
    ⟨track', rfl, fun n => ?_, track'.lasts hc⟩
  rw [← steps_add]
  exact hendless _

end Lasts

/-! ## Every cycle ends in time -/

/-- **A cycle ends in time**, counted from now on: when one wait for the rosters, and one for each
change of the schedule with the most of them, could have passed. -/
structure EndsInTime (o : Outside) (s : System) (owner : Actor) (c : Cycle) : Prop where
  underWay : ∀ s' c', During o owner s s' → s'.book.cycleOf owner = some c' →
    c'.visits.map Visit.schedule = c.visits.map Visit.schedule
      ∧ s'.now ≤ s.now + s.settings.fetchTimeout * (1 + c'.most)
  /-- When it has ended there is a report on it. If the client asked for the cycle, the report is
  its answer; if the client waits for the loop to stop, no time passes until it has its answer. -/
  ended : ∀ s', During o owner s s' → s'.book.cycleOf owner = none →
    ∃ (c' : Cycle) (rest : List Report), c'.visits.map Visit.schedule = c.visits.map Visit.schedule
      ∧ c'.visits.all Visit.isOver = true ∧ s'.reports = c'.report :: rest
      ∧ (owner = .client → s'.client = .idle (.report c'.report))
      ∧ s'.now ≤ s.now + s.settings.fetchTimeout * (1 + c'.report.most)
  /-- Until then, whenever everyone waits, one of its visits has an alarm that is due by then. -/
  alarm : ∀ s', During o owner s s' → s'.agenda.isSettled = true → s'.HeldUp owner →
    ∃ (c' : Cycle) (k due : Nat), s'.book.cycleOf owner = some c'
      ∧ ⟨due, owner, k + 1⟩ ∈ s'.agenda.alarms ∧ s'.now < due
      ∧ due ≤ s.now + s.settings.fetchTimeout * (1 + c'.most)
  /-- So it does end, and nobody is held up any longer, in a service that is left to run. -/
  returns : (s.loop ≠ .absent → 0 < s.settings.interval) →
    ∃ n, During o owner s (s.steps o n) ∧ ¬ (s.steps o n).HeldUp owner

section EndsInTime

variable {c : Cycle} {settings : Settings} {capacity auditCapacity : Nat} {audited : Bool}
  {grace : Nat} {resolver : Directory.Resolver}

/-- **A poll cycle always ends**, whatever the source, the queue and the worker do, and holds nobody
up for longer than one wait for the rosters and one for each change of the schedule with the most
of them. -/
theorem Course.endsInTime
    (h : Course o (new settings capacity auditCapacity audited grace resolver) s)
    (hc : s.book.cycleOf owner = some c) : s.EndsInTime o owner c := by
  have track : s.OnTrack := Course.onTrack h onTrack_new
  have ahead : s.agenda.Ahead := Course.ahead h fun _ hx => (nomatch hx)
  have hlasts : ∀ s', During o owner s s' → s'.OnTrack
      ∧ s'.Lasts c s.now s.settings.fetchTimeout owner := fun s' hd => by
    obtain ⟨track', -, hl⟩ := lasts_during hd track (track.lasts hc)
    exact ⟨track', hl⟩
  refine ⟨fun s' c' hd hc' => ?_, fun s' hd hnone => ?_, fun s' hd settled held => ?_,
    fun hinterval => track.exists_released ⟨track.sound, hinterval⟩ ahead⟩
  · cases (hlasts s' hd).2 with
    | underWay d cycle after inTime now =>
      cases hc'.symm.trans cycle
      exact ⟨after.schedules, now⟩
    | ended d rest absent after allOver reports answer now => cases hc'.symm.trans absent
  · cases (hlasts s' hd).2 with
    | underWay d cycle after inTime now => cases hnone.symm.trans cycle
    | ended d rest absent after allOver reports answer now =>
      exact ⟨d, rest, after.schedules, allOver, reports, answer, now⟩
  · obtain ⟨track', hl⟩ := hlasts s' hd
    obtain ⟨c', hc'⟩ := track'.cycling settled held
    obtain ⟨k, v, due, hk, hdue, hlt, hmem⟩ := track'.exists_alarm settled hc'
    cases hl with
    | underWay d cycle after inTime now =>
      cases hc'.symm.trans cycle
      have hv := List.mem_of_getElem? hk
      exact ⟨c', k, due, hc', hmem, hlt, Nat.le_trans ((inTime v hv).due_le hdue)
        (Poller.limit_mono _ _ (Poller.size_le_most hv))⟩
    | ended d rest absent after allOver reports answer now => cases hc'.symm.trans absent

/-- The source never says who is on duty in the first schedule, and takes its time for the second
one, where a member has started and another ended; the queue is full, and nobody takes anything
from it. So the cycle takes one wait for the rosters and two for the changes. -/
theorem endsInTime_crowded :
    let o : Outside :=
      { lookup := fun _ key => { answer := .error (.unknownPerson key.text) }
        call := fun _ _ => { answer := .ok () }
        append := fun _ _ => { answer := .ok () }
        fetch := fun n schedule =>
          { delay := if schedule.name = "a" then none else some (100 * n)
            answer := .ok
              { scheduleId := "i"
                name := schedule.name
                members := if n = 0 then ["x"] else ["y"] } } }
    let event : Event :=
      { id := "e", delivery := .push (.lookup (.userId "x")) .slack, title := "t", message := "m" }
    let schedules : List Config.Schedule := [{ name := "a" }, { name := "b" }]
    let fresh := new { fetchTimeout := 100 } 1 4 true 5000 {}
    let s := fresh.serveAll o 60 [.enqueue event, .poll schedules]
    Course o fresh (s.request (.poll schedules))
      ∧ (s.request (.poll schedules)).book.cycleOf .client = some (.of schedules)
      ∧ ((s.serve o 60 (.poll schedules)).1 = 300
        ∧ (s.serve o 60 (.poll schedules)).2.reports.head?
          = some { transitions := [("b", { started := ["y"], ended := ["x"] })], failed := ["a"] })
      ∧ (s.request (.poll schedules)).EndsInTime o .client (.of schedules) := by
  intro o event schedules fresh s
  have hopen : fresh.isOpenTo o 60 [.enqueue event, .poll schedules] = true := by decide +kernel
  have hs : Course o fresh (s.request (.poll schedules)) :=
    (course_serveAll o 60 fresh _ hopen).tail
      (.request (.poll schedules) (by decide +kernel) (.inl (by decide +kernel)) rfl)
  have hrun : (s.serve o 60 (.poll schedules)).1 = 300
      ∧ (s.serve o 60 (.poll schedules)).2.reports.head?
        = some { transitions := [("b", { started := ["y"], ended := ["x"] })], failed := ["a"] } :=
    by decide +kernel
  exact ⟨hs, rfl, hrun, Course.endsInTime hs rfl⟩

end EndsInTime

end Relay.System

end Rota
