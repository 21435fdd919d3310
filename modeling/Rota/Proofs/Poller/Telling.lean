import Rota.Proofs.Poller.Announcement
import Rota.Proofs.Roster.Chronicle

/-!
# What was heard and what was told

A transition is the difference between two rosters: the one that a visit has heard, and the
latest one that was recorded under the same name before. `Chronicle` keeps the rosters that
were recorded since some moment, in their order, and derives from them whatever is told since:
the transition of every visit under way, the events that it has offered, and the transitions in
the reports.

It is begun when no cycle is under way, with the registry of that moment (`chronicle_begin`). So
the registry is never started anew: what was recorded before counts for all that is recorded
later (`Registry.change_eq`).
-/

namespace Rota

open Rota.Roster (Snapshot Transition Registry)
open Rota.Poller (Phase Visit Cycle Report changes)
open Rota.Relay (Actor Offer Sender)

/-! ## One roster after the other -/

namespace Roster.Registry

variable {r : Registry} {name other : String} {roster : Snapshot}

/-- **Record several rosters**, one after the other. -/
def recordAll (r : Registry) (heard : List (String × Snapshot)) : Registry :=
  heard.foldl (fun r x => (r.record x.1 x.2).2) r

theorem recordAll_append (heard more : List (String × Snapshot)) :
    r.recordAll (heard ++ more) = (r.recordAll heard).recordAll more :=
  List.foldl_append

/-- The roster that was recorded is the latest one of its name; other names keep theirs. -/
theorem current_record :
    (r.record name roster).2.current other
      = if other = name then some roster else r.current other := by
  show ((r.store name _).histories.get? other).bind _ = _
  rw [get?_store]
  split <;> rfl

/-- **The latest roster** of a name is the last one that was recorded, or that of before. -/
theorem current_recordAll (heard : List (String × Snapshot)) :
    (r.recordAll heard).current name = (heard.reverse.lookup name).or (r.current name) := by
  induction heard generalizing r with
  | nil => rfl
  | cons x rest ih =>
    obtain ⟨first, roster⟩ := x
    show ((r.record first roster).2.recordAll rest).current name = _
    rw [ih, current_record, List.reverse_cons, List.lookup_append, Option.or_assoc,
      List.lookup_cons]
    by_cases hx : name = first
    · simp [hx]
    · have hne : (name == first) = false := by simpa using hx
      simp [hne, hx]

/-- **The change that a roster makes** is that from the latest one of its name, if there is
one. -/
theorem change_eq :
    (r.record name roster).1
      = (r.current name).elim {} fun last => Roster.diff last.members roster.members := by
  show (r.history name).changeTo roster = _
  unfold current history History.changeTo
  cases r.histories.get? name with
  | none => rfl
  | some h =>
    dsimp only [Option.getD_some, Option.bind_some]
    cases h.rosters <;> rfl

end Roster.Registry

/-- **A transition was recorded**: among the rosters heard is the one that made it. -/
def Records (r : Registry) (heard : List (String × Snapshot)) (name : String) (roster : Snapshot)
    (t : Transition) : Prop :=
  ∃ before after, heard = before ++ (name, roster) :: after
    ∧ t = ((r.recordAll before).record name roster).1

theorem Records.mono {r : Registry} {heard heard' : List (String × Snapshot)} {name : String}
    {roster : Snapshot} {t : Transition} (h : Records r heard name roster t)
    (later : heard <+: heard') : Records r heard' name roster t := by
  obtain ⟨before, after, rfl, ht⟩ := h
  obtain ⟨more, rfl⟩ := later
  exact ⟨before, after ++ more, List.append_assoc .., ht⟩

/-- **A transition that was recorded** is the change from the roster that was the latest of its
name, since then or from before. -/
theorem Records.eq {r : Registry} {heard : List (String × Snapshot)} {name : String}
    {roster : Snapshot} {t : Transition} (h : Records r heard name roster t) :
    ∃ before after, heard = before ++ (name, roster) :: after
      ∧ t = ((before.reverse.lookup name).or (r.current name)).elim {} fun last =>
          Roster.diff last.members roster.members := by
  obtain ⟨before, after, hheard, ht⟩ := h
  refine ⟨before, after, hheard, ?_⟩
  rw [ht, Registry.change_eq, Registry.current_recordAll]

/-- **What a move of a visit records**: nothing, or the roster that was heard. -/
theorem Poller.Goes.registry {o : Relay.Outside} {schedule : Config.Schedule} {b b' : Book}
    {p p' : Phase} (h : Goes o schedule b p p' b') :
    b'.registry = b.registry ∧ p'.transition? = p.transition?
      ∨ ∃ roster, b'.registry = (b.registry.record schedule.name roster).2
        ∧ p' = .telling roster (b.registry.record schedule.name roster).1
            (changes (b.registry.record schedule.name roster).1) := by
  cases h with
  | receive due answer roster good => exact .inr ⟨roster, rfl, rfl⟩
  | _ => exact .inl ⟨rfl, rfl⟩

/-! ## The chronicle -/

@[simp] theorem Book.registry_withCycle (b : Book) (c : Option Cycle) (owner : Actor) :
    (b.withCycle c owner).registry = b.registry := by
  cases owner <;> rfl

namespace Relay.System

variable {o : Outside} {s s' : System} {b : Book} {owner : Actor} {i : Nat} {v : Visit}
  {t : Transition} {r : Registry} {reports new : List Report}
  {heard heard' : List (String × Snapshot)} {templates : Config.Templates} {p : Phase}

/-- **What a visit tells follows from what it heard**: its transition was recorded, and its
events are those of the first of the changes, or of all of them when it has succeeded. -/
def Tells (r : Registry) (heard : List (String × Snapshot)) (templates : Config.Templates)
    (b : Book) (owner : Actor) (i : Nat) (v : Visit) (t : Transition) : Prop :=
  ∃ roster before done left offers, Records r heard v.schedule.name roster t
    ∧ Announcing templates owner i v.schedule roster t before b v.phase done left offers

/-- It does so as long as nothing happens to it. -/
theorem Tells.keep {b' : Book} (h : Tells r heard templates b owner i v t)
    (later : heard <+: heard') (visit : b'.visitAt owner i = some v)
    (offers : b'.offersOf (owner.visitor i) = b.offersOf (owner.visitor i)) :
    Tells r heard' templates b' owner i v t := by
  obtain ⟨roster, before, done, left, events, hrecords, hann⟩ := h
  exact ⟨roster, before, done, left, events, hrecords.mono later,
    ⟨visit, hann.stands, hann.order, hann.events, offers.trans hann.own⟩⟩

/-- **The chronicle** since the registry was `r`: the rosters heard, and the reports that are
new. -/
structure Chronicle (r : Registry) (reports : List Report) (templates : Config.Templates)
    (b : Book) (heard : List (String × Snapshot)) (new : List Report) : Prop where
  registry : b.registry = r.recordAll heard
  reports : b.reports = new ++ reports
  visits : ∀ owner i v t, b.visitAt owner i = some v → v.phase.transition? = some t →
    Tells r heard templates b owner i v t
  reported : ∀ report ∈ new, ∀ x ∈ report.transitions, ∃ roster, Records r heard x.1 roster x.2

/-- It begins when no cycle is under way. -/
theorem chronicle_begin (templates : Config.Templates) (resting : ∀ a, b.cycleOf a = none) :
    Chronicle b.registry b.reports templates b [] [] where
  registry := rfl
  reports := rfl
  visits := fun owner i v t hv _ => by
    rw [Book.visitAt, resting owner] at hv
    cases hv
  reported := fun _ hr => (nomatch hr)

/-- The report on a cycle holds the transitions of its visits. -/
theorem mem_transitions_report {c : Cycle} {x : String × Transition}
    (h : x ∈ c.report.transitions) :
    ∃ (i : Nat) (v : Visit),
      c.visits[i]? = some v ∧ v.phase = .succeeded x.2 ∧ v.schedule.name = x.1 := by
  obtain ⟨v, hv, hx⟩ := List.mem_filterMap.1 h
  obtain ⟨i, hi⟩ := List.getElem?_of_mem hv
  split at hx
  · next t hp =>
    cases hx
    exact ⟨i, v, hi, hp, rfl⟩
  · cases hx

/-- It stays as it is when no roster is heard and no visit gets on. -/
theorem Chronicle.keep {b' : Book} (h : Chronicle r reports templates b heard new)
    (ended : List Report) (registry : b'.registry = b.registry)
    (reports' : b'.reports = ended ++ b.reports) (offers : b'.offers = b.offers)
    (visits : ∀ owner i v t, b'.visitAt owner i = some v → v.phase.transition? = some t →
      b.visitAt owner i = some v)
    (reported : ∀ report ∈ ended, ∀ x ∈ report.transitions,
      ∃ roster, Records r heard x.1 roster x.2) :
    Chronicle r reports templates b' heard (ended ++ new) where
  registry := registry.trans h.registry
  reports := by rw [reports', h.reports, List.append_assoc]
  visits := fun owner i v t hv ht => by
    refine (h.visits owner i v t (visits owner i v t hv ht) ht).keep (List.prefix_refl _) hv ?_
    unfold Book.offersOf
    rw [offers]
  reported := fun report hr x hx => by
    rcases List.mem_append.1 hr with hr | hr
    · exact reported report hr x hx
    · exact h.reported report hr x hx

/-- **A move of a visit** is entered in the chronicle. -/
theorem Chronicle.visit (h : Chronicle r reports s.settings.templates s.book heard new)
    (hv : s.book.visitAt owner i = some v)
    (moves : VisitMove o s (owner.visitor i) v.schedule v.phase p s') :
    ∃ heard', heard <+: heard' ∧ s'.book.registry = r.recordAll heard' ∧ ∀ t (b : Book),
      b.visitAt owner i = some { v with phase := p } →
      b.offersOf (owner.visitor i) = s'.book.offersOf (owner.visitor i) →
      p.transition? = some t →
      Tells r heard' s.settings.templates b owner i { v with phase := p } t := by
  rcases (moves.goes (Nat.succ_ne_zero _)).registry with
    ⟨hregistry, hsame⟩ | ⟨roster, hregistry, rfl⟩
  · refine ⟨heard, List.prefix_refl _, hregistry.trans h.registry, fun t b hb hoffers ht => ?_⟩
    obtain ⟨roster, before, done, left, offers, hrecords, hann⟩ :=
      h.visits owner i v t hv (hsame.symm.trans ht)
    obtain ⟨done', left', offers', hann'⟩ := hann.moved moves hb hoffers
    exact ⟨roster, before, done', left', offers', hrecords, hann'⟩
  · -- the visit has just heard of this roster
    rw [h.registry] at hregistry
    refine ⟨heard ++ [(v.schedule.name, roster)], List.prefix_append _ _, ?_,
      fun t b hb hoffers ht => ?_⟩
    · rw [hregistry, Registry.recordAll_append]
      rfl
    · cases ht
      refine ⟨roster, _, [], _, [], ⟨heard, [], rfl, by rw [← h.registry]⟩,
        hb, .telling _, rfl, ?_, (List.append_nil _).symm⟩
      rw [Poller.announced_nil]
      exact .nil

/-- **What happens is entered in the chronicle.** -/
theorem Chronicle.next (h : Chronicle r reports s.settings.templates s.book heard new)
    (hentry : s.Entry o b) :
    ∃ heard' new', Chronicle r reports s.settings.templates b heard' new' := by
  cases hentry with
  | same => exact ⟨heard, new, h⟩
  | start a schedules polls free =>
    refine ⟨heard, new, h.keep [] ?_ (Book.reports_withCycle ..)
      (Book.offers_withCycle ..) (fun owner i v t hv ht => ?_) fun _ hr => (nomatch hr)⟩
    · exact Book.registry_withCycle ..
    · by_cases ha : owner = a
      · subst ha
        rw [Book.visitAt_withCycle polls] at hv
        obtain ⟨schedule, -, rfl⟩ := List.mem_map.1 (List.mem_of_getElem? hv)
        cases ht
      · rwa [Book.visitAt_withCycle_of_ne ha] at hv
  | visit a c v p s' cycle turn moves =>
    have hvisit := (Book.visitAt_of_cycleOf cycle).trans turn
    obtain ⟨-, hreports, -⟩ := (moves.goes (Nat.succ_ne_zero _)).fixed
    obtain ⟨heard', hlater, hregistry, hmoved⟩ := h.visit hvisit moves
    refine ⟨heard', new, ?_, ?_, fun owner i w t hw ht => ?_, fun report hr x hx => ?_⟩
    · rw [Book.registry_withCycle, hregistry]
    · rw [Book.reports_withCycle, hreports, h.reports]
    · by_cases hsame : owner.visitor i = a.visitor c.cursor
      · obtain ⟨rfl, rfl⟩ := Actor.visitor_inj hsame
        have hset := hw
        rw [Book.visitAt_withCycle (Book.polls_of_cycleOf cycle),
          List.getElem?_set_self (List.getElem?_eq_some_iff.1 turn).1] at hset
        cases hset
        exact hmoved t _ hw (Book.offersOf_withCycle ..) ht
      · obtain ⟨hstill, hoffers⟩ := VisitMove.still moves cycle hsame
        exact (h.visits owner i w t (hstill.symm.trans hw) ht).keep hlater hw hoffers
    · obtain ⟨roster, hrecords⟩ := h.reported report hr x hx
      exact ⟨roster, hrecords.mono hlater⟩
  | turn a c n cycle =>
    have polls := Book.polls_of_cycleOf cycle
    refine ⟨heard, new, h.keep [] ?_ (Book.reports_withCycle ..)
      (Book.offers_withCycle ..) (fun owner i v t hv ht => ?_) fun _ hr => (nomatch hr)⟩
    · exact Book.registry_withCycle ..
    · by_cases ha : owner = a
      · subst ha
        rw [Book.visitAt_withCycle polls] at hv
        exact (Book.visitAt_of_cycleOf cycle).trans hv
      · rwa [Book.visitAt_withCycle_of_ne ha] at hv
  | finish a c cycle allOver =>
    have polls := Book.polls_of_cycleOf cycle
    refine ⟨heard, [c.report] ++ new, h.keep [c.report] ?_ (Book.reports_withCycle ..)
      (Book.offers_withCycle ..) (fun owner i v t hv ht => ?_) fun report hr x hx => ?_⟩
    · exact Book.registry_withCycle ..
    · by_cases ha : owner = a
      · subst ha
        rw [Book.visitAt, Book.cycleOf_withCycle polls] at hv
        cases hv
      · rwa [Book.visitAt_withCycle_of_ne ha] at hv
    · cases List.mem_singleton.1 hr
      obtain ⟨i, v, hv, hp, hname⟩ := mem_transitions_report hx
      obtain ⟨roster, -, -, -, -, hrecords, -⟩ := h.visits a i v x.2
        ((Book.visitAt_of_cycleOf cycle).trans hv) (by rw [hp]; rfl)
      exact ⟨roster, hname ▸ hrecords⟩

/-- **The chronicle is kept** along every course. -/
theorem Course.chronicle (hc : Course o s s') (sound : s.ledger.Sound)
    (attended : Attended s.standing s.agenda)
    (h : Chronicle r reports s.settings.templates s.book heard new) :
    s'.settings = s.settings
      ∧ ∃ heard' new', Chronicle r reports s'.settings.templates s'.book heard' new' := by
  induction hc with
  | refl => exact ⟨rfl, heard, new, h⟩
  | tail hcourse hadv ih =>
    obtain ⟨hsettings, heard', new', h'⟩ := ih
    obtain ⟨hsame, hentry⟩ := hadv.enters (Course.attended hcourse sound attended)
    rw [hsame]
    exact ⟨hsettings, h'.next hentry⟩

/-! ## What has been told -/

/-- **A transition was told in full**: it was recorded, and the latest offers of its visit are
the events of its changes, in their order. -/
def InFull (r : Registry) (heard : List (String × Snapshot)) (templates : Config.Templates)
    (b : Book) (x : Sender) (name : String) (t : Transition) : Prop :=
  ∃ roster before offers, Records r heard name roster t ∧ b.offersOf x = before ++ offers
    ∧ List.Forall₂ (Poller.Announces templates name roster.target)
        (Poller.announced roster.target (changes t)) (offers.map Offer.event)

/-- **A visit that has succeeded** has told its transition in full. -/
theorem Tells.inFull (h : Tells r heard templates b owner i v t) (ended : v.phase = .succeeded t) :
    InFull r heard templates b (owner.visitor i) v.schedule.name t := by
  obtain ⟨roster, before, done, left, offers, hrecords, hann⟩ := h
  have hstands := hann.stands
  rw [ended] at hstands
  cases hstands
  refine ⟨roster, before, offers, hrecords, hann.own, ?_⟩
  have hchanges : changes t = done := hann.order.trans (List.append_nil done)
  rw [hchanges]
  exact hann.events

end Relay.System

end Rota
