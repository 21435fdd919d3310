import Rota.Proofs.Poller.Accounting
import Rota.Proofs.Relay.Balance

/-!
# The events of a transition

When a good roster has come, its visit announces what has changed: first who has
started, then who has ended, one event for each, and each of them is offered whatever
became of the one before. If the changes go to a callback without an address, there are
no events at all.

`Announces` says what the event of a change holds, and `Says` what one move of a visit
offers. In between, the other visits, the client and the worker may do what they like:
for one visit, a step of the service is one of its own moves, or it changes nothing
(`Strides`). So from the step that records the roster until the visit has succeeded, its
offers are those of the changes, in their order (`Announcing.next`); and as the queue
keeps the order in which it accepts events, the accepted ones stand there in this order
too, between those of other senders (`Course.announces_in_order`).
-/

namespace Rota

open Rota.Roster (Snapshot Transition)
open Rota.Poller (Phase Visit Heard goodRoster? changes deliveryFor)
open Rota.Relay (Actor Sender Offer admitted)

namespace Poller

/-! ## What an event says -/

/-- The template for the title of a change. -/
def titleOf (templates : Config.Templates) : Change → String
  | .started => templates.startTitle
  | .ended => templates.endTitle

/-- The template for the text of a change. -/
def textOf (templates : Config.Templates) : Change → String
  | .started => templates.start
  | .ended => templates.end_

/-- **An event announces a change**: it comes from the schedule, the member and the kind of
change, holds the texts for this kind with the name of the schedule filled in, and goes
where the roster says. -/
structure Announces (templates : Config.Templates) (schedule : String) (target : Roster.Target)
    (c : String × Change) (e : Event) : Prop where
  origin : e.origin = .roster schedule c.1 c.2
  title : e.title = Message.fillSchedule (titleOf templates c.2) schedule
  message : e.message = Message.fillSchedule (textOf templates c.2) schedule
  /-- To the address of a callback, or to the member over the channel of the medium. -/
  delivery : (target.medium = .callback
      ∧ ∃ url, target.callbackUrl = some url ∧ e.delivery = .callback url)
    ∨ ∃ channel, target.medium.channel? = some channel
      ∧ e.delivery = .push (.lookup (.userId c.1)) channel

/-- The changes that are announced: none that go to a callback without an address. -/
def announced (target : Roster.Target) (l : List (String × Change)) : List (String × Change) :=
  if target.medium = .callback ∧ target.callbackUrl = none then [] else l

section Announces

variable {templates : Config.Templates} {schedule : String} {target : Roster.Target}
  {c : String × Change} {e : Event}

@[simp] theorem announced_nil : announced target [] = [] :=
  ite_self []

theorem announced_append (l l' : List (String × Change)) :
    announced target (l ++ l') = announced target l ++ announced target l' := by
  unfold announced
  split <;> rfl

theorem announced_of_mute (h : deliveryFor target c.1 = none) (l : List (String × Change)) :
    announced target l = [] :=
  if_pos ((deliveryFor_eq_none_iff target c.1).1 h)

/-- A target that one event goes to is an address for all of them. -/
theorem Announces.announced_eq (h : Announces templates schedule target c e)
    (l : List (String × Change)) : announced target l = l := by
  refine if_neg fun ⟨hmedium, hurl⟩ => ?_
  rcases h.delivery with ⟨-, url, hsome, -⟩ | ⟨channel, hchannel, -⟩
  · cases hurl.symm.trans hsome
  · rw [hmedium] at hchannel
    cases hchannel

/-- **The event that is made of a change** announces it. -/
theorem announces_eventFor {time : Time.Timestamp} {roster : Snapshot} {id : String}
    (h : eventFor templates time schedule roster id c.1 c.2 = some e) :
    Announces templates schedule roster.target c e := by
  obtain ⟨delivery, hd, rfl⟩ := Option.map_eq_some_iff.1 h
  refine ⟨rfl, ?_, ?_, ?_⟩
  · unfold wording titleOf
    cases c.2 <;> rfl
  · unfold wording textOf
    cases c.2 <;> rfl
  · unfold deliveryFor at hd
    split at hd
    · next hnone =>
      obtain ⟨url, hurl, rfl⟩ := Option.map_eq_some_iff.1 hd
      have hmedium : roster.target.medium = .callback := by
        cases hm : roster.target.medium with
        | callback => rfl
        | _ => rw [hm] at hnone; cases hnone
      exact .inl ⟨hmedium, url, hurl, rfl⟩
    · next channel hchannel =>
      cases hd
      exact .inr ⟨channel, hchannel, rfl⟩

end Announces

/-- **A visit that announces a transition** has these changes left: the next of them may
wait for room already. -/
inductive Stands (templates : Config.Templates) (schedule : String) (roster : Snapshot)
    (t : Transition) : Phase → List (String × Change) → Prop
  | telling (left : List (String × Change)) :
      Stands templates schedule roster t (.telling roster t left) left
  | offering (e : Event) (deadline : Nat) (c : String × Change) (left : List (String × Change))
      (announces : Announces templates schedule roster.target c e) :
      Stands templates schedule roster t (.offering e deadline roster t left) (c :: left)
  | succeeded : Stands templates schedule roster t (.succeeded t) []

end Poller

/-! ## What a move of a visit offers -/

namespace Relay.System

open Poller (Announces Stands announced announced_nil announced_of_mute announces_eventFor)

section Moves

variable {o : Outside} {s s' : System} {x : Sender} {schedule : Config.Schedule} {p p' : Phase}

theorem offers_told (s : System) (result : Except Failure Unit) :
    (s.told result).offers = s.offers :=
  congrArg Ledger.offers (ledger_told s result)

/-- **What a move of a visit offers**, under its own name: where it announces a transition,
the events of the next changes. -/
structure Says (s : System) (x : Sender) (schedule : Config.Schedule) (p p' : Phase)
    (s' : System) (new : List Offer) : Prop where
  offers : s'.offers = new.reverse ++ s.offers
  sender : ∀ f ∈ new, f.sender = x
  next : ∀ {roster t left}, Stands s.settings.templates schedule.name roster t p left →
    ∃ told left', left = told ++ left'
      ∧ Stands s.settings.templates schedule.name roster t p' left'
      ∧ List.Forall₂ (Announces s.settings.templates schedule.name roster.target)
          (announced roster.target told) (new.map Offer.event)

/-- **A move of a visit** offers at most one event, which is that of the next change. -/
theorem VisitMove.offers (h : VisitMove o s x schedule p p' s') :
    ∃ new, Says s x schedule p p' s' new := by
  cases h with
  | ask => exact ⟨[], rfl, List.forall_mem_nil _, fun hl => by cases hl⟩
  | hear due answer isDue =>
    refine ⟨[], ?_, List.forall_mem_nil _, fun hl => by cases hl⟩
    exact congrArg Ledger.offers (ledger_receive ..)
  | succeed _ _ =>
    refine ⟨[], rfl, List.forall_mem_nil _, fun hl => ?_⟩
    cases hl
    refine ⟨[], [], rfl, .succeeded, ?_⟩
    rw [announced_nil]
    exact .nil
  | skip _ _ member change left mute =>
    refine ⟨[], rfl, List.forall_mem_nil _, fun hl => ?_⟩
    cases hl
    refine ⟨[(member, change)], left, rfl, .telling left, ?_⟩
    rw [announced_of_mute (c := (member, change)) (Option.map_eq_none_iff.1 mute)]
    exact .nil
  | offer _ _ member change left event result s' made ended =>
    have hoffers := offers_offer (s.countTelling change) event x s.settings.fetchTimeout
    rw [ended] at hoffers
    refine ⟨[⟨x, event, result⟩], (offers_told ..).trans hoffers, by simp, fun hl => ?_⟩
    cases hl
    have hann := announces_eventFor (c := (member, change)) made
    refine ⟨[(member, change)], left, rfl, .telling left, ?_⟩
    rw [hann.announced_eq]
    exact .cons hann .nil
  | wait _ _ member change left event s' made waits =>
    have hoffers := offers_offer (s.countTelling change) event x s.settings.fetchTimeout
    rw [waits] at hoffers
    refine ⟨[], hoffers, List.forall_mem_nil _, fun hl => ?_⟩
    cases hl
    have hann := announces_eventFor (c := (member, change)) made
    refine ⟨[], _, rfl, .offering event _ (member, change) left hann, ?_⟩
    rw [announced_nil]
    exact .nil
  | offered event deadline _ _ left result s' ended =>
    have hoffers := offers_offerAgain s event x deadline
    rw [ended] at hoffers
    refine ⟨[⟨x, event, result⟩], (offers_told ..).trans hoffers, by simp, fun hl => ?_⟩
    cases hl with
    | offering _ _ c _ announces =>
      refine ⟨[c], left, rfl, .telling left, ?_⟩
      rw [announces.announced_eq]
      exact .cons announces .nil

end Moves

end Relay.System

/-! ## One visit among the others -/

/-- The name under which a visit of the cycle offers its events. -/
def Relay.Actor.visitor (owner : Actor) (i : Nat) : Sender :=
  { actor := owner, slot := i + 1 }

theorem Relay.Actor.visitor_inj {a b : Actor} {i j : Nat} (h : a.visitor i = b.visitor j) :
    a = b ∧ i = j := by
  cases h
  exact ⟨rfl, rfl⟩

namespace Book

/-- The visit at this place of a cycle under way. -/
def visitAt (b : Book) (owner : Actor) (i : Nat) : Option Visit :=
  (b.cycleOf owner).bind fun c => c.visits[i]?

/-- The offers of a sender that have ended, in order. -/
def offersOf (b : Book) (x : Sender) : List Offer :=
  (b.offers.filter (·.sender = x)).reverse

section Places

variable {b : Book} {owner : Actor} {i : Nat} {c : Poller.Cycle} {x : Sender}

theorem visitAt_of_cycleOf (h : b.cycleOf owner = some c) : b.visitAt owner i = c.visits[i]? := by
  unfold visitAt
  rw [h]
  rfl

theorem visitAt_withCycle_of_ne {a : Actor} {d : Option Poller.Cycle} (h : owner ≠ a) :
    (b.withCycle d a).visitAt owner i = b.visitAt owner i := by
  unfold visitAt
  rw [cycleOf_withCycle_of_ne h]

theorem visitAt_withCycle (polls : owner = .client ∨ owner = .poller) :
    (b.withCycle (some c) owner).visitAt owner i = c.visits[i]? :=
  visitAt_of_cycleOf (cycleOf_withCycle polls)

@[simp] theorem offersOf_withCycle (d : Option Poller.Cycle) (a : Actor) :
    (b.withCycle d a).offersOf x = b.offersOf x := by
  unfold offersOf
  rw [offers_withCycle]

end Places

end Book

namespace Relay.System

section Strides

variable {o : Outside} {s : System} {b : Book} {owner : Actor} {i : Nat}

/-- The offers that a visit makes are the latest in the book. -/
theorem offersOf_append {s' : System} {x : Sender} {new : List Offer} (hx : x.slot ≠ 0)
    (h : s'.offers = new.reverse ++ s.offers) :
    s'.book.offersOf x = s.book.offersOf x ++ new.filter (·.sender = x) := by
  -- whoever has this name is a visit, so its offers are in the book
  have hbook : ∀ t : System, t.book.offersOf x = (t.offers.filter (·.sender = x)).reverse := by
    intro t
    unfold Book.offersOf
    refine congrArg List.reverse ((List.filter_filter ..).trans ?_)
    refine List.filter_congr fun f _ => ?_
    by_cases hf : f.sender = x
    · simp [hf, hx]
    · simp [hf]
  rw [hbook, hbook, h, List.filter_append, List.reverse_append, List.filter_reverse,
    List.reverse_reverse]

/-- **The move of one visit** is nothing to another. -/
theorem VisitMove.still {a : Actor} {c : Poller.Cycle} {v : Visit} {p : Phase} {s' : System}
    (moves : VisitMove o s (a.visitor c.cursor) v.schedule v.phase p s')
    (cycle : s.book.cycleOf a = some c) (hne : owner.visitor i ≠ a.visitor c.cursor) :
    let b := s'.book.withCycle
      (some { c with visits := c.visits.set c.cursor { v with phase := p } }) a
    b.visitAt owner i = s.book.visitAt owner i
      ∧ b.offersOf (owner.visitor i) = s.book.offersOf (owner.visitor i) := by
  obtain ⟨new, hmade⟩ := moves.offers
  have hcycles := (moves.goes (Nat.succ_ne_zero _)).fixed.2.2
  refine ⟨?_, ?_⟩
  · by_cases ha : owner = a
    · subst ha
      rw [Book.visitAt_withCycle (Book.polls_of_cycleOf cycle), Book.visitAt_of_cycleOf cycle]
      exact List.getElem?_set_ne fun hi => hne (congrArg owner.visitor hi.symm)
    · rw [Book.visitAt_withCycle_of_ne ha]
      unfold Book.visitAt
      rw [hcycles]
  · rw [Book.offersOf_withCycle, offersOf_append (Nat.succ_ne_zero _) hmade.offers,
      List.filter_eq_nil_iff.2 fun f hf => ?_, List.append_nil]
    rw [hmade.sender f hf]
    simpa using fun h => hne h.symm

/-- **What a step does for one visit**: a move of this visit, or nothing. -/
inductive Strides (o : Outside) (s : System) (owner : Actor) (i : Nat) (b : Book) : Prop
  | still (visit : b.visitAt owner i = s.book.visitAt owner i)
      (offers : b.offersOf (owner.visitor i) = s.book.offersOf (owner.visitor i))
  /-- There is no such visit, so it may begin. -/
  | absent (free : s.book.visitAt owner i = none)
  /-- The visit is over, so its cycle may end. -/
  | ended (v : Visit) (visit : s.book.visitAt owner i = some v) (isOver : v.isOver = true)
  | moves (v : Visit) (p : Phase) (s' : System) (visit : s.book.visitAt owner i = some v)
      (moves : VisitMove o s (owner.visitor i) v.schedule v.phase p s')
      (phase : b.visitAt owner i = some { v with phase := p })
      (offers : b.offersOf (owner.visitor i) = s'.book.offersOf (owner.visitor i))

/-- **Whatever is entered into the book** is a move of this visit, or does nothing to it. -/
theorem Entry.strides (h : s.Entry o b) (owner : Actor) (i : Nat) : Strides o s owner i b := by
  cases h with
  | same => exact .still rfl rfl
  | start a schedules polls free =>
    by_cases ha : owner = a
    · subst ha
      refine .absent ?_
      unfold Book.visitAt
      rw [free]
      rfl
    · exact .still (Book.visitAt_withCycle_of_ne ha) (Book.offersOf_withCycle ..)
  | visit a c v p s' cycle turn moves =>
    by_cases hsame : owner.visitor i = a.visitor c.cursor
    · obtain ⟨rfl, rfl⟩ := Actor.visitor_inj hsame
      refine .moves v p s' ((Book.visitAt_of_cycleOf cycle).trans turn) moves ?_
        (Book.offersOf_withCycle ..)
      rw [Book.visitAt_withCycle (Book.polls_of_cycleOf cycle)]
      exact List.getElem?_set_self (List.getElem?_eq_some_iff.1 turn).1
    · obtain ⟨hvisit, hoffers⟩ := VisitMove.still moves cycle hsame
      exact .still hvisit hoffers
  | turn a c n cycle =>
    refine .still ?_ (Book.offersOf_withCycle ..)
    by_cases ha : owner = a
    · subst ha
      rw [Book.visitAt_withCycle (Book.polls_of_cycleOf cycle), Book.visitAt_of_cycleOf cycle]
    · exact Book.visitAt_withCycle_of_ne ha
  | finish a c cycle allOver =>
    by_cases ha : owner = a
    · subst ha
      cases hv : s.book.visitAt owner i with
      | none => exact .absent hv
      | some v =>
        rw [Book.visitAt_of_cycleOf cycle] at hv
        refine .ended v ((Book.visitAt_of_cycleOf cycle).trans hv) ?_
        exact List.all_eq_true.1 allOver v (List.mem_of_getElem? hv)
    · exact .still (Book.visitAt_withCycle_of_ne ha) (Book.offersOf_withCycle ..)

end Strides

/-! ## From the roster to the last event -/

/-- **A visit announces a transition**: since it began to, it has offered the events of the
first of the changes, and it has the others left. -/
structure Announcing (templates : Config.Templates) (owner : Actor) (i : Nat)
    (schedule : Config.Schedule) (roster : Snapshot) (t : Transition) (before : List Offer)
    (b : Book) (phase : Phase) (done left : List (String × Change)) (offers : List Offer) :
    Prop where
  visit : b.visitAt owner i = some { schedule, phase }
  stands : Poller.Stands templates schedule.name roster t phase left
  /-- Those who have started come first, then those who have ended. -/
  order : t.started.map (·, .started) ++ t.ended.map (·, .ended) = done ++ left
  /-- **There is one event for each change**, whatever became of those before it. -/
  events : List.Forall₂ (Poller.Announces templates schedule.name roster.target)
    (Poller.announced roster.target done) (offers.map Offer.event)
  own : b.offersOf (owner.visitor i) = before ++ offers

/-- **Offers have come into the queue** in their order, as far as they were accepted. -/
structure Queued (s₁ s : System) (offers since : List Offer) : Prop where
  /-- What all senders together have offered since. -/
  since_eq : s.offers = since ++ s₁.offers
  arrivals_eq : s.arrivals = s₁.arrivals ++ admitted since
  accepted : (offers.filterMap Offer.accepted?).Sublist (offers.map Offer.event)
  queued : (offers.filterMap Offer.accepted?).Sublist (admitted since)

section Announcing

variable {o : Outside} {settings : Settings} {capacity auditCapacity : Nat} {audited : Bool}
  {grace : Nat} {resolver : Directory.Resolver} {s s' s₀ s₁ s₂ : System}
  {owner : Actor} {i due : Nat} {schedule : Config.Schedule} {answer : Heard} {roster : Snapshot}
  {t : Transition} {before : List Offer} {phase : Phase} {done left : List (String × Change)}
  {offers : List Offer}

theorem Course.templates_eq
    (h : Course o (new settings capacity auditCapacity audited grace resolver) s) :
    s.settings.templates = settings.templates := by
  induction h with
  | refl => rfl
  | tail hcourse hadv ih =>
    exact (congrArg Settings.templates (Course.enters hcourse hadv).settings).trans ih

/-- **A visit goes on announcing** when it makes a move. -/
theorem Announcing.moved {b : Book} {p : Phase}
    (h : Announcing s.settings.templates owner i schedule roster t before s.book phase done left
      offers)
    (moves : VisitMove o s (owner.visitor i) schedule phase p s')
    (visit : b.visitAt owner i = some { schedule, phase := p })
    (own : b.offersOf (owner.visitor i) = s'.book.offersOf (owner.visitor i)) :
    ∃ done' left' offers',
      Announcing s.settings.templates owner i schedule roster t before b p done' left' offers' := by
  obtain ⟨new, hoffers, hsender, hnext⟩ := moves.offers
  obtain ⟨told, left', rfl, hstands, hevents⟩ := hnext h.stands
  refine ⟨done ++ told, left', offers ++ new, visit, hstands, ?_, ?_, ?_⟩
  · rw [h.order, List.append_assoc]
  · rw [Poller.announced_append, List.map_append]
    exact List.rel_append h.events hevents
  · rw [own, offersOf_append (Nat.succ_ne_zero _) hoffers, h.own, List.append_assoc,
      List.filter_eq_self.2 fun f hf => decide_eq_true (hsender f hf)]

/-- **A visit goes on announcing**, whatever happens next, until it has succeeded. -/
theorem Announcing.next
    (h : Announcing settings.templates owner i schedule roster t before s.book phase done left
      offers)
    (hs : Course o (new settings capacity auditCapacity audited grace resolver) s)
    (hadv : Advance o s s') :
    phase = .succeeded t ∨ ∃ phase' done' left' offers',
      Announcing settings.templates owner i schedule roster t before s'.book phase' done' left'
        offers' := by
  cases (Course.enters hs hadv).entry.strides owner i with
  | still visit offers =>
    exact .inr ⟨_, _, _, _, visit.trans h.visit, h.stands, h.order, h.events, offers.trans h.own⟩
  | absent free => cases free.symm.trans h.visit
  | ended v visit isOver =>
    cases visit.symm.trans h.visit
    cases h.stands with
    | succeeded => exact .inl rfl
    | _ => cases isOver
  | moves v p s' visit moves phase own =>
    cases visit.symm.trans h.visit
    rw [← Course.templates_eq hs] at h ⊢
    exact .inr ⟨p, h.moved moves phase own⟩

/-- **A visit begins to announce** the transition that its roster makes, when the fetch
that was good has ended. -/
theorem announcing_of_fetched
    (hs : Course o (new settings capacity auditCapacity audited grace resolver) s)
    (fetched : s.book.visitAt owner i = some { schedule, phase := .fetching due answer })
    (good : goodRoster? schedule answer = some roster) (hadv : Advance o s s')
    (moved : s'.book.visitAt owner i ≠ s.book.visitAt owner i) :
    Announcing settings.templates owner i schedule roster
      (s.registry.record schedule.name roster).1 (s'.book.offersOf (owner.visitor i)) s'.book
      (.telling roster (s.registry.record schedule.name roster).1
        (changes (s.registry.record schedule.name roster).1))
      [] (changes (s.registry.record schedule.name roster).1) [] := by
  have hvisit : s'.book.visitAt owner i = some
      { schedule
        phase := .telling roster (s.registry.record schedule.name roster).1
          (changes (s.registry.record schedule.name roster).1) } := by
    cases (Course.enters hs hadv).entry.strides owner i with
    | still visit offers => exact absurd visit moved
    | absent free => cases free.symm.trans fetched
    | ended v visit isOver =>
      cases visit.symm.trans fetched
      cases isOver
    | moves v p s' visit moves phase own =>
      cases visit.symm.trans fetched
      rw [phase]
      have hgoes := moves.goes (Nat.succ_ne_zero i)
      generalize s'.book = b at hgoes
      cases hgoes with
      | fail due answer bad => cases bad.symm.trans good
      | receive due answer roster' good' =>
        cases good'.symm.trans good
        rfl
  refine ⟨hvisit, .telling _, rfl, ?_, (List.append_nil _).symm⟩
  rw [Poller.announced_nil]
  exact .nil

/-- From the step that records a roster on, the visit announces the transition, or it has
succeeded with it before. -/
theorem Course.announcing
    (hs : Course o (new settings capacity auditCapacity audited grace resolver) s₁)
    (h₁ : Announcing settings.templates owner i schedule roster t before s₁.book phase done left
      offers)
    (h : Course o s₁ s₂) :
    ∃ s phase done left offers, Course o s₁ s ∧ Course o s s₂ ∧ (s = s₂ ∨ phase = .succeeded t)
      ∧ Announcing settings.templates owner i schedule roster t before s.book phase done left
          offers := by
  induction h with
  | refl => exact ⟨s₁, _, _, _, _, .refl, .refl, .inl rfl, h₁⟩
  | tail hcourse hadv ih =>
    obtain ⟨s, phase, done, left, offers, hpast, hlater, hnow, hann⟩ := ih
    rcases hnow with rfl | hover
    · rcases hann.next (hs.trans hpast) hadv with hover | ⟨_, _, _, _, hnext⟩
      · exact ⟨_, _, _, _, _, hpast, .single hadv, .inr hover, hann⟩
      · exact ⟨_, _, _, _, _, hpast.tail hadv, .refl, .inl rfl, hnext⟩
    · exact ⟨_, _, _, _, _, hpast, hlater.tail hadv, .inr hover, hann⟩

/-- **What a visit has offered** since has come into the queue in its order. -/
theorem Course.queued
    (hs : Course o (new settings capacity auditCapacity audited grace resolver) s₁)
    (h : Course o s₁ s)
    (own : s.book.offersOf (owner.visitor i) = s₁.book.offersOf (owner.visitor i) ++ offers) :
    ∃ since, Queued s₁ s offers since := by
  obtain ⟨since, hsince⟩ := Course.offers_suffix h
  have hoffers : offers = (since.filter (·.sender = owner.visitor i)).reverse := by
    rw [offersOf_append (s := s₁) (Nat.succ_ne_zero _)
      (hsince.symm.trans (by rw [List.reverse_reverse]) : _ = since.reverse.reverse ++ _)] at own
    rw [← List.append_cancel_left own, List.filter_reverse]
  refine ⟨since, hsince.symm, ?_, accepted_sublist offers, ?_⟩
  · rw [Course.arrivals_eq (hs.trans h), Course.arrivals_eq hs, ← hsince, admitted_append]
  · rw [hoffers]
    exact accepted_sublist_admitted _ since

/-- **The events of a transition.** When the fetch of a schedule was good and its roster is
recorded, the visit offers one event for each change of the transition, those who started
first, each whatever became of the one before, until it succeeds; and those that are
accepted come into the queue in this order. -/
theorem Course.announces_in_order
    (h₀ : Course o (new settings capacity auditCapacity audited grace resolver) s₀)
    (fetched : s₀.book.visitAt owner i = some { schedule, phase := .fetching due answer })
    (good : goodRoster? schedule answer = some roster) (received : Advance o s₀ s₁)
    (moved : s₁.book.visitAt owner i ≠ s₀.book.visitAt owner i) (h : Course o s₁ s₂) :
    ∃ s phase done left offers since, Course o s₁ s ∧ Course o s s₂
      ∧ (s = s₂ ∨ phase = .succeeded (s₀.registry.record schedule.name roster).1)
      ∧ s.arrivals <+: s₂.arrivals
      ∧ Announcing settings.templates owner i schedule roster
          (s₀.registry.record schedule.name roster).1 (s₁.book.offersOf (owner.visitor i))
          s.book phase done left offers
      ∧ Queued s₁ s offers since := by
  have h₁ := h₀.tail received
  obtain ⟨s, phase, done, left, offers, hpast, hlater, hnow, hann⟩ :=
    Course.announcing h₁ (announcing_of_fetched h₀ fetched good received moved) h
  obtain ⟨since, hqueued⟩ := Course.queued h₁ hpast hann.own
  have harrived : s.arrivals <+: s₂.arrivals := by
    obtain ⟨more, hmore⟩ := Course.offers_suffix hlater
    rw [Course.arrivals_eq (h₁.trans hpast), Course.arrivals_eq (h₁.trans h), ← hmore,
      admitted_append]
    exact List.prefix_append _ _
  exact ⟨s, phase, done, left, offers, since, hpast, hlater, hnow, harrived, hann, hqueued⟩

deriving instance DecidableEq for Phase, Visit

/-- Two schedules announce the same changes at the same time, and the queue has room for one
event only: of the three of the first schedule, one of them twice the same, the first one is
accepted, and the others are turned away while the second schedule waits with its own. -/
theorem announces_in_order_crowded :
    let o : Outside :=
      { lookup := fun _ key => { answer := .error (.unknownPerson key.text) }
        call := fun _ _ => { answer := .ok () }
        append := fun _ _ => { answer := .ok () }
        fetch := fun n schedule =>
          { answer := .ok
              { scheduleId := "i"
                name := schedule.name
                members := if n = 0 then ["x", "z"] else ["y", "x", "y"] } } }
    let a : Config.Schedule := { name := "a" }
    let roster : Snapshot := { scheduleId := "i", name := "a", members := ["y", "x", "y"] }
    let poll : System → System := fun s => s.request (.poll [a, { name := "b" }])
    let s₀ := run o 1 (poll (run o 60 (poll (new { fetchTimeout := 100 } 1 4 true 5000 {}))))
    let s₁ := s₀.move o .client
    let s₂ := run o 20 s₁
    (s₀.registry.record "a" roster).1 = { started := ["y", "y"], ended := ["z"] }
      ∧ s₂.offers.reverse.map (fun f => (f.sender.slot, f.event.origin, f.result.isOk))
        = [(1, .roster "a" "y" .started, true), (1, .roster "a" "y" .started, false),
          (2, .roster "b" "y" .started, false), (1, .roster "a" "z" .ended, false)]
      ∧ ∃ s phase done left offers since, Course o s₁ s ∧ Course o s s₂
        ∧ (s = s₂ ∨ phase = .succeeded (s₀.registry.record "a" roster).1)
        ∧ s.arrivals <+: s₂.arrivals
        ∧ Announcing {} .client 0 a roster (s₀.registry.record "a" roster).1
            (s₁.book.offersOf (Actor.visitor .client 0)) s.book phase done left offers
        ∧ Queued s₁ s offers since := by
  intro o a roster poll s₀ s₁ s₂
  have hfirst : Course o (new { fetchTimeout := 100 } 1 4 true 5000 {}) _ :=
    (Relation.ReflTransGen.single
      (.request (.poll [a, { name := "b" }]) rfl (.inl rfl) rfl)).trans (course_run o 60 _)
  have h₀ : Course o (new { fetchTimeout := 100 } 1 4 true 5000 {}) s₀ :=
    (hfirst.tail (.request (.poll [a, { name := "b" }]) (by decide +kernel)
      (.inl (by decide +kernel)) rfl)).trans (course_run o 1 _)
  have hfetched : s₀.book.visitAt .client 0
      = some { schedule := a, phase := .fetching 0 (some (.ok roster)) } := by decide +kernel
  have hgood : goodRoster? a (some (.ok roster)) = some roster := rfl
  have hreceived : Advance o s₀ s₁ := .move (by decide +kernel)
  have hmoved : s₁.book.visitAt .client 0 ≠ s₀.book.visitAt .client 0 := by decide +kernel
  have htold := Course.announces_in_order h₀ hfetched hgood hreceived hmoved (course_run o 20 s₁)
  exact ⟨by decide +kernel, by decide +kernel, htold⟩

end Announcing

end Relay.System

end Rota
