import Rota.Proofs.Poller.Fetches
import Rota.Proofs.Relay.Attendance

/-!
# The book of the poller

The part of the state that polling is about: how often each schedule was
fetched, what the registry holds, what the visits have offered and what they
could not tell, the counts, the reports, and the cycles under way.

`Poller.Goes` lists once what one move of a visit can do to the book, and
`Book.Next` what can happen to the book at all: a visit makes a move, or the turn
goes on to another visit, or a cycle begins or ends. `Advance.enters` says that
nothing else ever does, whatever the worker, the deliveries, the writer and
other senders are doing in between; its `Entry` keeps the move of the system that
the visit has made, for what `Poller.Goes` does not say of it.
-/

namespace Rota

open Rota.Roster (Snapshot Transition History Registry)

namespace Poller.Counts

/-- Count a fetch that has ended badly, without a roster or with an empty one. -/
def fail (c : Counts) : Heard → Counts
  | some (.ok _) => { c with fetched := c.fetched + 1, emptyRosters := c.emptyRosters + 1 }
  | _ => { c with fetchFailures := c.fetchFailures + 1 }

/-- Count a fetch that has ended well. -/
def succeed (c : Counts) : Counts :=
  { c with fetched := c.fetched + 1 }

/-- Count how the offer of an event has ended. -/
def heed (c : Counts) : Except Failure Unit → Counts
  | .ok () => c
  | .error _ => { c with enqueueFailures := c.enqueueFailures + 1 }

end Poller.Counts

/-- **The book of the poller.** -/
structure Book where
  /-- The longest wait for a roster. -/
  timeout : Nat
  /-- The number of fetches, by the name of the schedule. -/
  fetches : Keyed Nat
  registry : Registry
  /-- The offers of the visits that have ended, the latest first. -/
  offers : List Relay.Offer
  /-- The changes that were not told, the latest first. -/
  unsent : List Relay.Unsent
  counts : Poller.Counts
  /-- The reports on the cycles that have ended, the latest first. -/
  reports : List Poller.Report
  /-- The cycle that the client has under way. -/
  client : Option Poller.Cycle
  /-- The cycle that the polling loop has under way. -/
  loop : Option Poller.Cycle

namespace Book

/-- The number of fetches of a schedule. -/
def fetched (b : Book) (name : String) : Nat :=
  (b.fetches.get? name).getD 0

/-- The cycle that an actor has under way. -/
def cycleOf (b : Book) : Relay.Actor → Option Poller.Cycle
  | .client => b.client
  | .poller => b.loop
  | _ => none

/-- The cycle of an actor begins, goes on or ends. -/
def withCycle (b : Book) (c : Option Poller.Cycle) : Relay.Actor → Book
  | .client => { b with client := c }
  | .poller => { b with loop := c }
  | _ => b

/-- The counts go on. -/
def count (b : Book) (c : Poller.Counts) : Book :=
  { b with counts := c }

/-- A change is not told. -/
def forgo (b : Book) (x : Relay.Unsent) : Book :=
  { b with unsent := x :: b.unsent }

/-- **Enter an offer** that has ended, if it is one of a visit. -/
def enter (b : Book) (x : Relay.Offer) : Book :=
  if x.sender.slot = 0 then b else { b with offers := x :: b.offers }

end Book

/-- What is heard of a fetch of a schedule. -/
def Relay.Outside.heard (o : Relay.Outside) (timeout : Nat) (schedule : Config.Schedule)
    (n : Nat) : Poller.Heard :=
  ((o.fetch n schedule).within timeout).2

/-- **What one move of a visit does**: to its phase, and to the book. -/
inductive Poller.Goes (o : Relay.Outside) (schedule : Config.Schedule) (b : Book)
    : Phase → Phase → Book → Prop
  /-- The roster is asked for. -/
  | fetch (due : Nat) :
      Goes o schedule b .fresh
        (.fetching due (o.heard b.timeout schedule (b.fetched schedule.name)))
        { b with fetches := b.fetches.put schedule.name (b.fetched schedule.name + 1) }
  /-- No good roster came. -/
  | fail (due : Nat) (answer : Heard) (bad : goodRoster? schedule answer = none) :
      Goes o schedule b (.fetching due answer) .failed (b.count (b.counts.fail answer))
  /-- A good roster came, and is recorded. -/
  | receive (due : Nat) (answer : Heard) (roster : Snapshot)
      (good : goodRoster? schedule answer = some roster) :
      Goes o schedule b (.fetching due answer)
        (.telling roster (b.registry.record schedule.name roster).1
          (changes (b.registry.record schedule.name roster).1))
        (({ b with registry := (b.registry.record schedule.name roster).2 } : Book).count
          b.counts.succeed)
  /-- All changes are told. -/
  | succeed (roster : Snapshot) (t : Transition) :
      Goes o schedule b (.telling roster t []) (.succeeded t) b
  /-- A change cannot be delivered. -/
  | skip (roster : Snapshot) (t : Transition) (member : String) (change : Change)
      (left : List (String × Change)) (mute : deliveryFor roster.target member = none) :
      Goes o schedule b (.telling roster t ((member, change) :: left))
        (.telling roster t left)
        ((b.count (b.counts.tell change)).forgo
          { schedule := schedule.name, target := roster.target, member, change })
  /-- The event of a change is offered, and the offer ends at once. -/
  | offer (roster : Snapshot) (t : Transition) (member : String) (change : Change)
      (left : List (String × Change)) (x : Relay.Offer)
      (deliverable : (deliveryFor roster.target member).isSome = true)
      (origin : x.event.origin = .roster schedule.name member change) :
      Goes o schedule b (.telling roster t ((member, change) :: left))
        (.telling roster t left)
        (({ b with offers := x :: b.offers } : Book).count
          ((b.counts.tell change).heed x.result))
  /-- The event of a change has to wait for room. -/
  | wait (roster : Snapshot) (t : Transition) (member : String) (change : Change)
      (left : List (String × Change)) (event : Event) (deadline : Nat)
      (deliverable : (deliveryFor roster.target member).isSome = true)
      (origin : event.origin = .roster schedule.name member change) :
      Goes o schedule b (.telling roster t ((member, change) :: left))
        (.offering event deadline roster t left) (b.count (b.counts.tell change))
  /-- The event waits no longer. -/
  | offered (event : Event) (deadline : Nat) (roster : Snapshot) (t : Transition)
      (left : List (String × Change)) (x : Relay.Offer) (same : x.event = event) :
      Goes o schedule b (.offering event deadline roster t left)
        (.telling roster t left)
        (({ b with offers := x :: b.offers } : Book).count (b.counts.heed x.result))

/-- **What can happen to the book** in one step. -/
inductive Book.Next (o : Relay.Outside) (b : Book) : Book → Prop
  | same : Next o b b
  /-- A cycle begins. -/
  | start (owner : Relay.Actor) (schedules : List Config.Schedule)
      (polls : owner = .client ∨ owner = .poller) (free : b.cycleOf owner = none) :
      Next o b
        ((b.count { b.counts with cycles := b.counts.cycles + 1 }).withCycle
          (some (.of schedules)) owner)
  /-- The visit whose turn it is makes a move. -/
  | visit (owner : Relay.Actor) (c : Poller.Cycle) (v : Poller.Visit) (phase : Poller.Phase)
      (b' : Book) (cycle : b.cycleOf owner = some c) (turn : c.visits[c.cursor]? = some v)
      (goes : Poller.Goes o v.schedule b v.phase phase b') :
      Next o b
        (b'.withCycle (some { c with visits := c.visits.set c.cursor { v with phase } }) owner)
  /-- It is the turn of another visit. -/
  | turn (owner : Relay.Actor) (c : Poller.Cycle) (n : Nat) (cycle : b.cycleOf owner = some c) :
      Next o b (b.withCycle (some { c with cursor := n }) owner)
  /-- A cycle ends when all its visits are over. -/
  | finish (owner : Relay.Actor) (c : Poller.Cycle) (cycle : b.cycleOf owner = some c)
      (allOver : c.visits.all Poller.Visit.isOver = true) :
      Next o b
        (({ b with reports := c.report :: b.reports } : Book).withCycle none owner)

namespace Relay.System

/-- The book of a service. -/
def book (s : System) : Book where
  timeout := s.settings.fetchTimeout
  fetches := s.fetches
  registry := s.registry
  offers := s.offers.filter fun x => x.sender.slot ≠ 0
  unsent := s.unsent
  counts := s.pollCounts
  reports := s.reports
  client := s.client.cycle?
  loop := s.loop.cycle?

/-- **The book goes on** as `b`, and what is fixed stays so. -/
structure Posts (s : System) (b : Book) (s' : System) : Prop where
  settings : s'.settings = s.settings
  book : s'.book = b

theorem Posts.refl (s : System) : s.Posts s.book s := ⟨rfl, rfl⟩

/-- What comes afterwards leaves the book alone. -/
theorem Posts.after {s t s' : System} {b : Book} (h' : t.Posts t.book s') (h : s.Posts b t) :
    s.Posts b s' :=
  ⟨h'.settings.trans h.settings, h'.book.trans h.book⟩

/-- What came before leaves what is fixed alone. -/
theorem Posts.since {s t s' : System} {b : Book} (h : t.Posts b s')
    (hs : t.settings = s.settings) : s.Posts b s' :=
  ⟨h.settings.trans hs, h.book⟩

/-! ## Moves that leave the book alone -/

/-- A word on the side is no business of the poller. -/
theorem Aside.posts {s s' : System} (h : s.Aside s') : s.Posts s.book s' := by
  obtain ⟨_, _, _, _, rfl⟩ := h.eq
  exact ⟨rfl, rfl⟩

theorem posts_rest (s : System) : s.Posts s.book s.rest := ⟨rfl, rfl⟩

theorem posts_startWorker (s : System) : s.Posts s.book s.startWorker := by
  unfold startWorker
  split <;> exact ⟨rfl, rfl⟩

theorem posts_signalLoop (s : System) : s.Posts s.book s.signalLoop := by
  unfold signalLoop
  dsimp only
  split <;> exact ⟨rfl, rfl⟩

theorem posts_told (s : System) (result : Except Failure Unit) :
    s.Posts (s.book.count (s.book.counts.heed result)) (s.told result) := by
  unfold told
  split <;> exact ⟨rfl, rfl⟩

theorem posts_record (s : System) (r : Audit.Record) : s.Posts s.book (s.record r) := by
  unfold record
  dsimp only
  split <;> exact ⟨rfl, rfl⟩

theorem posts_land (s : System) (f : Flight) (r : Audit.Record) :
    s.Posts s.book (s.land f r) := by
  have h : s.Posts s.book (s.conclude f r) := by
    unfold conclude
    exact (posts_record _ r).after ⟨rfl, rfl⟩
  unfold land
  dsimp only
  split
  · exact (posts_rest _).after ((aside_wake _ _).posts.after h)
  · exact (posts_rest _).after h

theorem posts_pursue (o : Outside) (s : System) (f : Flight) (next : Next) :
    s.Posts s.book (s.pursue o f next) := by
  cases next with
  | ended r => exact posts_land s f r
  | calling call whom => exact ⟨rfl, rfl⟩

theorem posts_moveFlight (o : Outside) (s : System) (number : Nat) :
    s.Posts s.book (s.moveFlight o number) := by
  unfold moveFlight
  split
  · exact posts_rest s
  · next f _ =>
    split
    · split
      · exact posts_pursue o s f _
      · exact ⟨rfl, rfl⟩
    · split
      · split
        next result resolver _ => exact (posts_pursue o { s with resolver } f _).after ⟨rfl, rfl⟩
      · exact ⟨rfl, rfl⟩
    · split
      · exact posts_land s f _
      · exact ⟨rfl, rfl⟩

theorem posts_takeEvent {s s' : System} {e : Event} (h : s.takeEvent = some (e, s')) :
    s.Posts s.book s' := by
  obtain ⟨queue, x, -, rfl⟩ := takeEvent_eq_some h
  cases x <;> exact ⟨rfl, rfl⟩

theorem posts_moveWorker (s : System) : s.Posts s.book s.moveWorker := by
  unfold moveWorker
  split
  · exact posts_rest s
  · split
    · exact ⟨rfl, rfl⟩
    · split
      · next h =>
        obtain ⟨hsettings, hbook⟩ := posts_takeEvent h
        exact ⟨hsettings, hbook⟩
      · split <;> exact ⟨rfl, rfl⟩
  · split <;> exact ⟨rfl, rfl⟩
  · split
    · next h =>
      obtain ⟨hsettings, hbook⟩ := posts_takeEvent h
      exact ⟨hsettings, hbook⟩
    · exact ⟨rfl, rfl⟩
  · split <;> exact ⟨rfl, rfl⟩
  · exact posts_rest s

theorem posts_moveWriter (o : Outside) (s : System) : s.Posts s.book (s.moveWriter o) := by
  unfold moveWriter
  split
  next pipeline turn begun _ =>
  cases turn with
  | again => exact ⟨rfl, rfl⟩
  | ended => exact ⟨rfl, rfl⟩
  | waiting due => cases due <;> exact ⟨rfl, rfl⟩

/-! ## Offers -/

/-- An offer is entered if it is one of a visit. -/
theorem book_offers (s : System) (x : Offer) :
    ({ s with offers := x :: s.offers } : System).book = s.book.enter x := by
  unfold Book.enter
  by_cases hx : x.sender.slot = 0
  · rw [if_pos hx]
    unfold book
    rw [List.filter_cons_of_neg (by simpa using hx)]
  · rw [if_neg hx]
    unfold book
    rw [List.filter_cons_of_pos (by simpa using hx)]

theorem posts_accepted (s : System) (x : Sender) (e : Event) :
    s.Posts (s.book.enter { sender := x, event := e, result := .ok () }) (s.accepted x e) := by
  unfold accepted
  refine (aside_wakeWorker _).posts.after ⟨rfl, ?_⟩
  rw [← book_offers]
  rfl

theorem posts_rejected (s : System) (x : Sender) (e : Event) (failure : Failure) :
    s.Posts (s.book.enter { sender := x, event := e, result := .error failure })
      (s.rejected x e failure) := by
  refine ⟨rfl, ?_⟩
  rw [← book_offers]
  rfl

theorem posts_enqueue (s : System) (e : Event) (x : Sender) :
    s.Posts (s.book.enter { sender := x, event := e, result := (s.enqueue e x).1 })
      (s.enqueue e x).2 := by
  unfold enqueue
  split
  · exact posts_rejected s x e _
  · split
    · exact (posts_accepted { s with queue := s.queue.push e } x e).since rfl
    · exact posts_rejected s x e _

/-- An offer is entered when it has ended. -/
theorem posts_offer (s : System) (x : Sender) (e : Event) (limit : Nat) :
    s.Posts
      (((s.offer x e limit).1.map fun result =>
          s.book.enter { sender := x, event := e, result }).getD s.book)
      (s.offer x e limit).2 := by
  unfold offer
  split
  · exact posts_enqueue s e x
  · exact ⟨rfl, rfl⟩

theorem posts_offerAgain (s : System) (x : Sender) (e : Event) (deadline : Nat) :
    s.Posts
      (((s.offerAgain x e deadline).1.map fun result =>
          s.book.enter { sender := x, event := e, result }).getD s.book)
      (s.offerAgain x e deadline).2 := by
  unfold offerAgain
  split
  · exact (posts_rejected (s.withdraw x) x e _).since rfl
  · split
    · exact (posts_accepted { s with
        queue := s.queue.use x e
        agenda := s.agenda.cancel x.actor x.slot } x e).since rfl
    · split
      · exact (posts_rejected (s.withdraw x) x e _).since rfl
      · exact .refl s

/-- What is not the offer of a visit is not entered. -/
theorem posts_offer_solo (s : System) (a : Actor) (e : Event) (limit : Nat) :
    s.Posts s.book (s.offer { actor := a } e limit).2 := by
  have h := posts_offer s { actor := a } e limit
  cases hr : (s.offer { actor := a } e limit).1 <;> rwa [hr] at h

theorem posts_offerAgain_solo (s : System) (a : Actor) (e : Event) (deadline : Nat) :
    s.Posts s.book (s.offerAgain { actor := a } e deadline).2 := by
  have h := posts_offerAgain s { actor := a } e deadline
  cases hr : (s.offerAgain { actor := a } e deadline).1 <;> rwa [hr] at h

theorem posts_offerAside (s : System) (e : Event) (limit : Nat) :
    s.Posts s.book (s.offerAside e limit) := by
  obtain ⟨hsettings, hbook⟩ :=
    posts_offer_solo { s with hired := s.hired + 1 } (.producer s.hired) e limit
  unfold offerAside
  split
  · next hs =>
    rw [hs] at hsettings hbook
    exact ⟨hsettings, hbook⟩
  · next hs =>
    rw [hs] at hsettings hbook
    exact ⟨hsettings, hbook⟩

theorem posts_moveProducer (s : System) (number : Nat) :
    s.Posts s.book (s.moveProducer number) := by
  unfold moveProducer
  split
  · exact posts_rest s
  · next p _ =>
    obtain ⟨hsettings, hbook⟩ := posts_offerAgain_solo s (.producer number) p.event p.deadline
    split
    · next hs =>
      rw [hs] at hsettings hbook
      exact ⟨hsettings, hbook⟩
    · next hs =>
      rw [hs] at hsettings hbook
      exact ⟨hsettings, hbook⟩

/-! ## Visits -/

open Poller (Goes Phase)

/-- The events that tell of changes say which change they tell of. -/
theorem eventFor_eq_some {templates : Config.Templates} {time : Time.Timestamp}
    {schedule id member : String} {roster : Roster.Snapshot} {change : Change} {event : Event}
    (h : Poller.eventFor templates time schedule roster id member change = some event) :
    (Poller.deliveryFor roster.target member).isSome = true
      ∧ event.origin = .roster schedule member change := by
  obtain ⟨delivery, hd, rfl⟩ := Option.map_eq_some_iff.1 h
  exact ⟨by rw [hd]; rfl, rfl⟩

theorem goes_receive {o : Outside} {s : System} {schedule : Config.Schedule} (due : Nat)
    (answer : Poller.Heard) :
    Goes o schedule s.book (.fetching due answer)
      (s.receive schedule answer).1 (s.receive schedule answer).2.book := by
  unfold receive
  split
  · next roster =>
    split
    · next hbad => exact .fail due _ (if_pos hbad)
    · next hgood => exact .receive due _ roster (if_neg hgood)
  · next hno =>
    -- no roster came at all
    have hbad : Poller.goodRoster? schedule answer = none := by
      unfold Poller.goodRoster?
      split
      · next roster => exact absurd rfl (hno roster)
      · rfl
    have hcount : s.book.counts.fail answer
        = { s.pollCounts with fetchFailures := s.pollCounts.fetchFailures + 1 } := by
      unfold Poller.Counts.fail
      split
      · next roster => exact absurd rfl (hno roster)
      · rfl
    have h := Goes.fail (o := o) (b := s.book) due answer hbad
    rw [hcount] at h
    exact h

/-- **A move of a visit** does to the book what it may do. -/
theorem VisitMove.goes {o : Outside} {s s' : System} {x : Sender} {schedule : Config.Schedule}
    {p p' : Phase} (hx : x.slot ≠ 0) (h : VisitMove o s x schedule p p' s') :
    Goes o schedule s.book p p' s'.book := by
  cases h with
  | ask => exact .fetch _
  | hear due answer isDue =>
    exact goes_receive (s := { s with agenda := s.agenda.cancel x.actor x.slot }) due answer
  | succeed roster t => exact .succeed roster t
  | skip roster t member change left mute =>
    exact .skip roster t member change left (Option.map_eq_none_iff.1 mute)
  | offer roster t member change left event result s' made ended =>
    obtain ⟨hdeliver, horigin⟩ := eventFor_eq_some made
    have hbook := (posts_offer (s.countTelling change) x event s.settings.fetchTimeout).book
    rw [ended] at hbook
    dsimp only [Option.map_some, Option.getD_some] at hbook
    rw [(posts_told _ _).book, hbook, Book.enter, if_neg hx]
    exact .offer roster t member change left _ hdeliver horigin
  | wait roster t member change left event s' made waits =>
    obtain ⟨hdeliver, horigin⟩ := eventFor_eq_some made
    have hbook := (posts_offer (s.countTelling change) x event s.settings.fetchTimeout).book
    rw [waits] at hbook
    dsimp only [Option.map_none, Option.getD_none] at hbook
    rw [hbook]
    exact .wait roster t member change left event _ hdeliver horigin
  | offered event deadline roster t left result s' ended =>
    have hbook := (posts_offerAgain s x event deadline).book
    rw [ended] at hbook
    dsimp only [Option.map_some, Option.getD_some] at hbook
    rw [(posts_told _ _).book, hbook, Book.enter, if_neg hx]
    exact .offered event deadline roster t left _ rfl

/-- What is fixed stays so. -/
theorem VisitMove.settings {o : Outside} {s s' : System} {x : Sender}
    {schedule : Config.Schedule} {p p' : Phase} (h : VisitMove o s x schedule p p' s') :
    s'.settings = s.settings := by
  cases h with
  | ask => rfl
  | hear due answer isDue =>
    unfold endFetch receive
    split
    · split <;> rfl
    · rfl
  | succeed roster t => rfl
  | skip roster t member change left mute => rfl
  | offer roster t member change left event result s' made ended =>
    have hoffer := (posts_offer (s.countTelling change) x event s.settings.fetchTimeout).settings
    rw [ended] at hoffer
    exact (posts_told _ _).settings.trans hoffer
  | wait roster t member change left event s' made waits =>
    have hoffer := (posts_offer (s.countTelling change) x event s.settings.fetchTimeout).settings
    rw [waits] at hoffer
    exact hoffer
  | offered event deadline roster t left result s' ended =>
    have hoffer := (posts_offerAgain s x event deadline).settings
    rw [ended] at hoffer
    exact (posts_told _ _).settings.trans hoffer

/-! ## Cycles -/

section Cycles

variable {o : Outside} {s s' : System} {b : Book}

/-- **What a step of the service enters** into the book. -/
inductive Entry (o : Outside) (s : System) : Book → Prop
  | same : Entry o s s.book
  /-- A cycle begins. -/
  | start (owner : Actor) (schedules : List Config.Schedule)
      (polls : owner = .client ∨ owner = .poller) (free : s.book.cycleOf owner = none) :
      Entry o s
        ((s.book.count { s.book.counts with cycles := s.book.counts.cycles + 1 }).withCycle
          (some (.of schedules)) owner)
  /-- The visit whose turn it is makes a move. -/
  | visit (owner : Actor) (c : Poller.Cycle) (v : Poller.Visit) (phase : Phase) (s' : System)
      (cycle : s.book.cycleOf owner = some c) (turn : c.visits[c.cursor]? = some v)
      (moves : VisitMove o s { actor := owner, slot := c.cursor + 1 } v.schedule v.phase phase s') :
      Entry o s
        (s'.book.withCycle
          (some { c with visits := c.visits.set c.cursor { v with phase } }) owner)
  /-- It is the turn of another visit. -/
  | turn (owner : Actor) (c : Poller.Cycle) (n : Nat) (cycle : s.book.cycleOf owner = some c) :
      Entry o s (s.book.withCycle (some { c with cursor := n }) owner)
  /-- A cycle ends when all its visits are over. -/
  | finish (owner : Actor) (c : Poller.Cycle) (cycle : s.book.cycleOf owner = some c)
      (allOver : c.visits.all Poller.Visit.isOver = true) :
      Entry o s
        (({ s.book with reports := c.report :: s.book.reports } : Book).withCycle none owner)

/-- What is entered is what can happen to the book. -/
theorem Entry.next (h : s.Entry o b) : s.book.Next o b := by
  cases h with
  | same => exact .same
  | start owner schedules polls free => exact .start owner schedules polls free
  | visit owner c v phase s' cycle turn moves =>
    exact .visit owner c v phase _ cycle turn (moves.goes (Nat.succ_ne_zero _))
  | turn owner c n cycle => exact .turn owner c n cycle
  | finish owner c cycle allOver => exact .finish owner c cycle allOver

/-- **A step of the service**, as far as polling is concerned. -/
structure Enters (o : Outside) (s s' : System) : Prop where
  settings : s'.settings = s.settings
  entry : s.Entry o s'.book

theorem Posts.enters (h : s.Posts s.book s') : s.Enters o s' where
  settings := h.settings
  entry := by
    rw [h.book]
    exact .same

/-- **A move of a cycle**, as far as the book is concerned. -/
theorem entry_moveCycle {owner : Actor} {c c' : Poller.Cycle} {t : Audit.Turn}
    (hc : s.book.cycleOf owner = some c) (hm : s.moveCycle o owner c = (t, c', s')) :
    match t with
    | .again => s'.settings = s.settings ∧ s.Entry o (s'.book.withCycle (some c') owner)
    | .ended => c' = c ∧ s' = s ∧ c.visits.all Poller.Visit.isOver = true
    | .waiting _ => s' = s ∧ s.Entry o (s.book.withCycle (some c') owner) := by
  unfold moveCycle at hm
  split at hm
  · next v hv =>
    split at hm
    · next phase s₁ he =>
      cases hm
      have hmove := visitMove_of_moveVisit he
      exact ⟨hmove.settings, .visit owner c v phase _ hc hv hmove⟩
    · cases hm
      exact ⟨rfl, .turn owner c _ hc⟩
  · split at hm
    · next hall =>
      cases hm
      exact ⟨rfl, rfl, hall⟩
    · cases hm
      exact ⟨rfl, .turn owner c _ hc⟩

/-- A client that takes up something else than a cycle leaves the book alone, and so does
one that had none. -/
theorem posts_client (c : Client) (h : c.cycle? = s.client.cycle?) :
    s.Posts s.book { s with client := c } := by
  refine ⟨rfl, ?_⟩
  unfold book
  rw [h]

theorem posts_reply (answer : Answer) (h : s.client.cycle? = none) :
    s.Posts s.book (s.reply answer) := by
  obtain ⟨hsettings, hbook⟩ := posts_client (.idle answer) h.symm
  exact ⟨hsettings, hbook⟩

theorem enters_moveLoop : s.Enters o (s.moveLoop o) := by
  unfold moveLoop
  split
  · exact (posts_rest s).enters
  · next due hl =>
    -- the loop waits for its next cycle, or ends
    have hfree : s.book.loop = none := by
      show s.loop.cycle? = none
      rw [hl]
      rfl
    split
    · refine Posts.enters ⟨rfl, ?_⟩
      show ({ s with loop := .absent } : System).book = s.book
      unfold book
      rw [hl]
      rfl
    · split
      · exact ⟨rfl, .start .poller s.loopSchedules (.inr rfl) hfree⟩
      · exact ⟨rfl, .same⟩
  · next next c hl =>
    have hc : s.book.cycleOf .poller = some c := Loop.cycle?_eq_some.2 ⟨next, hl⟩
    split
    · next hm =>
      obtain ⟨hsettings, hentry⟩ := entry_moveCycle hc hm
      exact ⟨hsettings, hentry⟩
    · next hm =>
      obtain ⟨rfl, rfl, hall⟩ := entry_moveCycle hc hm
      exact ⟨rfl, .finish .poller _ hc hall⟩
    · next hm =>
      obtain ⟨rfl, hentry⟩ := entry_moveCycle hc hm
      exact ⟨rfl, hentry⟩

theorem enters_moveClient : s.Enters o (s.moveClient o) := by
  unfold moveClient
  split
  · exact (posts_rest s).enters
  · next hc =>
    split
    · exact (posts_reply _ (by rw [hc]; rfl)).enters
    · exact ⟨rfl, .same⟩
  · next event deadline hc =>
    have hposts := posts_offerAgain_solo s .client event deadline
    split
    · next result s' hs =>
      rw [hs] at hposts
      have hnone : s.client.cycle? = none := by rw [hc]; rfl
      have hreply := posts_reply (.offered result) ((congrArg Book.client hposts.book).trans hnone)
      exact (hreply.after hposts).enters
    · next s' hs =>
      rw [hs] at hposts
      exact ((posts_rest _).after hposts).enters
  · next c hcl =>
    have hc : s.book.cycleOf .client = some c := Client.cycle?_eq_some.2 hcl
    split
    · next hm =>
      obtain ⟨hsettings, hentry⟩ := entry_moveCycle hc hm
      exact ⟨hsettings, hentry⟩
    · next hm =>
      obtain ⟨rfl, rfl, hall⟩ := entry_moveCycle hc hm
      exact ⟨rfl, .finish .client _ hc hall⟩
    · next hm =>
      obtain ⟨rfl, hentry⟩ := entry_moveCycle hc hm
      exact ⟨rfl, hentry⟩
  · next hc =>
    split
    · exact (posts_reply _ (by rw [hc]; rfl)).enters
    · exact (posts_rest s).enters
  · next hc =>
    split
    · have hposts := posts_client (s := s) .awaitingWriter (by rw [hc]; rfl)
      exact (((aside_signalWriter _).after (aside_startWriter _)).posts.after hposts).enters
    · exact (posts_rest s).enters
  · next hc =>
    split
    · exact (posts_reply _ (by rw [hc]; rfl)).enters
    · exact (posts_rest s).enters

theorem enters_move (a : Actor) : s.Enters o (s.move o a) := by
  cases a with
  | client => exact enters_moveClient
  | poller => exact enters_moveLoop
  | worker => exact (posts_moveWorker s).enters
  | writer => exact (posts_moveWriter o s).enters
  | delivery n => exact (posts_moveFlight o s n).enters
  | producer n => exact (posts_moveProducer s n).enters

theorem cycle?_of_isAnswered (h : s.isAnswered = true) : s.client.cycle? = none := by
  obtain ⟨answer, hc⟩ := isAnswered_iff.1 h
  rw [hc]
  rfl

/-- A request that leaves the book alone, but for what the client does then. -/
theorem posts_setClient (hidle : s.isAnswered = true) (h : s.Posts s.book s') (c : Client)
    (hc : c.cycle? = none) : s.Posts s.book { s' with client := c } := by
  refine (posts_client c ?_).after h
  exact hc.trans (((congrArg Book.client h.book).trans (cycle?_of_isAnswered hidle)).symm)

theorem posts_startPolling (hl : s.polling = false → s.loop = .absent)
    (schedules : List Config.Schedule) : s.Posts s.book (s.startPolling schedules) := by
  unfold startPolling
  split
  · exact .refl s
  · next hp =>
    refine ⟨rfl, ?_⟩
    unfold book
    rw [hl (by simpa using hp)]
    rfl

theorem enters_request (hidle : s.isAnswered = true)
    (hl : s.polling = false → s.loop = .absent) (r : Request) (plain : r.isRecord = false) :
    s.Enters o (s.request r) := by
  -- all requests but that for a cycle leave the book alone
  have hsame : ∀ {s' : System} {c : Client}, s.Posts s.book s' → c.cycle? = none →
      s.Enters o { s' with client := c } :=
    fun h hc => (posts_setClient hidle h _ hc).enters
  have hawait : ∀ {s' : System} {agenda : Agenda} (c : Client), s.Posts s.book s' →
      c.cycle? = none → s.Enters o { s' with client := c, agenda } := by
    intro s' agenda c h hc
    obtain ⟨hsettings, hentry⟩ := hsame h hc
    exact ⟨hsettings, hentry⟩
  cases r with
  | sleep ms => exact hawait (.sleeping _) (.refl s) rfl
  | enqueue event => exact hsame (posts_enqueue s event { actor := .client }) rfl
  | enqueueWithin event limit =>
    have hposts := posts_offer_solo s .client event limit
    rw [request]
    split
    · next hs =>
      rw [hs] at hposts
      exact hsame hposts rfl
    · next hs =>
      rw [hs] at hposts
      exact hawait (.offering _ _) hposts rfl
  | offerAside event limit => exact hsame (posts_offerAside s event limit) rfl
  | record r times => cases plain
  | start => exact hsame ((aside_startWriter _).posts.after (posts_startWorker s)) rfl
  | startWriter => exact hsame (aside_startWriter s).posts rfl
  | dropWriter => exact hsame (aside_dropWriter s).posts rfl
  | signal => exact hsame (aside_signalWorker s).posts rfl
  | leave => exact hsame (aside_endEvents s).posts rfl
  | shutdown =>
    have haside := (aside_signalWorker _).after (aside_startWriter s.startWorker)
    exact hawait .awaitingWorker (haside.posts.after (posts_startWorker s)) rfl
  | shutdownWriter =>
    exact hawait .awaitingWriter ((aside_signalWriter _).after (aside_startWriter s)).posts rfl
  | finish =>
    exact hawait .awaitingWorker ((aside_endEvents _).posts.after (posts_startWorker s)) rfl
  | finishRecords =>
    exact hawait .awaitingWriter ((aside_endRecords _).after (aside_startWriter s)).posts rfl
  | poll schedules =>
    exact ⟨rfl, .start .client schedules (.inl rfl) (cycle?_of_isAnswered hidle)⟩
  | startPolling schedules => exact hsame (posts_startPolling hl schedules) rfl
  | stopPolling =>
    rw [request]
    split
    · exact hawait .awaitingLoop (posts_signalLoop s) rfl
    · exact hsame (.refl s) rfl

/-- **Nothing else is entered into the book**, whatever the service does, and what is fixed
stays so. -/
theorem Advance.enters (hadv : Advance o s s') (h : Attended s.standing s.agenda) :
    s.Enters o s' := by
  cases hadv with
  | move _ => exact enters_move _
  | turn _ _ => exact ⟨rfl, .same⟩
  | call _ _ => exact ⟨rfl, .same⟩
  | pass t => exact ⟨rfl, .same⟩
  | request r answered _ plain =>
    exact enters_request answered (free_of_isAnswered h answered).2 r plain
  | elsewhere _ _ _ => exact ⟨rfl, .same⟩

section Course

variable {settings : Settings} {capacity auditCapacity : Nat} {audited : Bool} {grace : Nat}
  {resolver : Directory.Resolver}

theorem Course.enters
    (h : Course o (new settings capacity auditCapacity audited grace resolver) s)
    (hadv : Advance o s s') : s.Enters o s' :=
  hadv.enters (Course.attended h (sound_new ..) (attended_new ..))

/-- Each step of a course from the beginning is one of the book. -/
theorem Course.book
    (h : Course o (new settings capacity auditCapacity audited grace resolver) s)
    (hadv : Advance o s s') : s.book.Next o s'.book :=
  (Course.enters h hadv).entry.next

end Course

end Cycles

end Relay.System

end Rota
