import Mathlib.Algebra.GroupWithZero.Nat
import Mathlib.Algebra.Order.BigOperators.Group.List
import Mathlib.Algebra.Order.Group.Nat
import Rota.Proofs.Poller.Book
import Rota.Proofs.Relay.Grace
import Rota.Proofs.Relay.Moves

/-!
# The service comes to rest

While somebody can run, no time passes. So the service gets on only if at each moment everyone
comes to rest after finitely many moves, whatever is under way.

What there is to do yet is a `Load`: the cycles that the polling loop may begin by now, the
rosters that have not come, the work that follows from what has come, the actors who were woken,
and the moves of the one who is running until it rests. What takes up one of them may add to
those after it – a roster that comes may bring any number of changes to be told – so loads are
compared in this order. Every step makes the load less (`less_step`), unless everyone waits
already; hence everyone will, as `Rota.Proofs.Relay.Onward` goes on to say.
-/

namespace Rota

/-! ## What there is to do -/

theorem Audit.Pipeline.toil_offer (p : Audit.Pipeline) (r : Audit.Record) :
    (p.offer r).toil ≤ p.toil + 2 := by
  unfold Audit.Pipeline.offer
  dsimp only
  split
  · exact Nat.le_add_right _ _
  · split
    · exact Nat.le_add_right _ _
    · unfold Audit.Pipeline.toil
      dsimp only
      rw [List.length_append, List.length_singleton]
      cases p.writer <;> dsimp only <;> omega

namespace Poller

/-- How far a visit is from its roster. -/
def Phase.fetches : Phase → Nat
  | .fresh => 2
  | .fetching .. => 1
  | _ => 0

/-- What a visit has to do yet once it has its roster: a change may become an event that waits
for room, and an event may become a delivery. -/
def Phase.chores : Phase → Nat
  | .telling _ _ left => 9 * left.length + 1
  | .offering _ _ _ _ left => 9 * left.length + 9
  | _ => 0

def Cycle.fetches (c : Cycle) : Nat :=
  (c.visits.map fun v => v.phase.fetches).sum

def Cycle.chores (c : Cycle) : Nat :=
  (c.visits.map fun v => v.phase.chores).sum

end Poller

namespace Relay

def Worker.chores : Worker → Nat
  | .idle => 3
  | .holding _ ending => if ending then 8 else 9
  | .draining => 2
  | .parting => 1
  | .unstarted | .gone => 0

def Progress.chores : Progress → Nat
  | .fresh => 5
  | .asking .. => 4
  | .calling .. => 3

def Client.fetches (c : Client) : Nat :=
  c.cycle?.elim 0 Poller.Cycle.fetches

def Client.chores : Client → Nat
  | .idle _ => 0
  | .offering .. => 8
  | .cycling c => c.chores + 1
  | .awaitingWorker => 2
  | _ => 1

def Loop.fetches (l : Loop) : Nat :=
  l.cycle?.elim 0 Poller.Cycle.fetches

def Loop.chores : Loop → Nat
  | .absent => 0
  | .waiting _ => 1
  | .cycling _ c => c.chores + 2

/-- How many cycles the loop may begin yet before time passes. -/
def Loop.rounds (l : Loop) (now : Nat) : Nat :=
  match l with
  | .absent => 0
  | .waiting due => now + 1 - due
  | .cycling next _ => now + 1 - next

/-- **What there is to do yet** at one moment. -/
structure Load where
  /-- Cycles that the loop may begin. -/
  rounds : Nat
  /-- Rosters that have not come. -/
  fetches : Nat
  /-- What follows from the rosters, events and records that are there. -/
  work : Nat
  /-- Actors who were woken. -/
  awake : Nat
  /-- Moves of the actor who is running until it rests. -/
  pace : Nat

namespace Load

/-- **There is less to do**: what comes first counts for more than all the rest. -/
def Less (a b : Load) : Prop :=
  a.rounds < b.rounds ∨ a.rounds = b.rounds ∧
    (a.fetches < b.fetches ∨ a.fetches = b.fetches ∧
      (a.work < b.work ∨ a.work = b.work ∧
        (a.awake < b.awake ∨ a.awake = b.awake ∧ a.pace < b.pace)))

theorem wellFounded_less : WellFounded Less := by
  let order : WellFoundedRelation (Nat × Nat × Nat × Nat × Nat) := inferInstance
  refine Subrelation.wf (fun {a b} h => ?_)
    (InvImage.wf (fun l : Load => (l.rounds, l.fetches, l.work, l.awake, l.pace)) order.wf)
  simp only [InvImage, order, Prod.lex_def, WellFoundedRelation.rel]
  exact h

variable {a b : Load}

theorem less_of_rounds (h : a.rounds < b.rounds) : a.Less b := .inl h

theorem less_of_fetches (hr : a.rounds ≤ b.rounds) (h : a.fetches < b.fetches) : a.Less b := by
  unfold Less
  omega

theorem less_of_work (hr : a.rounds ≤ b.rounds) (hf : a.fetches ≤ b.fetches)
    (h : a.work < b.work) : a.Less b := by
  unfold Less
  omega

theorem less_of_awake (hr : a.rounds ≤ b.rounds) (hf : a.fetches ≤ b.fetches)
    (hw : a.work ≤ b.work) (h : a.awake < b.awake) : a.Less b := by
  unfold Less
  omega

theorem less_of_pace (hr : a.rounds ≤ b.rounds) (hf : a.fetches ≤ b.fetches)
    (hw : a.work ≤ b.work) (ha : a.awake ≤ b.awake) (h : a.pace < b.pace) : a.Less b := by
  unfold Less
  omega

end Load

namespace System

/-- What there is to do besides the cycles. -/
def errands (s : System) : Nat :=
  8 * s.producers.length + 7 * s.queue.items.length + s.worker.chores
    + (s.flights.map fun f => f.progress.chores).sum + s.pipeline.toil

/-- What there is to do yet in a service. -/
def load (s : System) : Load where
  rounds := s.loop.rounds s.now
  fetches := s.client.fetches + s.loop.fetches
  work := s.errands + s.client.chores + s.loop.chores
  awake := s.agenda.ready.length + s.agenda.called.toNat
  pace := s.agenda.running.elim 0 fun a =>
    (s.standing.cycleOf a).elim 1 fun c => c.visits.length - c.cursor + 1

variable {o : Outside} {s t s' : System} {a owner : Actor} {c c' : Poller.Cycle} {n m : Nat}

theorem pace_pos (h : s.agenda.running = some a) : 0 < s.load.pace := by
  unfold load
  rw [h]
  cases hc : s.standing.cycleOf a with
  | none => simp [hc]
  | some c => simp [hc]

/-- An actor that rests leaves less to do, as long as it has woken nobody. -/
theorem less_of_rests (hrun : s.agenda.running = some a)
    (h : ∃ agenda, s' = { s with agenda }) (hnow : s'.now = s.now)
    (hrests : s'.agenda.running = none) (hready : s'.agenda.ready = s.agenda.ready)
    (hcalled : s'.agenda.called = s.agenda.called) : s'.load.Less s.load := by
  obtain ⟨agenda, rfl⟩ := h
  refine Load.less_of_pace (Nat.le_of_eq ?_) (Nat.le_refl _) (Nat.le_refl _) (Nat.le_of_eq ?_) ?_
  · exact congrArg s.loop.rounds hnow
  · exact congrArg₂ (fun ready called => List.length ready + Bool.toNat called) hready hcalled
  · refine Nat.lt_of_le_of_lt (Nat.le_of_eq ?_) (pace_pos hrun)
    unfold load
    rw [hrests]
    rfl

theorem less_rest (hrun : s.agenda.running = some a) : s.rest.load.Less s.load :=
  less_of_rests hrun ⟨_, rfl⟩ rfl rfl rfl rfl

theorem less_restUntil (hrun : s.agenda.running = some a) (due : Nat) (actor : Actor)
    (slot : Nat) : (s.restUntil due actor slot).load.Less s.load := by
  refine less_of_rests hrun ⟨_, rfl⟩ (Agenda.now_setAlarm _ _ _ _) rfl ?_ ?_ <;>
  · unfold restUntil Agenda.setAlarm
    split <;> rfl

/-! ## What the parts of a move add -/

/-- **Client and loop are left alone**, and no time passes. -/
structure Stays (s s' : System) : Prop where
  client : s'.client = s.client
  loop : s'.loop = s.loop
  polling : s'.polling = s.polling
  schedules : s'.loopSchedules = s.loopSchedules
  now : s'.now = s.now

/-- **What happens adds at most so much** to the errands, and leaves client and loop alone. -/
structure Adds (s s' : System) (n : Nat) : Prop extends s.Stays s' where
  errands : s'.errands ≤ s.errands + n

theorem Stays.refl (s : System) : s.Stays s := ⟨rfl, rfl, rfl, rfl, rfl⟩

theorem Stays.after (h' : t.Stays s') (h : s.Stays t) : s.Stays s' :=
  ⟨h'.client.trans h.client, h'.loop.trans h.loop, h'.polling.trans h.polling,
    h'.schedules.trans h.schedules, h'.now.trans h.now⟩

section Stays

variable (h : s.Stays t)

include h

theorem Stays.rest : s.Stays t.rest := ⟨h.client, h.loop, h.polling, h.schedules, h.now⟩

theorem Stays.producers {producers : List Producer} :
    s.Stays ({ t with producers } : System).rest :=
  ⟨h.client, h.loop, h.polling, h.schedules, h.now⟩

theorem Stays.worker {worker : Worker} : s.Stays { t with worker } :=
  ⟨h.client, h.loop, h.polling, h.schedules, h.now⟩

theorem Stays.flights {number : Nat} {p : Progress} : s.Stays (t.setProgress number p) :=
  ⟨h.client, h.loop, h.polling, h.schedules, h.now⟩

end Stays

theorem Adds.after (h' : t.Adds s' m) (h : s.Adds t n) : s.Adds s' (n + m) where
  toStays := h'.toStays.after h.toStays
  errands := by
    have := h.errands
    have := h'.errands
    omega

/-- Less is to do if the errands are fewer and nothing else has changed. -/
theorem less_of_errands (h : s.Stays s') (hlt : s'.errands < s.errands) :
    s'.load.Less s.load := by
  unfold load
  rw [h.client, h.loop, h.now]
  refine Load.less_of_work (Nat.le_refl _) (Nat.le_refl _) ?_
  dsimp only
  omega

section Offers

variable (s) (x : Sender) (e : Event)

theorem adds_wake (actor : Actor) : s.Adds (s.wake actor) 0 :=
  ⟨⟨rfl, rfl, rfl, rfl, Agenda.now_wake _ _⟩, Nat.le_refl _⟩

theorem adds_wakeWorker : s.Adds s.wakeWorker 0 := by
  unfold wakeWorker
  split
  · exact adds_wake s _
  · exact ⟨.refl s, Nat.le_refl _⟩

/-- An event that is accepted is one more in the queue. -/
theorem adds_accepted (agenda : Agenda) (queue : Queue) (hnow : agenda.now = s.now)
    (hitems : queue.items = s.queue.items ++ [e]) :
    s.Adds (({ s with agenda, queue } : System).accepted x e) 7 := by
  refine (adds_wakeWorker _).after ⟨⟨rfl, rfl, rfl, rfl, hnow⟩, Nat.le_of_eq ?_⟩
  simp only [System.errands, hitems, List.length_append, List.length_singleton]
  omega

theorem adds_enqueue : s.Adds (s.enqueue e x).2 7 := by
  unfold enqueue
  split
  · exact ⟨⟨rfl, rfl, rfl, rfl, rfl⟩, Nat.le_add_right _ _⟩
  · split
    · exact adds_accepted s x e s.agenda (s.queue.push e) rfl rfl
    · exact ⟨⟨rfl, rfl, rfl, rfl, rfl⟩, Nat.le_add_right _ _⟩

/-- An event that has to wait is not in the queue. -/
theorem adds_offer (limit : Nat) :
    s.Adds (s.offer x e limit).2 (if (s.offer x e limit).1.isNone then 0 else 7) := by
  unfold offer
  split
  · exact adds_enqueue s x e
  · exact ⟨⟨rfl, rfl, rfl, rfl, Agenda.now_setAlarm _ _ _ _⟩, Nat.le_refl _⟩

theorem adds_offerAgain (deadline : Nat) : s.Adds (s.offerAgain x e deadline).2 7 := by
  unfold offerAgain
  split
  · exact ⟨⟨rfl, rfl, rfl, rfl, rfl⟩, Nat.le_add_right _ _⟩
  · split
    · exact adds_accepted s x e (s.agenda.cancel x.actor x.slot) (s.queue.use x e) rfl rfl
    · split <;> exact ⟨⟨rfl, rfl, rfl, rfl, rfl⟩, Nat.le_add_right _ _⟩

theorem adds_told (result : Except Failure Unit) : s.Adds (s.told result) 0 := by
  unfold told
  split <;> exact ⟨⟨rfl, rfl, rfl, rfl, rfl⟩, Nat.le_refl _⟩

end Offers

theorem stays_record (s : System) (r : Audit.Record) : s.Stays (s.record r) := by
  unfold record
  dsimp only
  split
  · exact ⟨rfl, rfl, rfl, rfl, Agenda.now_wake _ _⟩
  · exact ⟨rfl, rfl, rfl, rfl, rfl⟩

theorem stays_land (s : System) (f : Flight) (r : Audit.Record) : s.Stays (s.land f r) := by
  have h : s.Stays (s.conclude f r) := by
    unfold conclude
    exact (stays_record _ r).after ⟨rfl, rfl, rfl, rfl, rfl⟩
  unfold land
  dsimp only
  split
  · exact ((adds_wake _ _).toStays.after h).rest
  · exact h.rest

/-! ## Polling -/

open Poller (Phase Visit)

theorem stays_beginFetch (o : Outside) (s : System) (x : Sender) (schedule : Config.Schedule) :
    s.Stays (s.beginFetch o x schedule).2 := by
  refine ⟨rfl, rfl, rfl, rfl, ?_⟩
  unfold beginFetch
  dsimp only
  split
  · rfl
  · exact Agenda.now_setAlarm _ _ _ _

theorem stays_endFetch (s : System) (x : Sender) (schedule : Config.Schedule)
    (answer : Option (Except Failure Roster.Snapshot)) :
    s.Stays (s.endFetch x schedule answer).2
      ∧ (s.endFetch x schedule answer).1.fetches = 0 := by
  unfold endFetch receive
  split
  · split <;> exact ⟨⟨rfl, rfl, rfl, rfl, rfl⟩, rfl⟩
  · exact ⟨⟨rfl, rfl, rfl, rfl, rfl⟩, rfl⟩

/-- **A move of a visit** brings its roster closer, or leaves it less to do. -/
theorem VisitMove.eases {x : Sender} {schedule : Config.Schedule} {p p' : Phase}
    (h : VisitMove o s x schedule p p' s') :
    s.Stays s' ∧ (p'.fetches < p.fetches
      ∨ p'.fetches = p.fetches ∧ p'.chores + s'.errands < p.chores + s.errands) := by
  cases h with
  | ask => exact ⟨stays_beginFetch o s x _, .inl Nat.one_lt_two⟩
  | hear due answer isDue =>
    obtain ⟨hstays, hfetches⟩ := stays_endFetch s x schedule answer
    exact ⟨hstays, .inl (by rw [hfetches]; exact Nat.one_pos)⟩
  | succeed roster t => exact ⟨.refl s, .inr ⟨rfl, by simp [Phase.chores]⟩⟩
  | skip roster t member change left mute =>
    refine ⟨⟨rfl, rfl, rfl, rfl, rfl⟩, .inr ⟨rfl, ?_⟩⟩
    show 9 * left.length + 1 + s.errands < 9 * (left.length + 1) + 1 + s.errands
    omega
  | offer roster t member change left event result s' made ended =>
    have hadds := adds_offer (s.countTelling change) x event s.settings.fetchTimeout
    rw [ended] at hadds
    have hadds := (adds_told s' result).after hadds
    refine ⟨.after hadds.toStays ⟨rfl, rfl, rfl, rfl, rfl⟩, .inr ⟨rfl, ?_⟩⟩
    have hle : (s'.told result).errands ≤ s.errands + 7 := hadds.errands
    show 9 * left.length + 1 + _ < 9 * (left.length + 1) + 1 + _
    omega
  | wait roster t member change left event s' made waits =>
    have hadds := adds_offer (s.countTelling change) x event s.settings.fetchTimeout
    rw [waits] at hadds
    refine ⟨.after hadds.toStays ⟨rfl, rfl, rfl, rfl, rfl⟩, .inr ⟨rfl, ?_⟩⟩
    have hle : s'.errands ≤ s.errands + 0 := hadds.errands
    show 9 * left.length + 9 + _ < 9 * (left.length + 1) + 1 + _
    omega
  | offered event deadline roster t left result s' ended =>
    have hadds := adds_offerAgain s x event deadline
    rw [ended] at hadds
    have hadds := (adds_told s' result).after hadds
    refine ⟨hadds.toStays, .inr ⟨rfl, ?_⟩⟩
    have hle : (s'.told result).errands ≤ s.errands + 7 := hadds.errands
    show 9 * left.length + 1 + _ < 9 * left.length + 9 + _
    omega

/-- **A move of a cycle**: it is closer to its rosters, or has less to do, or its turn goes on to
the next visit; or else it is over, or waits. -/
inductive Eases (s : System) (c : Poller.Cycle) : Audit.Turn × Poller.Cycle × System → Prop
  | fetches {c' : Poller.Cycle} {s' : System} (stays : s.Stays s')
      (less : c'.fetches < c.fetches) : Eases s c (.again, c', s')
  | chores {c' : Poller.Cycle} {s' : System} (stays : s.Stays s') (same : c'.fetches = c.fetches)
      (less : c'.chores + s'.errands < c.chores + s.errands) : Eases s c (.again, c', s')
  | skip (more : c.cursor < c.visits.length) :
      Eases s c (.again, { c with cursor := c.cursor + 1 }, s)
  | finish : Eases s c (.ended, c, s)
  | wrap : Eases s c (.waiting none, { c with cursor := 0 }, s)

theorem CycleMove.eases {owner : Actor} {c : Poller.Cycle}
    {moved : Audit.Turn × Poller.Cycle × System} (h : CycleMove o s owner c moved) :
    s.Eases c moved := by
  cases h with
  | @visit v phase s' turn moves =>
    obtain ⟨hstays, heases⟩ : s.Stays s' ∧ (phase.fetches < v.phase.fetches
        ∨ phase.fetches = v.phase.fetches
          ∧ phase.chores + s'.errands < v.phase.chores + s.errands) :=
      (visitMove_of_moveVisit moves).eases
    have hf : ({ c with visits := c.visits.set c.cursor { v with phase } } : Poller.Cycle).fetches
        + v.phase.fetches = c.fetches + phase.fetches :=
      Poller.sum_map_set turn (fun v => v.phase.fetches) { v with phase }
    have hc : ({ c with visits := c.visits.set c.cursor { v with phase } } : Poller.Cycle).chores
        + v.phase.chores = c.chores + phase.chores :=
      Poller.sum_map_set turn (fun v => v.phase.chores) { v with phase }
    rcases heases with hless | ⟨hsame, hless⟩
    · exact .fetches hstays (by omega)
    · exact .chores hstays (by omega) (by omega)
  | skip turn rests => exact .skip (List.getElem?_eq_some_iff.1 turn).1
  | finish passed allOver => exact .finish
  | wrap passed busy => exact .wrap

theorem lt_nextCycle {due : Nat} (hinterval : 0 < s.settings.interval) (hdue : due ≤ s.now) :
    due < s.nextCycle due := by
  unfold nextCycle
  split <;> omega

/-- **A move of the loop** leaves less to do. -/
theorem less_moveLoop (hinterval : s.loop ≠ .absent → 0 < s.settings.interval)
    (hrun : s.agenda.running = some .poller) : (s.moveLoop o).load.Less s.load := by
  have hrounds : ∀ {next c}, s.loop = .cycling next c → s.now + 1 - next = s.load.rounds :=
    fun hl => by rw [load, hl]; rfl
  have hfetches : ∀ {next c}, s.loop = .cycling next c →
      s.load.fetches = s.client.fetches + c.fetches := fun hl => by rw [load, hl]; rfl
  have hwork : ∀ {next c}, s.loop = .cycling next c →
      s.load.work = s.errands + s.client.chores + (c.chores + 2) := fun hl => by rw [load, hl]; rfl
  have hpace : ∀ {next c}, s.loop = .cycling next c →
      s.load.pace = c.visits.length - c.cursor + 1 := fun hl => by
    rw [load, hrun, standing, hl]
    rfl
  have h := loopMove (o := o) (s := s)
  generalize s.moveLoop o = t at h ⊢
  cases h with
  | rest _ => exact less_rest hrun
  | halt waits _ =>
    refine Load.less_of_work (Nat.zero_le _) ?_ ?_
    · show s.client.fetches + 0 ≤ s.client.fetches + s.loop.fetches
      omega
    · show s.errands + s.client.chores + 0 < s.errands + s.client.chores + s.loop.chores
      rw [waits]
      exact Nat.lt_succ_self _
  | @begin due waits _ isDue =>
    refine Load.less_of_rounds ?_
    have hlt := lt_nextCycle (hinterval (by simp [waits])) isDue
    show s.now + 1 - s.nextCycle due < s.loop.rounds s.now
    rw [waits]
    show _ < s.now + 1 - due
    omega
  | wait _ _ _ => exact less_restUntil hrun _ _ _
  | @goOn next c c' t cycling moves =>
    cases moves.eases with
    | fetches stays less =>
      refine Load.less_of_fetches (Nat.le_of_eq ?_) ?_
      · rw [← hrounds cycling, ← stays.now]
        rfl
      · rw [hfetches cycling, ← stays.client]
        exact Nat.add_lt_add_left less _
    | chores stays same less =>
      refine Load.less_of_work (Nat.le_of_eq ?_) (Nat.le_of_eq ?_) ?_
      · rw [← hrounds cycling, ← stays.now]
        rfl
      · rw [hfetches cycling, ← stays.client, ← same]
        rfl
      · rw [hwork cycling, ← stays.client]
        show t.errands + t.client.chores + (c'.chores + 2) < _
        omega
    | skip more =>
      refine Load.less_of_pace (Nat.le_of_eq (hrounds cycling))
        (Nat.le_of_eq (hfetches cycling).symm) (Nat.le_of_eq (hwork cycling).symm)
        (Nat.le_refl _) ?_
      rw [hpace cycling, load, hrun]
      show c.visits.length - (c.cursor + 1) + 1 < _
      omega
  | @finish next c cycling _ =>
    refine Load.less_of_work (Nat.le_of_eq (hrounds cycling)) ?_ ?_
    · rw [hfetches cycling]
      exact Nat.le_add_right _ _
    · rw [hwork cycling]
      show s.errands + s.client.chores + 1 < _
      omega
  | wrap cycling _ _ =>
    refine Load.less_of_pace (Nat.le_of_eq (hrounds cycling))
      (Nat.le_of_eq (hfetches cycling).symm) (Nat.le_of_eq (hwork cycling).symm)
      (Nat.le_refl _) ?_
    rw [hpace cycling]
    exact Nat.succ_pos _

/-! ## The client and the producers -/

/-- The client has less to do when it gets its answer. -/
theorem less_reply (answer : Answer) (h : s.Adds s' n) (hlt : n < s.client.chores)
    (hcycle : s.client.cycle? = none) : (s'.reply answer).load.Less s.load := by
  have herrands := h.errands
  refine Load.less_of_work (Nat.le_of_eq ?_) (Nat.le_of_eq ?_) ?_
  · show s'.loop.rounds s'.now = s.loop.rounds s.now
    rw [h.loop, h.now]
  · show 0 + s'.loop.fetches = s.client.fetches + s.loop.fetches
    rw [h.loop, Client.fetches, hcycle]
    rfl
  · show s'.errands + 0 + s'.loop.chores < s.errands + s.client.chores + s.loop.chores
    rw [h.loop]
    omega

/-- The writer is told to stop, and started if it was not. -/
theorem adds_startSignalled (s : System) : s.Adds s.startWriter.signalWriter 0 := by
  have hstart : s.Adds s.startWriter 0 := by
    unfold startWriter
    split
    · next h =>
      refine (adds_wake _ _).after ⟨⟨rfl, rfl, rfl, rfl, rfl⟩, ?_⟩
      have htoil : s.pipeline.start.toil ≤ s.pipeline.toil := by
        simp [Audit.Pipeline.toil, Audit.Pipeline.start, h]
      exact Nat.add_le_add_left htoil _
    · exact ⟨.refl s, Nat.le_refl _⟩
  refine Adds.after (m := 0) ?_ hstart
  unfold signalWriter
  dsimp only
  split
  · exact (adds_wake _ _).after ⟨⟨rfl, rfl, rfl, rfl, rfl⟩, Nat.le_refl _⟩
  · exact ⟨⟨rfl, rfl, rfl, rfl, rfl⟩, Nat.le_refl _⟩

/-- **A move of the client** leaves less to do. -/
theorem less_moveClient (hrun : s.agenda.running = some .client) :
    (s.moveClient o).load.Less s.load := by
  have hadds : s.Adds s 0 := ⟨.refl s, Nat.le_refl _⟩
  have hfetches : ∀ {c}, s.client = .cycling c → s.load.fetches = c.fetches + s.loop.fetches :=
    fun hc => by rw [load, hc]; rfl
  have hwork : ∀ {c}, s.client = .cycling c →
      s.load.work = s.errands + (c.chores + 1) + s.loop.chores := fun hc => by rw [load, hc]; rfl
  have hpace : ∀ {c}, s.client = .cycling c → s.load.pace = c.visits.length - c.cursor + 1 :=
    fun hc => by
      rw [load, hrun, standing, hc]
      rfl
  have h := clientMove (o := o) (s := s)
  generalize s.moveClient o = t at h ⊢
  cases h with
  | idle _ | awaitLoop _ _ | awaitWorker _ _ | awaitWriter _ _ => exact less_rest hrun
  | sleep _ _ => exact less_restUntil hrun _ _ _
  | rise hc _ | halted hc _ | written hc _ =>
    exact less_reply _ hadds (by rw [hc]; exact Nat.one_pos) (by rw [hc]; rfl)
  | hold _ waits =>
    obtain ⟨rfl, -⟩ := offerAgain_none s _ _ waits
    exact less_rest hrun
  | @offered event deadline result t hc ended =>
    have hoffer := adds_offerAgain s { actor := .client } event deadline
    rw [ended] at hoffer
    exact less_reply _ hoffer (by rw [hc]; exact Nat.lt_succ_self 7) (by rw [hc]; rfl)
  | @goOn c c' t cycling moves =>
    cases moves.eases with
    | fetches stays less =>
      refine Load.less_of_fetches (Nat.le_of_eq ?_) ?_
      · show t.loop.rounds t.now = s.loop.rounds s.now
        rw [stays.loop, stays.now]
      · rw [hfetches cycling, ← stays.loop]
        exact Nat.add_lt_add_right less _
    | chores stays same less =>
      refine Load.less_of_work (Nat.le_of_eq ?_) (Nat.le_of_eq ?_) ?_
      · show t.loop.rounds t.now = s.loop.rounds s.now
        rw [stays.loop, stays.now]
      · rw [hfetches cycling, ← stays.loop, ← same]
        rfl
      · rw [hwork cycling, ← stays.loop]
        show t.errands + (c'.chores + 1) + t.loop.chores < _
        omega
    | skip more =>
      refine Load.less_of_pace (Nat.le_refl _) (Nat.le_of_eq (hfetches cycling).symm)
        (Nat.le_of_eq (hwork cycling).symm) (Nat.le_refl _) ?_
      rw [hpace cycling, load, hrun]
      show c.visits.length - (c.cursor + 1) + 1 < _
      omega
  | finish cycling _ =>
    refine Load.less_of_work (Nat.le_refl _) ?_ ?_
    · rw [hfetches cycling]
      show 0 + s.loop.fetches ≤ _
      omega
    · rw [hwork cycling]
      show s.errands + 0 + s.loop.chores < _
      omega
  | wrap cycling _ _ =>
    refine Load.less_of_pace (Nat.le_refl _) (Nat.le_of_eq (hfetches cycling).symm)
      (Nat.le_of_eq (hwork cycling).symm) (Nat.le_refl _) ?_
    rw [hpace cycling]
    exact Nat.succ_pos _
  | parted hc _ =>
    have hsignalled := adds_startSignalled { s with client := .awaitingWriter }
    generalize ({ s with client := .awaitingWriter } : System).startWriter.signalWriter = s'
      at hsignalled
    have herrands : s'.errands ≤ s.errands := hsignalled.errands
    refine Load.less_of_work (Nat.le_of_eq ?_) (Nat.le_of_eq ?_) ?_
    · show s'.loop.rounds s'.now = s.loop.rounds s.now
      rw [hsignalled.loop, hsignalled.now]
      rfl
    · show s'.client.fetches + s'.loop.fetches = s.client.fetches + s.loop.fetches
      rw [hsignalled.loop, hsignalled.client, hc]
      rfl
    · show s'.errands + s'.client.chores + s'.loop.chores
        < s.errands + s.client.chores + s.loop.chores
      rw [hsignalled.loop, hsignalled.client, hc]
      show s'.errands + 1 + s.loop.chores < s.errands + 2 + s.loop.chores
      omega

theorem producers_offerAgain (s : System) (x : Sender) (e : Event) (deadline : Nat) :
    (s.offerAgain x e deadline).2.producers = s.producers := by
  unfold offerAgain accepted wakeWorker
  split
  · rfl
  · split
    · dsimp only
      split <;> rfl
    · split <;> rfl

/-- **A move of a producer** leaves less to do. -/
theorem less_moveProducer (number : Nat) (hrun : s.agenda.running = some (.producer number)) :
    (s.moveProducer number).load.Less s.load := by
  have h := producerMove (s := s) number
  generalize s.moveProducer number = t at h ⊢
  cases h with
  | rest _ => exact less_rest hrun
  | hold _ waits =>
    obtain ⟨rfl, -⟩ := offerAgain_none s _ _ waits
    exact less_rest hrun
  | @offered p result t found ended =>
    have hoffer := adds_offerAgain s { actor := .producer number } p.event p.deadline
    have hproducers := producers_offerAgain s { actor := .producer number } p.event p.deadline
    rw [ended] at hoffer hproducers
    -- one producer fewer waits, and its event may be in the queue
    have hfewer : (t.producers.filter (·.number ≠ number)).length < t.producers.length := by
      refine List.length_filter_lt_length_iff_exists.2 ⟨p, ?_, ?_⟩
      · exact hproducers ▸ List.mem_of_find?_eq_some found
      · simpa using List.find?_some found
    have herrands : t.errands ≤ s.errands + 7 := hoffer.errands
    refine less_of_errands hoffer.toStays.producers ?_
    simp only [errands, System.rest] at herrands ⊢
    omega

/-! ## Deliveries, the worker and the writer -/

section Flights

variable {flights : List Flight} {f : Flight}

theorem sum_land (h : f ∈ flights) :
    ((flights.filter (·.number ≠ f.number)).map fun g => g.progress.chores).sum
      + f.progress.chores ≤ (flights.map fun g => g.progress.chores).sum := by
  have hperm := List.filter_append_perm (fun g : Flight => decide (g.number ≠ f.number)) flights
  have hsum := (hperm.map fun g => g.progress.chores).sum_eq
  rw [List.map_append, List.sum_append] at hsum
  have hmem : f ∈ flights.filter fun g => !decide (g.number ≠ f.number) :=
    List.mem_filter.2 ⟨h, by simp⟩
  have hle := List.single_le_sum (fun _ _ => Nat.zero_le _) _
    (List.mem_map_of_mem (f := fun g : Flight => g.progress.chores) hmem)
  omega

/-- Only the delivery that goes on has something else to do. -/
theorem sum_setProgress (hn : (flights.map Flight.number).Nodup) (h : f ∈ flights)
    (p : Progress) :
    ((flights.map fun g => if g.number = f.number then { g with progress := p } else g).map
        fun g => g.progress.chores).sum + f.progress.chores
      = (flights.map fun g => g.progress.chores).sum + p.chores := by
  induction flights with
  | nil => cases h
  | cons g rest ih =>
    rw [List.map_cons, List.nodup_cons] at hn
    simp only [List.map_cons, List.sum_cons]
    rcases List.mem_cons.1 h with rfl | hr
    · have hkeep : rest.map (fun g => if g.number = f.number then { g with progress := p } else g)
          = rest := by
        refine (List.map_congr_left fun g hg => if_neg fun hgf => ?_).trans (List.map_id rest)
        exact hn.1 (hgf ▸ List.mem_map_of_mem hg)
      rw [hkeep, if_pos rfl]
      dsimp only
      omega
    · have hg : g.number ≠ f.number := fun hgf => hn.1 (hgf ▸ List.mem_map_of_mem hr)
      have hrest := ih hn.2 hr
      rw [if_neg hg]
      omega

end Flights

/-- **A delivery that ends** leaves less to do, although its record has to be written. -/
theorem less_land (f : Flight) (r : Audit.Record) (h : f ∈ s.flights)
    (hchores : 3 ≤ f.progress.chores) : (s.land f r).load.Less s.load := by
  have hsum := sum_land h
  have htoil := s.pipeline.toil_offer r
  have hlt : (s.conclude f r).errands < s.errands := by
    unfold conclude record
    dsimp only
    split
    · simp only [errands, wake]
      omega
    · simp only [errands]
      omega
  refine less_of_errands (stays_land s f r) ?_
  unfold land
  dsimp only
  split <;> exact hlt

theorem less_setProgress (hn : (s.flights.map Flight.number).Nodup) {f : Flight}
    (h : f ∈ s.flights) {p : Progress} (hlt : p.chores < f.progress.chores)
    (hs : t.flights = s.flights ∧ t.errands = s.errands) (hstays : s.Stays t) :
    (t.setProgress f.number p).load.Less s.load := by
  have hsum := sum_setProgress hn h p
  refine less_of_errands hstays.flights ?_
  have herrands := hs.2
  simp only [errands, setProgress] at herrands ⊢
  rw [hs.1] at herrands ⊢
  omega

theorem less_pursue (hn : (s.flights.map Flight.number).Nodup) {f : Flight} (h : f ∈ s.flights)
    (hchores : 3 < f.progress.chores) (next : Next) :
    (s.pursue o f next).load.Less s.load := by
  cases next with
  | ended r => exact less_land f r h (Nat.le_of_lt hchores)
  | calling call whom => exact less_setProgress hn h hchores ⟨rfl, rfl⟩ ⟨rfl, rfl, rfl, rfl, rfl⟩

/-- **A move of a delivery** leaves less to do. -/
theorem less_moveFlight (hn : (s.flights.map Flight.number).Nodup) (number : Nat)
    (hrun : s.agenda.running = some (.delivery number)) :
    (s.moveFlight o number).load.Less s.load := by
  have h := flightStep (o := o) (s := s) number
  generalize s.moveFlight o number = t at h ⊢
  cases h with
  | rest _ => exact less_rest hrun
  | begin found fresh _ =>
    exact less_pursue hn (List.mem_of_find?_eq_some found) (by rw [fresh]; decide) _
  | ask found fresh _ =>
    obtain rfl : _ = number := by simpa using List.find?_some found
    refine less_setProgress hn (List.mem_of_find?_eq_some found) ?_ ⟨rfl, rfl⟩
      ⟨rfl, rfl, rfl, rfl, rfl⟩
    rw [fresh]
    exact Nat.lt_succ_self 4
  | @hear f _ _ _ _ _ resolver found asking _ _ =>
    have hchores : 3 < f.progress.chores := by rw [asking]; exact Nat.lt_succ_self 3
    exact less_pursue (s := { s with resolver }) hn (List.mem_of_find?_eq_some found) hchores _
  | land found calling _ =>
    refine less_land _ _ (List.mem_of_find?_eq_some found) ?_
    rw [calling]
    exact Nat.le_refl 3
  | wait _ _ _ => exact less_restUntil hrun _ _ _

theorem errands_takeEvent {e : Event} (h : s.takeEvent = some (e, s')) :
    s.Stays s' ∧ ∀ w : Worker,
      ({ s' with worker := w } : System).errands + 7 + s.worker.chores = s.errands + w.chores := by
  obtain ⟨queue, x, ht, rfl⟩ := takeEvent_eq_some h
  have hitems := (Queue.take?_eq_some ht).1
  have herrands : ∀ w : Worker, ({ s with queue, worker := w } : System).errands + 7
      + s.worker.chores = s.errands + w.chores := by
    intro w
    simp only [errands, hitems, List.length_cons]
    omega
  cases x with
  | none => exact ⟨⟨rfl, rfl, rfl, rfl, rfl⟩, herrands⟩
  | some x => exact ⟨⟨rfl, rfl, rfl, rfl, Agenda.now_wake _ _⟩, herrands⟩

/-- **A move of the worker** leaves less to do. -/
theorem less_moveWorker (hrun : s.agenda.running = some .worker) :
    s.moveWorker.load.Less s.load := by
  have hclose : ∀ {w : Worker}, w.chores < s.worker.chores →
      ({ s.closeQueue with worker := w } : System).load.Less s.load := by
    intro w hlt
    refine less_of_errands ⟨rfl, rfl, rfl, rfl, Agenda.now_wakeAll _ _⟩ ?_
    simp only [errands, closeQueue, Queue.close]
    omega
  have htake : ∀ {e : Event} {t : System} {w : Worker}, s.takeEvent = some (e, t) →
      w.chores < s.worker.chores + 7 → ({ t with worker := w } : System).load.Less s.load := by
    intro e t w he hlt
    obtain ⟨hstays, herrands⟩ := errands_takeEvent he
    have := herrands w
    exact less_of_errands hstays.worker (by omega)
  have h := workerMove (s := s)
  generalize s.moveWorker = t at h ⊢
  cases h with
  | unstarted _ | idle _ _ _ _ | hold _ _ | await _ _ | gone _ => exact less_rest hrun
  | close idle _ => exact hclose (by rw [idle]; decide)
  | take idle _ takes => exact htake takes (by rw [idle]; exact Nat.lt_succ_self 9)
  | drain draining takes => exact htake takes (by rw [draining]; exact Nat.lt_succ_self 8)
  | @launch e draining holding _ =>
    refine less_of_errands ⟨rfl, rfl, rfl, rfl, Agenda.now_wake _ _⟩ ?_
    simp only [errands, launch, wake, List.map_append, List.sum_append, holding]
    cases draining <;> simp [Worker.chores, Progress.chores] <;> omega
  | part draining _ =>
    refine less_of_errands ⟨rfl, rfl, rfl, rfl, rfl⟩ ?_
    simp only [errands, draining, Worker.chores]
    omega
  | leave parting _ =>
    refine less_of_errands ⟨rfl, rfl, rfl, rfl, Agenda.now_wake _ _⟩ ?_
    simp only [errands, wake, System.rest, parting, Worker.chores]
    omega

/-- **A move of the writer** leaves less to do. -/
theorem less_moveWriter (hrun : s.agenda.running = some .writer) :
    (s.moveWriter o).load.Less s.load := by
  -- a writer that does not wait has less to do
  have hbusy : (∀ due, (s.pipeline.move s.now (o.append s.appends)).2.1 ≠ .waiting due) →
      (s.pipeline.move s.now (o.append s.appends)).1.toil < s.pipeline.toil :=
    fun h => (Audit.Pipeline.toil_move h).1
  have hwaits : ∀ d, (s.pipeline.move s.now (o.append s.appends)).2.1 = .waiting d →
      s.pipeline.move s.now (o.append s.appends) = (s.pipeline, .waiting d, false) :=
    fun d hd => (Audit.Pipeline.waits_of_move hd).move
  unfold moveWriter
  generalize s.pipeline.move s.now (o.append s.appends) = moved at hbusy hwaits ⊢
  obtain ⟨pipeline, turn, begun⟩ := moved
  cases turn with
  | again =>
    exact less_of_errands ⟨rfl, rfl, rfl, rfl, rfl⟩ (Nat.add_lt_add_left (hbusy nofun) _)
  | ended =>
    refine less_of_errands ⟨rfl, rfl, rfl, rfl, Agenda.now_wake _ _⟩ ?_
    exact Nat.add_lt_add_left (hbusy nofun) _
  | waiting due =>
    cases hwaits due rfl
    cases due with
    | none => exact less_rest hrun
    | some due => exact less_restUntil hrun _ _ _

/-! ## Every step -/

/-- **Every move leaves less to do.** -/
theorem less_move (hinterval : s.loop ≠ .absent → 0 < s.settings.interval)
    (hn : (s.flights.map Flight.number).Nodup) (hrun : s.agenda.running = some a) :
    (s.move o a).load.Less s.load := by
  cases a with
  | client => exact less_moveClient hrun
  | poller => exact less_moveLoop hinterval hrun
  | worker => exact less_moveWorker hrun
  | writer => exact less_moveWriter hrun
  | delivery n => exact less_moveFlight hn n hrun
  | producer n => exact less_moveProducer n hrun

/-- **Every step leaves less to do**, and takes no time, unless everyone waits. -/
theorem less_step (hinterval : s.loop ≠ .absent → 0 < s.settings.interval)
    (hn : (s.flights.map Flight.number).Nodup) (hbusy : s.agenda.isSettled = false) :
    (s.step o).load.Less s.load ∧ (s.step o).now = s.now := by
  unfold step
  split
  · next hrun => exact ⟨less_move hinterval hn hrun, now_move o s _⟩
  · next hrun =>
    unfold Agenda.turn
    split
    · next a rest hready =>
      refine ⟨Load.less_of_awake (Nat.le_refl _) (Nat.le_refl _) (Nat.le_refl _) ?_, rfl⟩
      simp only [load, hready, List.length_cons]
      omega
    · next hready =>
      have hcalled : s.agenda.called = true := by
        simpa [Agenda.isSettled, hrun, hready] using hbusy
      rw [if_pos hcalled]
      refine ⟨Load.less_of_awake (Nat.le_refl _) (Nat.le_refl _) (Nat.le_refl _) ?_, rfl⟩
      simp [load, Agenda.callClient, hcalled]

end System

end Relay

end Rota
