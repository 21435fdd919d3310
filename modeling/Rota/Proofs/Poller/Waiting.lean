import Rota.Proofs.Poller.Announcement
import Rota.Proofs.Relay.Onward

/-!
# Visits are woken in time

A visit waits for its roster, or for room in the queue, and has an alarm of its own for the time
at which it gives up. `Proceeds` says once what a step of the service does to the cycle of an
actor, and to the alarms of its visits.

Time does not pass a visit by (`Looked`): it is over, or waits for a time that lies ahead, or its
actor is awake and will come to it. So when everyone waits, every visit that is not over has its
alarm set, and there is one (`Looked.waits`).
-/

namespace Rota

open Rota.Poller (Cycle Phase Visit)

/-- The time for which a visit waits, if it waits for any. -/
def Poller.Phase.due? : Phase → Option Nat
  | fetching due _ => some due
  | offering _ deadline _ _ _ => some deadline
  | _ => none

/-- A visit that is over waits for nothing. -/
theorem Poller.Visit.due?_of_isOver {v : Visit} (h : v.isOver = true) : v.phase.due? = none := by
  unfold isOver at h
  split at h
  · next hp => rw [hp]; rfl
  · next hp => rw [hp]; rfl
  · cases h

namespace Relay

/-! ## The alarm of a wait -/

namespace Agenda

variable {a b c : Agenda} {x : Sender} {due t : Nat} {due? : Option Nat}

/-- **The alarms of a wait stay as they are.** -/
def SameAt (x : Sender) (a b : Agenda) : Prop :=
  ∀ due, ⟨due, x.actor, x.slot⟩ ∈ b.alarms ↔ ⟨due, x.actor, x.slot⟩ ∈ a.alarms

theorem SameAt.refl (a : Agenda) : a.SameAt x a := fun _ => .rfl

theorem SameAt.trans (h : a.SameAt x b) (h' : b.SameAt x c) : a.SameAt x c :=
  fun due => (h' due).trans (h due)

theorem Spares.sameAt (h : a.Spares x.actor b) : a.SameAt x b := by
  have hmem : ∀ (g : Agenda) (due : Nat), ⟨due, x.actor, x.slot⟩ ∈ g.alarms
      ↔ ⟨due, x.actor, x.slot⟩ ∈ g.alarmsOf x.actor := fun g due =>
    ⟨fun hx => List.mem_filter.2 ⟨hx, by simp⟩, List.mem_of_mem_filter⟩
  intro due
  rw [hmem, hmem, h.alarms]

/-- An alarm of another wait makes no difference. -/
theorem SameAt.setAlarm (a : Agenda) (due : Nat) {actor : Actor} {slot : Nat}
    (h : actor ≠ x.actor ∨ slot ≠ x.slot) : a.SameAt x (a.setAlarm due actor slot) := by
  intro other
  unfold Agenda.setAlarm
  split
  · rfl
  · rw [List.mem_append, List.mem_singleton]
    refine or_iff_left fun he => ?_
    cases he
    simp at h

theorem SameAt.cancel (a : Agenda) {actor : Actor} {slot : Nat}
    (h : actor ≠ x.actor ∨ slot ≠ x.slot) : a.SameAt x (a.cancel actor slot) := by
  intro due
  rw [Agenda.cancel, List.mem_filter, and_iff_left]
  rcases h with h | h
  · simp [Ne.symm h]
  · simp [Ne.symm h]

/-- **The alarm of a wait is right**: there is none but for the time for which it waits, and that
one is set as long as the time lies ahead. -/
structure Rings (a : Agenda) (x : Sender) (due? : Option Nat) : Prop where
  only : ∀ due, ⟨due, x.actor, x.slot⟩ ∈ a.alarms → due? = some due
  set : ∀ due, due? = some due → a.now < due → ⟨due, x.actor, x.slot⟩ ∈ a.alarms

theorem Rings.keep (h : a.Rings x due?) (same : a.SameAt x b) (now : b.now = a.now) :
    b.Rings x due? where
  only := fun due hx => h.only due ((same due).1 hx)
  set := fun due hd hlt => (same due).2 (h.set due hd (now ▸ hlt))

theorem Rings.setAlarm (h : a.Rings x none) (due : Nat) :
    (a.setAlarm due x.actor x.slot).Rings x (some due) := by
  have hnone : a.alarms.any (fun y => y.actor == x.actor && y.slot == x.slot) = false := by
    refine List.any_eq_false.2 fun y hy => ?_
    rw [Bool.and_eq_true, beq_iff_eq, beq_iff_eq]
    rintro ⟨hactor, hslot⟩
    cases h.only y.due (by rw [← hactor, ← hslot]; exact hy)
  unfold Agenda.setAlarm
  rw [hnone]
  refine ⟨fun d hx => ?_, fun d hd _ => ?_⟩
  · rcases List.mem_append.1 hx with hx | hx
    · cases h.only d hx
    · cases List.mem_singleton.1 hx
      rfl
  · cases hd
    exact List.mem_append_right _ List.mem_cons_self

theorem rings_cancel (a : Agenda) (x : Sender) : (a.cancel x.actor x.slot).Rings x none := by
  refine ⟨fun due hx => ?_, fun _ hd => nomatch hd⟩
  have hkept := (List.mem_filter.1 hx).2
  simp at hkept

/-- A time that has come needs no alarm. -/
theorem Rings.late (h : a.Rings x none) (hdue : due ≤ a.now) : a.Rings x (some due) where
  only := fun d hx => nomatch h.only d hx
  set := by
    rintro d hd hlt
    cases hd
    exact absurd hdue (Nat.not_le.2 hlt)

theorem Rings.pass (h : a.Rings x due?) (t : Nat) : (a.pass t).Rings x due? where
  only := fun due hx => h.only due (by rw [alarms_pass] at hx; exact List.mem_of_mem_filter hx)
  set := by
    intro due hd hlt
    rw [now_pass] at hlt
    rw [alarms_pass]
    refine List.mem_filter.2 ⟨h.set due hd (Nat.lt_of_le_of_lt (Nat.le_max_left _ _) hlt), ?_⟩
    exact decide_eq_true (Nat.lt_of_le_of_lt (Nat.le_max_right _ _) hlt)

/-- **Whoever waits for a time that comes** is woken. -/
theorem Rings.isWoken (h : a.Rings x due?) (hd : due? = some due) (hlt : a.now < due)
    (ht : due ≤ t) : (a.pass t).IsWoken x.actor :=
  isWoken_pass (List.mem_filter.2 ⟨h.set due hd hlt, by simp⟩) ht

end Agenda

namespace System

open Agenda (SameAt)

variable {o : Outside} {s s' : System} {x y : Sender} {owner : Actor}

/-! ## What an offer does to the alarms -/

section Offers

theorem slots_ne_of_ne (h : x ≠ y) : x.actor ≠ y.actor ∨ x.slot ≠ y.slot := by
  by_contra hsame
  rw [not_or, not_not, not_not] at hsame
  obtain ⟨_, _⟩ := x
  obtain ⟨_, _⟩ := y
  exact h (congrArg₂ Sender.mk hsame.1 hsame.2)

theorem sameAt_offer (e : Event) (limit : Nat) (hne : x ≠ y) :
    s.agenda.SameAt y (s.offer x e limit).2.agenda := by
  unfold offer
  split
  · exact (spares_enqueue s e x).sameAt
  · exact .setAlarm _ _ (slots_ne_of_ne hne)

theorem sameAt_offerAgain (e : Event) (deadline : Nat) (hne : x ≠ y) :
    s.agenda.SameAt y (s.offerAgain x e deadline).2.agenda := by
  have hcancel : s.agenda.SameAt y (s.agenda.cancel x.actor x.slot) :=
    .cancel _ (slots_ne_of_ne hne)
  unfold offerAgain
  split
  · exact hcancel
  · split
    · exact hcancel.trans (Agenda.Spares.sameAt (spares_accepted
        { s with queue := s.queue.use x e, agenda := s.agenda.cancel x.actor x.slot } x e))
    · split
      · exact hcancel
      · exact .refl _

/-- An offer that ends at once is nothing to the alarms. -/
theorem spares_of_offer {me : Actor} {e : Event} {limit : Nat} {result : Except Failure Unit}
    (h : s.offer x e limit = (some result, s')) : s.Spares me s' := by
  unfold offer at h
  split at h
  · cases h
    exact spares_enqueue s e x
  · cases h

/-- Whoever has to wait has an alarm for the end of the wait. -/
theorem rings_offer {e : Event} {limit : Nat} (hx : s.agenda.Rings x none)
    (h : s.offer x e limit = (none, s')) : s'.agenda.Rings x (some (s'.now + limit)) := by
  unfold offer at h
  split at h
  · cases h
  · cases h
    show Agenda.Rings _ x
      (some ((s.agenda.setAlarm (s.now + limit) x.actor x.slot).now + limit))
    rw [Agenda.now_setAlarm]
    exact hx.setAlarm _

/-- Whoever waits no longer has none. -/
theorem rings_offerAgain {e : Event} {deadline : Nat} {result : Except Failure Unit}
    (h : s.offerAgain x e deadline = (some result, s')) : s'.agenda.Rings x none := by
  unfold offerAgain at h
  split at h
  · cases h
    exact Agenda.rings_cancel _ _
  · split at h
    · cases h
      have hspares : System.Spares x.actor _ _ := spares_accepted
        { s with queue := s.queue.use x e, agenda := s.agenda.cancel x.actor x.slot } x e
      exact (Agenda.rings_cancel s.agenda x).keep hspares.sameAt hspares.now
    · split at h
      · cases h
        exact Agenda.rings_cancel _ _
      · cases h

end Offers

/-! ## What a visit does to the alarms -/

section Visits

variable {schedule : Config.Schedule} {p p' : Phase}

/-- A visit that has heard of its roster waits for nothing. -/
theorem due?_receive (s : System) (schedule : Config.Schedule) (answer : Poller.Heard) :
    (s.receive schedule answer).1.due? = none := by
  unfold receive
  split
  · split <;> rfl
  · rfl

/-- **A move of a visit** leaves the alarms of the others as they are. -/
theorem VisitMove.sameAt (h : VisitMove o s x schedule p p' s') (hne : x ≠ y) :
    s.agenda.SameAt y s'.agenda := by
  cases h with
  | ask =>
    unfold beginFetch
    dsimp only
    split
    · exact .refl _
    · exact .setAlarm _ _ (slots_ne_of_ne hne)
  | hear due answer isDue =>
    have hcancel : s.agenda.SameAt y (s.agenda.cancel x.actor x.slot) :=
      .cancel _ (slots_ne_of_ne hne)
    exact hcancel.trans (Agenda.Spares.sameAt (spares_receive
      { s with agenda := s.agenda.cancel x.actor x.slot } schedule answer))
  | succeed _ _ | skip _ _ _ _ _ _ => exact .refl _
  | offer roster t member change left event result s₁ made ended =>
    have hoffer := sameAt_offer (s := s.countTelling change) event s.settings.fetchTimeout hne
    rw [ended] at hoffer
    exact hoffer.trans (Agenda.Spares.sameAt (spares_told s₁ result))
  | wait roster t member change left event s' made waits =>
    have hoffer := sameAt_offer (s := s.countTelling change) event s.settings.fetchTimeout hne
    rw [waits] at hoffer
    exact hoffer
  | offered event deadline roster t left result s₁ ended =>
    have hoffer := sameAt_offerAgain (s := s) event deadline hne
    rw [ended] at hoffer
    exact hoffer.trans (Agenda.Spares.sameAt (spares_told s₁ result))

/-- **Its own alarm** it sets for the time for which it waits from now on. -/
theorem VisitMove.rings (h : VisitMove o s x schedule p p' s') (hp : s.agenda.Rings x p.due?) :
    s'.agenda.Rings x p'.due? := by
  cases h with
  | ask =>
    unfold beginFetch
    dsimp only [Phase.due?]
    split
    · next hwait => exact hp.late (Nat.le_of_eq (by rw [hwait]; rfl))
    · exact hp.setAlarm _
  | hear due answer isDue =>
    have hspares : System.Spares x.actor _ _ := spares_receive
      { s with agenda := s.agenda.cancel x.actor x.slot } schedule answer
    show Agenda.Rings _ x (Phase.due? (receive _ schedule answer).1)
    rw [due?_receive]
    exact (Agenda.rings_cancel s.agenda x).keep hspares.sameAt hspares.now
  | succeed _ _ | skip _ _ _ _ _ _ => exact hp
  | offer roster t member change left event result s₁ made ended =>
    have hspares : s.Spares x.actor s₁ := (spares_of_offer ended).after (.refl _)
    have htold := (spares_told s₁ result).after hspares
    exact hp.keep htold.sameAt htold.now
  | wait roster t member change left event s' made waits =>
    have hset := rings_offer (s := s.countTelling change) hp waits
    have hsettings := (posts_offer (s.countTelling change) x event s.settings.fetchTimeout).settings
    rw [waits] at hsettings
    show s'.agenda.Rings x (some (s'.now + s'.settings.fetchTimeout))
    rw [hsettings]
    exact hset
  | offered event deadline roster t left result s₁ ended =>
    have htold : s₁.Spares x.actor (s₁.told result) := spares_told s₁ result
    exact (rings_offerAgain ended).keep htold.sameAt htold.now

end Visits

/-! ## What a step does to a cycle -/

/-- **What a step does to the cycle of an actor**, and to the alarms of its visits. -/
inductive Proceeds (o : Outside) (owner : Actor) (s s' : System) : Prop
  /-- There is no cycle. -/
  | free (absent : s.book.cycleOf owner = none) (absent' : s'.book.cycleOf owner = none)
      (alarms : ∀ k, s.agenda.SameAt (owner.visitor k) s'.agenda) (now : s'.now = s.now)
  | begin (schedules : List Config.Schedule) (absent : s.book.cycleOf owner = none)
      (cycle : s'.book.cycleOf owner = some (.of schedules))
      (running : s'.agenda.running = some owner)
      (alarms : ∀ k, s.agenda.SameAt (owner.visitor k) s'.agenda) (now : s'.now = s.now)
  /-- Others do something. -/
  | still (cycle : s'.book.cycleOf owner = s.book.cycleOf owner)
      (running : s.agenda.running = some owner → s'.agenda.running = some owner)
      (woken : s.agenda.IsWoken owner → s'.agenda.IsWoken owner)
      (alarms : ∀ k, s.agenda.SameAt (owner.visitor k) s'.agenda) (now : s'.now = s.now)
  /-- The actor starts running, and begins with its first visit. -/
  | rouse (cycle : s'.book.cycleOf owner = s.book.cycleOf owner)
      (first : ∀ c, s.book.cycleOf owner = some c → c.cursor = 0)
      (running : s'.agenda.running = some owner)
      (alarms : ∀ k, s.agenda.SameAt (owner.visitor k) s'.agenda) (now : s'.now = s.now)
  /-- The visit whose turn it is makes a move. -/
  | visit (c : Cycle) (v : Visit) (phase : Phase) (t : System)
      (cycle : s.book.cycleOf owner = some c) (turn : c.visits[c.cursor]? = some v)
      (moves : VisitMove o s (owner.visitor c.cursor) v.schedule v.phase phase t)
      (cycle' : s'.book.cycleOf owner
        = some { c with visits := c.visits.set c.cursor { v with phase } })
      (running : s'.agenda.running = some owner) (stirs : s.agenda.Stirs s'.agenda)
      (agenda : s'.agenda = t.agenda)
  /-- It has to wait, or is over, and the next one has its turn. -/
  | skip (c : Cycle) (v : Visit) (cycle : s.book.cycleOf owner = some c)
      (turn : c.visits[c.cursor]? = some v)
      (rests : s.moveVisit o (owner.visitor c.cursor) v = none)
      (cycle' : s'.book.cycleOf owner = some { c with cursor := c.cursor + 1 })
      (running : s'.agenda.running = some owner) (agenda : s'.agenda = s.agenda)
  /-- All visits are over, and so is the cycle. -/
  | finish (c : Cycle) (cycle : s.book.cycleOf owner = some c)
      (allOver : c.visits.all Visit.isOver = true) (absent' : s'.book.cycleOf owner = none)
      (reports : s'.reports = c.report :: s.reports)
      (answer : owner = .client → s'.client = .idle (.report c.report))
      (alarms : ∀ k, s.agenda.SameAt (owner.visitor k) s'.agenda) (now : s'.now = s.now)
  /-- Some visit has to wait, and so has the cycle. -/
  | wrap (c : Cycle) (cycle : s.book.cycleOf owner = some c)
      (running : s.agenda.running = some owner) (passed : c.visits[c.cursor]? = none)
      (busy : c.visits.all Visit.isOver = false)
      (cycle' : s'.book.cycleOf owner = some { c with cursor := 0 })
      (agenda : s'.agenda = s.agenda.rest)
  | pass (t : Nat) (passed : s' = { s with agenda := s.agenda.pass t })

section Proceeds

theorem Spares.sameAt_visitor (h : s.Spares owner s') (k : Nat) :
    s.agenda.SameAt (owner.visitor k) s'.agenda :=
  Agenda.Spares.sameAt h

/-- The client's own waits are nothing to its visits. -/
theorem sameAt_reply (s : System) (answer : Answer) (k : Nat) :
    s.agenda.SameAt (Actor.client.visitor k) (s.reply answer).agenda :=
  Agenda.SameAt.cancel s.agenda (.inr (Nat.succ_ne_zero k).symm)

theorem sameAt_restUntil (s : System) (due : Nat) {actor : Actor} (k : Nat) :
    s.agenda.SameAt (actor.visitor k) (s.restUntil due actor).agenda :=
  Agenda.SameAt.setAlarm s.agenda due (.inr (Nat.succ_ne_zero k).symm)

theorem ClientMove.proceeds (hm : ClientMove o s s') (h : Attended s.standing s.agenda)
    (hn : s.queue.closed = true → s.queue.granted = [])
    (hrun : s.agenda.running = some .client) : Proceeds o .client s s' := by
  have hcycle : ∀ {c}, s.client = .cycling c → s.book.cycleOf .client = some c :=
    Client.cycle?_eq_some.2
  cases hm with
  | idle hc | awaitLoop hc _ | awaitWorker hc _ | awaitWriter hc _ =>
    have hnone : s.client.cycle? = none := by rw [hc]; rfl
    exact .free hnone hnone (fun _ => .refl _) rfl
  | sleep hc _ =>
    have hnone : s.client.cycle? = none := by rw [hc]; rfl
    exact .free hnone hnone (sameAt_restUntil s _) (Agenda.now_setAlarm ..)
  | rise hc _ | halted hc _ | written hc _ =>
    exact .free (show s.client.cycle? = none by rw [hc]; rfl) rfl (sameAt_reply s _) rfl
  | hold hc waits =>
    have hnone : s.client.cycle? = none := by rw [hc]; rfl
    obtain ⟨rfl, -⟩ := offerAgain_none s _ _ waits
    exact .free hnone hnone (fun _ => .refl _) rfl
  | @offered event deadline result t hc ended =>
    have hoffer := (adds_offerAgain s { actor := .client } event deadline).toStays
    have hsame := fun k => sameAt_offerAgain (s := s) (x := { actor := .client })
      (y := Actor.client.visitor k) event deadline nofun
    rw [ended] at hoffer hsame
    exact .free (show s.client.cycle? = none by rw [hc]; rfl) rfl
      (fun k => (hsame k).trans (sameAt_reply t _ k)) hoffer.now
  | @goOn c c' t cycling moves =>
    cases moves with
    | @visit v phase _ turn moves =>
      have hm := visitMove_of_moveVisit moves
      have hstirs := (VisitMove.shift s _ h.nodup hn hm).2
      exact .visit c v phase t (hcycle cycling) turn hm rfl (hstirs.running.trans hrun) hstirs rfl
    | @skip v turn rests => exact .skip c v (hcycle cycling) turn rests rfl hrun rfl
  | @finish c cycling allOver =>
    exact .finish c (hcycle cycling) allOver rfl rfl (fun _ => rfl)
      (sameAt_reply (s.endCycle c) (.report c.report)) rfl
  | @wrap c cycling passed busy => exact .wrap c (hcycle cycling) hrun passed busy rfl rfl
  | parted hc _ =>
    have hspares : s.Spares .client
        ({ s with client := .awaitingWriter } : System).startWriter.signalWriter :=
      (spares_signalWriter _).after ((spares_startWriter _).after (.refl _))
    have hclient := (adds_startSignalled { s with client := .awaitingWriter }).client
    exact .free (show s.client.cycle? = none by rw [hc]; rfl) (congrArg Client.cycle? hclient)
      hspares.sameAt_visitor hspares.now

theorem LoopMove.proceeds (hm : LoopMove o s s') (h : Attended s.standing s.agenda)
    (hn : s.queue.closed = true → s.queue.granted = [])
    (hrun : s.agenda.running = some .poller) : Proceeds o .poller s s' := by
  have hcancel : ∀ k, s.agenda.SameAt (Actor.poller.visitor k) (s.agenda.cancel .poller) :=
    fun k => .cancel _ (.inr (Nat.succ_ne_zero k).symm)
  have hfree : ∀ {due}, s.loop = .waiting due → s.book.cycleOf .poller = none := fun hl => by
    show s.loop.cycle? = none
    rw [hl]
    rfl
  cases hm with
  | rest absent =>
    have hnone : s.loop.cycle? = none := by rw [absent]; rfl
    exact .free hnone hnone (fun _ => .refl _) rfl
  | halt waits off =>
    have hwake : (s.agenda.cancel .poller).Spares .poller
        ((s.agenda.cancel .poller).wake .client).rest := .trans (.wake _ _) (.rest _)
    exact .free (hfree waits) rfl (fun k => (hcancel k).trans hwake.sameAt) hwake.now
  | begin waits on isDue =>
    exact .begin s.loopSchedules (hfree waits) rfl hrun hcancel rfl
  | wait waits on early =>
    exact .free (hfree waits) (hfree waits) (sameAt_restUntil s _) (Agenda.now_setAlarm ..)
  | @goOn next c c' t cycling moves =>
    have hcycle : s.book.cycleOf .poller = some c := Loop.cycle?_eq_some.2 ⟨next, cycling⟩
    cases moves with
    | @visit v phase _ turn moves =>
      have hm := visitMove_of_moveVisit moves
      have hstirs := (VisitMove.shift s _ h.nodup hn hm).2
      exact .visit c v phase t hcycle turn hm rfl (hstirs.running.trans hrun) hstirs rfl
    | @skip v turn rests => exact .skip c v hcycle turn rests rfl hrun rfl
  | @finish next c cycling allOver =>
    exact .finish c (Loop.cycle?_eq_some.2 ⟨next, cycling⟩) allOver rfl rfl nofun
      (fun _ => .refl _) rfl
  | @wrap next c cycling passed busy =>
    exact .wrap c (Loop.cycle?_eq_some.2 ⟨next, cycling⟩) hrun passed busy rfl rfl

/-- No request but that for a cycle begins one. -/
theorem cycle?_request {r : Request} (h : ∀ schedules, r ≠ .poll schedules) :
    (s.request r).client.cycle? = none := by
  cases r with
  | poll schedules => exact absurd rfl (h schedules)
  | enqueueWithin event limit =>
    rw [request]
    split <;> rfl
  | stopPolling =>
    rw [request]
    split <;> rfl
  | _ => rfl

/-- A request is nothing to the visits of its client. -/
theorem sameAt_request (r : Request) (k : Nat) :
    s.agenda.SameAt (Actor.client.visitor k) (s.request r).agenda := by
  have hspared : ∀ {t : System}, s.Spares .client t →
      s.agenda.SameAt (Actor.client.visitor k) t.agenda := fun h => h.sameAt_visitor k
  have hawait : ∀ {t : System} (c : Client), s.Spares .client t →
      s.agenda.SameAt (Actor.client.visitor k) (t.await c).agenda := fun _ h => by
    have hsame := hspared h
    exact hsame
  cases r with
  | sleep ms | poll schedules => exact .refl _
  | enqueue event => exact hspared (spares_enqueue s event _)
  | enqueueWithin event limit =>
    have hoffer := sameAt_offer (s := s) (x := { actor := .client })
      (y := Actor.client.visitor k) event limit (by simp [Actor.visitor])
    rw [request]
    split <;> next hs => rw [hs] at hoffer; exact hoffer
  | offerAside event limit => exact hspared (spares_offerAside s event limit (by simp))
  | record r times => exact hspared (spares_recordTimes s r times)
  | start => exact hspared ((spares_startWriter _).after (spares_startWorker s))
  | startWriter => exact hspared (spares_startWriter s)
  | dropWriter => exact hspared (spares_dropWriter s)
  | signal => exact hspared (spares_signalWorker s)
  | leave => exact hspared (spares_endEvents s)
  | shutdown =>
    exact hawait _
      ((spares_signalWorker _).after ((spares_startWriter _).after (spares_startWorker s)))
  | shutdownWriter => exact hawait _ ((spares_signalWriter _).after (spares_startWriter s))
  | finish => exact hawait _ ((spares_endEvents _).after (spares_startWorker s))
  | finishRecords => exact hawait _ ((spares_endRecords _).after (spares_startWriter s))
  | startPolling schedules => exact hspared (spares_startPolling s schedules)
  | stopPolling =>
    rw [request]
    split
    · exact hawait _ (spares_signalLoop s)
    · exact .refl _

theorem proceeds_request (h : Attended s.standing s.agenda) (r : Request)
    (answered : s.isAnswered = true) (free : s.agenda.running = none ∨ r.isPrompt = true)
    (plain : r.isRecord = false) (polls : owner = .client ∨ owner = .poller) :
    Proceeds o owner s (s.request r) := by
  rcases polls with rfl | rfl
  · have hnone := cycle?_of_isAnswered answered
    by_cases hr : ∃ schedules, r = .poll schedules
    · obtain ⟨schedules, rfl⟩ := hr
      exact .begin schedules hnone rfl rfl (fun _ => .refl _) rfl
    · rw [not_exists] at hr
      exact .free hnone (cycle?_request hr) (sameAt_request r) (now_request s r)
  · have hspares : s.Spares .poller (s.request r) := spares_request s r nofun nofun
    have hloop : (s.request r).loop.cycle? = s.loop.cycle? := by
      have htold := told_request (s := s) r plain
      generalize s.request r = t at htold ⊢
      cases htold with
      | nothing loop _ _ _ => exact congrArg Loop.cycle? loop
      | start schedules off =>
        rw [(free_of_isAnswered h answered).2 off]
        rfl
      | stop on => exact congrArg Loop.cycle? (loop_signalLoop s).1
    refine .still hloop (fun hrun => ?_) hspares.woken hspares.sameAt_visitor hspares.now
    have hprompt := free.resolve_left fun hidle => (nomatch hidle.symm.trans hrun)
    exact (running_request s r hprompt).trans hrun

/-- **Nothing else happens to a cycle**, whatever goes on in the service. -/
theorem Advance.proceeds (hadv : Advance o s s') (h : Attended s.standing s.agenda)
    (hn : s.queue.closed = true → s.queue.granted = [])
    (polls : owner = .client ∨ owner = .poller) : Proceeds o owner s s' := by
  have hfirst : s.agenda.running = none → ∀ c, s.book.cycleOf owner = some c → c.cursor = 0 := by
    intro hidle c hc
    refine h.reset owner c ?_ fun hrun => (nomatch hidle.symm.trans hrun)
    rcases polls with rfl | rfl <;> exact hc
  cases hadv with
  | @move a hrun =>
    by_cases ha : a = owner
    · subst ha
      rcases polls with rfl | rfl
      · exact clientMove.proceeds h hn hrun
      · exact loopMove.proceeds h hn hrun
    · have hspares : s.Spares owner (s.move o a) := spares_move o s ha
      refine .still ?_ (fun hr => absurd (Option.some.inj (hrun.symm.trans hr)) ha) hspares.woken
        hspares.sameAt_visitor hspares.now
      rcases polls with rfl | rfl
      · exact congrArg Client.cycle? (client_move ha)
      · exact congrArg Loop.cycle? (loop_move ha).1
  | @turn a idle ready =>
    by_cases ha : a = owner
    · subst ha
      exact .rouse rfl (hfirst idle) rfl (fun _ => .refl _) rfl
    · exact .still rfl (fun hr => (nomatch idle.symm.trans hr)) (isWoken_turn (Ne.symm ha))
        (fun _ => .refl _) rfl
  | call idle called =>
    by_cases hclient : owner = .client
    · subst hclient
      exact .rouse rfl (hfirst idle) rfl (fun _ => .refl _) rfl
    · refine .still rfl (fun hr => (nomatch idle.symm.trans hr)) (fun hw => ?_)
        (fun _ => .refl _) rfl
      unfold Agenda.IsWoken at hw ⊢
      rwa [if_neg hclient] at hw ⊢
  | pass t => exact .pass t rfl
  | request r answered free plain => exact proceeds_request h r answered free plain polls
  | elsewhere _ _ _ => exact .still rfl id id (fun _ => .refl _) rfl

end Proceeds

/-! ## Time does not pass a visit by -/

/-- **A visit need not be asked**: it is over, or waits for a time that lies ahead, or its actor
will come to it. -/
structure Looked (s : System) (owner : Actor) : Prop where
  /-- The alarms of the visits are right. -/
  rings : ∀ k, s.agenda.Rings (owner.visitor k)
    ((s.book.visitAt owner k).bind fun v => v.phase.due?)
  up : ∀ c k v, s.book.cycleOf owner = some c → c.visits[k]? = some v →
    v.isOver = true ∨ (∃ due, v.phase.due? = some due ∧ s.now < due) ∨ s.agenda.IsWoken owner
      ∨ s.agenda.running = some owner ∧ c.cursor ≤ k
  /-- A cycle that has ended is about to be. -/
  last : ∀ c, s.book.cycleOf owner = some c →
    (∃ v ∈ c.visits, v.isOver = false) ∨ s.agenda.Awake owner

section Looked

/-- Whoever has to wait on does so for a time that lies ahead. -/
theorem lt_of_offerAgain {e : Event} {deadline : Nat}
    (h : s.offerAgain x e deadline = (none, s')) : s.now < deadline := by
  unfold offerAgain at h
  split at h
  · cases h
  · split at h
    · cases h
    · split at h
      · cases h
      · next hdeadline => exact Nat.not_le.1 hdeadline

/-- So does a visit that has to wait. -/
theorem waits_of_moveVisit {v : Visit} (h : s.moveVisit o x v = none) :
    v.isOver = true ∨ ∃ due, v.phase.due? = some due ∧ s.now < due := by
  unfold moveVisit at h
  unfold Visit.isOver
  split at h
  · cases h
  · next due answer hp =>
    split at h
    · cases h
    · next hdue =>
      rw [hp]
      exact .inr ⟨due, rfl, Nat.not_le.1 hdue⟩
  · cases h
  · cases h
  · next event deadline roster t left hp =>
    split at h
    · cases h
    · next hs =>
      rw [hp]
      exact .inr ⟨deadline, rfl, lt_of_offerAgain hs⟩
  · next hp =>
    rw [hp]
    exact .inl rfl
  · next hp =>
    rw [hp]
    exact .inl rfl

namespace Looked

variable {c : Cycle}

theorem rings_none (h : s.Looked owner) (hc : s.book.cycleOf owner = none) (k : Nat) :
    s.agenda.Rings (owner.visitor k) none := by
  have hk := h.rings k
  rwa [Book.visitAt, hc] at hk

theorem rings_at (h : s.Looked owner) (hc : s.book.cycleOf owner = some c) (k : Nat) :
    s.agenda.Rings (owner.visitor k) (c.visits[k]?.bind fun v => v.phase.due?) := by
  have hk := h.rings k
  rwa [Book.visitAt_of_cycleOf hc] at hk

/-- Without a cycle there is no visit. -/
theorem of_none (hc : s.book.cycleOf owner = none)
    (rings : ∀ k, s.agenda.Rings (owner.visitor k) none) : s.Looked owner where
  rings := fun k => by
    rw [Book.visitAt, hc]
    exact rings k
  up := fun _ _ _ hc' => (nomatch hc.symm.trans hc')
  last := fun _ hc' => (nomatch hc.symm.trans hc')

/-- A cycle whose actor is running: the visits before the one whose turn it is were asked. -/
theorem of_running (hc : s.book.cycleOf owner = some c)
    (running : s.agenda.running = some owner)
    (rings : ∀ k, s.agenda.Rings (owner.visitor k) (c.visits[k]?.bind fun v => v.phase.due?))
    (asked : ∀ k v, k < c.cursor → c.visits[k]? = some v →
      v.isOver = true ∨ (∃ due, v.phase.due? = some due ∧ s.now < due) ∨ s.agenda.IsWoken owner) :
    s.Looked owner where
  rings := fun k => by
    rw [Book.visitAt_of_cycleOf hc]
    exact rings k
  up := by
    intro d k v hd hv
    cases hc.symm.trans hd
    by_cases hk : c.cursor ≤ k
    · exact .inr (.inr (.inr ⟨running, hk⟩))
    · rcases asked k v (Nat.not_le.1 hk) hv with hover | hwaits | hwoken
      · exact .inl hover
      · exact .inr (.inl hwaits)
      · exact .inr (.inr (.inl hwoken))
  last := fun _ _ => .inr (.inl running)

/-- The visits before the one whose turn it is were asked. -/
theorem asked (h : s.Looked owner) (hc : s.book.cycleOf owner = some c) {k : Nat} {v : Visit}
    (hk : k < c.cursor) (hv : c.visits[k]? = some v) :
    v.isOver = true ∨ (∃ due, v.phase.due? = some due ∧ s.now < due)
      ∨ s.agenda.IsWoken owner := by
  rcases h.up c k v hc hv with hover | hwaits | hwoken | hup
  · exact .inl hover
  · exact .inr (.inl hwaits)
  · exact .inr (.inr hwoken)
  · exact absurd hup.2 (Nat.not_le.2 hk)

/-- It stays so as long as others are at work. -/
theorem still (h : s.Looked owner) (cycle : s'.book.cycleOf owner = s.book.cycleOf owner)
    (running : s.agenda.running = some owner → s'.agenda.running = some owner)
    (woken : s.agenda.IsWoken owner → s'.agenda.IsWoken owner)
    (alarms : ∀ k, s.agenda.SameAt (owner.visitor k) s'.agenda) (now : s'.now = s.now) :
    s'.Looked owner where
  rings := fun k => by
    rw [Book.visitAt, cycle]
    exact (h.rings k).keep (alarms k) now
  up := fun c k v hc hv => by
    rw [now]
    exact (h.up c k v (cycle.symm.trans hc) hv).imp_right
      (.imp_right (.imp woken (.imp_left running)))
  last := fun c hc => (h.last c (cycle.symm.trans hc)).imp_right (.imp running woken)

/-- **A visit that makes a move** will be asked again. -/
theorem visit {v : Visit} {phase : Phase} {t : System} (h : s.Looked owner)
    (cycle : s.book.cycleOf owner = some c) (turn : c.visits[c.cursor]? = some v)
    (moves : VisitMove o s (owner.visitor c.cursor) v.schedule v.phase phase t)
    (cycle' : s'.book.cycleOf owner
      = some { c with visits := c.visits.set c.cursor { v with phase } })
    (running : s'.agenda.running = some owner) (stirs : s.agenda.Stirs s'.agenda)
    (agenda : s'.agenda = t.agenda) : s'.Looked owner := by
  have hnow : s'.now = s.now := (congrArg Agenda.now agenda).trans moves.eases.1.now
  refine of_running cycle' running (fun k => ?_) fun k w hk hw => ?_
  · have hrings := h.rings_at cycle k
    rw [agenda]
    by_cases hkc : c.cursor = k
    · subst hkc
      rw [turn] at hrings
      rw [List.getElem?_set_self (List.getElem?_eq_some_iff.1 turn).1]
      exact moves.rings hrings
    · rw [List.getElem?_set_ne hkc]
      exact hrings.keep (moves.sameAt fun hx => hkc (Actor.visitor_inj hx).2) moves.eases.1.now
  · rw [List.getElem?_set_ne (Nat.ne_of_gt hk)] at hw
    rw [hnow]
    exact (h.asked cycle hk hw).imp_right (.imp_right (stirs.woken owner))

/-- **A visit that is passed over** has to wait, or is over. -/
theorem skip {v : Visit} (h : s.Looked owner) (cycle : s.book.cycleOf owner = some c)
    (turn : c.visits[c.cursor]? = some v)
    (rests : s.moveVisit o (owner.visitor c.cursor) v = none)
    (cycle' : s'.book.cycleOf owner = some { c with cursor := c.cursor + 1 })
    (running : s'.agenda.running = some owner) (agenda : s'.agenda = s.agenda) :
    s'.Looked owner := by
  have hnow : s'.now = s.now := congrArg Agenda.now agenda
  refine of_running cycle' running (fun k => ?_) fun k w hk hw => ?_
  · rw [agenda]
    exact h.rings_at cycle k
  · rw [hnow, agenda]
    rcases Nat.lt_succ_iff_lt_or_eq.1 hk with hlt | rfl
    · exact h.asked cycle hlt hw
    · cases turn.symm.trans hw
      exact (waits_of_moveVisit rests).imp_right .inl

/-- **A cycle that has asked all its visits** and rests has one that is not over. -/
theorem wrap (h : s.Looked owner) (cycle : s.book.cycleOf owner = some c)
    (passed : c.visits[c.cursor]? = none) (busy : c.visits.all Visit.isOver = false)
    (cycle' : s'.book.cycleOf owner = some { c with cursor := 0 })
    (agenda : s'.agenda = s.agenda.rest) : s'.Looked owner where
  rings := fun k => by
    rw [Book.visitAt_of_cycleOf cycle', agenda]
    exact (h.rings_at cycle k).keep (.refl _) rfl
  up := by
    intro d k w hd hw
    cases cycle'.symm.trans hd
    have hw : c.visits[k]? = some w := hw
    have hk : k < c.cursor := by
      have hlt := (List.getElem?_eq_some_iff.1 hw).1
      rw [List.getElem?_eq_none_iff] at passed
      exact Nat.lt_of_lt_of_le hlt passed
    have hnow : s'.now = s.now := (congrArg Agenda.now agenda :)
    rw [hnow, agenda]
    exact (h.asked cycle hk hw).imp_right (.imp_right .inl)
  last := by
    intro d hd
    cases cycle'.symm.trans hd
    obtain ⟨v, hv, hover⟩ := List.all_eq_false.1 busy
    exact .inl ⟨v, hv, Bool.eq_false_iff.2 hover⟩

/-- **A cycle that is over** leaves no alarm behind. -/
theorem finish (h : s.Looked owner) (cycle : s.book.cycleOf owner = some c)
    (allOver : c.visits.all Visit.isOver = true) (k : Nat) :
    s.agenda.Rings (owner.visitor k) none := by
  have hrings := h.rings_at cycle k
  cases hv : c.visits[k]? with
  | none => rwa [hv] at hrings
  | some v =>
    have hover := List.all_eq_true.1 allOver v (List.mem_of_getElem? hv)
    have hdue : v.phase.due? = none := Poller.Visit.due?_of_isOver hover
    rw [hv, Option.bind_some, hdue] at hrings
    exact hrings

/-- **Whoever waits for a time that comes** is woken. -/
theorem pass (h : s.Looked owner) (t : Nat) :
    ({ s with agenda := s.agenda.pass t } : System).Looked owner where
  rings := fun k => (h.rings k).pass t
  up := by
    intro c k v hc hv
    have hc : s.book.cycleOf owner = some c := hc
    rcases h.up c k v hc hv with hover | ⟨due, hdue, hlt⟩ | hwoken | hup
    · exact .inl hover
    · by_cases ht : due ≤ t
      · have hrings := h.rings_at hc k
        rw [hv] at hrings
        exact .inr (.inr (.inl (hrings.isWoken hdue hlt ht)))
      · refine .inr (.inl ⟨due, hdue, ?_⟩)
        show (s.agenda.pass t).now < due
        rw [Agenda.now_pass]
        exact Nat.max_lt.2 ⟨hlt, Nat.not_le.1 ht⟩
    · exact .inr (.inr (.inl ((Agenda.Stirs.pass _ t).woken owner hwoken)))
    · exact .inr (.inr (.inr ⟨(Agenda.running_pass _ t).trans hup.1, hup.2⟩))
  last := fun c hc => (h.last c hc).imp_right fun hup => hup.stirs (.pass _ t)

end Looked

/-- **Time does not pass a visit by**, whatever happens. -/
theorem Proceeds.looked (h : Proceeds o owner s s') (hl : s.Looked owner) : s'.Looked owner := by
  cases h with
  | free absent absent' alarms now =>
    exact .of_none absent' fun k => (hl.rings_none absent k).keep (alarms k) now
  | begin schedules absent cycle running alarms now =>
    refine .of_running cycle running (fun k => ?_) fun k _ hk => absurd hk (Nat.not_lt_zero k)
    have hfresh : ((Cycle.of schedules).visits[k]?.bind fun v => v.phase.due?) = none := by
      unfold Cycle.of
      rw [List.getElem?_map]
      cases schedules[k]? <;> rfl
    rw [hfresh]
    exact (hl.rings_none absent k).keep (alarms k) now
  | still cycle running woken alarms now => exact hl.still cycle running woken alarms now
  | rouse cycle first running alarms now =>
    cases hc : s.book.cycleOf owner with
    | none =>
      exact .of_none (cycle.trans hc) fun k => (hl.rings_none hc k).keep (alarms k) now
    | some c =>
      refine .of_running (cycle.trans hc) running
        (fun k => (hl.rings_at hc k).keep (alarms k) now) fun k _ hk => ?_
      rw [first c hc] at hk
      exact absurd hk (Nat.not_lt_zero k)
  | visit c v phase t cycle turn moves cycle' running stirs agenda =>
    exact hl.visit cycle turn moves cycle' running stirs agenda
  | skip c v cycle turn rests cycle' running agenda =>
    exact hl.skip cycle turn rests cycle' running agenda
  | finish c cycle allOver absent' reports answer alarms now =>
    exact .of_none absent' fun k => (hl.finish cycle allOver k).keep (alarms k) now
  | wrap c cycle running passed busy cycle' agenda => exact hl.wrap cycle passed busy cycle' agenda
  | pass t passed =>
    subst passed
    exact hl.pass t

theorem looked_new (settings : Settings) (capacity auditCapacity : Nat) (audited : Bool)
    (grace : Nat) (resolver : Directory.Resolver) (polls : owner = .client ∨ owner = .poller) :
    (new settings capacity auditCapacity audited grace resolver).Looked owner := by
  have hnone : (new settings capacity auditCapacity audited grace resolver).book.cycleOf owner
      = none := by
    rcases polls with rfl | rfl <;> rfl
  exact .of_none hnone fun k => ⟨fun _ hx => (nomatch hx), fun _ hd => (nomatch hd)⟩

/-- **When everyone waits while a cycle is under way**, some visit is not over, and each such visit
waits for a time that lies ahead and has its alarm set. -/
theorem Looked.waits (h : s.Looked owner) (settled : s.agenda.isSettled = true) {c : Cycle}
    (hc : s.book.cycleOf owner = some c) : (∃ v ∈ c.visits, v.isOver = false)
      ∧ ∀ k v, c.visits[k]? = some v → v.isOver = false →
        ∃ due, v.phase.due? = some due ∧ s.now < due
          ∧ ⟨due, owner, k + 1⟩ ∈ s.agenda.alarms := by
  have hasleep : ¬ s.agenda.Awake owner := Agenda.not_awake_of_isSettled settled
  refine ⟨(h.last c hc).resolve_right hasleep, fun k v hv hover => ?_⟩
  have hk := h.rings_at hc k
  rw [hv] at hk
  rcases h.up c k v hc hv with hover' | ⟨due, hdue, hlt⟩ | hwoken | hup
  · cases hover.symm.trans hover'
  · exact ⟨due, hdue, hlt, hk.set due hdue hlt⟩
  · exact absurd (.inr hwoken) hasleep
  · exact absurd (.inl hup.1) hasleep

end Looked

end System

end Relay

end Rota
