import Rota.Proofs.Relay.Ledger
import Rota.Proofs.Relay.Records

/-!
# Whose alarms

An actor that waits for something counts on two things: that it is woken when what it waits for
is there, and that its alarm is still set when nobody wakes it. Whatever the others do, they
leave an actor both: `Agenda.Spares` says so, and that no time passes meanwhile. It holds of
each move of another actor (`spares_move`) and of each request (`spares_request`).

Time passes only between the moves. In a **timely** course (`Timely`) it passes only when
everyone waits, and never beyond an alarm that is set; a **punctual** one (`Punctual`) has room
for others who offer records. What `step` does is timely (`timely_step`), and what `serve` does
is punctual (`punctual_serve`).
-/

namespace Rota.Relay

namespace Agenda

/-- The alarms of an actor. -/
def alarmsOf (a : Agenda) (me : Actor) : List Alarm :=
  a.alarms.filter (·.actor = me)

/-- **An actor is left alone**: its alarms stay, and so does its being woken. No time passes. -/
structure Spares (me : Actor) (a b : Agenda) : Prop where
  now : b.now = a.now
  alarms : b.alarmsOf me = a.alarmsOf me
  woken : a.IsWoken me → b.IsWoken me

@[simp] theorem now_wake (a : Agenda) (actor : Actor) : (a.wake actor).now = a.now := by
  unfold wake
  split
  · rfl
  · split <;> rfl

@[simp] theorem alarms_wake (a : Agenda) (actor : Actor) : (a.wake actor).alarms = a.alarms := by
  unfold wake
  split
  · rfl
  · split <;> rfl

@[simp] theorem now_wakeAll (a : Agenda) (actors : List Actor) :
    (a.wakeAll actors).now = a.now := by
  induction actors generalizing a with
  | nil => rfl
  | cons actor rest ih => exact (ih (a.wake actor)).trans (now_wake a actor)

@[simp] theorem alarms_wakeAll (a : Agenda) (actors : List Actor) :
    (a.wakeAll actors).alarms = a.alarms := by
  induction actors generalizing a with
  | nil => rfl
  | cons actor rest ih => exact (ih (a.wake actor)).trans (alarms_wake a actor)

@[simp] theorem now_setAlarm (a : Agenda) (due : Nat) (actor : Actor) (slot : Nat) :
    (a.setAlarm due actor slot).now = a.now := by
  unfold setAlarm
  split <;> rfl

@[simp] theorem now_pass (a : Agenda) (t : Nat) : (a.pass t).now = max a.now t :=
  now_wakeAll _ _

@[simp] theorem alarms_pass (a : Agenda) (t : Nat) :
    (a.pass t).alarms = a.alarms.filter fun x => t < x.due :=
  alarms_wakeAll _ _

namespace Spares

variable {me : Actor}

theorem refl (a : Agenda) : a.Spares me a := ⟨rfl, rfl, id⟩

theorem trans {a b c : Agenda} (h : a.Spares me b) (h' : b.Spares me c) : a.Spares me c :=
  ⟨h'.now.trans h.now, h'.alarms.trans h.alarms, h'.woken ∘ h.woken⟩

theorem wake (a : Agenda) (actor : Actor) : a.Spares me (a.wake actor) where
  now := now_wake a actor
  alarms := congrArg (List.filter _) (alarms_wake a actor)
  woken := fun h => (isWoken_wake ..).2 (.inl h)

theorem wakeAll (a : Agenda) (actors : List Actor) : a.Spares me (a.wakeAll actors) where
  now := now_wakeAll a actors
  alarms := congrArg (List.filter _) (alarms_wakeAll a actors)
  woken := fun h => (isWoken_wakeAll ..).2 (.inl h)

theorem setAlarm (a : Agenda) (due : Nat) {actor : Actor} (slot : Nat) (h : actor ≠ me) :
    a.Spares me (a.setAlarm due actor slot) := by
  unfold Agenda.setAlarm
  split
  · exact .refl a
  · refine ⟨rfl, ?_, id⟩
    simp [alarmsOf, h]

theorem cancel (a : Agenda) {actor : Actor} (slot : Nat) (h : actor ≠ me) :
    a.Spares me (a.cancel actor slot) := by
  refine ⟨rfl, ?_, id⟩
  simp only [alarmsOf, Agenda.cancel, List.filter_filter]
  refine List.filter_congr fun x _ => ?_
  by_cases hx : x.actor = me
  · simp [hx, Ne.symm h]
  · simp [hx]

theorem rest (a : Agenda) : a.Spares me a.rest := ⟨rfl, rfl, id⟩

end Spares

end Agenda

namespace System

/-- An actor is left alone by what happens. -/
def Spares (me : Actor) (s s' : System) : Prop :=
  s.agenda.Spares me s'.agenda

namespace Spares

variable {me : Actor} {s t s' : System}

theorem refl (s : System) : s.Spares me s := Agenda.Spares.refl _

theorem after (h' : t.Spares me s') (h : s.Spares me t) : s.Spares me s' :=
  Agenda.Spares.trans h h'

theorem wake (h : s.Spares me s') (actor : Actor) : s.Spares me (s'.wake actor) :=
  Agenda.Spares.trans h (.wake _ actor)

theorem rest (h : s.Spares me s') : s.Spares me s'.rest :=
  Agenda.Spares.trans h (.rest _)

theorem restUntil (h : s.Spares me s') (due : Nat) {actor : Actor} (slot : Nat)
    (hne : actor ≠ me) : s.Spares me (s'.restUntil due actor slot) :=
  Agenda.Spares.trans h (.trans (.setAlarm _ due slot hne) (.rest _))

end Spares

/-! ## Moves of others -/

section Moves

variable {me : Actor} (o : Outside) (s : System)

theorem spares_wakeWorker : s.Spares me s.wakeWorker := by
  unfold wakeWorker
  split
  · exact Spares.wake (.refl _) _
  · exact .refl _

theorem spares_accepted (x : Sender) (e : Event) : s.Spares me (s.accepted x e) := by
  unfold accepted
  exact (spares_wakeWorker _).after (.refl _)

theorem spares_enqueue (e : Event) (x : Sender) : s.Spares me (s.enqueue e x).2 := by
  unfold enqueue
  split
  · exact .refl _
  · split
    · exact (spares_accepted _ x e).after (.refl _)
    · exact .refl _

theorem spares_offer {x : Sender} (e : Event) (limit : Nat) (hx : x.actor ≠ me) :
    s.Spares me (s.offer x e limit).2 := by
  unfold offer
  split
  · exact spares_enqueue s e x
  · exact Agenda.Spares.setAlarm _ _ _ hx

theorem spares_offerAgain {x : Sender} (e : Event) (deadline : Nat) (hx : x.actor ≠ me) :
    s.Spares me (s.offerAgain x e deadline).2 := by
  unfold offerAgain
  split
  · exact Agenda.Spares.cancel _ _ hx
  · split
    · exact (spares_accepted _ x e).after (Agenda.Spares.cancel _ _ hx)
    · split
      · exact Agenda.Spares.cancel _ _ hx
      · exact .refl _

theorem spares_told (result : Except Failure Unit) : s.Spares me (s.told result) := by
  unfold told
  split <;> exact .refl _

/-- The writer is told something, and is woken if it waits for a record. -/
theorem spares_tellWriter (p : Audit.Pipeline) (woken : Bool) :
    s.Spares me
      (if woken then ({ s with pipeline := p } : System).wake .writer
      else { s with pipeline := p }) := by
  split
  · exact Spares.wake (.refl _) _
  · exact .refl _

theorem spares_record (r : Audit.Record) : s.Spares me (s.record r) :=
  spares_tellWriter s _ _

theorem spares_signalWriter : s.Spares me s.signalWriter :=
  spares_tellWriter s _ _

theorem spares_endRecords : s.Spares me s.endRecords :=
  spares_tellWriter s _ _

theorem spares_startWriter : s.Spares me s.startWriter := by
  unfold startWriter
  split
  · exact Spares.wake (.refl _) _
  · exact .refl _

theorem spares_dropWriter : s.Spares me s.dropWriter := by
  unfold dropWriter
  split <;> exact .refl _

theorem spares_startWorker : s.Spares me s.startWorker := by
  unfold startWorker
  split
  · exact Spares.wake (.refl _) _
  · exact .refl _

theorem spares_signalWorker : s.Spares me s.signalWorker := by
  unfold signalWorker
  exact (spares_wakeWorker _).after (.refl _)

theorem spares_endEvents : s.Spares me s.endEvents := by
  unfold endEvents
  exact (spares_wakeWorker _).after (.refl _)

/-! ### Deliveries and the worker -/

theorem spares_land (f : Flight) (r : Audit.Record) : s.Spares me (s.land f r) := by
  have h : s.Spares me (s.conclude f r) := by
    unfold conclude
    exact (spares_record _ r).after (.refl _)
  unfold land
  dsimp only
  split
  · exact (h.wake .worker).rest
  · exact h.rest

theorem spares_pursue (f : Flight) (next : Next) : s.Spares me (s.pursue o f next) := by
  cases next with
  | ended r => exact spares_land s f r
  | calling call whom => exact .refl _

theorem spares_moveFlight (number : Nat) (hne : .delivery number ≠ me) :
    s.Spares me (s.moveFlight o number) := by
  unfold moveFlight
  split
  · exact (Spares.refl s).rest
  · next f _ =>
    split
    · split
      · exact spares_pursue o s f _
      · exact .refl _
    · split
      · split
        next result resolver _ =>
        exact (spares_pursue o { s with resolver } f _).after (.refl _)
      · exact (Spares.refl s).restUntil _ _ hne
    · split
      · exact spares_land s f _
      · exact (Spares.refl s).restUntil _ _ hne

theorem spares_takeEvent {s' : System} {e : Event} (h : s.takeEvent = some (e, s')) :
    s.Spares me s' := by
  obtain ⟨queue, x, -, rfl⟩ := takeEvent_eq_some h
  cases x with
  | none => exact .refl _
  | some x => exact Spares.wake (.refl _) _

theorem spares_closeQueue : s.Spares me s.closeQueue :=
  Agenda.Spares.wakeAll _ _

theorem spares_moveWorker : s.Spares me s.moveWorker := by
  unfold moveWorker
  split
  · exact (Spares.refl s).rest
  · split
    · exact spares_closeQueue s
    · split
      · next he =>
        have h : s.Spares me _ := spares_takeEvent s he
        exact h
      · split
        · exact spares_closeQueue s
        · exact (Spares.refl s).rest
  · split
    · exact Spares.wake (.refl _) _
    · exact (Spares.refl s).rest
  · split
    · next he =>
      have h : s.Spares me _ := spares_takeEvent s he
      exact h
    · exact .refl _
  · split
    · exact (Spares.wake (.refl _) _).rest
    · exact (Spares.refl s).rest
  · exact (Spares.refl s).rest

theorem spares_moveWriter (hne : .writer ≠ me) : s.Spares me (s.moveWriter o) := by
  unfold moveWriter
  split
  next pipeline turn begun _ =>
  cases turn with
  | again => exact .refl _
  | ended => exact (Spares.wake (.refl _) _).rest
  | waiting due =>
    cases due with
    | none => exact (Spares.refl _).rest
    | some due => exact (Spares.refl _).restUntil _ _ hne

/-! ### Polling -/

theorem spares_receive (schedule : Config.Schedule)
    (answer : Option (Except Failure Roster.Snapshot)) :
    s.Spares me (s.receive schedule answer).2 := by
  unfold receive
  split
  · split <;> exact .refl _
  · exact .refl _

theorem VisitMove.spares {x : Sender} {schedule : Config.Schedule} {p p' : Poller.Phase}
    {s' : System} (hx : x.actor ≠ me) (h : VisitMove o s x schedule p p' s') :
    s.Spares me s' := by
  cases h with
  | ask =>
    unfold beginFetch
    dsimp only
    split
    · exact .refl _
    · exact Agenda.Spares.setAlarm _ _ _ hx
  | hear due answer isDue =>
    exact (spares_receive _ _ _).after (Agenda.Spares.cancel _ _ hx)
  | succeed roster t => exact .refl _
  | skip roster t member change left mute => exact .refl _
  | offer roster t member change left event result s' made ended =>
    have hoffer := spares_offer (s.countTelling change) event s.settings.fetchTimeout hx
    rw [ended] at hoffer
    exact (spares_told _ _).after (hoffer.after (.refl _))
  | wait roster t member change left event s' made waits =>
    have hoffer := spares_offer (s.countTelling change) event s.settings.fetchTimeout hx
    rw [waits] at hoffer
    exact hoffer.after (.refl _)
  | offered event deadline roster t left result s' ended =>
    have hoffer := spares_offerAgain s event deadline hx
    rw [ended] at hoffer
    exact (spares_told _ _).after hoffer

theorem spares_moveCycle {owner : Actor} (c : Poller.Cycle) (hne : owner ≠ me) :
    s.Spares me (s.moveCycle o owner c).2.2 := by
  unfold moveCycle
  split
  · split
    · next he => exact VisitMove.spares o s hne (visitMove_of_moveVisit he)
    · exact .refl _
  · split <;> exact .refl _

theorem spares_moveLoop (hne : .poller ≠ me) : s.Spares me (s.moveLoop o) := by
  unfold moveLoop
  split
  · exact (Spares.refl s).rest
  · split
    · have h : s.Spares me
          { s with loop := .absent, agenda := s.agenda.cancel .poller } :=
        Agenda.Spares.cancel _ _ hne
      exact (h.wake _).rest
    · split
      · exact Agenda.Spares.cancel _ _ hne
      · exact (Spares.refl s).restUntil _ _ hne
  · next next c _ =>
    have h : s.Spares me (s.moveCycle o .poller c).2.2 := spares_moveCycle o s c hne
    split
    · next hm =>
      rw [hm] at h
      exact h
    · next hm =>
      rw [hm] at h
      exact h
    · next hm =>
      rw [hm] at h
      exact h.rest

/-! ### The client and the producers -/

theorem spares_reply {s' : System} (answer : Answer) (hne : .client ≠ me)
    (h : s.Spares me s') : s.Spares me (s'.reply answer) :=
  Agenda.Spares.trans h (.trans (.cancel _ _ hne) (.rest _))

theorem spares_moveClient (hne : .client ≠ me) : s.Spares me (s.moveClient o) := by
  have hrest : s.Spares me s.rest := (Spares.refl s).rest
  have hreply : ∀ answer, s.Spares me (s.reply answer) := fun answer =>
    spares_reply s answer hne (.refl s)
  unfold moveClient
  split
  · exact hrest
  · split
    · exact hreply _
    · exact (Spares.refl s).restUntil _ _ hne
  · next event deadline _ =>
    have h : s.Spares me (s.offerAgain { actor := .client } event deadline).2 :=
      spares_offerAgain s event deadline hne
    split
    · next hs =>
      rw [hs] at h
      exact spares_reply s _ hne h
    · next hs =>
      rw [hs] at h
      exact h.rest
  · next c _ =>
    have h : s.Spares me (s.moveCycle o .client c).2.2 := spares_moveCycle o s c hne
    split
    · next hm =>
      rw [hm] at h
      exact h
    · next hm =>
      rw [hm] at h
      exact spares_reply s _ hne h
    · next hm =>
      rw [hm] at h
      exact h.rest
  · split
    · exact hreply _
    · exact hrest
  · split
    · exact (spares_signalWriter _).after ((spares_startWriter _).after (.refl _))
    · exact hrest
  · split
    · exact hreply _
    · exact hrest

theorem spares_moveProducer (number : Nat) (hne : .producer number ≠ me) :
    s.Spares me (s.moveProducer number) := by
  unfold moveProducer
  split
  · exact (Spares.refl s).rest
  · next p _ =>
    have h : s.Spares me (s.offerAgain { actor := .producer number } p.event p.deadline).2 :=
      spares_offerAgain s p.event p.deadline hne
    split
    · next hs =>
      rw [hs] at h
      exact h.rest
    · next hs =>
      rw [hs] at h
      exact h.rest

/-- **A move of another actor** leaves an actor alone. -/
theorem spares_move {a : Actor} (hne : a ≠ me) : s.Spares me (s.move o a) := by
  cases a with
  | client => exact spares_moveClient o s hne
  | poller => exact spares_moveLoop o s hne
  | worker => exact spares_moveWorker s
  | writer => exact spares_moveWriter o s hne
  | delivery n => exact spares_moveFlight o s n hne
  | producer n => exact spares_moveProducer s n hne

end Moves

/-! ## Requests -/

section Requests

variable {me : Actor} (s : System)

/-- The client starts running, and is the only one who is no longer woken. -/
theorem Spares.await {s s' : System} (h : s.Spares me s') (c : Client) (hne : .client ≠ me) :
    s.Spares me (s'.await c) := by
  refine ⟨h.now, h.alarms, fun hw => ?_⟩
  have hw := h.woken hw
  unfold Agenda.IsWoken at hw ⊢
  rw [if_neg (Ne.symm hne)] at hw ⊢
  exact hw

theorem spares_recordTimes (r : Audit.Record) (times : Nat) :
    s.Spares me (s.recordTimes r times) := by
  induction times generalizing s with
  | zero => exact .refl s
  | succ times ih => exact (ih _).after (spares_record s r)

theorem spares_offerAside (e : Event) (limit : Nat) (hne : .producer s.hired ≠ me) :
    s.Spares me (s.offerAside e limit) := by
  have h : s.Spares me
      ({ s with hired := s.hired + 1 }.offer { actor := .producer s.hired } e limit).2 :=
    (spares_offer { s with hired := s.hired + 1 } e limit hne).after (.refl _)
  unfold offerAside
  split
  · next hs =>
    rw [hs] at h
    exact h
  · next hs =>
    rw [hs] at h
    exact h

theorem spares_startPolling (schedules : List Config.Schedule) :
    s.Spares me (s.startPolling schedules) := by
  unfold startPolling
  split
  · exact .refl _
  · exact Spares.wake (.refl _) _

theorem spares_signalLoop : s.Spares me s.signalLoop := by
  unfold signalLoop
  dsimp only
  split
  · exact Spares.wake (.refl _) _
  · exact .refl _

/-- **A request** leaves an actor alone that makes none and offers no event. -/
theorem spares_request (r : Request) (hclient : .client ≠ me)
    (hproducer : ∀ n, .producer n ≠ me) : s.Spares me (s.request r) := by
  cases r with
  | sleep ms => exact (Spares.refl s).await _ hclient
  | enqueue event => exact spares_enqueue s event _
  | enqueueWithin event limit =>
    have h : s.Spares me (s.offer { actor := .client } event limit).2 :=
      spares_offer s event limit hclient
    rw [request]
    split
    · next hs =>
      rw [hs] at h
      exact h
    · next hs =>
      rw [hs] at h
      exact h.await _ hclient
  | offerAside event limit => exact spares_offerAside s event limit (hproducer _)
  | record r times => exact spares_recordTimes s r times
  | start => exact (spares_startWriter _).after (spares_startWorker s)
  | startWriter => exact spares_startWriter s
  | dropWriter => exact spares_dropWriter s
  | signal => exact spares_signalWorker s
  | leave => exact spares_endEvents s
  | shutdown =>
    refine Spares.await ?_ _ hclient
    exact (spares_signalWorker _).after ((spares_startWriter _).after (spares_startWorker s))
  | shutdownWriter =>
    exact ((spares_signalWriter _).after (spares_startWriter s)).await _ hclient
  | finish => exact ((spares_endEvents _).after (spares_startWorker s)).await _ hclient
  | finishRecords => exact ((spares_endRecords _).after (spares_startWriter s)).await _ hclient
  | poll schedules =>
    have h : s.Spares me (s.beginCycle schedules).2 := .refl _
    exact h.await _ hclient
  | startPolling schedules => exact spares_startPolling s schedules
  | stopPolling =>
    rw [request]
    split
    · exact (spares_signalLoop s).await _ hclient
    · exact .refl _

end Requests

/-! ## Time -/

section Time

variable (o : Outside) (s : System)

/-- **A move takes no time.** -/
theorem now_move (a : Actor) : (s.move o a).now = s.now := by
  by_cases h : a = .client
  · have hspares : s.Spares .worker (s.move o a) := spares_move o s (h ▸ nofun)
    exact hspares.now
  · exact (spares_move o s h).now

theorem now_request (r : Request) : (s.request r).now = s.now := by
  have hspares : s.Spares .worker (s.request r) := spares_request s r nofun nofun
  exact hspares.now

/-- **What can happen while time passes as it should**: only when everyone waits, and never
beyond an alarm. Until then all else happens without time passing. -/
inductive Timely (o : Outside) : System → System → Prop
  | happen {s s' : System} (advance : Advance o s s') (now : s'.now = s.now) : Timely o s s'
  | pass {s : System} (t : Nat) (settled : s.agenda.isSettled = true)
      (due : ∀ x ∈ s.agenda.alarms, t ≤ x.due) :
      Timely o s { s with agenda := s.agenda.pass t }

theorem Timely.advance {o : Outside} {s s' : System} (h : Timely o s s') : Advance o s s' := by
  cases h with
  | happen advance _ => exact advance
  | pass t _ _ => exact .pass t

theorem Timely.now_le {o : Outside} {s s' : System} (h : Timely o s s') : s.now ≤ s'.now := by
  cases h with
  | happen _ now => exact Nat.le_of_eq now.symm
  | pass t _ _ => exact Nat.le_trans (Nat.le_max_left _ _) (Nat.le_of_eq (Agenda.now_pass _ _).symm)

/-- **Time jumps to the next alarm**, and no further. Nothing else changes but who runs when. -/
theorem timely_turn (h : s.agenda.running = none) :
    Relation.ReflTransGen (fun s s' => Timely o s s' ∧ ∃ agenda, s' = { s with agenda }) s
      { s with agenda := s.agenda.turn } := by
  unfold Agenda.turn
  split
  · next a rest hr =>
    have hm : a ∈ s.agenda.ready := by rw [hr]; exact List.mem_cons_self
    have he : s.agenda.ready.erase a = rest := by rw [hr]; exact List.erase_cons_head ..
    have hadv := Advance.turn (o := o) h hm
    rw [he] at hadv
    exact .single ⟨.happen hadv rfl, _, rfl⟩
  · next hready =>
    split
    · next hc => exact .single ⟨.happen (.call h hc) rfl, _, rfl⟩
    · next hc =>
      unfold Agenda.jump
      split
      · exact .refl
      · next t ht =>
        have settled : s.agenda.isSettled = true := by
          simp [Agenda.isSettled, h, hready, hc]
        have hdue : ∀ x ∈ s.agenda.alarms, t ≤ x.due := fun x hx =>
          (List.min?_eq_some_iff.1 ht).2 _ (List.mem_map_of_mem hx)
        have hpass : Timely o s { s with agenda := s.agenda.pass t } := .pass t settled hdue
        split
        · next hcalled =>
          refine .tail (.single ⟨hpass, _, rfl⟩) ⟨.happen (.call ?_ hcalled) rfl, _, rfl⟩
          exact (s.agenda.running_pass t).trans h
        · exact .single ⟨hpass, _, rfl⟩

/-- **A step is timely.** -/
theorem timely_step : Relation.ReflTransGen (Timely o) s (s.step o) := by
  unfold step
  split
  · next a h => exact .single (.happen (.move h) (now_move o s a))
  · next h => exact Relation.ReflTransGen.mono (fun _ _ hs => hs.1) _ _ (timely_turn o s h)

/-- So is the service that runs until the client has its answer. -/
theorem timely_run (fuel : Nat) : Relation.ReflTransGen (Timely o) s (run o fuel s) := by
  induction fuel generalizing s with
  | zero => exact .refl
  | succ fuel ih =>
    unfold run
    split
    · exact .refl
    · exact (timely_step o s).trans (ih _)

theorem timely_settle (fuel : Nat) :
    Relation.ReflTransGen (Timely o) s (settle o fuel s) := by
  induction fuel generalizing s with
  | zero => exact .refl
  | succ fuel ih =>
    unfold settle
    split
    · exact .refl
    · exact (timely_step o s).trans (ih _)

/-- The same, with others who offer records and have a word for the writer. -/
inductive Punctual (o : Outside) : System → System → Prop
  | happen {s s' : System} (happening : Happening o s s') (now : s'.now = s.now) : Punctual o s s'
  | pass {s : System} (t : Nat) (settled : s.agenda.isSettled = true)
      (due : ∀ x ∈ s.agenda.alarms, t ≤ x.due) :
      Punctual o s { s with agenda := s.agenda.pass t }

theorem Punctual.happening {o : Outside} {s s' : System} (h : Punctual o s s') :
    Happening o s s' := by
  cases h with
  | happen happening _ => exact happening
  | pass t _ _ => exact .advance (.pass t)

theorem Timely.punctual {o : Outside} {s s' : System} (h : Timely o s s') : Punctual o s s' := by
  cases h with
  | happen advance now => exact .happen (.advance advance) now
  | pass t settled due => exact .pass t settled due

theorem punctual_of_timely {o : Outside} {s s' : System}
    (h : Relation.ReflTransGen (Timely o) s s') : Relation.ReflTransGen (Punctual o) s s' :=
  Relation.ReflTransGen.mono (fun _ _ => Timely.punctual) _ _ h

/-- **A step is punctual.** -/
theorem punctual_step : Relation.ReflTransGen (Punctual o) s (s.step o) :=
  punctual_of_timely (timely_step o s)

/-- **Serving a request is punctual.** -/
theorem punctual_serve (fuel : Nat) (r : Request) (answered : s.isAnswered = true)
    (free : s.agenda.running = none) :
    Relation.ReflTransGen (Punctual o) s (s.serve o fuel r).2 := by
  have hrequest : Happening o s (s.request r) := by
    cases r with
    | record r times => exact .request r times answered
    | _ => exact .advance (.request _ answered (.inl free) rfl)
  exact .trans (.single (.happen hrequest (now_request s r)))
    (punctual_of_timely ((timely_run o _ fuel).trans (timely_settle o _ fuel)))

end Time

end System

end Rota.Relay
