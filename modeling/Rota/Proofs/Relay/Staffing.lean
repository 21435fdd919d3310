import Rota.Proofs.Relay.Moves
import Rota.Proofs.Relay.Waking

/-!
# No worker idles while an event waits

The worker takes the events from the queue and begins their deliveries. It rests when there is
nothing to take, when as many deliveries are under way as there may be, or when it waits for
those under way to end. `Post.Rests` says when this is so.

Whatever the others do that gives the worker something to do, they wake it: an event that is
accepted, a word to stop, a delivery that ends (`System.Heeds`). So a worker that has something
to do is running or was woken (`Manned`), along every course (`Course.manned`), and when
everyone waits it rests for one of these reasons.

That is what `Staffed` says of the service: deliveries begin in the order in which their events
were accepted, and when everyone waits, an event is left in the queue only if all deliveries
that may be are under way, and one more event is held.
-/

namespace Rota.Relay

/-- **What the worker goes by.** -/
structure Post where
  worker : Worker
  items : List Event
  stopWorker : Bool
  orphaned : Bool
  /-- The number of deliveries under way. -/
  flights : Nat
  /-- The number of deliveries that may be under way at once. -/
  workers : Nat

/-- What the worker of a service goes by. -/
def System.post (s : System) : Post where
  worker := s.worker
  items := s.queue.items
  stopWorker := s.stopWorker
  orphaned := s.orphaned
  flights := s.flights.length
  workers := s.settings.workers

namespace Post

/-- **There is nothing for the worker to do.** -/
inductive Rests (p : Post) : Prop
  | unstarted (doing : p.worker = .unstarted)
  | idle (doing : p.worker = .idle) (empty : p.items = []) (running : p.stopWorker = false)
      (attached : p.orphaned = false)
  /-- No further delivery may begin. -/
  | holding {e : Event} {draining : Bool} (doing : p.worker = .holding e draining)
      (full : p.workers ≤ p.flights)
  /-- Too many deliveries are still under way. -/
  | parting (doing : p.worker = .parting)
      (missing : p.workers - p.flights < p.workers % UInt32.size)
  | gone (doing : p.worker = .gone)

/-- A worker that does not wait for an event only goes by the deliveries under way. -/
theorem Rests.congr {p q : Post} (h : p.Rests) (hidle : p.worker ≠ .idle)
    (hworker : q.worker = p.worker) (hflights : q.flights = p.flights)
    (hworkers : q.workers = p.workers) : q.Rests := by
  cases h with
  | unstarted doing => exact .unstarted (hworker.trans doing)
  | idle doing _ _ _ => exact absurd doing hidle
  | holding doing full => exact .holding (hworker.trans doing) (by rwa [hflights, hworkers])
  | parting doing missing => exact .parting (hworker.trans doing) (by rwa [hflights, hworkers])
  | gone doing => exact .gone (hworker.trans doing)

end Post

namespace System

/-! ## What the others do to the worker -/

/-- **The worker is heeded**: it is left alone, and woken if what happens gives it something to
do. A word to stop is not taken back. -/
structure Heeds (s s' : System) : Prop where
  spares : s.Spares .worker s'
  stop : s.stopWorker = true → s'.stopWorker = true
  rests : s.post.Rests → s'.post.Rests ∨ s'.agenda.IsWoken .worker

section Heeds

variable {s t s' : System}

/-- Much that happens is nothing to the worker. -/
theorem Heeds.of_post (hs : s.Spares .worker s') (h : s'.post = s.post) : s.Heeds s' :=
  ⟨hs, (congrArg Post.stopWorker h).trans, fun hr => .inl (h ▸ hr)⟩

theorem Heeds.refl (s : System) : s.Heeds s := .of_post (.refl s) rfl

theorem Heeds.after (h' : t.Heeds s') (h : s.Heeds t) : s.Heeds s' :=
  ⟨h'.spares.after h.spares, h'.stop ∘ h.stop, fun hr => (h.rests hr).elim h'.rests fun hw =>
    .inr (h'.spares.woken hw)⟩

/-- What happens besides is nothing to the worker. -/
theorem Heeds.congr (h : s.Heeds t) (hagenda : s'.agenda = t.agenda) (hpost : s'.post = t.post) :
    s.Heeds s' := by
  refine after (t := t) (.of_post ?_ hpost) h
  unfold System.Spares
  rw [hagenda]
  exact .refl _

theorem Heeds.rest (h : s.Heeds s') : s.Heeds s'.rest :=
  (Heeds.of_post (Spares.refl s').rest rfl).after h

theorem Heeds.answer (h : s.Heeds s') (a : Answer) : s.Heeds (s'.answer a) :=
  h.congr rfl rfl

theorem Heeds.reply (h : s.Heeds s') (a : Answer) : s.Heeds (s'.reply a) :=
  after (t := s') (.of_post (spares_reply s' a nofun (.refl _)) rfl) h

theorem Heeds.await (h : s.Heeds s') (c : Client) : s.Heeds (s'.await c) :=
  after (t := s') (.of_post ((Spares.refl s').await c nofun) rfl) h

/-- **A word to the worker** wakes it if it waits for an event, and is nothing to it
otherwise. -/
theorem heeds_wakeWorker (hs : s.Spares .worker s')
    (hstop : s.stopWorker = true → s'.stopWorker = true) (hworker : s'.worker = s.worker)
    (hflights : s'.flights = s.flights) (hsettings : s'.settings = s.settings) :
    s.Heeds s'.wakeWorker := by
  refine ⟨(spares_wakeWorker s').after hs, ?_, fun hr => ?_⟩
  · unfold wakeWorker
    split <;> exact hstop
  unfold wakeWorker
  split
  · exact .inr ((Agenda.isWoken_wake ..).2 (.inr rfl))
  · next hidle =>
    refine .inl (hr.congr (fun hw => hidle (hworker.trans hw)) hworker ?_ ?_)
    · exact congrArg List.length hflights
    · exact congrArg Settings.workers hsettings

variable (s) (o : Outside)

theorem heeds_enqueue (e : Event) (x : Sender) : s.Heeds (s.enqueue e x).2 := by
  unfold enqueue
  split
  · exact .of_post (.refl _) rfl
  · split
    · exact heeds_wakeWorker (.refl _) id rfl rfl rfl
    · exact .of_post (.refl _) rfl

theorem heeds_offer {x : Sender} (e : Event) (limit : Nat) (hx : x.actor ≠ .worker) :
    s.Heeds (s.offer x e limit).2 := by
  unfold offer
  split
  · exact heeds_enqueue s e x
  · exact .of_post (Agenda.Spares.setAlarm _ _ _ hx) rfl

theorem heeds_offerAgain {x : Sender} (e : Event) (deadline : Nat) (hx : x.actor ≠ .worker) :
    s.Heeds (s.offerAgain x e deadline).2 := by
  unfold offerAgain
  split
  · exact .of_post (Agenda.Spares.cancel _ _ hx) rfl
  · split
    · exact heeds_wakeWorker (Agenda.Spares.cancel _ _ hx) id rfl rfl rfl
    · split
      · exact .of_post (Agenda.Spares.cancel _ _ hx) rfl
      · exact .refl _

theorem heeds_offerAside (e : Event) (limit : Nat) : s.Heeds (s.offerAside e limit) := by
  have h : s.Heeds
      ({ s with hired := s.hired + 1 }.offer { actor := .producer s.hired } e limit).2 :=
    (heeds_offer _ (x := { actor := .producer s.hired }) e limit nofun).after
      (.of_post (.refl _) rfl)
  unfold offerAside
  split
  · next hs =>
    rw [hs] at h
    exact h
  · next hs =>
    rw [hs] at h
    exact h.congr rfl rfl

theorem heeds_told (result : Except Failure Unit) : s.Heeds (s.told result) :=
  .of_post (spares_told s result) (by unfold told; split <;> rfl)

theorem heeds_record (r : Audit.Record) : s.Heeds (s.record r) :=
  .of_post (spares_record s r) (by unfold record; dsimp only; split <;> rfl)

theorem heeds_recordTimes (r : Audit.Record) (times : Nat) : s.Heeds (s.recordTimes r times) := by
  induction times generalizing s with
  | zero => exact .refl s
  | succ times ih => exact (ih _).after (heeds_record s r)

theorem heeds_signalWriter : s.Heeds s.signalWriter :=
  .of_post (spares_signalWriter s) (by unfold signalWriter; dsimp only; split <;> rfl)

theorem heeds_endRecords : s.Heeds s.endRecords :=
  .of_post (spares_endRecords s) (by unfold endRecords; dsimp only; split <;> rfl)

theorem heeds_startWriter : s.Heeds s.startWriter :=
  .of_post (spares_startWriter s) (by unfold startWriter; split <;> rfl)

theorem heeds_dropWriter : s.Heeds s.dropWriter :=
  .of_post (spares_dropWriter s) (by unfold dropWriter; split <;> rfl)

theorem heeds_signalWorker : s.Heeds s.signalWorker :=
  heeds_wakeWorker (.refl _) (fun _ => rfl) rfl rfl rfl

theorem heeds_endEvents : s.Heeds s.endEvents :=
  heeds_wakeWorker (.refl _) id rfl rfl rfl

/-- A worker that is started is woken. -/
theorem heeds_startWorker : s.Heeds s.startWorker := by
  refine ⟨spares_startWorker s, ?_, fun hr => ?_⟩
  · unfold startWorker
    split <;> exact id
  unfold startWorker
  split
  · exact .inr ((Agenda.isWoken_wake ..).2 (.inr rfl))
  · exact .inl hr

/-! ### Deliveries -/

/-- **A delivery that ends** wakes the worker that waits for it. -/
theorem heeds_land (f : Flight) (r : Audit.Record) : s.Heeds (s.land f r) := by
  have hpost : (s.conclude f r).post
      = { s.post with flights := (s.flights.filter (·.number ≠ f.number)).length } := by
    unfold conclude record
    dsimp only
    split <;> rfl
  have hworker : (s.conclude f r).worker = s.worker := congrArg Post.worker hpost
  have hstop : (s.conclude f r).stopWorker = s.stopWorker := congrArg Post.stopWorker hpost
  refine ⟨spares_land s f r, ?_, fun hr => ?_⟩
  · unfold land
    dsimp only
    split <;> exact hstop.trans
  unfold land
  dsimp only
  split
  · exact .inr ((Agenda.isWoken_wake ..).2 (.inr rfl))
  · next hroom =>
    refine .inl ?_
    unfold wantsRoom at hroom
    rw [hworker] at hroom
    rw [show (s.conclude f r).rest.post = (s.conclude f r).post from rfl, hpost]
    cases hr with
    | unstarted doing => exact .unstarted doing
    | idle doing empty running attached => exact .idle doing empty running attached
    | holding doing _ | parting doing _ =>
      rw [show s.worker = _ from doing] at hroom
      exact absurd rfl hroom
    | gone doing => exact .gone doing

theorem heeds_setProgress (number : Nat) (p : Progress) : s.Heeds (s.setProgress number p) := by
  refine .of_post (.refl _) ?_
  simp [post, setProgress]

theorem heeds_pursue (f : Flight) (next : Next) : s.Heeds (s.pursue o f next) := by
  cases next with
  | ended r => exact heeds_land s f r
  | calling call whom => exact (heeds_setProgress _ _ _).after (.of_post (.refl _) rfl)

theorem heeds_moveFlight (number : Nat) : s.Heeds (s.moveFlight o number) := by
  have h := flightStep (o := o) (s := s) number
  generalize s.moveFlight o number = t at h ⊢
  cases h with
  | rest _ => exact (Heeds.refl s).rest
  | @begin f next _ _ _ => exact heeds_pursue s o f next
  | ask _ _ _ => exact (heeds_setProgress _ _ _).after (.of_post (.refl _) rfl)
  | @hear f _ _ _ _ _ resolver _ _ _ _ =>
    exact (heeds_pursue { s with resolver } o f _).after (.of_post (.refl _) rfl)
  | @land f _ _ _ _ _ _ => exact heeds_land s f _
  | wait _ _ _ => exact .of_post ((Spares.refl s).restUntil _ _ nofun) rfl

theorem heeds_moveWriter : s.Heeds (s.moveWriter o) := by
  refine .of_post (spares_moveWriter o s nofun) ?_
  unfold moveWriter
  rcases s.pipeline.move s.now (o.append s.appends) with ⟨pipeline, turn, begun⟩
  rcases turn with _ | (_ | due) | _ <;> rfl

/-! ### Polling, the client and the producers -/

theorem VisitMove.heeds {x : Sender} {schedule : Config.Schedule} {p p' : Poller.Phase}
    {s' : System} (hx : x.actor ≠ .worker) (h : VisitMove o s x schedule p p' s') :
    s.Heeds s' := by
  have hs := h.spares o s hx
  cases h with
  | ask => exact .of_post hs rfl
  | hear due answer isDue =>
    refine .of_post hs ?_
    unfold endFetch receive
    split
    · split <;> rfl
    · rfl
  | succeed roster t | skip roster t member change left mute => exact .of_post hs rfl
  | offer roster t member change left event result s' made ended =>
    have hoffer := heeds_offer (s.countTelling change) event s.settings.fetchTimeout hx
    rw [ended] at hoffer
    exact (heeds_told _ _).after (hoffer.after (.of_post (.refl _) rfl))
  | wait roster t member change left event s' made waits =>
    have hoffer := heeds_offer (s.countTelling change) event s.settings.fetchTimeout hx
    rw [waits] at hoffer
    exact hoffer.after (.of_post (.refl _) rfl)
  | offered event deadline roster t left result s' ended =>
    have hoffer := heeds_offerAgain s event deadline hx
    rw [ended] at hoffer
    exact (heeds_told _ _).after hoffer

theorem CycleMove.heeds {owner : Actor} {c : Poller.Cycle}
    {moved : Audit.Turn × Poller.Cycle × System} (h : CycleMove o s owner c moved)
    (hne : owner ≠ .worker) : s.Heeds moved.2.2 := by
  cases h with
  | visit _ moves => exact VisitMove.heeds s o hne (visitMove_of_moveVisit moves)
  | skip _ _ | finish _ _ | wrap _ _ => exact .refl s

theorem heeds_moveLoop : s.Heeds (s.moveLoop o) := by
  have h := loopMove (o := o) (s := s)
  have hcancel : s.Heeds { s with agenda := s.agenda.cancel .poller } :=
    .of_post (Agenda.Spares.cancel _ _ nofun) rfl
  generalize s.moveLoop o = t at h ⊢
  cases h with
  | rest _ => exact (Heeds.refl s).rest
  | halt _ _ =>
    refine Heeds.rest ?_
    exact (Heeds.of_post (Spares.wake (.refl _) _) rfl).after (hcancel.congr rfl rfl)
  | begin _ _ _ => exact hcancel.congr rfl rfl
  | wait _ _ _ => exact .of_post ((Spares.refl s).restUntil _ _ nofun) rfl
  | goOn _ moves => exact (CycleMove.heeds s o moves nofun).congr rfl rfl
  | finish _ _ => exact .of_post (.refl s) rfl
  | wrap _ _ _ => exact (Heeds.refl s).rest.congr rfl rfl

theorem heeds_moveClient : s.Heeds (s.moveClient o) := by
  have h := clientMove (o := o) (s := s)
  generalize s.moveClient o = t at h ⊢
  cases h with
  | idle _ | awaitLoop _ _ | awaitWorker _ _ | awaitWriter _ _ => exact (Heeds.refl s).rest
  | sleep _ _ => exact .of_post ((Spares.refl s).restUntil _ _ nofun) rfl
  | rise _ _ | halted _ _ | written _ _ => exact (Heeds.refl s).reply _
  | @hold event deadline t _ waits =>
    have hoffer := heeds_offerAgain s (x := { actor := .client }) event deadline nofun
    rw [waits] at hoffer
    exact hoffer.rest
  | @offered event deadline result t _ ended =>
    have hoffer := heeds_offerAgain s (x := { actor := .client }) event deadline nofun
    rw [ended] at hoffer
    exact hoffer.reply _
  | goOn _ moves => exact (CycleMove.heeds s o moves nofun).congr rfl rfl
  | @finish c _ _ => exact ((Heeds.refl s).reply (.report c.report)).congr rfl rfl
  | wrap _ _ _ => exact (Heeds.refl s).rest.congr rfl rfl
  | parted _ _ =>
    exact (heeds_signalWriter _).after ((heeds_startWriter _).after (.of_post (.refl _) rfl))

theorem heeds_moveProducer (number : Nat) : s.Heeds (s.moveProducer number) := by
  have h := producerMove (s := s) number
  generalize s.moveProducer number = t at h ⊢
  cases h with
  | rest _ => exact (Heeds.refl s).rest
  | @hold p t _ waits =>
    have hoffer := heeds_offerAgain s (x := { actor := .producer number }) p.event p.deadline nofun
    rw [waits] at hoffer
    exact hoffer.rest
  | @offered p result t _ ended =>
    have hoffer := heeds_offerAgain s (x := { actor := .producer number }) p.event p.deadline nofun
    rw [ended] at hoffer
    exact hoffer.rest.congr rfl rfl

/-- **A move of another actor** heeds the worker. -/
theorem heeds_move {a : Actor} (hne : a ≠ .worker) : s.Heeds (s.move o a) := by
  cases a with
  | client => exact heeds_moveClient s o
  | poller => exact heeds_moveLoop s o
  | worker => exact absurd rfl hne
  | writer => exact heeds_moveWriter s o
  | delivery n => exact heeds_moveFlight s o n
  | producer n => exact heeds_moveProducer s n

/-- **A request** heeds the worker. -/
theorem heeds_request (r : Request) : s.Heeds (s.request r) := by
  cases r with
  | sleep ms => exact (Heeds.refl s).await _
  | enqueue event => exact (heeds_enqueue s event _).answer _
  | enqueueWithin event limit =>
    have h : s.Heeds (s.offer { actor := .client } event limit).2 := heeds_offer s event limit nofun
    rw [request]
    split
    · next hs =>
      rw [hs] at h
      exact h.answer _
    · next hs =>
      rw [hs] at h
      exact h.await _
  | offerAside event limit => exact (heeds_offerAside s event limit).answer _
  | record r times => exact (heeds_recordTimes s r times).answer _
  | start => exact ((heeds_startWriter _).after (heeds_startWorker s)).answer _
  | startWriter => exact (heeds_startWriter s).answer _
  | dropWriter => exact (heeds_dropWriter s).answer _
  | signal => exact (heeds_signalWorker s).answer _
  | leave => exact (heeds_endEvents s).answer _
  | shutdown =>
    exact ((heeds_signalWorker _).after
      ((heeds_startWriter _).after (heeds_startWorker s))).await _
  | shutdownWriter => exact ((heeds_signalWriter _).after (heeds_startWriter s)).await _
  | finish => exact ((heeds_endEvents _).after (heeds_startWorker s)).await _
  | finishRecords => exact ((heeds_endRecords _).after (heeds_startWriter s)).await _
  | poll schedules =>
    have h : s.Heeds (s.beginCycle schedules).2 := .of_post (.refl _) rfl
    exact h.await _
  | startPolling schedules =>
    refine Heeds.answer ?_ _
    exact .of_post (spares_startPolling s schedules) (by unfold startPolling; split <;> rfl)
  | stopPolling =>
    rw [request]
    split
    · refine Heeds.await ?_ _
      exact .of_post (spares_signalLoop s) (by unfold signalLoop; dsimp only; split <;> rfl)
    · exact (Heeds.refl s).answer _

end Heeds

/-! ## The worker is looked after -/

/-- **A worker that has something to do** is running or was woken. -/
inductive Manned (s : System) : Prop
  | up (awake : s.agenda.running = some .worker ∨ s.agenda.IsWoken .worker) : Manned s
  | rests (rests : s.post.Rests) : Manned s

section Manned

variable {o : Outside} {s s' : System}

/-- When everyone waits, the worker has nothing to do. -/
theorem Manned.rests_of_isSettled (h : s.Manned) (settled : s.agenda.isSettled = true) :
    s.post.Rests := by
  cases h with
  | up awake =>
    obtain ⟨hrun, hwoken⟩ := Agenda.not_isWoken_of_isSettled settled
    rcases awake with hup | hup
    · cases hrun.symm.trans hup
    · exact absurd hup (hwoken _)
  | rests rests => exact rests

/-- The worker itself does not take the word to stop back either. -/
theorem stopWorker_moveWorker (s : System) : s.moveWorker.stopWorker = s.stopWorker := by
  have htake : ∀ {e : Event} {t : System} {w : Worker}, s.takeEvent = some (e, t) →
      ({ t with worker := w } : System).stopWorker = s.stopWorker := by
    intro e t w he
    obtain ⟨queue, x, -, rfl⟩ := takeEvent_eq_some he
    cases x <;> rfl
  have h := workerMove (s := s)
  generalize s.moveWorker = t at h ⊢
  cases h with
  | take _ _ takes | drain _ takes => exact htake takes
  | _ => rfl

/-- **A word to stop** is never taken back. -/
theorem Advance.stopWorker (hadv : Advance o s s') (h : s.stopWorker = true) :
    s'.stopWorker = true := by
  cases hadv with
  | @move a hrun =>
    by_cases ha : a = .worker
    · subst ha
      exact (stopWorker_moveWorker s).trans h
    · exact (heeds_move s o ha).stop h
  | turn _ _ | call _ _ | pass _ | elsewhere _ _ _ => exact h
  | request r _ _ _ => exact (heeds_request s r).stop h

theorem Heeds.manned (hs : s.Heeds s') (h : s.Manned)
    (hrun : s.agenda.running = some .worker → s'.agenda.running = some .worker) : s'.Manned := by
  cases h with
  | up awake => exact .up (awake.imp hrun hs.spares.woken)
  | rests rests => exact (hs.rests rests).elim .rests fun hw => .up (.inr hw)

/-- **The worker goes on** until it has nothing to do. -/
theorem manned_moveWorker (hrun : s.agenda.running = some .worker) : s.moveWorker.Manned := by
  have htake : ∀ {e : Event} {t : System} {w : Worker}, s.takeEvent = some (e, t) →
      ({ t with worker := w } : System).Manned := by
    intro e t w he
    obtain ⟨queue, x, -, rfl⟩ := takeEvent_eq_some he
    refine .up (.inl ?_)
    cases x with
    | none => exact hrun
    | some x => exact (Agenda.running_wake _ _).trans hrun
  have h := workerMove (s := s)
  generalize s.moveWorker = t at h ⊢
  cases h with
  | unstarted unstarted => exact .rests (.unstarted unstarted)
  | close _ _ => exact .up (.inl ((Agenda.running_wakeAll _ _).trans hrun))
  | take _ _ takes | drain _ takes => exact htake takes
  | idle idle running empty attached =>
    have hitems : s.queue.items = [] := (Queue.take?_eq_none_iff _).1 (takeEvent_eq_none empty)
    exact .rests (.idle idle hitems running attached)
  | launch _ _ => exact .up (.inl ((Agenda.running_wake _ _).trans hrun))
  | hold holding full => exact .rests (.holding holding (Nat.le_of_sub_eq_zero full))
  | part _ _ => exact .up (.inl hrun)
  | leave _ _ => exact .rests (.gone rfl)
  | await parting missing => exact .rests (.parting parting missing)
  | gone gone => exact .rests (.gone gone)

/-- **The worker is looked after**, whatever happens. -/
theorem Advance.manned (hadv : Advance o s s') (h : s.Manned) : s'.Manned := by
  cases hadv with
  | @move a hrun =>
    by_cases ha : a = .worker
    · subst ha
      exact manned_moveWorker hrun
    · exact (heeds_move s o ha).manned h fun hw => absurd (Option.some.inj (hrun.symm.trans hw)) ha
  | @turn a idle ready =>
    cases h with
    | up awake =>
      refine .up ?_
      by_cases ha : a = .worker
      · exact .inl (congrArg some ha)
      · refine .inr (isWoken_turn (Ne.symm ha) (awake.resolve_left fun hrun => ?_))
        cases idle.symm.trans hrun
    | rests rests => exact .rests rests
  | call idle called =>
    cases h with
    | up awake =>
      refine .up (.inr (awake.resolve_left fun hrun => ?_))
      cases idle.symm.trans hrun
    | rests rests => exact .rests rests
  | pass t =>
    cases h with
    | up awake =>
      exact .up (awake.imp (s.agenda.running_pass t).trans ((Agenda.Stirs.pass _ t).woken _))
    | rests rests => exact .rests rests
  | request r answered free plain =>
    refine (heeds_request s r).manned h fun hrun => ?_
    refine (running_request s r (free.resolve_left fun hnone => ?_)).trans hrun
    cases hnone.symm.trans hrun
  | elsewhere resolver clock ids =>
    cases h with
    | up awake => exact .up awake
    | rests rests => exact .rests rests

theorem Course.manned (hc : Course o s s') (h : s.Manned) : s'.Manned := by
  induction hc with
  | refl => exact h
  | tail _ hadv ih => exact hadv.manned ih

end Manned

end System

/-! ## Whoever waits for room -/

namespace Ledger

/-- **Somebody waits for room** only if there is none. -/
def Crowded (l : Ledger) : Prop :=
  l.queue.waiting ≠ [] → l.queue.capacity ≤ l.queue.pending

theorem Crowded.next {l l' : Ledger} (h : l.Crowded) (hl : l.Next l')
    (hd : l.queue.granted.Nodup) : l'.Crowded := by
  cases hl with
  | push x e isOpen room =>
    intro hw
    exact absurd (h hw) (Nat.not_le.2 ((Queue.hasRoom_iff _).1 room))
  | use x e isOpen granted =>
    -- the slot was counted as taken before
    intro hw
    refine Nat.le_trans (h hw) (Nat.le_of_eq ?_)
    have hlen : (l.queue.granted.filter (· ≠ x)).length + 1 = l.queue.granted.length := by
      have herase : l.queue.granted.filter (· ≠ x) = l.queue.granted.erase x := by
        rw [hd.erase_eq_filter x]
        exact List.filter_congr fun y _ => by simp [bne, Bool.beq_eq_decide_eq]
      rw [herase, List.length_erase_of_mem granted]
      exact Nat.succ_pred_eq_of_pos (List.length_pos_of_mem granted)
    simp only [Queue.pending, Queue.use, List.length_append, List.length_singleton]
    omega
  | refuse x e failure queue left cause =>
    rcases left with rfl | rfl
    · exact h
    · refine fun hw => h fun hnil => hw ?_
      simp [Queue.withdraw, hnil]
  | await x isOpen full =>
    intro _
    refine Nat.not_lt.1 fun hlt => ?_
    cases full.symm.trans ((Queue.hasRoom_iff l.queue).2 hlt)
  | take e queue x draining free oldest =>
    obtain ⟨hi, ⟨-, hw, hq⟩ | ⟨y, waiting, -, hw, hq⟩⟩ := Queue.take?_eq_some oldest
    · intro hne
      rw [hq] at hne
      exact absurd hw hne
    · intro _
      have hle := h (by rw [hw]; exact List.cons_ne_nil _ _)
      rw [hq]
      simp only [Queue.pending, hi, List.length_cons, List.length_append, List.length_nil]
        at hle ⊢
      omega
  | close idle => exact fun hw => absurd rfl hw
  | same | launch _ _ _ _ | land _ _ _ _ | start _ | part _ _ | leave _ _ => exact h

/-- What has begun stays on the list. -/
theorem Next.begun_suffix {l l' : Ledger} (h : l.Next l') : l.begun <:+ l'.begun := by
  cases h with
  | launch e _ _ _ => exact List.suffix_cons _ _
  | _ => exact List.suffix_rfl

end Ledger

namespace System

section Staffed

variable {o : Outside} {settings : Settings} {capacity auditCapacity : Nat} {audited : Bool}
  {grace : Nat} {resolver : Directory.Resolver} {s s' : System}

theorem Course.begun_suffix (h : Course o s s') : s.begun <:+ s'.begun := by
  induction h with
  | refl => exact List.suffix_rfl
  | tail _ hadv ih => exact ih.trans hadv.next.begun_suffix

theorem Course.crowded
    (h : Course o (new settings capacity auditCapacity audited grace resolver) s) :
    s.ledger.Crowded := by
  induction h with
  | refl => exact fun hw => absurd rfl hw
  | tail hc hadv ih =>
    have hd := (Course.attended hc (sound_new ..) (attended_new ..)).nodup
    exact ih.next hadv.next (List.nodup_append.1 hd).2.1

/-! ## Events begin in order, and none waits in vain -/

/-- **The worker does its work**: in order, and without delay. -/
structure Staffed (s : System) (capacity workers : Nat) : Prop where
  /-- **In the order in which they were accepted** the events are those whose deliveries have
  begun, the one that the worker holds, and those in the queue. -/
  in_order : admitted s.offers = s.begun.reverse ++ s.worker.held ++ s.queue.items
  started : s.begun.reverse <+: admitted s.offers
  /-- **When an event is queued**, all deliveries that may be are under way, and one more event
  is held. -/
  busy : s.agenda.isSettled = true → s.worker ≠ .unstarted → s.queue.items ≠ [] →
    s.flights.length = workers ∧ ∃ e, s.worker.held = [e]
  /-- **While a worker is free**, no event waits: neither in the hands of the worker, nor in the
  queue, nor for room in it. -/
  free : s.agenda.isSettled = true → s.worker ≠ .unstarted → s.flights.length < workers →
    s.worker.held = [] ∧ s.queue.items = [] ∧ s.queue.waiting = []
  /-- Senders wait for room only if the queue is full of events. -/
  full : s.agenda.isSettled = true → s.queue.waiting ≠ [] → s.queue.items.length = capacity

/-- A worker that was started and rests while an event is held or queued is at its limit. -/
theorem full_of_rests (hs : s.ledger.Sound) (hr : s.post.Rests)
    (started : s.worker ≠ .unstarted) (hleft : s.worker.held ++ s.queue.items ≠ []) :
    s.flights.length = s.settings.workers ∧ ∃ e, s.worker.held = [e] := by
  have hle : s.flights.length ≤ s.settings.workers := by
    have hle := hs.bounded.flights_le
    rwa [flights_ledger, List.length_map, workers_ledger] at hle
  -- a worker that is parting or gone has emptied the queue
  have hdone : s.worker.isDone = true → s.queue.items = [] := hs.shut.empty
  cases hr with
  | unstarted doing => exact absurd doing started
  | idle doing empty _ _ =>
    refine absurd ?_ hleft
    rw [show s.worker = _ from doing, show s.queue.items = _ from empty]
    rfl
  | holding doing full =>
    refine ⟨Nat.le_antisymm hle full, ?_⟩
    rw [show s.worker = _ from doing]
    exact ⟨_, rfl⟩
  | parting doing _ | gone doing =>
    rw [show s.worker = _ from doing] at hdone hleft
    refine absurd ?_ hleft
    rw [hdone rfl]
    rfl

/-- **No worker idles while an event waits**, in every course of a fresh service; and what has
begun has begun for good. -/
theorem Course.staffed
    (h : Course o (new settings capacity auditCapacity audited grace resolver) s) :
    s.Staffed (max capacity 1) (max settings.workers 1)
      ∧ ∀ s', Course o s s' → s.begun.reverse <+: s'.begun.reverse := by
  obtain ⟨hs, hcap, hwork⟩ := Course.sound h (sound_new ..)
  have hwork : s.settings.workers = max settings.workers 1 := hwork
  have hcap : s.queue.capacity = max capacity 1 := hcap
  have hatt := Course.attended h (sound_new ..) (attended_new ..)
  have hmanned : s.Manned := Course.manned h (.rests (.unstarted rfl))
  have hadmitted : admitted s.offers = s.begun.reverse ++ s.worker.held ++ s.queue.items :=
    hs.conserved.admitted_eq
  -- whoever waits finds the queue full, and all slots taken have an event in them
  have hfull : s.agenda.isSettled = true → s.queue.waiting ≠ [] →
      s.queue.items.length = max capacity 1 := by
    intro settled hw
    have hg : s.queue.granted = [] := hatt.granted_eq_nil settled
    have hle : s.queue.capacity ≤ s.queue.pending := h.crowded hw
    have hge : s.queue.pending ≤ s.queue.capacity := hs.bounded.pending_le
    rw [Queue.pending, hg, List.length_nil, Nat.add_zero, hcap] at hle hge
    exact Nat.le_antisymm hge hle
  have hbusy : s.agenda.isSettled = true → s.worker ≠ .unstarted →
      s.worker.held ++ s.queue.items ≠ [] →
      s.flights.length = max settings.workers 1 ∧ ∃ e, s.worker.held = [e] :=
    fun settled started hleft =>
      hwork ▸ full_of_rests hs (hmanned.rests_of_isSettled settled) started hleft
  refine ⟨{
    in_order := hadmitted
    started := ⟨_, by rw [hadmitted, List.append_assoc]⟩
    busy := fun settled started hi => hbusy settled started ?_
    free := fun settled started hlt => ?_
    full := hfull }, fun s' hc => ?_⟩
  · exact fun hnil => hi (List.append_eq_nil_iff.1 hnil).2
  · have hnil : s.worker.held ++ s.queue.items = [] := by
      by_contra hne
      exact absurd (hbusy settled started hne).1 (Nat.ne_of_lt hlt)
    obtain ⟨hheld, hitems⟩ := List.append_eq_nil_iff.1 hnil
    refine ⟨hheld, hitems, ?_⟩
    by_contra hw
    have hlen := hfull settled hw
    rw [hitems] at hlen
    exact absurd (Nat.le_max_right capacity 1) (by rw [← hlen]; decide)
  · exact List.reverse_prefix.2 hc.begun_suffix

/-- Two workers, and a queue with two slots. No call is ever answered, and seven events are
offered, by somebody else, who may wait for room for a minute. Two deliveries are under way, one
event is held, two are queued, and two still wait for room. -/
theorem staffed_crowded :
    let o : Outside :=
      { lookup := fun _ key => { answer := .error (.unknownPerson key.text) }
        call := fun _ _ => { delay := none, answer := .ok () }
        append := fun _ _ => { answer := .ok () }
        fetch := fun _ _ => { answer := .error (.fetch "no source") } }
    let event (url : String) : Event :=
      { id := "a", delivery := .callback url, title := "t", message := "m" }
    let fresh := new { workers := 2 } 2 4 true 5000 {}
    let s := fresh.serveAll o 60
      (.start :: ["a", "b", "c", "d", "e", "f", "g"].map fun url => .offerAside (event url) 60000)
    (s.agenda.isSettled = true ∧ s.worker ≠ .unstarted ∧ s.queue.waiting.length = 2
      ∧ s.queue.items = [event "d", event "e"] ∧ s.worker.held = [event "c"]
      ∧ s.begun = [event "b", event "a"] ∧ s.flights.length = 2) ∧ s.Staffed 2 2 := by
  intro o event fresh s
  have hcourse : Course o fresh s := course_serveAll o 60 fresh _ (by decide +kernel)
  exact ⟨by decide +kernel, hcourse.staffed.1⟩

end Staffed

end System

end Rota.Relay
