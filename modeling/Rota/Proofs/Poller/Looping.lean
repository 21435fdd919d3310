import Rota.Proofs.Relay.Repose

/-!
# The polling loop

The loop waits for its next cycle, goes through it, and looks in between for the signal to stop.
`LoopMove` lists what its moves are, and `Told` what a request does to it. Nobody else has a part
in it, so `Loops` says all that can happen to the loop, whatever goes on in the service
(`Advance.loops`).

Nobody waits for the loop in vain (`Minded`): a loop that was told to stop between two cycles is
awake, and so is the client once the loop that it waits for is gone. Hence a client that waits for
the loop when everyone waits does so because a cycle is under way (`Minded.cycling`).
-/

namespace Rota.Relay

open Rota.Poller (Cycle Visit)

namespace System

/-! ## Moves that leave client and loop alone -/

section Stays

variable (o : Outside) (s : System)

theorem stays_restUntil (due : Nat) (actor : Actor) (slot : Nat) :
    s.Stays (s.restUntil due actor slot) :=
  ⟨rfl, rfl, rfl, rfl, Agenda.now_setAlarm _ _ _ _⟩

theorem Aside.stays {s s' : System} (h : s.Aside s') (now : s'.now = s.now) : s.Stays s' := by
  obtain ⟨_, _, _, _, rfl⟩ := h.eq
  exact ⟨rfl, rfl, rfl, rfl, now⟩

theorem stays_pursue (f : Flight) (next : Next) : s.Stays (s.pursue o f next) := by
  cases next with
  | ended r => exact stays_land s f r
  | calling call whom => exact ⟨rfl, rfl, rfl, rfl, rfl⟩

theorem stays_moveFlight (number : Nat) : s.Stays (s.moveFlight o number) := by
  have h := flightStep (o := o) (s := s) number
  generalize s.moveFlight o number = t at h ⊢
  cases h with
  | rest _ => exact (Stays.refl s).rest
  | @begin f next _ _ _ => exact stays_pursue o s f next
  | ask _ _ _ => exact ⟨rfl, rfl, rfl, rfl, rfl⟩
  | @hear f _ _ _ _ _ resolver _ _ _ _ =>
    exact (stays_pursue o { s with resolver } f _).after ⟨rfl, rfl, rfl, rfl, rfl⟩
  | @land f _ _ _ _ _ _ => exact stays_land s f _
  | wait _ _ _ => exact stays_restUntil s _ _ _

theorem stays_moveWorker : s.Stays s.moveWorker := by
  have h := workerMove (s := s)
  generalize s.moveWorker = t at h ⊢
  cases h with
  | unstarted _ | idle _ _ _ _ | hold _ _ | await _ _ | gone _ => exact (Stays.refl s).rest
  | close _ _ => exact ⟨rfl, rfl, rfl, rfl, Agenda.now_wakeAll _ _⟩
  | take _ _ takes | drain _ takes => exact (errands_takeEvent takes).1.worker
  | launch _ _ | leave _ _ => exact ⟨rfl, rfl, rfl, rfl, Agenda.now_wake _ _⟩
  | part _ _ => exact ⟨rfl, rfl, rfl, rfl, rfl⟩

theorem stays_moveWriter : s.Stays (s.moveWriter o) := by
  refine ⟨?_, ?_, ?_, ?_, now_move o s .writer⟩ <;>
  · unfold moveWriter
    split
    next pipeline turn begun _ =>
    cases turn with
    | again | ended => rfl
    | waiting due => cases due <;> rfl

theorem stays_moveProducer (number : Nat) : s.Stays (s.moveProducer number) := by
  have h := producerMove (s := s) number
  generalize s.moveProducer number = t at h ⊢
  cases h with
  | rest _ => exact (Stays.refl s).rest
  | @hold p t _ waits =>
    have hoffer := (adds_offerAgain s { actor := .producer number } p.event p.deadline).toStays
    rw [waits] at hoffer
    exact hoffer.rest
  | @offered p result t _ ended =>
    have hoffer := (adds_offerAgain s { actor := .producer number } p.event p.deadline).toStays
    rw [ended] at hoffer
    exact hoffer.producers

/-- **All but the client and the loop** leave both of them alone. -/
theorem stays_move {a : Actor} (hclient : a ≠ .client) (hpoller : a ≠ .poller) :
    s.Stays (s.move o a) := by
  cases a with
  | client => exact absurd rfl hclient
  | poller => exact absurd rfl hpoller
  | worker => exact stays_moveWorker s
  | writer => exact stays_moveWriter o s
  | delivery n => exact stays_moveFlight o s n
  | producer n => exact stays_moveProducer s n

end Stays

/-! ## The moves of loop and client -/

section Moves

variable {o : Outside} {s s' : System}

/-- A move of a cycle leaves client and loop to its actor. -/
theorem CycleMove.stays {owner : Actor} {c c' : Cycle} {turn : Audit.Turn}
    (h : CycleMove o s owner c (turn, c', s')) : s.Stays s' := by
  cases h with
  | visit _ moves => exact (visitMove_of_moveVisit moves).eases.1
  | skip _ _ | finish _ _ | wrap _ _ => exact .refl s

/-- It goes on with the same schedules. -/
theorem CycleMove.schedules_eq {owner : Actor} {c c' : Cycle} {turn : Audit.Turn}
    (h : CycleMove o s owner c (turn, c', s')) :
    c'.visits.map Visit.schedule = c.visits.map Visit.schedule := by
  cases h with
  | visit turn moves => exact Poller.map_set_eq turn rfl
  | skip _ _ | finish _ _ | wrap _ _ => rfl

/-- The loop leaves the client to itself. -/
theorem client_moveLoop : (s.moveLoop o).client = s.client := by
  have h := loopMove (o := o) (s := s)
  generalize s.moveLoop o = t at h ⊢
  cases h with
  | goOn cycling moves => exact moves.stays.client
  | _ => rfl

/-- **The client leaves the loop to itself.** -/
theorem loop_moveClient : (s.moveClient o).loop = s.loop ∧ (s.moveClient o).polling = s.polling
    ∧ (s.moveClient o).loopSchedules = s.loopSchedules := by
  have h := clientMove (o := o) (s := s)
  generalize s.moveClient o = t at h ⊢
  cases h with
  | @hold event deadline t _ waits =>
    have hoffer := (adds_offerAgain s { actor := .client } event deadline).toStays
    rw [waits] at hoffer
    exact ⟨hoffer.loop, hoffer.polling, hoffer.schedules⟩
  | @offered event deadline result t _ ended =>
    have hoffer := (adds_offerAgain s { actor := .client } event deadline).toStays
    rw [ended] at hoffer
    exact ⟨hoffer.loop, hoffer.polling, hoffer.schedules⟩
  | goOn _ moves => exact ⟨moves.stays.loop, moves.stays.polling, moves.stays.schedules⟩
  | parted _ _ =>
    have htold := (adds_startSignalled { s with client := .awaitingWriter }).toStays
    exact ⟨htold.loop, htold.polling, htold.schedules⟩
  | _ => exact ⟨rfl, rfl, rfl⟩

/-- A client waits for the loop only as long as there is one. -/
theorem loop_of_awaitingLoop (h : (s.moveClient o).client = .awaitingLoop) :
    s.client = .awaitingLoop ∧ s.loop ≠ .absent := by
  have hmove := clientMove (o := o) (s := s)
  generalize s.moveClient o = t at hmove h
  cases hmove with
  | awaitLoop awaits present => exact ⟨awaits, present⟩
  | idle hc | sleep hc _ | awaitWorker hc _ | awaitWriter hc _ => cases hc.symm.trans h
  | @hold event deadline t offering waits =>
    have hoffer := (adds_offerAgain s { actor := .client } event deadline).client
    rw [waits] at hoffer
    cases offering.symm.trans (hoffer.symm.trans h)
  | parted _ _ =>
    have htold := (adds_startSignalled { s with client := .awaitingWriter }).client
    cases htold.symm.trans h
  | rise _ _ | offered _ _ | goOn _ _ | finish _ _ | wrap _ _ _ | halted _ _ | written _ _ =>
    cases h

/-- Only the loop itself moves it. -/
theorem loop_move {a : Actor} (hpoller : a ≠ .poller) : (s.move o a).loop = s.loop
    ∧ (s.move o a).polling = s.polling ∧ (s.move o a).loopSchedules = s.loopSchedules := by
  by_cases hclient : a = .client
  · subst hclient
    exact loop_moveClient
  · have hstays := stays_move o s hclient hpoller
    exact ⟨hstays.loop, hstays.polling, hstays.schedules⟩

/-- Only the client itself takes up something else. -/
theorem client_move {a : Actor} (hclient : a ≠ .client) : (s.move o a).client = s.client := by
  by_cases hpoller : a = .poller
  · subst hpoller
    exact client_moveLoop
  · exact (stays_move o s hclient hpoller).client

end Moves

/-! ## What the loop is told -/

/-- **What a request does to the loop**: it starts it, or tells it to stop, or does neither. -/
inductive Told (s : System) : Request → System → Prop
  | nothing {r : Request} {s' : System} (loop : s'.loop = s.loop) (polling : s'.polling = s.polling)
      (schedules : s'.loopSchedules = s.loopSchedules) (client : s'.client ≠ .awaitingLoop) :
      Told s r s'
  | start (schedules : List Config.Schedule) (off : s.polling = false) :
      Told s (.startPolling schedules)
        ((({ s with polling := true, loop := .waiting s.now, loopSchedules := schedules } :
          System).wake .poller).answer .nothing)
  | stop (on : s.polling = true) : Told s .stopPolling (s.signalLoop.await .awaitingLoop)

section Told

variable {s : System}

/-- **There is nothing else that a request does to the loop.** -/
theorem told_request (r : Request) (plain : r.isRecord = false) : s.Told r (s.request r) := by
  have hidle : ∀ a, Client.idle a ≠ .awaitingLoop := by simp
  have hanswer : ∀ {t : System} {r : Request} (a : Answer), s.Stays t → s.Told r (t.answer a) :=
    fun _ h => .nothing h.loop h.polling h.schedules (hidle _)
  have hawait : ∀ {t : System} {r : Request} (c : Client), s.Stays t → c ≠ .awaitingLoop →
      s.Told r (t.await c) := fun _ h hc => .nothing h.loop h.polling h.schedules hc
  have haside : ∀ {t t' : System}, t.Aside t' → t.Spares .worker t' → t.Stays t' := fun h hs =>
    h.stays hs.now
  have hworker : s.Stays s.startWorker := by
    unfold startWorker
    split
    · exact ⟨rfl, rfl, rfl, rfl, Agenda.now_wake _ _⟩
    · exact .refl s
  have hwriter : ∀ t : System, t.Stays t.startWriter := fun t =>
    haside (aside_startWriter t) (spares_startWriter t)
  have hsignal : ∀ t : System, t.Stays t.signalWorker := fun t =>
    haside (aside_signalWorker t) (spares_signalWorker t)
  have hend : ∀ t : System, t.Stays t.endEvents := fun t =>
    haside (aside_endEvents t) (spares_endEvents t)
  cases r with
  | sleep ms => exact hawait _ (.refl s) (by simp)
  | enqueue event => exact hanswer _ (adds_enqueue s _ event).toStays
  | enqueueWithin event limit =>
    have hoffer := (adds_offer s { actor := .client } event limit).toStays
    rw [request]
    split
    · next hs =>
      rw [hs] at hoffer
      exact hanswer _ hoffer
    · next hs =>
      rw [hs] at hoffer
      exact hawait _ hoffer (by simp)
  | offerAside event limit =>
    have hoffer := (adds_offer { s with hired := s.hired + 1 } { actor := .producer s.hired } event
      limit).toStays
    rw [request, offerAside]
    split <;>
    · next hs =>
      rw [hs] at hoffer
      exact .nothing hoffer.loop hoffer.polling hoffer.schedules (hidle _)
  | record r times => cases plain
  | start => exact hanswer _ ((hwriter _).after hworker)
  | startWriter => exact hanswer _ (hwriter s)
  | dropWriter =>
    exact hanswer _ (haside (aside_dropWriter s) (spares_dropWriter s))
  | signal => exact hanswer _ (hsignal s)
  | leave => exact hanswer _ (hend s)
  | shutdown => exact hawait _ ((hsignal _).after ((hwriter _).after hworker)) (by simp)
  | shutdownWriter =>
    exact hawait _ (adds_startSignalled s).toStays (by simp)
  | finish => exact hawait _ ((hend _).after hworker) (by simp)
  | finishRecords =>
    refine hawait _ (.after ?_ (hwriter s)) (by simp)
    exact haside (aside_endRecords _) (spares_endRecords _)
  | poll schedules =>
    have hcycling : ∀ c, Client.cycling c ≠ .awaitingLoop := by simp
    exact .nothing rfl rfl rfl (hcycling _)
  | startPolling schedules =>
    rw [request, startPolling]
    split
    · exact hanswer _ (.refl s)
    · next hp => exact .start schedules (by simpa using hp)
  | stopPolling =>
    rw [request]
    split
    · next hp => exact .stop hp
    · exact hanswer _ (.refl s)

end Told

/-! ## All that can happen to the loop -/

/-- **What can happen to the polling loop** in one step. -/
inductive Loops (s s' : System) : Prop
  | still (loop : s'.loop = s.loop) (polling : s'.polling = s.polling)
      (schedules : s'.loopSchedules = s.loopSchedules)
  /-- The client starts it. -/
  | start (schedules : List Config.Schedule) (answered : s.isAnswered = true)
      (asks : s' = s.request (.startPolling schedules)) (off : s.polling = false)
      (loop : s'.loop = .waiting s.now) (polling : s'.polling = true)
      (loopSchedules : s'.loopSchedules = schedules)
  /-- The client tells it to stop. -/
  | stop (answered : s.isAnswered = true) (on : s.polling = true) (loop : s'.loop = s.loop)
      (polling : s'.polling = false) (schedules : s'.loopSchedules = s.loopSchedules)
      (client : s'.client = .awaitingLoop)
  /-- It begins a cycle over its schedules. -/
  | begin (due : Nat) (waits : s.loop = .waiting due) (on : s.polling = true) (isDue : due ≤ s.now)
      (loop : s'.loop = .cycling (s.nextCycle due) (.of s.loopSchedules))
      (polling : s'.polling = s.polling) (schedules : s'.loopSchedules = s.loopSchedules)
  | goOn (next : Nat) (c c' : Cycle) (cycling : s.loop = .cycling next c)
      (loop : s'.loop = .cycling next c')
      (visits : c'.visits.map Visit.schedule = c.visits.map Visit.schedule)
      (polling : s'.polling = s.polling) (schedules : s'.loopSchedules = s.loopSchedules)
  | finish (next : Nat) (c : Cycle) (cycling : s.loop = .cycling next c)
      (allOver : c.visits.all Visit.isOver = true) (loop : s'.loop = .waiting next)
      (reports : s'.reports = c.report :: s.reports)
      (polling : s'.polling = s.polling) (schedules : s'.loopSchedules = s.loopSchedules)
  /-- It was told to stop, and is gone. -/
  | halt (due : Nat) (waits : s.loop = .waiting due) (off : s.polling = false)
      (loop : s'.loop = .absent) (polling : s'.polling = s.polling)
      (schedules : s'.loopSchedules = s.loopSchedules)

section Loops

variable {o : Outside} {s s' : System}

theorem LoopMove.loops (h : LoopMove o s s') : s.Loops s' := by
  cases h with
  | rest _ | wait _ _ _ => exact .still rfl rfl rfl
  | halt waits off => exact .halt _ waits off rfl rfl rfl
  | begin waits on isDue => exact .begin _ waits on isDue rfl rfl rfl
  | goOn cycling moves =>
    exact .goOn _ _ _ cycling rfl moves.schedules_eq moves.stays.polling moves.stays.schedules
  | finish cycling allOver => exact .finish _ _ cycling allOver rfl rfl rfl rfl
  | wrap cycling _ _ => exact .goOn _ _ _ cycling rfl rfl rfl rfl

theorem loop_signalLoop (s : System) : s.signalLoop.loop = s.loop ∧ s.signalLoop.polling = false
    ∧ s.signalLoop.loopSchedules = s.loopSchedules := by
  unfold signalLoop
  dsimp only
  split <;> exact ⟨rfl, rfl, rfl⟩

/-- **Nothing else happens to the loop**, whatever goes on in the service. -/
theorem Advance.loops (hadv : Advance o s s') : s.Loops s' := by
  cases hadv with
  | @move a _ =>
    by_cases hpoller : a = .poller
    · subst hpoller
      exact loopMove.loops
    · obtain ⟨hloop, hpolling, hschedules⟩ := loop_move (o := o) (s := s) hpoller
      exact .still hloop hpolling hschedules
  | turn _ _ | call _ _ | pass _ | elsewhere _ _ _ => exact .still rfl rfl rfl
  | request r answered free plain =>
    have htold := told_request (s := s) r plain
    generalize ht : s.request r = t at htold ⊢
    cases htold with
    | nothing loop polling schedules _ => exact .still loop polling schedules
    | start schedules off => exact .start schedules answered ht.symm off rfl rfl rfl
    | stop on =>
      obtain ⟨hloop, hpolling, hschedules⟩ := loop_signalLoop s
      exact .stop answered on hloop hpolling hschedules rfl

end Loops

end System

/-! ## Nobody waits for the loop in vain -/

namespace Agenda

/-- **Is an actor awake?** It is running, or was woken and has not run since. -/
def Awake (a : Agenda) (actor : Actor) : Prop :=
  a.running = some actor ∨ a.IsWoken actor

variable {a b : Agenda} {me other : Actor}

theorem Awake.stirs (h : a.Awake me) (hs : a.Stirs b) : b.Awake me :=
  h.imp hs.running.trans (hs.woken me)

/-- Whoever is awake stays so when somebody starts running. -/
theorem Awake.turn (h : a.Awake me) (idle : a.running = none) :
    ({ a with running := some other, ready := a.ready.erase other } : Agenda).Awake me := by
  have hwoken : a.IsWoken me := h.resolve_left fun hr => nomatch idle.symm.trans hr
  by_cases hme : me = other
  · exact .inl (congrArg some hme.symm)
  · exact .inr (System.isWoken_turn hme hwoken)

theorem Awake.call (h : a.Awake me) (idle : a.running = none) : a.callClient.Awake me := by
  have hwoken : a.IsWoken me := h.resolve_left fun hr => nomatch idle.symm.trans hr
  by_cases hme : me = .client
  · exact .inl (congrArg some hme.symm)
  · refine .inr ?_
    unfold IsWoken at hwoken ⊢
    rwa [if_neg hme] at hwoken ⊢

/-- When everyone waits, nobody is awake. -/
theorem not_awake_of_isSettled (h : a.isSettled = true) : ¬ a.Awake me := by
  obtain ⟨hrun, hwoken⟩ := not_isWoken_of_isSettled h
  rintro (hup | hup)
  · cases hrun.symm.trans hup
  · exact hwoken me hup

end Agenda

namespace System

/-- **Nobody waits for the loop in vain.** -/
structure Minded (s : System) : Prop where
  present : s.polling = true → s.loop ≠ .absent
  off : s.client = .awaitingLoop → s.polling = false
  /-- A loop that was told to stop between two cycles is awake. -/
  roused : s.polling = false → ∀ due, s.loop = .waiting due → s.agenda.Awake .poller
  /-- So is the client, once the loop that it waits for is gone. -/
  called : s.client = .awaitingLoop → s.loop = .absent → s.agenda.Awake .client

section Minded

variable {o : Outside} {s s' : System}

/-- It stays so as long as neither client nor loop take up anything else. -/
theorem Minded.keep (h : s.Minded) (hloop : s'.loop = s.loop) (hpolling : s'.polling = s.polling)
    (hclient : s'.client = .awaitingLoop → s.client = .awaitingLoop)
    (hpoller : s.agenda.Awake .poller → s'.agenda.Awake .poller)
    (hcalled : s'.client = .awaitingLoop → s.agenda.Awake .client → s'.agenda.Awake .client) :
    s'.Minded where
  present := fun hp => hloop ▸ h.present (hpolling.symm.trans hp)
  off := fun hc => hpolling.trans (h.off (hclient hc))
  roused := fun hp due hl =>
    hpoller (h.roused (hpolling.symm.trans hp) due (hloop.symm.trans hl))
  called := fun hc hl => hcalled hc (h.called (hclient hc) (hloop.symm.trans hl))

theorem LoopMove.minded (hm : LoopMove o s s') (h : s.Minded)
    (hrun : s.agenda.running = some .poller) : s'.Minded := by
  have hwoken : s.agenda.Awake .client → s.agenda.IsWoken .client := fun hup =>
    hup.resolve_left fun hr => (nomatch hrun.symm.trans hr)
  cases hm with
  | rest absent =>
    exact ⟨h.present, h.off, fun _ due hl => (nomatch absent.symm.trans hl),
      fun hc hl => .inr (hwoken (h.called hc hl))⟩
  | halt waits off =>
    refine ⟨fun hp => (nomatch off.symm.trans hp), h.off, fun _ _ hl => (nomatch hl),
      fun _ _ => .inr ?_⟩
    exact (Agenda.isWoken_wake ..).2 (.inr rfl)
  | begin waits on isDue =>
    exact ⟨fun _ => nofun, h.off, fun hp => (nomatch on.symm.trans hp), fun _ hl => (nomatch hl)⟩
  | wait waits on early =>
    exact ⟨h.present, h.off, fun hp => (nomatch on.symm.trans hp),
      fun _ hl => (nomatch waits.symm.trans hl)⟩
  | goOn cycling moves =>
    refine ⟨fun _ => nofun, fun hc => ?_, fun _ _ hl => (nomatch hl), fun _ hl => (nomatch hl)⟩
    exact moves.stays.polling.trans (h.off (moves.stays.client.symm.trans hc))
  | finish cycling allOver =>
    exact ⟨fun _ => nofun, h.off, fun _ _ _ => .inl hrun, fun _ hl => (nomatch hl)⟩
  | wrap cycling passed busy =>
    exact ⟨fun _ => nofun, h.off, fun _ _ hl => (nomatch hl), fun _ hl => (nomatch hl)⟩

theorem minded_moveClient (h : s.Minded) (hrun : s.agenda.running = some .client) :
    (s.moveClient o).Minded := by
  obtain ⟨hloop, hpolling, -⟩ := loop_moveClient (o := o) (s := s)
  have hspares : s.Spares .poller (s.moveClient o) := spares_moveClient o s nofun
  refine ⟨fun hp => hloop ▸ h.present (hpolling.symm.trans hp),
    fun hc => hpolling.trans (h.off (loop_of_awaitingLoop hc).1), fun hp due hl => ?_,
    fun hc hl => absurd (hloop.symm.trans hl) (loop_of_awaitingLoop hc).2⟩
  refine .inr (hspares.woken ((h.roused (hpolling.symm.trans hp) due
    (hloop.symm.trans hl)).resolve_left fun hr => ?_))
  cases hrun.symm.trans hr

theorem minded_request (h : s.Minded) (r : Request)
    (free : s.agenda.running = none ∨ r.isPrompt = true) (plain : r.isRecord = false) :
    (s.request r).Minded := by
  have hawake : s.agenda.Awake .poller → (s.request r).agenda.Awake .poller := by
    have hspares : s.Spares .poller (s.request r) := spares_request s r nofun nofun
    rintro (hrun | hwoken)
    · have hprompt : r.isPrompt = true :=
        free.resolve_left fun hnone => (nomatch hnone.symm.trans hrun)
      exact .inl ((running_request s r hprompt).trans hrun)
    · exact .inr (hspares.woken hwoken)
  have htold := told_request (s := s) r plain
  generalize s.request r = t at htold hawake ⊢
  cases htold with
  | nothing loop polling schedules client =>
    exact h.keep loop polling (fun hc => absurd hc client) hawake fun hc => absurd hc client
  | start schedules off =>
    exact ⟨fun _ => nofun, fun hc => (nomatch hc), fun hp => (nomatch hp), fun hc => (nomatch hc)⟩
  | stop on =>
    obtain ⟨hloop, hpolling, -⟩ := loop_signalLoop s
    refine ⟨fun hp => (nomatch hpolling.symm.trans hp), fun _ => hpolling, fun _ due hl => .inr ?_,
      fun _ _ => .inl rfl⟩
    refine isWoken_await _ nofun ?_
    rw [signalLoop, show s.loop = .waiting due from hloop.symm.trans hl]
    exact (Agenda.isWoken_wake ..).2 (.inr rfl)

/-- **Nobody waits for the loop in vain**, whatever happens. -/
theorem Advance.minded (hadv : Advance o s s') (h : s.Minded) : s'.Minded := by
  cases hadv with
  | @move a hrun =>
    by_cases hpoller : a = .poller
    · subst hpoller
      exact loopMove.minded h hrun
    · by_cases hclient : a = .client
      · subst hclient
        exact minded_moveClient h hrun
      · have hstays := stays_move o s hclient hpoller
        have hother : ∀ {me}, a ≠ me → s.agenda.Awake me → (s.move o a).agenda.Awake me := by
          intro me hne hup
          refine .inr ((spares_move o s hne).woken (hup.resolve_left fun hr => hne ?_))
          exact Option.some.inj (hrun.symm.trans hr)
        exact h.keep hstays.loop hstays.polling hstays.client.symm.trans (hother hpoller)
          fun _ => hother hclient
  | turn idle ready =>
    exact h.keep rfl rfl id (fun hup => hup.turn idle) fun _ hup => hup.turn idle
  | call idle called =>
    exact h.keep rfl rfl id (fun hup => hup.call idle) fun _ hup => hup.call idle
  | pass t =>
    exact h.keep rfl rfl id (fun hup => hup.stirs (.pass _ t)) fun _ hup => hup.stirs (.pass _ t)
  | request r answered free plain => exact minded_request h r free plain
  | elsewhere _ _ _ => exact ⟨h.present, h.off, h.roused, h.called⟩

theorem minded_new (settings : Settings) (capacity auditCapacity : Nat) (audited : Bool)
    (grace : Nat) (resolver : Directory.Resolver) :
    (new settings capacity auditCapacity audited grace resolver).Minded :=
  ⟨fun hp => (nomatch hp), fun hc => (nomatch hc), fun _ _ hl => (nomatch hl),
    fun hc => (nomatch hc)⟩

/-- **A client that waits for the loop** while everyone waits does so because a cycle is under
way. -/
theorem Minded.cycling (h : s.Minded) (settled : s.agenda.isSettled = true)
    (awaits : s.client = .awaitingLoop) : ∃ next c, s.loop = .cycling next c := by
  cases hl : s.loop with
  | absent => exact absurd (h.called awaits hl) (Agenda.not_awake_of_isSettled settled)
  | waiting due =>
    exact absurd (h.roused (h.off awaits) due hl) (Agenda.not_awake_of_isSettled settled)
  | cycling next c => exact ⟨next, c, rfl⟩

end Minded

end System

end Rota.Relay
