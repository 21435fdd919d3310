import Rota.Proofs.Relay.Senders

/-!
# Every slot comes to be used

The moves of the service, seen by those who offer events. Most of them are
**quiet**: nobody's standing changes, and at most somebody is woken. The others
are the offers, the worker that takes an event or closes the queue, and the
cycles that go on. Each of them keeps `Attended`, so it holds along every course
(`Course.attended`).
-/

namespace Rota.Relay.System

/-! ## Quiet moves -/

/-- **Nobody's standing changes**; at most somebody is woken. -/
structure Quiet (s s' : System) : Prop where
  standing : s'.standing = s.standing
  stirs : s.agenda.Stirs s'.agenda

/-- **Nobody's standing changes**, but the actor that is running may stop. -/
structure Calm (s s' : System) : Prop where
  standing : s'.standing = s.standing
  rests : ∃ g, s.agenda.Stirs g ∧ (s'.agenda = g ∨ s'.agenda = g.rest)

section Quiet

variable {s s' t : System}

theorem Quiet.refl (s : System) : s.Quiet s := ⟨rfl, .refl _⟩

theorem Quiet.after (h' : t.Quiet s') (h : s.Quiet t) : s.Quiet s' :=
  ⟨h'.standing.trans h.standing, h.stirs.trans h'.stirs⟩

/-- A word on the side changes nobody's standing. -/
theorem Aside.quiet (h : s.Aside s') : s.Quiet s' := by
  refine ⟨?_, h.stirs⟩
  obtain ⟨_, _, _, _, rfl⟩ := h.eq
  rfl

theorem Quiet.calm (h : s.Quiet s') : s.Calm s' := ⟨h.standing, _, h.stirs, .inl rfl⟩

theorem Quiet.rest (h : s.Quiet s') : s.Calm s'.rest := ⟨h.standing, _, h.stirs, .inr rfl⟩

theorem Quiet.restUntil (h : s.Quiet s') (due : Nat) (actor : Actor) (slot : Nat) :
    s.Calm (s'.restUntil due actor slot) :=
  ⟨h.standing, _, h.stirs.trans (.setAlarm _ due actor slot), .inr rfl⟩

end Quiet

section Moves

variable (o : Outside) (s : System)

theorem quiet_accepted (x : Sender) (e : Event) : s.Quiet (s.accepted x e) := by
  unfold accepted
  exact (aside_wakeWorker _).quiet.after ⟨rfl, .refl _⟩

theorem quiet_enqueue (e : Event) (x : Sender) : s.Quiet (s.enqueue e x).2 := by
  unfold enqueue
  split
  · exact ⟨rfl, .refl _⟩
  · split
    · exact (quiet_accepted _ x e).after ⟨rfl, .refl _⟩
    · exact ⟨rfl, .refl _⟩

theorem quiet_told (result : Except Failure Unit) : s.Quiet (s.told result) := by
  unfold told
  split <;> exact ⟨rfl, .refl _⟩

theorem quiet_record (r : Audit.Record) : s.Quiet (s.record r) := by
  unfold record
  dsimp only
  split
  · exact (aside_wake _ _).quiet.after ⟨rfl, .refl _⟩
  · exact ⟨rfl, .refl _⟩

theorem quiet_startWorker : s.Quiet s.startWorker := by
  unfold startWorker
  split
  · exact (aside_wake _ _).quiet.after ⟨rfl, .refl _⟩
  · exact .refl s

theorem quiet_receive (schedule : Config.Schedule)
    (answer : Option (Except Failure Roster.Snapshot)) :
    s.Quiet (s.receive schedule answer).2 := by
  unfold receive
  split
  · split <;> exact ⟨rfl, .refl _⟩
  · exact ⟨rfl, .refl _⟩

/-- A visit that has its roster has no event waiting for room yet. -/
theorem isOffering_receive (schedule : Config.Schedule)
    (answer : Option (Except Failure Roster.Snapshot)) :
    (s.receive schedule answer).1.isOffering = false := by
  unfold receive
  split
  · split <;> rfl
  · rfl

theorem quiet_beginFetch (x : Sender) (schedule : Config.Schedule) :
    s.Quiet (s.beginFetch o x schedule).2 := by
  refine ⟨rfl, ?_⟩
  unfold beginFetch
  dsimp only
  split
  · exact .refl _
  · exact .setAlarm _ _ _ _

theorem quiet_endFetch (x : Sender) (schedule : Config.Schedule)
    (answer : Option (Except Failure Roster.Snapshot)) :
    s.Quiet (s.endFetch x schedule answer).2 := by
  unfold endFetch
  exact (quiet_receive _ schedule answer).after ⟨rfl, .cancel _ _ _⟩

theorem quiet_launch (e : Event) : s.Quiet (s.launch e) := by
  unfold launch
  dsimp only
  exact (aside_wake _ _).quiet.after ⟨rfl, .refl _⟩

theorem calm_land (f : Flight) (r : Audit.Record) : s.Calm (s.land f r) := by
  have h : s.Quiet (s.conclude f r) := by
    unfold conclude
    exact (quiet_record _ r).after ⟨rfl, .refl _⟩
  unfold land
  dsimp only
  split
  · exact ((aside_wake _ _).quiet.after h).rest
  · exact h.rest

theorem calm_pursue (f : Flight) (next : Next) : s.Calm (s.pursue o f next) := by
  cases next with
  | ended r => exact calm_land s f r
  | calling call whom => exact Quiet.calm ⟨rfl, .refl _⟩

theorem calm_moveFlight (number : Nat) : s.Calm (s.moveFlight o number) := by
  unfold moveFlight
  split
  · exact (Quiet.refl s).rest
  · next f _ =>
    split
    · split
      · exact calm_pursue o s f _
      · exact Quiet.calm ⟨rfl, .refl _⟩
    · split
      · split
        next result resolver _ =>
        have h := calm_pursue o { s with resolver } f
        exact ⟨(h _).standing, (h _).rests⟩
      · exact (Quiet.refl s).restUntil _ _ _
    · split
      · exact calm_land s f _
      · exact (Quiet.refl s).restUntil _ _ _

theorem calm_moveWriter : s.Calm (s.moveWriter o) := by
  unfold moveWriter
  split
  next pipeline turn begun _ =>
  have h : ∀ n, s.Quiet { s with pipeline, appends := n } := fun n => ⟨rfl, .refl _⟩
  cases turn with
  | again => exact (h _).calm
  | ended => exact ((aside_wake _ _).quiet.after (h _)).rest
  | waiting due =>
    cases due with
    | none => exact (h _).rest
    | some due => exact (h _).restUntil _ _ _

end Moves

/-! ## Offers -/

section Offers

variable (s : System) (x : Sender) (e : Event)

/-- An offer has its sender wait if there is no result yet. -/
theorem offer_shift (limit : Nat) :
    s.standing.Shift x false (s.offer x e limit).1.isNone (s.offer x e limit).2.standing
      ∧ s.agenda.Stirs (s.offer x e limit).2.agenda := by
  unfold offer
  split
  · have h := quiet_enqueue s e x
    refine ⟨?_, h.stirs⟩
    rw [h.standing]
    exact .none
  · exact ⟨.await, .setAlarm _ _ _ _⟩

/-- **An offer that has ended**: its sender waits no longer. -/
theorem offerAgain_some {deadline : Nat} {result : Except Failure Unit} {s' : System}
    (hd : (s.queue.waiting ++ s.queue.granted).Nodup)
    (hn : s.queue.closed = true → s.queue.granted = [])
    (h : s.offerAgain x e deadline = (some result, s')) :
    s.standing.Shift x true false s'.standing ∧ s.agenda.Stirs s'.agenda := by
  have haway : ∀ l : List Sender, x ∉ l.filter (· ≠ x) := by simp
  have hwithdraw : x ∉ s.queue.granted →
      s.standing.Shift x true false (s.withdraw x).standing := by
    intro hg
    refine .done _ _ List.filter_sublist (.refl _) ?_
    rw [List.mem_append]
    exact fun hm => hm.elim (haway _) hg
  unfold offerAgain at h
  split at h
  · next hc =>
    -- in a closed queue nobody has been handed a slot
    cases h
    refine ⟨hwithdraw ?_, .cancel _ _ _⟩
    rw [hn hc]
    exact List.not_mem_nil
  · split at h
    · next hg =>
      -- the slot is used, and nobody who has one waits for another
      cases h
      have hq := quiet_accepted
        { s with queue := s.queue.use x e, agenda := s.agenda.cancel x.actor x.slot } x e
      refine ⟨?_, .trans (.cancel _ _ _) hq.stirs⟩
      rw [hq.standing]
      refine .done _ _ (.refl _) List.filter_sublist ?_
      rw [List.mem_append]
      exact fun hm => hm.elim (fun hw => (List.nodup_append.1 hd).2.2 x hw x hg rfl) (haway _)
    · next hg =>
      split at h
      · cases h
        exact ⟨hwithdraw hg, .cancel _ _ _⟩
      · cases h

theorem offerAgain_none {deadline : Nat} {s' : System}
    (h : s.offerAgain x e deadline = (none, s')) : s' = s ∧ x ∉ s.queue.granted := by
  unfold offerAgain at h
  split at h
  · cases h
  · split at h
    · cases h
    · next hg =>
      split at h
      · cases h
      · cases h
        exact ⟨rfl, hg⟩

/-- **A move of a visit** is at most one offer. -/
theorem VisitMove.shift {o : Outside} {schedule : Config.Schedule} {p p' : Poller.Phase}
    {s' : System} (hd : (s.queue.waiting ++ s.queue.granted).Nodup)
    (hn : s.queue.closed = true → s.queue.granted = [])
    (h : VisitMove o s x schedule p p' s') :
    s.standing.Shift x p.isOffering p'.isOffering s'.standing ∧ s.agenda.Stirs s'.agenda := by
  -- a visit that neither has nor gets an event waiting leaves the queue alone
  have hquiet : s.Quiet s' → p.isOffering = false → p'.isOffering = false →
      s.standing.Shift x p.isOffering p'.isOffering s'.standing
        ∧ s.agenda.Stirs s'.agenda := by
    intro hq hp hp'
    rw [hp, hp', hq.standing]
    exact ⟨.none, hq.stirs⟩
  cases h with
  | ask => exact hquiet (quiet_beginFetch o s x _) rfl rfl
  | hear due answer isDue =>
    exact hquiet (quiet_endFetch s x _ _) rfl (isOffering_receive _ _ _)
  | succeed roster t => exact hquiet (.refl s) rfl rfl
  | skip roster t member change left mute => exact ⟨.none, .refl _⟩
  | offer roster t member change left event result s' made ended =>
    have hoffer := offer_shift (s.countTelling change) x event s.settings.fetchTimeout
    rw [ended] at hoffer
    have hq := quiet_told s' result
    refine ⟨?_, hoffer.2.trans hq.stirs⟩
    rw [hq.standing]
    exact hoffer.1
  | wait roster t member change left event s' made waits =>
    have hoffer := offer_shift (s.countTelling change) x event s.settings.fetchTimeout
    rw [waits] at hoffer
    exact hoffer
  | offered event deadline roster t left result s' ended =>
    obtain ⟨hshift, hstirs⟩ := offerAgain_some s x event hd hn ended
    have hq := quiet_told s' result
    refine ⟨?_, hstirs.trans hq.stirs⟩
    rw [hq.standing]
    exact hshift

theorem moveVisit_none {o : Outside} {v : Poller.Visit} (h : s.moveVisit o x v = none)
    (hv : v.phase.isOffering = true) : x ∉ s.queue.granted := by
  unfold moveVisit at h
  split at h
  · cases h
  · next hp => rw [hp] at hv; cases hv
  · cases h
  · cases h
  · split at h
    · cases h
    · next hs => exact (offerAgain_none s x _ hs).2
  · next hp => rw [hp] at hv; cases hv
  · next hp => rw [hp] at hv; cases hv

end Offers

/-! ## Moves -/

section Attended

variable {o : Outside} {s s' : System} {a owner : Actor} {c : Poller.Cycle}

theorem attended_quiet (h : Attended s.standing s.agenda) (hq : s.Quiet s') :
    Attended s'.standing s'.agenda := by
  rw [hq.standing]
  exact h.stir hq.stirs

/-- Those who offer events do not notice the moves of the others. -/
theorem attended_calm (h : Attended s.standing s.agenda) (hrun : s.agenda.running = some a)
    (ha : a.offers = false) (hc : s.Calm s') : Attended s'.standing s'.agenda := by
  obtain ⟨hst, g, hg, he⟩ := hc
  rw [hst]
  rcases he with he | he
  · rw [he]
    exact h.stir hg
  · rw [he]
    -- this actor offers no events and has no cycle, so nobody counts on it
    refine (h.stir hg).rest_of_free (hg.running.trans hrun) ?_ ?_
    · rintro x _ hx rfl
      rw [hx.offers] at ha
      cases ha
    · refine Option.eq_none_iff_forall_ne_some.2 fun c hc => ?_
      rw [Standing.offers_of_cycleOf hc] at ha
      cases ha

theorem attended_takeEvent {e : Event} (h : Attended s.standing s.agenda)
    (he : s.takeEvent = some (e, s')) : Attended s'.standing s'.agenda := by
  obtain ⟨queue, x, ht, rfl⟩ := takeEvent_eq_some he
  obtain ⟨-, ⟨rfl, -, hq⟩ | ⟨y, waiting, rfl, hw, hq⟩⟩ := Queue.take?_eq_some ht
  · rw [hq]
    exact h
  · rw [hq]
    exact h.grant hw

theorem attended_closeQueue (h : Attended s.standing s.agenda) :
    Attended s.closeQueue.standing s.closeQueue.agenda :=
  h.close.stir (.wakeAll _ _)

theorem attended_moveWorker (h : Attended s.standing s.agenda)
    (hrun : s.agenda.running = some .worker) :
    Attended s.moveWorker.standing s.moveWorker.agenda := by
  have hcalm : ∀ {s'}, s.Calm s' → Attended s'.standing s'.agenda :=
    attended_calm h hrun rfl
  unfold moveWorker
  split
  · exact hcalm (Quiet.refl s).rest
  · split
    · exact attended_closeQueue h
    · split
      · next he =>
        have ht := attended_takeEvent h he
        exact ht
      · split
        · exact attended_closeQueue h
        · exact hcalm (Quiet.refl s).rest
  · split
    · refine hcalm (Quiet.calm ?_)
      exact (quiet_launch _ _).after ⟨rfl, .refl _⟩
    · exact hcalm (Quiet.refl s).rest
  · split
    · next he =>
      have ht := attended_takeEvent h he
      exact ht
    · exact h
  · split
    · refine hcalm (Quiet.rest ?_)
      exact (aside_wake _ _).quiet.after ⟨rfl, .refl _⟩
    · exact hcalm (Quiet.refl s).rest
  · exact hcalm (Quiet.refl s).rest

/-- **A move of a cycle**: it goes on, or has asked all its visits; then it is
over, or waits until somebody wakes its actor. -/
theorem attended_moveCycle {t : Audit.Turn} {c' : Poller.Cycle}
    (h : Attended s.standing s.agenda)
    (hn : s.queue.closed = true → s.queue.granted = [])
    (hrun : s.agenda.running = some owner) (hc : s.standing.cycleOf owner = some c)
    (hm : s.moveCycle o owner c = (t, c', s')) :
    match t with
    | .again =>
      (∃ waiting granted, s'.standing = { s.standing with waiting, granted })
        ∧ Attended (s'.standing.withCycle c' owner) s'.agenda
    | .ended => c' = c ∧ s' = s ∧ c.visits.all Poller.Visit.isOver = true
    | .waiting _ =>
      s' = s ∧ Attended (s.standing.withCycle c' owner) s.agenda.rest := by
  unfold moveCycle at hm
  split at hm
  · next v hv =>
    split at hm
    · next phase s₁ he =>
      cases hm
      obtain ⟨hs, hg⟩ := VisitMove.shift s _ h.nodup hn (visitMove_of_moveVisit he)
      exact ⟨hs.eq, h.visit hc hrun hv hs hg⟩
    · next he =>
      -- a visit that has to wait has been handed no slot
      cases hm
      refine ⟨⟨_, _, rfl⟩, h.skip hc hrun fun hg => ?_⟩
      refine moveVisit_none s _ he ?_ hg
      have ho := h.offering _ (List.mem_append_right _ hg)
      cases ho with
      | visit cycle turn ho =>
        cases hc.symm.trans cycle
        cases hv.symm.trans turn
        exact ho
  · next hv =>
    split at hm
    · next hall =>
      cases hm
      exact ⟨rfl, rfl, hall⟩
    · cases hm
      exact ⟨rfl, h.wrap hc hrun hv⟩

/-- When all visits are over, none of them has an event waiting for room. -/
theorem ne_owner_of_isOver (hc : s.standing.cycleOf owner = some c)
    (hall : c.visits.all Poller.Visit.isOver = true) (x : Sender) (hx : s.standing.Offering x) :
    x.actor ≠ owner := by
  rintro rfl
  cases hx with
  | client hx =>
    rw [Client.cycle?_eq_some.1 hc] at hx
    cases hx
  | producer _ => cases hc
  | visit cycle turn ho =>
    cases hc.symm.trans cycle
    have hover := List.all_eq_true.1 hall _ (List.mem_of_getElem? turn)
    unfold Poller.Visit.isOver at hover
    unfold Poller.Phase.isOffering at ho
    split at ho
    · next hp => rw [hp] at hover; cases hover
    · cases ho

theorem attended_moveLoop (h : Attended s.standing s.agenda)
    (hn : s.queue.closed = true → s.queue.granted = [])
    (hrun : s.agenda.running = some .poller) :
    Attended (s.moveLoop o).standing (s.moveLoop o).agenda := by
  unfold moveLoop
  split
  · next hl =>
    -- there is no loop
    have hc : s.loop.cycle? = none := by rw [hl]; rfl
    exact h.rest_of_free hrun (fun x _ hx => hx.ne_poller hc) hc
  · next due hl =>
    -- the loop waits for its next cycle
    have hc : s.loop.cycle? = none := by rw [hl]; rfl
    have hf : ∀ x, s.standing.Offering x → x.actor ≠ .poller := fun x hx => hx.ne_poller hc
    split
    · next hp =>
      have hg := Agenda.Stirs.trans (.cancel s.agenda .poller 0) (.wake _ .client)
      exact h.setLoop hf (fun b _ => hg.woken b) (.inr (.inr hrun)) (fun _ _ hd => nomatch hd)
        fun _ => .inl rfl
    · next hp =>
      split
      · refine h.setLoop hf (fun b _ hw => hw) (.inl rfl) (fun _ _ _ => hrun) fun hp' => ?_
        have hp' : s.polling = false := hp'
        rw [hp'] at hp
        exact absurd rfl hp
      · exact (h.stir (.setAlarm _ due .poller 0)).rest_of_free
          ((Agenda.Stirs.setAlarm _ _ _ _).running.trans hrun) (fun x _ => hf x) hc
  · next next c hl =>
    -- the loop has a cycle under way
    have hc : s.standing.cycleOf .poller = some c := Loop.cycle?_eq_some.2 ⟨next, hl⟩
    split
    · next c' s' hm =>
      obtain ⟨⟨waiting, granted, he⟩, h'⟩ := attended_moveCycle h hn hrun hc hm
      have hl' : s'.loop = .cycling next c :=
        (congrArg Standing.loop he).trans hl
      have hq : ({ s' with loop := .cycling next c' } : System).standing
          = s'.standing.withCycle c' .poller := by
        simp only [standing, Standing.withCycle, hl']
      rw [hq]
      exact h'
    · next c' s' hm =>
      obtain ⟨-, rfl, hall⟩ := attended_moveCycle h hn hrun hc hm
      refine h.setLoop (ne_owner_of_isOver hc hall) (fun b _ hw => hw) (.inl rfl)
        (fun _ _ hd => nomatch hd) fun hp => ?_
      refine .inr ((h.stopped hp).resolve_left fun ha => ?_)
      cases hl.symm.trans ha
    · next c' s' hm =>
      obtain ⟨rfl, h'⟩ := attended_moveCycle h hn hrun hc hm
      have hq : ({ s' with loop := .cycling next c' } : System).standing
          = s'.standing.withCycle c' .poller := by
        simp only [standing, Standing.withCycle, hl]
      rw [show ({ s' with loop := .cycling next c' } : System).rest.standing
        = ({ s' with loop := .cycling next c' } : System).standing from rfl, hq]
      exact h'

/-- The client gets its answer when it has no event waiting for room. -/
theorem attended_reply (h : Attended s.standing s.agenda)
    (hrun : s.agenda.running = some .client)
    (hf : ∀ x, s.standing.Offering x → x.actor ≠ .client) (answer : Answer)
    (hst : s.polling = false → s.loop = .absent) :
    Attended (s.reply answer).standing (s.reply answer).agenda :=
  h.setClient hf (fun _ _ hw => hw) (.inr (.inr hrun)) (fun _ hd => nomatch hd)
    fun hp => .inl (hst hp)

/-- **The client's own offer has ended**, and it gets its answer. -/
theorem attended_offered {e : Event} {deadline : Nat} {result : Except Failure Unit}
    (h : Attended s.standing s.agenda) (hn : s.queue.closed = true → s.queue.granted = [])
    (hrun : s.agenda.running = some .client) (hc : s.client = .offering e deadline)
    (hs : s.offerAgain { actor := .client } e deadline = (some result, s')) (answer : Answer) :
    Attended (s'.reply answer).standing (s'.reply answer).agenda := by
  obtain ⟨hshift, hg⟩ := offerAgain_some s _ e h.nodup hn hs
  obtain ⟨waiting, granted, he⟩ := hshift.eq
  have hq : (s'.reply answer).standing
      = { s'.standing with client := .idle answer } := rfl
  -- a client that waits by itself has no cycle, and so no other wait
  have hne : ∀ y : Sender, y ≠ { actor := .client } → s.standing.Offering y →
      y.actor ≠ .client := by
    intro y hy ho
    cases ho with
    | client _ => exact absurd rfl hy
    | producer _ => exact nofun
    | visit cycle _ _ =>
      rintro rfl
      rw [Standing.cycleOf, show s.standing.client = s.client from rfl, hc] at cycle
      cases cycle
  rw [hq, he]
  rw [he] at hshift
  refine h.shift hshift (fun hb => by cases hb) rfl rfl ?_ (fun hb => by cases hb) ?_ ?_
    h.numbered ?_
  · intro y hy ho
    exact ((Standing.offering_queue ..).2 ho).setClient (hne y hy ho) _ _
  · intro y hy ho hu
    refine .inl (hg.woken _ (hu.resolve_right fun hd => ?_))
    exact hne y hy ho (Option.some.inj (hd.1.symm.trans hrun))
  · intro a c ha _
    by_cases hac : a = .client
    · subst hac
      cases ha
    · rw [Standing.cycleOf_client_of_ne _ _ hac, Standing.cycleOf_queue] at ha
      exact h.reset a c ha fun hr => hac (Option.some.inj (hr.symm.trans hrun))
  · intro hp
    refine .inl ((h.stopped hp).resolve_right fun ha => ?_)
    cases hc.symm.trans ha

theorem attended_moveClient (h : Attended s.standing s.agenda)
    (hn : s.queue.closed = true → s.queue.granted = [])
    (hrun : s.agenda.running = some .client) :
    Attended (s.moveClient o).standing (s.moveClient o).agenda := by
  -- a client without a cycle and an event of its own may rest, or get its answer
  have hfree : s.client.cycle? = none → (∀ e d, s.client ≠ .offering e d) →
      ∀ x, s.standing.Offering x → x.actor ≠ .client :=
    fun hc ho x hx => hx.ne_client hc ho
  have hrest : s.client.cycle? = none → (∀ e d, s.client ≠ .offering e d) →
      Attended s.rest.standing s.rest.agenda :=
    fun hc ho => h.rest_of_free hrun (fun x _ => hfree hc ho x) hc
  have hreply : s.client.cycle? = none → (∀ e d, s.client ≠ .offering e d) →
      (s.client = .awaitingLoop → s.loop = .absent) → ∀ answer,
      Attended (s.reply answer).standing (s.reply answer).agenda :=
    fun hc ho hl answer => attended_reply h hrun (hfree hc ho) answer fun hp =>
      (h.stopped hp).elim id hl
  unfold moveClient
  split
  · next hc => exact hrest (by rw [hc]; rfl) (by simp [hc])
  · next due hc =>
    split
    · exact hreply (by rw [hc]; rfl) (by simp [hc]) (by simp [hc]) _
    · exact (h.stir (.setAlarm _ due .client 0)).rest_of_free
        ((Agenda.Stirs.setAlarm _ _ _ _).running.trans hrun)
        (fun x _ => hfree (by rw [hc]; rfl) (by simp [hc]) x)
        (show s.client.cycle? = none by rw [hc]; rfl)
  · next e deadline hc =>
    split
    · next hs => exact attended_offered h hn hrun hc hs _
    · next s' hs =>
      -- the client goes on waiting, since it has been handed no slot
      obtain ⟨rfl, hg⟩ := offerAgain_none s _ e hs
      have hcyc : s'.standing.cycleOf .client = none :=
        show s'.client.cycle? = none by rw [hc]; rfl
      refine h.rest_of_free hrun (fun x hx ho => ?_) hcyc
      cases ho with
      | client _ => exact absurd hx hg
      | producer _ => exact nofun
      | visit cycle _ _ =>
        rintro rfl
        cases hcyc.symm.trans cycle
  · next c hc =>
    have hcyc : s.standing.cycleOf .client = some c := Client.cycle?_eq_some.2 hc
    split
    · next c' s' hm =>
      obtain ⟨-, h'⟩ := attended_moveCycle h hn hrun hcyc hm
      exact h'
    · next c' s' hm =>
      obtain ⟨-, rfl, hall⟩ := attended_moveCycle h hn hrun hcyc hm
      have h' : Attended (s'.endCycle c').standing (s'.endCycle c').agenda := h
      refine attended_reply h' hrun (ne_owner_of_isOver hcyc hall) _ fun hp => ?_
      refine (h.stopped hp).resolve_right fun ha => ?_
      cases hc.symm.trans ha
    · next c' s' hm =>
      obtain ⟨rfl, h'⟩ := attended_moveCycle h hn hrun hcyc hm
      exact h'
  · next hc =>
    split
    · next hl => exact hreply (by rw [hc]; rfl) (by simp [hc]) (fun _ => hl) _
    · exact hrest (by rw [hc]; rfl) (by simp [hc])
  · next hc =>
    split
    · have h' : Attended ({ s with client := .awaitingWriter } : System).standing s.agenda :=
        h.setClient (hfree (by rw [hc]; rfl) (by simp [hc])) (fun _ _ hw => hw) (.inl rfl)
          (fun _ hd => nomatch hd) fun hp => .inl ((h.stopped hp).resolve_right fun ha => by
            cases hc.symm.trans ha)
      exact attended_quiet h' ((aside_signalWriter _).after (aside_startWriter _)).quiet
    · exact hrest (by rw [hc]; rfl) (by simp [hc])
  · next hc =>
    split
    · exact hreply (by rw [hc]; rfl) (by simp [hc]) (by simp [hc]) _
    · exact hrest (by rw [hc]; rfl) (by simp [hc])

theorem attended_moveProducer (h : Attended s.standing s.agenda)
    (hn : s.queue.closed = true → s.queue.granted = []) {n : Nat}
    (hrun : s.agenda.running = some (.producer n)) :
    Attended (s.moveProducer n).standing (s.moveProducer n).agenda := by
  unfold moveProducer
  split
  · next hr =>
    refine h.rest_of_free hrun (fun x _ hx ha => ?_) rfl
    obtain ⟨-, r, hm, rfl⟩ := hx.eq_of_producer ha
    exact absurd (List.find?_eq_none.1 hr r hm) (by simp)
  · next r hr =>
    split
    · next result s' hs =>
      obtain ⟨hshift, hg⟩ := offerAgain_some s _ _ h.nodup hn hs
      obtain ⟨waiting, granted, he⟩ := hshift.eq
      have hp : s'.producers = s.producers := congrArg Standing.producers he
      refine h.shift hshift (fun hb => by cases hb) rfl rfl ?_ (fun hb => by cases hb) ?_ ?_ ?_ ?_
      · intro y hy ho
        rw [← Standing.offering_queue s.standing y waiting granted, ← he] at ho
        refine ho.setProducers s'.hired fun r hr hyr => List.mem_filter.2 ⟨hr, ?_⟩
        rw [decide_eq_true_iff]
        rintro rfl
        exact hy hyr
      · intro y hy ho hu
        refine .inl (hg.woken _ (hu.resolve_right fun hd => ?_))
        have ha : y.actor = .producer n := Option.some.inj (hd.1.symm.trans hrun)
        exact hy (ho.eq_of_producer ha).1
      · intro a c ha _
        have hc : s.standing.cycleOf a = some c := by
          rw [← s.standing.cycleOf_queue waiting granted a, ← he]
          exact (Standing.cycleOf_producers ..).symm.trans ha
        refine h.reset a c hc fun hr => ?_
        cases hr.symm.trans hrun
        cases hc
      · intro r hr
        have hm : r ∈ s.producers := hp ▸ List.mem_of_mem_filter hr
        exact Nat.lt_of_lt_of_eq (h.numbered r hm) (congrArg Standing.hired he).symm
      · intro hpl
        rcases h.stopped ((congrArg Standing.polling he).symm.trans hpl) with hl | hc
        · exact .inl ((congrArg Standing.loop he).trans hl)
        · exact .inr ((congrArg Standing.client he).trans hc)
    · next s' hs =>
      obtain ⟨rfl, hg⟩ := offerAgain_none s _ _ hs
      refine h.rest_of_free hrun (fun x hx ho ha => hg ?_) rfl
      rwa [← (ho.eq_of_producer ha).1]

/-! ## Requests -/

theorem isAnswered_iff : s.isAnswered = true ↔ ∃ answer, s.client = .idle answer := by
  unfold isAnswered
  split
  · next h => simp [h]
  · next h => simpa using h

theorem Quiet.isAnswered (hq : s.Quiet s') (h : s.isAnswered = true) :
    s'.isAnswered = true := by
  obtain ⟨answer, hc⟩ := isAnswered_iff.1 h
  exact isAnswered_iff.2 ⟨answer, (congrArg Standing.client hq.standing).trans hc⟩

/-- A client that has its answer offers nothing, and waits for no loop. -/
theorem free_of_isAnswered (h : Attended s.standing s.agenda) (hidle : s.isAnswered = true) :
    (∀ x, s.standing.Offering x → x.actor ≠ .client)
      ∧ (s.polling = false → s.loop = .absent) := by
  obtain ⟨answer, hc⟩ := isAnswered_iff.1 hidle
  have hc : s.standing.client = .idle answer := hc
  refine ⟨fun x hx => hx.ne_client (by rw [hc]; rfl) (by simp [hc]), fun hp => ?_⟩
  refine (h.stopped hp).resolve_right fun ha => ?_
  rw [hc] at ha
  cases ha

theorem attended_answer (h : Attended s.standing s.agenda) (hidle : s.isAnswered = true)
    (answer : Answer) : Attended (s.answer answer).standing (s.answer answer).agenda := by
  obtain ⟨hf, hst⟩ := free_of_isAnswered h hidle
  exact h.setClient hf (fun _ _ hw => hw) (.inl rfl) (fun _ hd => nomatch hd)
    fun hp => .inl (hst hp)

/-- The others stay woken when the client starts running. -/
theorem isWoken_await {b : Actor} (c : Client) (hb : b ≠ .client) (hw : s.agenda.IsWoken b) :
    (s.await c).agenda.IsWoken b := by
  unfold Agenda.IsWoken at *
  rw [if_neg hb] at *
  exact hw

theorem attended_await (h : Attended s.standing s.agenda) (hidle : s.isAnswered = true)
    (hrun : s.agenda.running = none) (c : Client) :
    Attended (s.await c).standing (s.await c).agenda := by
  obtain ⟨hf, hst⟩ := free_of_isAnswered h hidle
  exact h.setClient hf (fun _ hb hw => isWoken_await c hb hw) (.inr (.inl hrun))
    (fun _ _ => rfl) fun hp => .inl (hst hp)

theorem offer_some {x : Sender} {e : Event} {limit : Nat} {result : Except Failure Unit}
    (h : s.offer x e limit = (some result, s')) : s.Quiet s' := by
  have hs := offer_shift s x e limit
  rw [h] at hs
  refine ⟨?_, hs.2⟩
  generalize s'.standing = q at hs
  cases hs.1
  rfl

theorem offer_none {x : Sender} {e : Event} {limit : Nat}
    (h : s.offer x e limit = (none, s')) :
    s.standing.Shift x false true s'.standing ∧ s.agenda.Stirs s'.agenda := by
  have hs := offer_shift s x e limit
  rw [h] at hs
  exact hs

/-- The client begins to wait for room. -/
theorem attended_offering {e : Event} {limit deadline : Nat}
    (h : Attended s.standing s.agenda) (hidle : s.isAnswered = true)
    (hrun : s.agenda.running = none)
    (hs : s.offer { actor := .client } e limit = (none, s')) :
    Attended (s'.await (.offering e deadline)).standing
      (s'.await (.offering e deadline)).agenda := by
  obtain ⟨hf, hst⟩ := free_of_isAnswered h hidle
  obtain ⟨hshift, hg⟩ := offer_none hs
  obtain ⟨waiting, granted, he⟩ := hshift.eq
  have hq : (s'.await (.offering e deadline)).standing
      = { s'.standing with client := .offering e deadline } := rfl
  rw [hq, he]
  rw [he] at hshift
  refine h.shift hshift (fun _ ho => hf _ ho rfl) rfl rfl ?_ (fun _ => .client rfl) ?_ ?_
    h.numbered fun hp => .inl (hst hp)
  · intro y _ ho
    exact ((Standing.offering_queue ..).2 ho).setClient (hf y ho) _ _
  · intro y _ ho hu
    refine .inl (isWoken_await _ (hf y ho) (hg.woken _ (hu.resolve_right fun hd => ?_)))
    cases hrun.symm.trans hd.1
  · intro a c ha hr
    have hac : a ≠ .client := by
      rintro rfl
      exact hr rfl
    rw [Standing.cycleOf_client_of_ne _ _ hac, Standing.cycleOf_queue] at ha
    exact h.reset a c ha fun hr => by cases hrun.symm.trans hr

/-- Somebody else begins to offer an event. -/
theorem attended_offerAside (h : Attended s.standing s.agenda) (hidle : s.isAnswered = true)
    (e : Event) (limit : Nat) :
    Attended (s.offerAside e limit).standing (s.offerAside e limit).agenda
      ∧ (s.offerAside e limit).isAnswered = true := by
  have h' : Attended ({ s with hired := s.hired + 1 } : System).standing s.agenda := h.hire
  unfold offerAside
  split
  · next result s' hs =>
    have hq := offer_some hs
    exact ⟨attended_quiet h' hq, hq.isAnswered hidle⟩
  · next s' hs =>
    -- a new producer waits from now on
    obtain ⟨hshift, hg⟩ := offer_none hs
    obtain ⟨waiting, granted, he⟩ := hshift.eq
    refine ⟨?_, ?_⟩
    · refine h'.shift hshift (fun _ ho => ?_) rfl rfl ?_ (fun _ => ?_) ?_ ?_ ?_ ?_
      · -- nobody has the number of the new producer yet
        obtain ⟨-, r, hr, hn⟩ := ho.eq_of_producer rfl
        exact absurd hn (Nat.ne_of_lt (h.numbered r hr))
      · intro y _ ho
        rw [← Standing.offering_queue _ y waiting granted, ← he] at ho
        exact ho.setProducers s'.hired fun r hr _ => List.mem_append_left _ hr
      · exact .producer (r := { number := s.hired, event := e, deadline := s.now + limit })
          (List.mem_append_right _ List.mem_cons_self)
      · intro y _ _ hu
        refine hu.imp (hg.woken _) fun ⟨hr, hd⟩ => ⟨hg.running.trans hr, fun c hc => hd c ?_⟩
        rw [← Standing.cycleOf_queue _ waiting granted, ← he]
        exact (Standing.cycleOf_producers ..).symm.trans hc
      · intro a c ha hr
        refine h'.reset a c ?_ fun hra => hr (hg.running.trans hra)
        rw [← Standing.cycleOf_queue _ waiting granted, ← he]
        exact (Standing.cycleOf_producers ..).symm.trans ha
      · intro r hr
        have hh : s'.hired = s.hired + 1 := congrArg Standing.hired he
        have hp : s'.producers = s.producers := congrArg Standing.producers he
        show r.number < s'.hired
        rw [hh]
        rcases List.mem_append.1 hr with hr | hr
        · rw [hp] at hr
          exact Nat.lt_succ_of_lt (h.numbered r hr)
        · rw [List.mem_singleton] at hr
          subst hr
          exact Nat.lt_succ_self _
      · intro hp
        have hst := (free_of_isAnswered h hidle).2
          ((congrArg Standing.polling he).symm.trans hp)
        exact .inl ((congrArg Standing.loop he).trans hst)
    · obtain ⟨answer, hc⟩ := isAnswered_iff.1 hidle
      exact isAnswered_iff.2 ⟨answer, (congrArg Standing.client he).trans hc⟩

theorem attended_startPolling (h : Attended s.standing s.agenda) (hidle : s.isAnswered = true)
    (schedules : List Config.Schedule) :
    Attended (s.startPolling schedules).standing (s.startPolling schedules).agenda
      ∧ (s.startPolling schedules).isAnswered = true := by
  obtain ⟨-, hst⟩ := free_of_isAnswered h hidle
  unfold startPolling
  split
  · exact ⟨h, hidle⟩
  · next hp =>
    refine ⟨?_, hidle⟩
    have hl : s.standing.loop = .absent := hst (by simpa using hp)
    exact h.setLoop (fun x hx => hx.ne_poller (by rw [hl]; rfl))
      (fun b _ hw => (Agenda.Stirs.wake _ _).woken b hw) (.inl (Agenda.running_wake _ _))
      (fun _ _ hd => nomatch hd) fun hp => nomatch hp

/-- The client waits for the loop that it has told to stop. -/
theorem attended_signalLoop (h : Attended s.standing s.agenda) (hidle : s.isAnswered = true)
    (hrun : s.agenda.running = none) :
    Attended (s.signalLoop.await .awaitingLoop).standing
      (s.signalLoop.await .awaitingLoop).agenda := by
  obtain ⟨hf, -⟩ := free_of_isAnswered h hidle
  have hq : s.signalLoop.standing = { s.standing with polling := false }
      ∧ s.agenda.Stirs s.signalLoop.agenda := by
    unfold signalLoop
    dsimp only
    split
    · exact ⟨rfl, .wake s.agenda .poller⟩
    · exact ⟨rfl, .refl _⟩
  rw [show (s.signalLoop.await .awaitingLoop).standing
    = { s.signalLoop.standing with client := .awaitingLoop } from rfl, hq.1]
  exact h.setClient hf (fun b hb hw => isWoken_await _ hb (hq.2.woken b hw)) (.inr (.inl hrun))
    (fun _ hd => nomatch hd) fun _ => .inr rfl

theorem attended_request (h : Attended s.standing s.agenda) (hidle : s.isAnswered = true)
    (r : Request) (hfree : s.agenda.running = none ∨ r.isPrompt = true)
    (plain : r.isRecord = false) :
    Attended (s.request r).standing (s.request r).agenda := by
  -- most requests are quiet, and then the client has its answer or waits for it
  have hanswer : ∀ {s'}, s.Quiet s' → ∀ answer,
      Attended (s'.answer answer).standing (s'.answer answer).agenda :=
    fun hq answer => attended_answer (attended_quiet h hq) (hq.isAnswered hidle) answer
  have hawait : ∀ {s'}, s.Quiet s' → r.isPrompt = false → ∀ c,
      Attended (s'.await c).standing (s'.await c).agenda :=
    fun hq hr c => attended_await (attended_quiet h hq) (hq.isAnswered hidle)
      (hq.stirs.running.trans (hfree.resolve_right (by simp [hr]))) c
  cases r with
  | sleep ms => exact hawait (.refl s) rfl _
  | enqueue event => exact hanswer (quiet_enqueue s event _) _
  | enqueueWithin event limit =>
    rw [request]
    split
    · next hs => exact hanswer (offer_some hs) _
    · next hs =>
      exact attended_offering h hidle (hfree.resolve_right (fun hr => by cases hr)) hs
  | offerAside event limit =>
    obtain ⟨h', hidle'⟩ := attended_offerAside h hidle event limit
    exact attended_answer h' hidle' _
  | record r times => cases plain
  | start => exact hanswer ((aside_startWriter _).quiet.after (quiet_startWorker s)) _
  | startWriter => exact hanswer (aside_startWriter s).quiet _
  | dropWriter => exact hanswer (aside_dropWriter s).quiet _
  | signal => exact hanswer (aside_signalWorker s).quiet _
  | leave => exact hanswer (aside_endEvents s).quiet _
  | shutdown =>
    have haside := (aside_signalWorker _).after (aside_startWriter s.startWorker)
    exact hawait (haside.quiet.after (quiet_startWorker s)) rfl _
  | shutdownWriter =>
    exact hawait ((aside_signalWriter _).after (aside_startWriter s)).quiet rfl _
  | finish => exact hawait ((aside_endEvents _).quiet.after (quiet_startWorker s)) rfl _
  | finishRecords =>
    exact hawait ((aside_endRecords _).after (aside_startWriter s)).quiet rfl _
  | poll schedules =>
    have hq : s.Quiet (s.beginCycle schedules).2 := ⟨rfl, .refl _⟩
    exact hawait hq rfl _
  | startPolling schedules =>
    obtain ⟨h', hidle'⟩ := attended_startPolling h hidle schedules
    exact attended_answer h' hidle' _
  | stopPolling =>
    rw [request]
    split
    · exact attended_signalLoop h hidle (hfree.resolve_right (fun hr => by cases hr))
    · exact hanswer (.refl s) _

/-! ## Every advance -/

theorem attended_move (h : Attended s.standing s.agenda)
    (hn : s.queue.closed = true → s.queue.granted = []) (hrun : s.agenda.running = some a) :
    Attended (s.move o a).standing (s.move o a).agenda := by
  cases a with
  | client => exact attended_moveClient h hn hrun
  | poller => exact attended_moveLoop h hn hrun
  | worker => exact attended_moveWorker h hrun
  | writer => exact attended_calm h hrun rfl (calm_moveWriter o s)
  | delivery n => exact attended_calm h hrun rfl (calm_moveFlight o s n)
  | producer n => exact attended_moveProducer h hn hrun

/-- Whoever starts running leaves the others woken. -/
theorem isWoken_turn {g : Agenda} {b : Actor} (hb : b ≠ a) (hw : g.IsWoken b) :
    ({ g with running := some a, ready := g.ready.erase a } : Agenda).IsWoken b := by
  unfold Agenda.IsWoken at *
  split
  · next hc => rwa [if_pos hc] at hw
  · next hc =>
    rw [if_neg hc] at hw
    exact (List.mem_erase_of_ne hb).2 hw

/-- **No slot is handed over in vain**, whatever happens next. -/
theorem Advance.attended (hadv : Advance o s s') (h : Attended s.standing s.agenda)
    (hn : s.queue.closed = true → s.queue.granted = []) : Attended s'.standing s'.agenda := by
  cases hadv with
  | move hrun => exact attended_move h hn hrun
  | turn idle ready => exact h.run idle rfl fun b hb hw => isWoken_turn hb hw
  | call idle called =>
    refine h.run idle rfl fun b hb hw => ?_
    unfold Agenda.IsWoken at *
    rwa [if_neg hb] at *
  | pass t => exact h.stir (.pass _ t)
  | request r answered free plain => exact attended_request h answered r free plain
  | elsewhere resolver clock ids => exact h

/-- At first nobody waits. -/
theorem attended_new (settings : Settings) (capacity auditCapacity : Nat) (audited : Bool)
    (grace : Nat) (resolver : Directory.Resolver) :
    let s := new settings capacity auditCapacity audited grace resolver
    Attended s.standing s.agenda where
  nodup := .nil
  offering := fun _ hx => nomatch hx
  used := fun _ hx => nomatch hx
  reset := fun a c hc => by cases a <;> cases hc
  numbered := fun _ hr => nomatch hr
  stopped := fun _ => .inl rfl

/-- **Along every course** the accounts stay sound, and no slot is handed over in
vain. -/
theorem Course.attended (hcourse : Course o s s') (hs : s.ledger.Sound)
    (h : Attended s.standing s.agenda) : Attended s'.standing s'.agenda := by
  induction hcourse with
  | refl => exact h
  | tail hc hadv ih =>
    exact hadv.attended ih fun hclosed => ((Course.sound hc hs).1.shut.nobody hclosed).2

end Attended

end Rota.Relay.System
