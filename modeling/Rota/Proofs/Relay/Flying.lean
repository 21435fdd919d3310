import Rota.Proofs.Poller.Book
import Rota.Proofs.Relay.Acquaintance
import Rota.Proofs.Relay.Staffing

/-!
# Deliveries keep to their time

A delivery asks the directory, makes its call, and ends. It waits for each answer no longer than
a timeout allows, so it ends by a time that is known when it begins (`Progress.EndsBy`).

This holds as long as time does not pass a delivery by: whenever one can go on it is running or
was woken, and the one that waits has its alarm set to exactly the time for which it waits
(`Flight.Escorted`). So time does not pass beyond it while everyone waits.
-/

namespace Rota.Relay

/-- The time for which a delivery waits, if it waits for any. -/
def Progress.due? : Progress → Option Nat
  | fresh => none
  | asking _ _ due _ => some due
  | calling _ due _ => some due

/-- **By when a delivery ends**, if an answer takes no longer than the timeouts of the directory
and of the call. -/
inductive Progress.EndsBy (now lookup call limit : Nat) : Progress → Prop
  | fresh (le : now + (lookup + call) ≤ limit) : EndsBy now lookup call limit .fresh
  | asking {key : Key} {channel : Channel} {due : Nat} {answer : Option (Except Failure Identity)}
      (left : now ≤ due) (le : due + call ≤ limit) :
      EndsBy now lookup call limit (.asking key channel due answer)
  | calling {whom : Addressee} {due : Nat} {answer : Option (Except Failure Unit)}
      (left : now ≤ due) (le : due ≤ limit) :
      EndsBy now lookup call limit (.calling whom due answer)

/-- **How a delivery goes on**: it asks the directory, or makes its call, and waits for the
answer no longer than the timeout allows. -/
inductive Progress.Goes (now lookup call : Nat) : Progress → Progress → Prop
  | ask {key : Key} {channel : Channel} {due : Nat} {answer : Option (Except Failure Identity)}
      (left : now ≤ due) (le : due ≤ now + lookup) :
      Goes now lookup call .fresh (.asking key channel due answer)
  | callAtOnce {whom : Addressee} {due : Nat} {answer : Option (Except Failure Unit)}
      (left : now ≤ due) (le : due ≤ now + call) :
      Goes now lookup call .fresh (.calling whom due answer)
  | callFound {key : Key} {channel : Channel} {since : Nat}
      {found : Option (Except Failure Identity)} {whom : Addressee} {due : Nat}
      {answer : Option (Except Failure Unit)} (heard : since ≤ now)
      (left : now ≤ due) (le : due ≤ now + call) :
      Goes now lookup call (.asking key channel since found) (.calling whom due answer)

namespace Progress

variable {p q : Progress} {now lookup call limit limit' t due : Nat}

theorem EndsBy.mono (h : p.EndsBy now lookup call limit) (hle : limit ≤ limit') :
    p.EndsBy now lookup call limit' := by
  cases h with
  | fresh le => exact .fresh (Nat.le_trans le hle)
  | asking left le => exact .asking left (Nat.le_trans le hle)
  | calling left le => exact .calling left (Nat.le_trans le hle)

/-- Going on puts nothing off. -/
theorem Goes.endsBy (h : p.Goes now lookup call q) (hp : p.EndsBy now lookup call limit) :
    q.EndsBy now lookup call limit := by
  cases h with
  | ask left le =>
    cases hp with
    | fresh hle => exact .asking left (by omega)
  | callAtOnce left le =>
    cases hp with
    | fresh hle => exact .calling left (by omega)
  | callFound heard left le =>
    cases hp with
    | asking _ hle => exact .calling left (by omega)

/-- A delivery goes on when its time has come. -/
theorem Goes.due_le (h : p.Goes now lookup call q) (hd : p.due? = some due) : due ≤ now := by
  cases h with
  | ask _ _ | callAtOnce _ _ => cases hd
  | callFound heard _ _ =>
    cases hd
    exact heard

/-- **A delivery that waits** waits for no later time than that by which it ends. -/
theorem EndsBy.due_le (h : p.EndsBy now lookup call limit) (hd : p.due? = some due) :
    due ≤ limit := by
  cases h with
  | fresh _ => cases hd
  | asking _ le =>
    cases hd
    exact Nat.le_trans (Nat.le_add_right _ _) le
  | calling _ le =>
    cases hd
    exact le

/-- **Time passes** while a delivery waits, and puts nothing off. -/
theorem EndsBy.pass (h : p.EndsBy now lookup call limit) (hd : p.due? = some due) (ht : t ≤ due) :
    p.EndsBy (max now t) lookup call limit := by
  cases h with
  | fresh _ => cases hd
  | asking left le =>
    cases hd
    exact .asking (Nat.max_le.2 ⟨left, ht⟩) le
  | calling left le =>
    cases hd
    exact .calling (Nat.max_le.2 ⟨left, ht⟩) le

end Progress

namespace System

/-! ## The moves of a delivery -/

/-- **What a move of a delivery comes to**: it goes on, has ended, or waits. -/
inductive FlightMove (s : System) (f : Flight) (s' : System) : Prop
  | goOn {p : Progress}
      (goes : f.progress.Goes s.now s.resolver.lookupTimeout s.settings.deliveryTimeout p)
      (flights : s'.flights = (s.setProgress f.number p).flights) (agenda : s'.agenda = s.agenda)
  | land (flights : s'.flights = s.flights.filter (·.number ≠ f.number))
  | wait {due : Nat} (waits : f.progress.due? = some due) (early : s.now < due)
      (rests : s' = s.restUntil due (.delivery f.number))

variable {o : Outside} {s s' : System} {f : Flight} {number lookup call : Nat}
  {limit : Nat → Nat}

theorem flights_land (s : System) (f : Flight) (r : Audit.Record) :
    (s.land f r).flights = s.flights.filter (·.number ≠ f.number) :=
  congrArg Outbound.flights (outbound_land s f r)

theorem flightMove_pursue {t : System} (ht : t.flights = s.flights ∧ t.agenda = s.agenda)
    (hs : t.settings = s.settings) (next : Next)
    (goes : ∀ whom due answer, s.now ≤ due → due ≤ s.now + s.settings.deliveryTimeout →
      f.progress.Goes s.now s.resolver.lookupTimeout s.settings.deliveryTimeout
        (.calling whom due answer)) :
    s.FlightMove f (t.pursue o f next) := by
  have hnow : t.now = s.now := congrArg Agenda.now ht.2
  cases next with
  | ended r =>
    refine .land ?_
    rw [pursue, flights_land, ht.1]
  | calling made whom =>
    have hle := (o.call t.calls.length made).within_le t.settings.deliveryTimeout
    have hgoes := goes whom
      (t.now + ((o.call t.calls.length made).within t.settings.deliveryTimeout).1)
      ((o.call t.calls.length made).within t.settings.deliveryTimeout).2
      (hnow ▸ Nat.le_add_right _ _) (by rw [hnow, ← hs]; exact Nat.add_le_add_left hle _)
    refine .goOn hgoes ?_ ht.2
    simp only [setProgress, ← ht.1]
    rfl

/-- **A delivery does nothing else** when it moves. -/
theorem flightMove (hf : s.flights.find? (·.number = number) = some f) :
    s.FlightMove f (s.moveFlight o number) := by
  have hnumber : f.number = number := by simpa using List.find?_some hf
  subst hnumber
  have h := flightStep (o := o) (s := s) f.number
  generalize s.moveFlight o f.number = t at h ⊢
  cases h with
  | rest absent => cases absent.symm.trans hf
  | begin found fresh known =>
    cases hf.symm.trans found
    exact flightMove_pursue ⟨rfl, rfl⟩ rfl _ fun _ _ _ left le => fresh ▸ .callAtOnce left le
  | @ask _ key _ found fresh _ =>
    cases hf.symm.trans found
    have hle := (o.lookup s.lookups key).within_le s.resolver.lookupTimeout
    exact .goOn (fresh ▸ .ask (Nat.le_add_right _ _) (Nat.add_le_add_left hle _)) rfl rfl
  | @hear _ _ _ _ _ _ resolver found asking isDue _ =>
    cases hf.symm.trans found
    refine flightMove_pursue (s := s) (t := { s with resolver }) ⟨rfl, rfl⟩ rfl _
      fun _ _ _ left le => ?_
    rw [asking]
    exact .callFound isDue left le
  | land found _ _ =>
    cases hf.symm.trans found
    exact .land (flights_land ..)
  | wait found waits early =>
    cases hf.symm.trans found
    refine .wait ?_ early rfl
    rcases waits with ⟨_, _, _, hp⟩ | ⟨_, _, hp⟩ <;> exact hp ▸ rfl

/-- What the worker does with the deliveries: nothing, or one more begins. -/
theorem flights_moveWorker (s : System) : s.moveWorker.flights = s.flights
    ∨ ∃ e draining, s.worker = .holding e draining
      ∧ s.moveWorker = { s with worker := Ledger.between draining }.launch e := by
  have htake : ∀ {e : Event} {t : System} {w : Worker}, s.takeEvent = some (e, t) →
      ({ t with worker := w } : System).flights = s.flights :=
    fun he => (within_takeEvent s he).unheard.flights
  have h := workerMove (s := s)
  generalize s.moveWorker = t at h ⊢
  cases h with
  | take _ _ takes | drain _ takes => exact .inl (htake takes)
  | launch holding _ => exact .inr ⟨_, _, holding, rfl⟩
  | _ => exact .inl rfl

/-- **The deliveries under way** are changed by nobody but themselves and the worker. -/
theorem flights_move {a : Actor} (hworker : a ≠ .worker) (hflight : ∀ n, a ≠ .delivery n) :
    (s.move o a).flights = s.flights := by
  cases a with
  | client => exact (unheard_moveClient o s).flights
  | poller => exact (within_moveLoop s o).unheard.flights
  | worker => exact absurd rfl hworker
  | writer => exact (unheard_moveWriter o s).flights
  | delivery n => exact absurd rfl (hflight n)
  | producer n => exact (within_moveProducer s n).unheard.flights

end System

/-- Deliveries that have begun have begun for good. -/
theorem Ledger.Next.launched_le {l l' : Ledger} (h : l.Next l') : l.launched ≤ l'.launched := by
  cases h with
  | launch _ _ _ _ => exact Nat.le_succ _
  | _ => exact Nat.le_refl _

/-- The deliveries begun are numbered one after the other. -/
theorem Ledger.Next.launched_eq {l l' : Ledger} (h : l.Next l')
    (hl : l.launched = l.begun.length) : l'.launched = l'.begun.length := by
  cases h with
  | launch e _ _ _ => exact congrArg Nat.succ hl
  | _ => exact hl

theorem Ledger.Conserved.nodup_flights {s : System} (h : s.ledger.Conserved) :
    (s.flights.map Flight.number).Nodup := by
  have hn := h.nodup
  rwa [System.flights_ledger, List.map_map] at hn

theorem Ledger.Conserved.number_lt {s : System} (h : s.ledger.Conserved) {f : Flight}
    (hf : f ∈ s.flights) : f.number < s.launched :=
  h.lt_launched _ (List.mem_map_of_mem hf)

/-! ## Deliveries are woken in time -/

/-- **A delivery is looked after**: if it can go on it is running or was woken, and if it waits
for a time its alarm is set. -/
inductive Flight.Escorted (f : Flight) (a : Agenda) : Prop
  | awake (up : a.running = some (.delivery f.number) ∨ a.IsWoken (.delivery f.number))
      (unset : a.alarmsOf (.delivery f.number) = [])
  | waiting {due : Nat} (waits : f.progress.due? = some due) (early : a.now < due)
      (set : a.alarmsOf (.delivery f.number) = [⟨due, .delivery f.number, 0⟩])

namespace Flight.Escorted

variable {f : Flight} {a b : Agenda}

/-- It still is when it is left alone. -/
theorem spared (h : f.Escorted a) (hs : a.Spares (.delivery f.number) b)
    (hrun : a.running = some (.delivery f.number) → b.running = some (.delivery f.number)) :
    f.Escorted b := by
  cases h with
  | awake up unset => exact .awake (up.imp hrun hs.woken) (hs.alarms.trans unset)
  | waiting waits early set => exact .waiting waits (hs.now ▸ early) (hs.alarms.trans set)

/-- **Time passes**, and wakes the delivery whose time has come. -/
theorem pass (h : f.Escorted a) (t : Nat) : f.Escorted (a.pass t) := by
  cases h with
  | awake up unset =>
    refine .awake (up.imp (fun hr => (a.running_pass t).trans hr) ?_) ?_
    · exact (Agenda.Stirs.pass a t).woken _
    · rw [Agenda.alarmsOf_pass, unset]
      rfl
  | @waiting due waits early set =>
    by_cases ht : t < due
    · refine .waiting waits ?_ ?_
      · rw [Agenda.now_pass]
        exact Nat.max_lt.2 ⟨early, ht⟩
      · rw [Agenda.alarmsOf_pass, set]
        simp [ht]
    · refine .awake (.inr ?_) ?_
      · exact Agenda.isWoken_pass (set ▸ List.mem_cons_self) (Nat.not_lt.1 ht)
      · rw [Agenda.alarmsOf_pass, set]
        simp [ht]

/-- When everyone waits, so does the delivery, and its alarm is set. -/
theorem waits_of_isSettled (h : f.Escorted a) (settled : a.isSettled = true) :
    ∃ due, f.progress.due? = some due ∧ a.now < due ∧ ⟨due, .delivery f.number, 0⟩ ∈ a.alarms := by
  cases h with
  | awake up _ =>
    obtain ⟨hrun, hwoken⟩ := Agenda.not_isWoken_of_isSettled settled
    rcases up with hup | hup
    · cases hrun.symm.trans hup
    · exact absurd hup (hwoken _)
  | waiting waits early set =>
    have hmem : ⟨_, .delivery f.number, 0⟩ ∈ a.alarmsOf (.delivery f.number) :=
      set ▸ List.mem_cons_self
    exact ⟨_, waits, early, List.mem_of_mem_filter hmem⟩

end Flight.Escorted

namespace System

/-- **All deliveries are looked after**, and those that have yet to begin have no alarms. -/
structure Escorted (s : System) : Prop where
  flights : ∀ f ∈ s.flights, f.Escorted s.agenda
  unset : ∀ n, s.launched ≤ n → s.agenda.alarmsOf (.delivery n) = []

section Escorted

variable {o : Outside} {s s' : System}

/-- They still are when they are left alone. -/
theorem Escorted.spared (h : s.Escorted) (hflights : s'.flights = s.flights)
    (hlaunched : s.launched ≤ s'.launched) (hs : ∀ n, s.Spares (.delivery n) s')
    (hrun : ∀ n, s.agenda.running = some (.delivery n) →
      s'.agenda.running = some (.delivery n)) : s'.Escorted where
  flights := by
    rw [hflights]
    exact fun f hf => (h.flights f hf).spared (hs _) (hrun _)
  unset := fun n hn => (hs n).alarms.trans (h.unset n (Nat.le_trans hlaunched hn))

/-- **A delivery that begins** is woken. -/
theorem Escorted.launch (h : s.Escorted) (hrun : s.agenda.running = some .worker)
    (worker : Worker) (e : Event) : (({ s with worker } : System).launch e).Escorted where
  flights := by
    intro f hf
    rcases List.mem_append.1 hf with hf | hf
    · have hs : s.agenda.Spares (.delivery f.number) (s.agenda.wake (.delivery s.launched)) :=
        .wake _ _
      exact (h.flights f hf).spared hs fun hr => nomatch hrun.symm.trans hr
    · rw [List.mem_singleton.1 hf]
      refine .awake (.inr ((Agenda.isWoken_wake ..).2 (.inr rfl))) ?_
      exact (Agenda.Spares.wake s.agenda _).alarms.trans (h.unset _ (Nat.le_refl _))
  unset := fun n hn =>
    (Agenda.Spares.wake s.agenda _).alarms.trans (h.unset n (Nat.le_of_succ_le hn))

/-- **A delivery that stops running** has ended, or has its alarm set. -/
theorem Escorted.moveFlight (h : s.Escorted) (hs : s.ledger.Conserved) {number : Nat}
    (hrun : s.agenda.running = some (.delivery number)) : (s.moveFlight o number).Escorted := by
  have hle : s.launched ≤ (s.moveFlight o number).launched :=
    (next_moveFlight o s number).launched_le
  have hspares : ∀ n, n ≠ number → s.Spares (.delivery n) (s.moveFlight o number) :=
    fun n hne => spares_moveFlight o s number fun he => hne (Actor.delivery.inj he).symm
  -- all others are left alone
  have hothers : ∀ g ∈ s.flights, g.number ≠ number → g.Escorted (s.moveFlight o number).agenda :=
    fun g hg hne => (h.flights g hg).spared (hspares _ hne) fun hr =>
      absurd (Actor.delivery.inj (Option.some.inj (hrun.symm.trans hr))).symm hne
  cases hf : s.flights.find? (·.number = number) with
  | none =>
    have hrest : s.moveFlight o number = s.rest := by rw [System.moveFlight, hf]
    have hnone : ∀ g ∈ s.flights, g.number ≠ number := by simpa using hf
    refine ⟨fun g hg => ?_, fun n hn => ?_⟩
    · rw [hrest] at hg
      exact hothers g hg (hnone g hg)
    · rw [hrest] at hn ⊢
      exact h.unset n hn
  | some f =>
    have hnumber : f.number = number := by simpa using List.find?_some hf
    have hmem := List.mem_of_find?_eq_some hf
    have hmove := flightMove (o := o) hf
    subst hnumber
    refine ⟨?_, fun n hn => ?_⟩
    · have hescorted := h.flights f hmem
      cases hmove with
      | goOn goes flights agenda =>
        intro g hg
        rw [flights] at hg
        obtain ⟨g, hg', rfl⟩ := List.mem_map.1 hg
        split
        · next he =>
          -- it runs on, and its alarm has gone off
          rw [agenda]
          refine .awake (.inl (he ▸ hrun)) ?_
          show s.agenda.alarmsOf (.delivery g.number) = []
          rw [he]
          cases hescorted with
          | awake _ unset => exact unset
          | waiting waits early _ => exact absurd (goes.due_le waits) (Nat.not_le.2 early)
        · next hne => exact hothers g hg' hne
      | land flights =>
        intro g hg
        rw [flights] at hg
        obtain ⟨hg, hne⟩ := List.mem_filter.1 hg
        exact hothers g hg (of_decide_eq_true hne)
      | @wait due waits early rests =>
        intro g hg
        rw [rests] at hg
        by_cases hne : g.number = f.number
        · obtain rfl : g = f := List.inj_on_of_nodup_map hs.nodup_flights hg hmem hne
          rw [rests]
          cases hescorted with
          | awake _ unset =>
            refine .waiting waits ?_ (Agenda.alarmsOf_setAlarm unset due 0)
            exact Nat.lt_of_le_of_lt (Nat.le_of_eq (Agenda.now_setAlarm ..)) early
          | waiting waits' early' set =>
            -- it was woken for nothing, and its alarm is still set
            obtain rfl := Option.some.inj (waits.symm.trans waits')
            have hmem : ⟨due, .delivery g.number, 0⟩ ∈ s.agenda.alarms :=
              Agenda.mem_alarms_of_alarmsOf (d := some due) set rfl
            rw [restUntil, Agenda.setAlarm_of_mem hmem]
            exact .waiting waits early set
        · exact hothers g hg hne
    · have hlt : f.number < s.launched := hs.number_lt hmem
      exact (hspares n (by omega)).alarms.trans (h.unset n (Nat.le_trans hle hn))

/-- **All deliveries are looked after**, whatever happens. -/
theorem Advance.escorted (hadv : Advance o s s') (hs : s.ledger.Conserved) (h : s.Escorted) :
    s'.Escorted := by
  have hle : s.launched ≤ s'.launched := hadv.next.launched_le
  cases hadv with
  | @move a hrun =>
    cases a with
    | delivery n => exact h.moveFlight hs hrun
    | worker =>
      rcases flights_moveWorker s with hflights | ⟨e, draining, -, hmove⟩
      · exact h.spared hflights hle (fun n => spares_moveWorker s) fun n hr =>
          nomatch hrun.symm.trans hr
      · have hlaunch := h.launch hrun (Ledger.between draining) e
        rwa [← hmove] at hlaunch
    | client | poller | writer | producer _ =>
      refine h.spared (flights_move nofun nofun) hle (fun n => spares_move o s nofun) fun n hr => ?_
      cases hrun.symm.trans hr
  | @turn a idle ready =>
    refine ⟨fun f hf => ?_, h.unset⟩
    cases h.flights f hf with
    | awake up unset =>
      refine .awake ?_ unset
      by_cases ha : a = .delivery f.number
      · exact .inl (congrArg some ha)
      · refine .inr (isWoken_turn (Ne.symm ha) (up.resolve_left fun hrun => ?_))
        cases idle.symm.trans hrun
    | waiting waits early set => exact .waiting waits early set
  | call idle called =>
    refine ⟨fun f hf => ?_, h.unset⟩
    cases h.flights f hf with
    | awake up unset =>
      refine .awake (.inr (up.resolve_left fun hrun => ?_)) unset
      cases idle.symm.trans hrun
    | waiting waits early set => exact .waiting waits early set
  | pass t =>
    refine ⟨fun f hf => (h.flights f hf).pass t, fun n hn => ?_⟩
    rw [Agenda.alarmsOf_pass, h.unset n hn]
    rfl
  | request r answered free plain =>
    refine h.spared (unheard_request s r plain).flights hle
      (fun n => spares_request s r nofun nofun) fun n hrun => ?_
    refine (running_request s r (free.resolve_left fun hnone => ?_)).trans hrun
    cases hnone.symm.trans hrun
  | elsewhere _ _ _ => exact ⟨h.flights, h.unset⟩

theorem Course.escorted (hc : Course o s s') (hs : s.ledger.Sound) (h : s.Escorted) :
    s'.Escorted := by
  induction hc with
  | refl => exact h
  | tail hc hadv ih => exact hadv.escorted (Course.sound hc hs).1.conserved ih

theorem escorted_new (settings : Settings) (capacity auditCapacity : Nat) (audited : Bool)
    (grace : Nat) (resolver : Directory.Resolver) :
    (new settings capacity auditCapacity audited grace resolver).Escorted :=
  ⟨fun _ hf => absurd hf List.not_mem_nil, fun _ _ => rfl⟩

end Escorted

/-! ## By when deliveries end -/

/-- **All deliveries under way end** by a limit that may depend on their numbers. -/
def FlightsEndBy (s : System) (lookup call : Nat) (limit : Nat → Nat) : Prop :=
  ∀ f ∈ s.flights, f.progress.EndsBy s.now lookup call (limit f.number)

section EndBy

variable {o : Outside} {s s' : System} {lookup call t : Nat} {limit limit' : Nat → Nat}

theorem FlightsEndBy.mono (h : s.FlightsEndBy lookup call limit) (hle : ∀ n, limit n ≤ limit' n) :
    s.FlightsEndBy lookup call limit' :=
  fun f hf => (h f hf).mono (hle _)

/-- They do as long as no time passes, if a delivery that begins has both timeouts left. -/
theorem FlightsEndBy.advance (h : s.FlightsEndBy lookup call limit) (hadv : Advance o s s')
    (now : s'.now = s.now) (hlookup : s.resolver.lookupTimeout = lookup)
    (hcall : s.settings.deliveryTimeout = call)
    (begins : ∀ e draining, s.worker = .holding e draining →
      s.now + (lookup + call) ≤ limit s.launched) :
    s'.FlightsEndBy lookup call limit := by
  have hsame : s'.flights = s.flights → s'.FlightsEndBy lookup call limit := by
    intro hflights f hf
    rw [now]
    exact h f (hflights ▸ hf)
  cases hadv with
  | @move a hrun =>
    cases a with
    | delivery n =>
      cases hf : s.flights.find? (·.number = n) with
      | none =>
        refine hsame ?_
        rw [move, moveFlight, hf]
        rfl
      | some f =>
        intro g hg
        rw [now]
        cases flightMove (o := o) hf with
        | goOn goes flights agenda =>
          rw [move, flights] at hg
          obtain ⟨g, hg', rfl⟩ := List.mem_map.1 hg
          split
          · next he =>
            have hend := h f (List.mem_of_find?_eq_some hf)
            rw [hlookup, hcall] at goes
            rw [← he] at hend
            exact goes.endsBy hend
          · exact h g hg'
        | land flights =>
          rw [move, flights] at hg
          exact h g (List.mem_of_mem_filter hg)
        | wait waits early rests =>
          rw [move, rests] at hg
          exact h g hg
    | worker =>
      rcases flights_moveWorker s with hflights | ⟨e, draining, hw, hmove⟩
      · exact hsame hflights
      · intro f hf
        rw [now]
        rw [move, hmove] at hf
        rcases List.mem_append.1 hf with hf | hf
        · exact h f hf
        · rw [List.mem_singleton.1 hf]
          exact .fresh (begins e draining hw)
    | client | poller | writer | producer _ => exact hsame (flights_move nofun nofun)
  | turn _ _ | call _ _ | pass _ | elsewhere _ _ _ => exact hsame rfl
  | request r _ _ plain => exact hsame (unheard_request s r plain).flights

/-- **Time passes** while everyone waits, until the next alarm at most, and puts nothing off. -/
theorem FlightsEndBy.pass (h : s.FlightsEndBy lookup call limit) (escorted : s.Escorted)
    (settled : s.agenda.isSettled = true) (due : ∀ x ∈ s.agenda.alarms, t ≤ x.due) :
    ({ s with agenda := s.agenda.pass t } : System).FlightsEndBy lookup call limit := by
  intro f hf
  obtain ⟨d, waits, -, hx⟩ := (escorted.flights f hf).waits_of_isSettled settled
  have hnow : ({ s with agenda := s.agenda.pass t } : System).now = max s.now t :=
    Agenda.now_pass _ _
  rw [hnow]
  exact (h f hf).pass waits (due _ hx)

end EndBy

/-! ## Steady courses -/

/-- **What can happen while the timeout of the directory stays what it is**, and time passes as it
should. -/
def Steady (o : Outside) (s s' : System) : Prop :=
  Timely o s s' ∧ s'.resolver.lookupTimeout = s.resolver.lookupTimeout

section Steady

variable {o : Outside} {s s' : System}

theorem Steady.advance (h : Steady o s s') : Advance o s s' :=
  h.1.advance

theorem course_of_steady (h : Relation.ReflTransGen (Steady o) s s') : Course o s s' :=
  Relation.ReflTransGen.mono (fun _ _ => Steady.advance) _ _ h

theorem lookupTimeout_of_steady (h : Relation.ReflTransGen (Steady o) s s') :
    s'.resolver.lookupTimeout = s.resolver.lookupTimeout := by
  induction h with
  | refl => rfl
  | tail _ hs ih => exact hs.2.trans ih

/-- Whoever is resolved, the timeout stays. -/
theorem lookupTimeout_resolveFor (r : Directory.Resolver) (now : Nat) (key : Key)
    (channel : Channel) (answer : Except Failure Identity) :
    (r.resolveFor now key channel answer).2.lookupTimeout = r.lookupTimeout := by
  have hremember : ∀ person, (r.remember now person).lookupTimeout = r.lookupTimeout := by
    intro person
    unfold Directory.Resolver.remember
    split <;> rfl
  unfold Directory.Resolver.resolveFor Directory.Resolver.resolve
  cases answer with
  | ok person => exact hremember person
  | error failure => cases r.cached now key <;> rfl

theorem lookupTimeout_moveFlight (o : Outside) (s : System) (number : Nat) :
    (s.moveFlight o number).resolver.lookupTimeout = s.resolver.lookupTimeout := by
  have h := flightStep (o := o) (s := s) number
  generalize s.moveFlight o number = t at h ⊢
  cases h with
  | begin _ _ _ => rw [resolver_pursue]
  | hear _ _ _ resolves =>
    rw [resolver_pursue]
    exact (congrArg (·.2.lookupTimeout) resolves).symm.trans (lookupTimeout_resolveFor ..)
  | land _ _ _ => rw [resolver_land]
  | rest _ | ask _ _ _ | wait _ _ _ => rfl

theorem resolver_moveWorker (s : System) : s.moveWorker.resolver = s.resolver := by
  have htake : ∀ {e : Event} {t : System} {w : Worker}, s.takeEvent = some (e, t) →
      ({ t with worker := w } : System).resolver = s.resolver :=
    fun he => (within_takeEvent s he).resolver
  have h := workerMove (s := s)
  generalize s.moveWorker = t at h ⊢
  cases h with
  | take _ _ takes | drain _ takes => exact htake takes
  | _ => rfl

theorem lookupTimeout_move (o : Outside) (s : System) (a : Actor) :
    (s.move o a).resolver.lookupTimeout = s.resolver.lookupTimeout := by
  cases a with
  | delivery n => exact lookupTimeout_moveFlight o s n
  | worker => rw [move, resolver_moveWorker]
  | client => rw [move, (unheard_moveClient o s).resolver]
  | poller => rw [move, (within_moveLoop s o).resolver]
  | writer => rw [move, (unheard_moveWriter o s).resolver]
  | producer n => rw [move, (within_moveProducer s n).resolver]

/-- **A step is steady.** -/
theorem steady_step (o : Outside) (s : System) :
    Relation.ReflTransGen (Steady o) s (s.step o) := by
  unfold step
  split
  · next a h =>
    exact .single ⟨.happen (.move h) (now_move o s a), lookupTimeout_move o s a⟩
  · next h =>
    refine Relation.ReflTransGen.mono (fun t t' ht => ⟨ht.1, ?_⟩) _ _ (timely_turn o s h)
    obtain ⟨-, agenda, rfl⟩ := ht
    rfl

theorem steady_run (o : Outside) (s : System) (fuel : Nat) :
    Relation.ReflTransGen (Steady o) s (run o fuel s) := by
  induction fuel generalizing s with
  | zero => exact .refl
  | succ fuel ih =>
    unfold run
    split
    · exact .refl
    · exact (steady_step o s).trans (ih _)

theorem steady_settle (o : Outside) (s : System) (fuel : Nat) :
    Relation.ReflTransGen (Steady o) s (settle o fuel s) := by
  induction fuel generalizing s with
  | zero => exact .refl
  | succ fuel ih =>
    unfold settle
    split
    · exact .refl
    · exact (steady_step o s).trans (ih _)

/-- **Requests that are served one after the other** are a steady course. -/
theorem steady_serveAll (o : Outside) (fuel : Nat) (s : System) (requests : List Request)
    (h : s.isOpenTo o fuel requests = true) :
    Relation.ReflTransGen (Steady o) s (s.serveAll o fuel requests) := by
  induction requests generalizing s with
  | nil => exact .refl
  | cons r rest ih =>
    simp only [isOpenTo, Bool.and_eq_true, Option.isNone_iff_eq_none, Bool.not_eq_true'] at h
    obtain ⟨⟨⟨answered, idle⟩, plain⟩, hrest⟩ := h
    have hrequest : Steady o s (s.request r) := by
      refine ⟨.happen (.request r answered (.inl idle) plain) (now_request s r), ?_⟩
      rw [(unheard_request s r plain).resolver]
    have hserve : Relation.ReflTransGen (Steady o) s (s.serve o fuel r).2 :=
      .trans (.single hrequest) ((steady_run o _ fuel).trans (steady_settle o _ fuel))
    exact hserve.trans (ih _ hrest)

end Steady

/-! ## Everything in its place -/

/-- **The service is tended to**: its accounts are sound, and everyone is woken who has something
to do – those who were handed a slot of the queue, the worker, and the deliveries. -/
structure Tended (s : System) : Prop where
  sound : s.ledger.Sound
  attended : Attended s.standing s.agenda
  manned : s.Manned
  escorted : s.Escorted
  numbered : s.launched = s.begun.length

section Tended

variable {o : Outside} {s s' : System}

theorem tended_new (settings : Settings) (capacity auditCapacity : Nat) (audited : Bool)
    (grace : Nat) (resolver : Directory.Resolver) :
    (new settings capacity auditCapacity audited grace resolver).Tended where
  sound := sound_new ..
  attended := attended_new ..
  manned := .rests (.unstarted rfl)
  escorted := escorted_new ..
  numbered := rfl

theorem Course.tended (hc : Course o s s') (h : s.Tended) : s'.Tended where
  sound := (Course.sound hc h.sound).1
  attended := Course.attended hc h.sound h.attended
  manned := Course.manned hc h.manned
  escorted := Course.escorted hc h.sound h.escorted
  numbered := by
    induction hc with
    | refl => exact h.numbered
    | tail _ hadv ih => exact hadv.next.launched_eq ih

/-- What is fixed stays so. -/
theorem Course.settings (hc : Course o s s') (h : s.Tended) : s'.settings = s.settings := by
  induction hc with
  | refl => rfl
  | tail hc hadv ih => exact (hadv.enters (Course.tended hc h).attended).settings.trans ih

/-- **A delivery takes no longer than both timeouts**: in a steady course, each one that is under
way ends by then. -/
theorem flightsEndBy_of_steady (hc : Relation.ReflTransGen (Steady o) s s') (h : s.Tended)
    (none : s.flights = []) :
    s'.FlightsEndBy s.resolver.lookupTimeout s.settings.deliveryTimeout
      fun _ => s'.now + (s.resolver.lookupTimeout + s.settings.deliveryTimeout) := by
  induction hc with
  | refl =>
    intro f hf
    rw [none] at hf
    cases hf
  | @tail t t' hc hstep ih =>
    have hcourse := course_of_steady hc
    have htended := Course.tended hcourse h
    have hlookup := lookupTimeout_of_steady hc
    have hsettings := Course.settings hcourse h
    have hle : t.now ≤ t'.now := hstep.1.now_le
    have hlater : t'.FlightsEndBy s.resolver.lookupTimeout s.settings.deliveryTimeout
        fun _ => t.now + (s.resolver.lookupTimeout + s.settings.deliveryTimeout) := by
      rcases hstep with ⟨⟨hadv, now⟩ | ⟨p, settled, due⟩, -⟩
      · exact ih.advance hadv now hlookup (congrArg Settings.deliveryTimeout hsettings)
          fun _ _ _ => Nat.le_refl _
      · exact ih.pass htended.escorted settled due
    exact hlater.mono fun _ => Nat.add_le_add_right hle _

end Tended

end System

end Rota.Relay
