import Rota.Proofs.Directory.Recall
import Rota.Proofs.Relay.Outbound

/-!
# Whom the service knows

The service learns of people from the directory alone. A delivery asks who is meant
by a key, and hears some time later what the directory said; whoever was named is
remembered then. Between the question and that moment, the answer is under way.

`KnowsOnly` says that everybody who is remembered, or named by an answer under way,
has some property. A service that knows only such people goes on doing so, whatever
it does, as long as the directory names no others (`KnowsOnly.move`,
`KnowsOnly.request`).
-/

namespace Rota

namespace Directory.Resolver

variable {r : Resolver} {P Q : Identity → Prop}

/-- **Everybody who is remembered** has the property. -/
def RemembersOnly (r : Resolver) (P : Identity → Prop) : Prop :=
  ∃ past, r.cache.Holds (live past) ∧ ∀ e ∈ past, P e.person

theorem RemembersOnly.mono (h : r.RemembersOnly P) (hPQ : ∀ person, P person → Q person) :
    r.RemembersOnly Q := by
  obtain ⟨past, hholds, hpast⟩ := h
  exact ⟨past, hholds, fun e he => hPQ _ (hpast e he)⟩

/-- Who is remembered under a key has the property, and is named by the key. -/
theorem RemembersOnly.of_get? (h : r.RemembersOnly P) {key : Key} {entry : Remembered}
    (hget : r.cache.get? key = some entry) :
    P entry.person ∧ entry.person.isNamedBy key = true := by
  obtain ⟨past, hholds, hpast⟩ := h
  obtain ⟨hlive, hnamed⟩ := (hholds.get?_eq_some_iff key entry).1 hget
  exact ⟨hpast entry ((live_sublist past).subset hlive), hnamed⟩

/-- **Resolving somebody** adds nobody but whom the directory names. -/
theorem RemembersOnly.resolve (h : r.RemembersOnly P) (now : Nat) (key : Key)
    {answer : Except Failure Identity} (named : ∀ person, answer = .ok person → P person) :
    (r.resolve now key answer).2.RemembersOnly P := by
  obtain ⟨past, hholds, hpast⟩ := h
  cases answer with
  | error failure =>
    unfold Resolver.resolve
    cases r.cached now key <;> exact ⟨past, hholds, hpast⟩
  | ok person =>
    show (r.remember now person).RemembersOnly P
    unfold remember
    split
    · exact ⟨past, hholds, hpast⟩
    · refine ⟨past ++ [{ person, since := now }], ?_, fun e he => ?_⟩
      · rw [live_concat]
        exact hholds.insert now person
      · rcases List.mem_append.1 he with he | he
        · exact hpast e he
        · rw [List.mem_singleton.1 he]
          exact named person rfl

theorem RemembersOnly.resolveFor (h : r.RemembersOnly P) (now : Nat) (key : Key)
    (channel : Channel) {answer : Except Failure Identity}
    (named : ∀ person, answer = .ok person → P person) :
    (r.resolveFor now key channel answer).2.RemembersOnly P :=
  h.resolve now key named

end Directory.Resolver

namespace Relay

open Directory (Resolver)

/-- **A delivery that will hear of somebody**: an answer with the name is under way. -/
def Flight.Awaits (f : Flight) (person : Identity) : Prop :=
  ∃ key channel due, f.progress = .asking key channel due (some (.ok person))

namespace System

/-- **Everybody whom the service knows** has the property: those remembered, and those
whom the directory has named in an answer under way. -/
structure KnowsOnly (s : System) (P : Identity → Prop) : Prop where
  remembered : s.resolver.RemembersOnly P
  awaited : ∀ f ∈ s.flights, ∀ person, f.Awaits person → P person

/-- **Nobody is heard of**: the deliveries stay where they are, and nobody is resolved. -/
structure Unheard (s s' : System) : Prop where
  resolver : s'.resolver = s.resolver
  flights : s'.flights = s.flights

section Unheard

variable {s t s' : System} {P Q : Identity → Prop}

theorem Unheard.refl (s : System) : s.Unheard s := ⟨rfl, rfl⟩

theorem Unheard.after (h' : t.Unheard s') (h : s.Unheard t) : s.Unheard s' :=
  ⟨h'.resolver.trans h.resolver, h'.flights.trans h.flights⟩

theorem Within.unheard (h : s.Within s') : s.Unheard s' :=
  ⟨h.resolver, congrArg Outbound.flights h.outbound⟩

theorem Aside.unheard (h : s.Aside s') : s.Unheard s' := by
  obtain ⟨_, _, _, _, rfl⟩ := h.eq
  exact ⟨rfl, rfl⟩

theorem unheard_moveWriter (o : Outside) (s : System) : s.Unheard (s.moveWriter o) := by
  unfold moveWriter
  split
  next pipeline turn begun _ =>
  cases turn with
  | again => exact ⟨rfl, rfl⟩
  | ended => exact ⟨rfl, rfl⟩
  | waiting due => cases due <;> exact ⟨rfl, rfl⟩

theorem unheard_moveClient (o : Outside) (s : System) : s.Unheard (s.moveClient o) := by
  unfold moveClient
  split
  · exact ⟨rfl, rfl⟩
  · split <;> exact ⟨rfl, rfl⟩
  · next event deadline _ =>
    have h := (within_offerAgain s { actor := .client } event deadline).unheard
    split
    · next hs =>
      rw [hs] at h
      exact ⟨h.resolver, h.flights⟩
    · next hs =>
      rw [hs] at h
      exact ⟨h.resolver, h.flights⟩
  · next c _ =>
    have h := (within_moveCycle s o .client c).unheard
    split
    · next hc =>
      rw [hc] at h
      exact ⟨h.resolver, h.flights⟩
    · next hc =>
      rw [hc] at h
      exact ⟨h.resolver, h.flights⟩
    · next hc =>
      rw [hc] at h
      exact ⟨h.resolver, h.flights⟩
  · split <;> exact ⟨rfl, rfl⟩
  · split
    · refine Unheard.after ?_ (⟨rfl, rfl⟩ : s.Unheard { s with client := .awaitingWriter })
      exact ((aside_signalWriter _).after (aside_startWriter _)).unheard
    · exact ⟨rfl, rfl⟩
  · split <;> exact ⟨rfl, rfl⟩

theorem unheard_request (s : System) (r : Request) (plain : r.isRecord = false) :
    s.Unheard (s.request r) := by
  -- what the client does then is not heard of either
  have hclient : ∀ {s' : System} (client : Client) (agenda : Agenda), s.Unheard s' →
      s.Unheard { s' with client, agenda } := fun _ _ h => ⟨h.resolver, h.flights⟩
  have hstart := (within_startWorker s).unheard
  cases r with
  | sleep ms => exact hclient _ _ (.refl s)
  | poll schedules => exact hclient _ _ ⟨rfl, rfl⟩
  | record r times => cases plain
  | enqueue event => exact hclient _ _ (within_enqueue s event _).unheard
  | enqueueWithin event limit =>
    have h := (within_offer s { actor := .client } event limit).unheard
    rw [request]
    split
    · next hs =>
      rw [hs] at h
      exact hclient _ _ h
    · next hs =>
      rw [hs] at h
      exact hclient _ _ h
  | offerAside event limit => exact hclient _ _ (within_offerAside s event limit).unheard
  | start => exact hclient _ _ ((aside_startWriter _).unheard.after hstart)
  | startWriter => exact hclient _ _ (aside_startWriter s).unheard
  | dropWriter => exact hclient _ _ (aside_dropWriter s).unheard
  | signal => exact hclient _ _ (aside_signalWorker s).unheard
  | leave => exact hclient _ _ (aside_endEvents s).unheard
  | shutdown =>
    have haside := (aside_signalWorker _).after (aside_startWriter s.startWorker)
    exact hclient _ _ (haside.unheard.after hstart)
  | shutdownWriter =>
    exact hclient _ _ ((aside_signalWriter _).after (aside_startWriter s)).unheard
  | finish => exact hclient _ _ ((aside_endEvents _).unheard.after hstart)
  | finishRecords =>
    exact hclient _ _ ((aside_endRecords _).after (aside_startWriter s)).unheard
  | startPolling schedules => exact hclient _ _ (within_startPolling s schedules).unheard
  | stopPolling =>
    rw [request]
    split
    · exact hclient _ _ (within_signalLoop s).unheard
    · exact hclient _ _ (.refl s)

end Unheard

/-! ## Whom a move adds -/

section Knows

variable {s s' : System} {P Q : Identity → Prop}

theorem KnowsOnly.mono (h : s.KnowsOnly P) (hPQ : ∀ person, P person → Q person) :
    s.KnowsOnly Q :=
  ⟨h.remembered.mono hPQ, fun f hf person ha => hPQ person (h.awaited f hf person ha)⟩

theorem KnowsOnly.unheard (h : s.KnowsOnly P) (hu : s.Unheard s') : s'.KnowsOnly P := by
  refine ⟨?_, ?_⟩
  · rw [hu.resolver]
    exact h.remembered
  · rw [hu.flights]
    exact h.awaited

/-- A service that has just begun knows nobody. -/
theorem knowsOnly_new (settings : Settings) (capacity auditCapacity : Nat) (audited : Bool)
    (grace : Nat) {resolver : Resolver} (empty : resolver.cache.Holds []) :
    (new settings capacity auditCapacity audited grace resolver).KnowsOnly P :=
  ⟨⟨[], empty, fun _ he => absurd he List.not_mem_nil⟩, fun _ hf => absurd hf List.not_mem_nil⟩

/-- A delivery that goes on after `pursue` awaits nobody any more. -/
theorem awaits_pursue {o : Outside} {f g : Flight} {next : Next}
    (hg : g ∈ (s.pursue o f next).flights) {person : Identity} (ha : g.Awaits person) :
    g ∈ s.flights := by
  cases next with
  | ended r =>
    have hfl : (s.land f r).flights = s.flights.filter (·.number ≠ f.number) :=
      congrArg Outbound.flights (outbound_land s f r)
    rw [pursue, hfl] at hg
    exact (List.mem_filter.1 hg).1
  | calling call whom =>
    obtain ⟨g', hg', rfl⟩ := List.mem_map.1 hg
    split at ha
    · obtain ⟨_, _, _, hp⟩ := ha
      cases hp
    · next hne =>
      rw [if_neg hne]
      exact hg'

theorem resolver_land (f : Flight) (r : Audit.Record) : (s.land f r).resolver = s.resolver := by
  have hc : (s.conclude f r).resolver = s.resolver := by
    unfold conclude record
    dsimp only
    split <;> rfl
  unfold land
  dsimp only
  split <;> exact hc

theorem resolver_pursue (o : Outside) (f : Flight) (next : Next) :
    (s.pursue o f next).resolver = s.resolver := by
  cases next with
  | ended r => exact resolver_land f r
  | calling call whom => rfl

theorem KnowsOnly.pursue (h : s.KnowsOnly P) (o : Outside) (f : Flight) (next : Next) :
    (s.pursue o f next).KnowsOnly P := by
  refine ⟨?_, fun g hg person ha => h.awaited g (awaits_pursue hg ha) person ha⟩
  rw [resolver_pursue]
  exact h.remembered

/-- **A move of a delivery** adds nobody but whom the directory names. -/
theorem KnowsOnly.moveFlight (h : s.KnowsOnly P) {o : Outside} (number : Nat)
    (named : ∀ n key person,
      ((o.lookup n key).within s.resolver.lookupTimeout).2 = some (.ok person) → P person) :
    (s.moveFlight o number).KnowsOnly P := by
  unfold System.moveFlight
  split
  · exact h.unheard ⟨rfl, rfl⟩
  · next f hf =>
    have hm := List.mem_of_find?_eq_some hf
    split
    · split
      · exact h.pursue o f _
      · next key channel _ =>
        -- the directory is asked, and its answer is under way
        refine ⟨h.remembered, fun g hg person ha => ?_⟩
        obtain ⟨g', hg', rfl⟩ := List.mem_map.1 hg
        split at ha
        · obtain ⟨_, _, _, hp⟩ := ha
          exact named s.lookups key person (Progress.asking.inj hp).2.2.2
        · exact h.awaited g' hg' person ha
    · next key channel due answer hp =>
      split
      · -- the answer is heard
        have hheard : ∀ person, Resolver.heard key answer = .ok person → P person := by
          intro person hk
          cases answer with
          | none => cases hk
          | some result =>
            refine h.awaited f hm person ⟨key, channel, due, ?_⟩
            rw [hp, show result = .ok person from hk]
        have hrem := h.remembered.resolveFor s.clock key channel hheard
        split
        next result resolver hr =>
        rw [hr] at hrem
        exact KnowsOnly.pursue (s := { s with resolver }) ⟨hrem, h.awaited⟩ o f _
      · exact h.unheard ⟨rfl, rfl⟩
    · next whom due answer hp =>
      split
      · exact h.pursue o f (.ended _)
      · exact h.unheard ⟨rfl, rfl⟩

theorem KnowsOnly.moveWorker (h : s.KnowsOnly P) : s.moveWorker.KnowsOnly P := by
  have htake : ∀ {e : Event} {t : System} (worker : Worker), s.takeEvent = some (e, t) →
      ({ t with worker } : System).KnowsOnly P := by
    intro e t worker ht
    have hu := (within_takeEvent s ht).unheard
    exact h.unheard ⟨hu.resolver, hu.flights⟩
  unfold System.moveWorker
  split
  · exact h.unheard ⟨rfl, rfl⟩
  · split
    · exact h.unheard ⟨rfl, rfl⟩
    · split
      · next ht => exact htake _ ht
      · split <;> exact h.unheard ⟨rfl, rfl⟩
  · split
    · -- a delivery that has just begun awaits nobody
      refine ⟨h.remembered, fun f hf person ha => ?_⟩
      rcases List.mem_append.1 hf with hf | hf
      · exact h.awaited f hf person ha
      · obtain ⟨_, _, _, hp⟩ := ha
        rw [List.mem_singleton.1 hf] at hp
        cases hp
    · exact h.unheard ⟨rfl, rfl⟩
  · split
    · next ht => exact htake _ ht
    · exact h.unheard ⟨rfl, rfl⟩
  · split <;> exact h.unheard ⟨rfl, rfl⟩
  · exact h.unheard ⟨rfl, rfl⟩

/-- **A move of anybody** adds nobody but whom the directory names. -/
theorem KnowsOnly.move (h : s.KnowsOnly P) {o : Outside} (a : Actor)
    (named : ∀ n key person,
      ((o.lookup n key).within s.resolver.lookupTimeout).2 = some (.ok person) → P person) :
    (s.move o a).KnowsOnly P := by
  cases a with
  | client => exact h.unheard (unheard_moveClient o s)
  | poller => exact h.unheard (within_moveLoop s o).unheard
  | worker => exact h.moveWorker
  | writer => exact h.unheard (unheard_moveWriter o s)
  | delivery number => exact h.moveFlight number named
  | producer number => exact h.unheard (within_moveProducer s number).unheard

/-- **A request of the client** adds nobody. -/
theorem KnowsOnly.request (h : s.KnowsOnly P) (r : Request) (plain : r.isRecord = false) :
    (s.request r).KnowsOnly P :=
  h.unheard (unheard_request s r plain)

end Knows

end System

end Relay

end Rota
