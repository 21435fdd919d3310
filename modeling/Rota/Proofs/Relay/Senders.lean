import Mathlib.Data.List.Nodup
import Rota.Proofs.Relay.Accounts

/-!
# Senders that wait

A sender that finds no room waits for a slot, and a slot that becomes free goes
to the sender that came first. From then on it counts as taken, although there
is no event in it yet.

`Standing` is the part of the state that tells who waits and who offers events,
and `Attended` is the invariant that no slot is handed over in vain: whoever
was handed one has been woken and not run since, or is running and will come to
use it. A cycle asks its visits in order, so a visit still comes to use its slot
if the cycle has not got past it.

When everyone waits, nobody was woken and nobody is running, so then every slot
taken has an event in it (`Attended.granted_eq_nil`).
-/

namespace Rota.Relay

/-! ## Who offers events -/

/-- Is this someone who may have to wait for room in the queue? -/
def Actor.offers : Actor → Bool
  | client | poller | producer _ => true
  | _ => false

/-- **Who waits, and who offers events.** -/
structure Standing where
  /-- The senders waiting for a slot. -/
  waiting : List Sender
  /-- The senders who have been handed a slot and not yet used it. -/
  granted : List Sender
  client : Client
  loop : Loop
  polling : Bool
  producers : List Producer
  hired : Nat

/-- Who waits, and who offers events, in a service. -/
def System.standing (s : System) : Standing where
  waiting := s.queue.waiting
  granted := s.queue.granted
  client := s.client
  loop := s.loop
  polling := s.polling
  producers := s.producers
  hired := s.hired

namespace Standing

variable {p q : Standing} {x : Sender} {a owner : Actor} {c c' : Poller.Cycle}

/-- The cycle that an actor has under way. -/
def cycleOf (p : Standing) : Actor → Option Poller.Cycle
  | .client => p.client.cycle?
  | .poller => p.loop.cycle?
  | _ => none

/-- The cycle of an actor goes on. -/
def withCycle (p : Standing) (c : Poller.Cycle) : Actor → Standing
  | .client => { p with client := .cycling c }
  | .poller =>
    { p with loop := match p.loop with
        | .cycling next _ => .cycling next c
        | l => l }
  | _ => p

/-- **Is a sender offering an event?** The client and the producers do so by
themselves, in slot 0, and each visit of a cycle in a slot of its own. -/
inductive Offering (p : Standing) : Sender → Prop
  | client {e : Event} {deadline : Nat} (h : p.client = .offering e deadline) :
      Offering p { actor := .client }
  | producer {r : Producer} (h : r ∈ p.producers) : Offering p { actor := .producer r.number }
  | visit {a : Actor} {c : Poller.Cycle} {k : Nat} {v : Poller.Visit}
      (cycle : p.cycleOf a = some c) (turn : c.visits[k]? = some v)
      (h : v.phase.isOffering = true) : Offering p { actor := a, slot := k + 1 }

theorem offers_of_cycleOf (h : p.cycleOf a = some c) : a.offers = true := by
  cases a <;> first | rfl | cases h

theorem Offering.offers (h : p.Offering x) : x.actor.offers = true := by
  cases h with
  | client _ => rfl
  | producer _ => rfl
  | visit cycle _ _ => exact offers_of_cycleOf cycle

/-- A client without a cycle and an event of its own offers nothing. -/
theorem Offering.ne_client (h : p.Offering x) (hc : p.client.cycle? = none)
    (ho : ∀ e d, p.client ≠ .offering e d) : x.actor ≠ .client := by
  cases h with
  | client h => exact absurd h (ho _ _)
  | producer _ => exact nofun
  | visit cycle _ _ =>
    rintro rfl
    exact nomatch hc.symm.trans cycle

/-- A producer has no other wait than that for its own event. -/
theorem Offering.eq_of_producer {n : Nat} (h : p.Offering x) (ha : x.actor = .producer n) :
    x = { actor := .producer n } ∧ ∃ r ∈ p.producers, r.number = n := by
  cases h with
  | client _ => cases ha
  | producer h =>
    cases ha
    exact ⟨rfl, _, h, rfl⟩
  | visit cycle _ _ =>
    subst ha
    cases cycle

/-- A loop without a cycle offers nothing. -/
theorem Offering.ne_poller (h : p.Offering x) (hc : p.loop.cycle? = none) :
    x.actor ≠ .poller := by
  cases h with
  | client _ => exact nofun
  | producer _ => exact nofun
  | visit cycle _ _ =>
    rintro rfl
    exact nomatch hc.symm.trans cycle

theorem cycleOf_client_of_ne (c : Client) (polling : Bool) (h : a ≠ .client) :
    ({ p with client := c, polling } : Standing).cycleOf a = p.cycleOf a := by
  cases a <;> first | rfl | exact absurd rfl h

theorem cycleOf_loop_of_ne (l : Loop) (polling : Bool) (h : a ≠ .poller) :
    ({ p with loop := l, polling } : Standing).cycleOf a = p.cycleOf a := by
  cases a <;> first | rfl | exact absurd rfl h

@[simp] theorem cycleOf_producers (producers : List Producer) (hired : Nat) (a : Actor) :
    ({ p with producers, hired } : Standing).cycleOf a = p.cycleOf a := by
  cases a <;> rfl

/-- What the others offer does not depend on the client. -/
theorem Offering.setClient (h : p.Offering x) (hx : x.actor ≠ .client) (c : Client)
    (polling : Bool) : ({ p with client := c, polling } : Standing).Offering x := by
  cases h with
  | client _ => exact absurd rfl hx
  | producer h => exact .producer h
  | visit cycle turn h =>
    exact .visit ((cycleOf_client_of_ne c polling hx).trans cycle) turn h

/-- What the others offer does not depend on the loop. -/
theorem Offering.setLoop (h : p.Offering x) (hx : x.actor ≠ .poller) (l : Loop)
    (polling : Bool) : ({ p with loop := l, polling } : Standing).Offering x := by
  cases h with
  | client h => exact .client h
  | producer h => exact .producer h
  | visit cycle turn h =>
    exact .visit ((cycleOf_loop_of_ne l polling hx).trans cycle) turn h

/-- A producer goes on offering its event as long as it is there, and the others whatever
becomes of the producers. -/
theorem Offering.setProducers (h : p.Offering x) {producers : List Producer} (hired : Nat)
    (hx : ∀ r ∈ p.producers, x = { actor := .producer r.number } → r ∈ producers) :
    ({ p with producers, hired } : Standing).Offering x := by
  cases h with
  | client h => exact .client h
  | producer h => exact .producer (hx _ h rfl)
  | visit cycle turn h => exact .visit ((cycleOf_producers ..).trans cycle) turn h

theorem cycleOf_withCycle (h : p.cycleOf owner = some c) :
    (p.withCycle c' owner).cycleOf owner = some c' := by
  cases owner with
  | client => rfl
  | poller =>
    obtain ⟨next, hl⟩ := Loop.cycle?_eq_some.1 h
    unfold withCycle
    rw [hl]
    rfl
  | _ => cases h

theorem cycleOf_withCycle_of_ne (h : a ≠ owner) :
    (p.withCycle c' owner).cycleOf a = p.cycleOf a := by
  cases owner with
  | client => cases a <;> first | rfl | exact absurd rfl h
  | poller => cases a <;> first | rfl | exact absurd rfl h
  | _ => rfl

section WithCycle

variable (p c owner)

@[simp] theorem waiting_withCycle : (p.withCycle c owner).waiting = p.waiting := by
  cases owner <;> rfl

@[simp] theorem granted_withCycle : (p.withCycle c owner).granted = p.granted := by
  cases owner <;> rfl

@[simp] theorem polling_withCycle : (p.withCycle c owner).polling = p.polling := by
  cases owner <;> rfl

@[simp] theorem producers_withCycle : (p.withCycle c owner).producers = p.producers := by
  cases owner <;> rfl

@[simp] theorem hired_withCycle : (p.withCycle c owner).hired = p.hired := by
  cases owner <;> rfl

end WithCycle

/-- A cycle that goes on is no offer of the client's own. -/
theorem client_withCycle (h : p.cycleOf owner = some c) :
    (p.withCycle c' owner).client = p.client ∨ p.client = .cycling c := by
  cases owner with
  | client => exact .inr (Client.cycle?_eq_some.1 h)
  | _ => exact .inl rfl

/-- What the others offer does not depend on the cycle of an actor, and neither
do the other visits of the cycle. -/
theorem Offering.withCycle (h : p.Offering x) (hc : p.cycleOf owner = some c)
    (hv : ∀ k v, x = { actor := owner, slot := k + 1 } → c.visits[k]? = some v →
      v.phase.isOffering = true → ∃ v', c'.visits[k]? = some v' ∧ v'.phase.isOffering = true) :
    (p.withCycle c' owner).Offering x := by
  cases h with
  | client h =>
    rcases client_withCycle hc with he | he
    · exact .client (he.trans h)
    · rw [he] at h
      cases h
  | producer h =>
    refine .producer ?_
    rwa [producers_withCycle]
  | @visit a d k v cycle turn h =>
    by_cases ha : a = owner
    · subst ha
      cases hc.symm.trans cycle
      obtain ⟨v', hv', ho⟩ := hv k v rfl turn h
      exact .visit (cycleOf_withCycle hc) hv' ho
    · exact .visit ((cycleOf_withCycle_of_ne ha).trans cycle) turn h

/-- **What one offer does to those who wait**: its sender was or was not
waiting before, and is or is not waiting afterwards. -/
inductive Shift (p : Standing) (x : Sender) : Bool → Bool → Standing → Prop
  | none : Shift p x false false p
  | await : Shift p x false true { p with waiting := p.waiting ++ [x] }
  | done (waiting granted : List Sender) (fewer : waiting.Sublist p.waiting)
      (used : granted.Sublist p.granted) (away : x ∉ waiting ++ granted) :
      Shift p x true false { p with waiting, granted }

section Queue

variable (p x) (waiting granted : List Sender)

@[simp] theorem cycleOf_queue (a : Actor) :
    ({ p with waiting, granted } : Standing).cycleOf a = p.cycleOf a := by
  cases a <;> rfl

theorem offering_queue :
    ({ p with waiting, granted } : Standing).Offering x ↔ p.Offering x := by
  constructor <;> intro h
  · cases h with
    | client h => exact .client h
    | producer h => exact .producer h
    | visit cycle turn h => exact .visit (by rwa [cycleOf_queue] at cycle) turn h
  · cases h with
    | client h => exact .client h
    | producer h => exact .producer h
    | visit cycle turn h => exact .visit (by rwa [cycleOf_queue]) turn h

end Queue

/-- An offer changes nothing but the queue. -/
theorem Shift.eq {b b' : Bool} (h : p.Shift x b b' q) :
    ∃ waiting granted, q = { p with waiting, granted } := by
  cases h <;> exact ⟨_, _, rfl⟩

end Standing

/-! ## No slot is handed over in vain -/

/-- **Will the running actor come to use the slot?** Its cycle must not have got
past the visit. -/
def Standing.Due (p : Standing) (g : Agenda) (x : Sender) : Prop :=
  g.running = some x.actor ∧ ∀ c, p.cycleOf x.actor = some c → c.cursor < x.slot

/-- **No slot is handed over in vain.** -/
structure Attended (p : Standing) (g : Agenda) : Prop where
  /-- Nobody waits twice, or waits for a second slot. -/
  nodup : (p.waiting ++ p.granted).Nodup
  offering : ∀ x ∈ p.waiting ++ p.granted, p.Offering x
  used : ∀ x ∈ p.granted, g.IsWoken x.actor ∨ p.Due g x
  /-- A cycle that is not running starts with its first visit again. -/
  reset : ∀ a c, p.cycleOf a = some c → g.running ≠ some a → c.cursor = 0
  numbered : ∀ r ∈ p.producers, r.number < p.hired
  /-- A loop that was told to stop is waited for. -/
  stopped : p.polling = false → p.loop = .absent ∨ p.client = .awaitingLoop

namespace Attended

variable {p q : Standing} {g g' : Agenda} {a owner : Actor}

/-- **When everyone waits, every slot taken has an event in it.** -/
theorem granted_eq_nil (h : Attended p g) (hs : g.isSettled = true) : p.granted = [] := by
  obtain ⟨hr, hw⟩ := Agenda.not_isWoken_of_isSettled hs
  refine List.eq_nil_iff_forall_not_mem.2 fun x hx => ?_
  -- whoever has a slot was woken or is running, and nobody is either
  rcases h.used x hx with hwx | ⟨hd, -⟩
  · exact hw x.actor hwx
  · rw [hr] at hd
    cases hd

theorem stir (h : Attended p g) (hg : g.Stirs g') : Attended p g' where
  nodup := h.nodup
  offering := h.offering
  used := fun x hx => (h.used x hx).imp (hg.woken _) fun ⟨hr, hc⟩ => ⟨hg.running.trans hr, hc⟩
  reset := fun a c hc hr => h.reset a c hc (by rwa [← hg.running])
  numbered := h.numbered
  stopped := h.stopped

/-- **An actor may stop running** if nobody counts on it. -/
theorem rest (h : Attended p g) (hw : ∀ x ∈ p.granted, g.IsWoken x.actor)
    (hr : ∀ a c, g.running = some a → p.cycleOf a = some c → c.cursor = 0) :
    Attended p g.rest where
  nodup := h.nodup
  offering := h.offering
  used := fun x hx => .inl (hw x hx)
  reset := fun a c hc _ =>
    Decidable.byCases (fun ha => hr a c ha hc) fun ha => h.reset a c hc ha
  numbered := h.numbered
  stopped := h.stopped

/-- Nobody counts on an actor that has not been handed a slot. -/
theorem rest_of_free (h : Attended p g) (hrun : g.running = some a)
    (hf : ∀ x ∈ p.granted, p.Offering x → x.actor ≠ a) (hc : p.cycleOf a = none) :
    Attended p g.rest := by
  refine h.rest (fun x hx => ?_) fun b c hb hbc => ?_
  · refine (h.used x hx).resolve_right fun hd => ?_
    have ho := h.offering x (List.mem_append_right _ hx)
    exact hf x hx ho (Option.some.inj (hd.1.symm.trans hrun))
  · cases hrun.symm.trans hb
    cases hc.symm.trans hbc

/-- **Somebody who was woken starts running**, with the first visit of its
cycle. -/
theorem run (h : Attended p g) (hrun : g.running = none) (hg : g'.running = some a)
    (hw : ∀ b, b ≠ a → g.IsWoken b → g'.IsWoken b) : Attended p g' where
  nodup := h.nodup
  offering := h.offering
  used := by
    intro x hx
    have hx' := h.offering x (List.mem_append_right _ hx)
    rcases h.used x hx with hwx | ⟨hd, -⟩
    · by_cases ha : x.actor = a
      · -- the one who starts running asks its visits from the first one on
        refine .inr ⟨by rw [hg, ha], fun c hc => ?_⟩
        have h0 : c.cursor = 0 := h.reset _ c hc (by rw [hrun]; exact nofun)
        cases hx' with
        | client h => rw [Standing.cycleOf, h] at hc; cases hc
        | producer h => cases hc
        | visit _ _ _ => rw [h0]; exact Nat.succ_pos _
      · exact .inl (hw _ ha hwx)
    · rw [hrun] at hd
      cases hd
  reset := fun b c hc _ => h.reset b c hc (by rw [hrun]; exact nofun)
  numbered := h.numbered
  stopped := h.stopped

/-- What an offer leaves of those who wait: nobody twice, the others as they were,
and its sender only if it waits from now on. -/
theorem keep {p' : Standing} {x : Sender} {b b' : Bool} (h : Attended p g)
    (hs : p.Shift x b b' p') (hx : b = false → ¬ p.Offering x) :
    (p'.waiting ++ p'.granted).Nodup
      ∧ (∀ y ∈ p'.waiting ++ p'.granted,
          y ∈ p.waiting ++ p.granted ∧ y ≠ x ∨ y = x ∧ b' = true)
      ∧ ∀ y ∈ p'.granted, y ∈ p.granted ∧ y ≠ x := by
  -- whoever waits offers an event, so a sender that does not is none of them
  have hne : b = false → ∀ y ∈ p.waiting ++ p.granted, y ≠ x := by
    rintro hb y hy rfl
    exact hx hb (h.offering _ hy)
  cases hs with
  | none =>
    exact ⟨h.nodup, fun y hy => .inl ⟨hy, hne rfl y hy⟩,
      fun y hy => ⟨hy, hne rfl y (List.mem_append_right _ hy)⟩⟩
  | await =>
    refine ⟨?_, ?_, fun y hy => ⟨hy, hne rfl y (List.mem_append_right _ hy)⟩⟩
    · rw [List.append_assoc, List.singleton_append, List.perm_middle.nodup_iff,
        List.nodup_cons]
      exact ⟨fun hm => hne rfl _ hm rfl, h.nodup⟩
    · intro y hy
      rw [List.append_assoc, List.singleton_append, List.perm_middle.mem_iff,
        List.mem_cons] at hy
      rcases hy with rfl | hy
      · exact .inr ⟨rfl, rfl⟩
      · exact .inl ⟨hy, hne rfl y hy⟩
  | done waiting granted fewer used away =>
    have hsub := fewer.append used
    refine ⟨h.nodup.sublist hsub, fun y hy => .inl ⟨hsub.subset hy, ?_⟩,
      fun y hy => ⟨used.subset hy, ?_⟩⟩
    · rintro rfl
      exact away hy
    · rintro rfl
      exact away (List.mem_append_right _ hy)

/-- **An offer keeps the invariant** if afterwards everybody still offers an
event who did, its sender at least if it waits, and whoever will come to use its
slot still will. -/
theorem shift {p' : Standing} {x : Sender} {b b' : Bool} (h : Attended p g)
    (hs : p.Shift x b b' p') (hx : b = false → ¬ p.Offering x)
    (hw : q.waiting = p'.waiting) (hg : q.granted = p'.granted)
    (ho : ∀ y, y ≠ x → p.Offering y → q.Offering y) (hox : b' = true → q.Offering x)
    (hu : ∀ y, y ≠ x → p.Offering y → g.IsWoken y.actor ∨ p.Due g y →
      g'.IsWoken y.actor ∨ q.Due g' y)
    (hr : ∀ a c, q.cycleOf a = some c → g'.running ≠ some a → c.cursor = 0)
    (hn : ∀ r ∈ q.producers, r.number < q.hired)
    (hst : q.polling = false → q.loop = .absent ∨ q.client = .awaitingLoop) :
    Attended q g' := by
  obtain ⟨hnodup, hmem, hused⟩ := h.keep hs hx
  refine ⟨by rwa [hw, hg], ?_, ?_, hr, hn, hst⟩
  · intro y hy
    rw [hw, hg] at hy
    rcases hmem y hy with ⟨hy, hne⟩ | ⟨rfl, hb⟩
    · exact ho y hne (h.offering y hy)
    · exact hox hb
  · intro y hy
    rw [hg] at hy
    obtain ⟨hy, hne⟩ := hused y hy
    exact hu y hne (h.offering y (List.mem_append_right _ hy)) (h.used y hy)

/-- A loop that was told to stop is waited for as before when a cycle goes on. -/
theorem stopped_withCycle {c c' : Poller.Cycle}
    (h : p.polling = false → p.loop = .absent ∨ p.client = .awaitingLoop)
    (hc : p.cycleOf owner = some c) (hp : (p.withCycle c' owner).polling = false) :
    (p.withCycle c' owner).loop = .absent ∨ (p.withCycle c' owner).client = .awaitingLoop := by
  rw [Standing.polling_withCycle] at hp
  cases owner with
  | client =>
    refine .inl ((h hp).resolve_right fun ha => ?_)
    rw [Client.cycle?_eq_some.1 hc] at ha
    cases ha
  | poller =>
    refine .inr ((h hp).resolve_left fun ha => ?_)
    obtain ⟨next, hl⟩ := Loop.cycle?_eq_some.1 hc
    rw [hl] at ha
    cases ha
  | _ => cases hc

/-- **A visit makes a move** when it is its turn. -/
theorem visit {p' : Standing} {c : Poller.Cycle} {v : Poller.Visit} {phase : Poller.Phase}
    (h : Attended p g) (hc : p.cycleOf owner = some c) (hrun : g.running = some owner)
    (hv : c.visits[c.cursor]? = some v)
    (hs : p.Shift { actor := owner, slot := c.cursor + 1 } v.phase.isOffering phase.isOffering p')
    (hg : g.Stirs g') :
    Attended
      (p'.withCycle { c with visits := c.visits.set c.cursor { v with phase } } owner) g' := by
  obtain ⟨waiting, granted, rfl⟩ := hs.eq
  have hc' := (p.cycleOf_queue waiting granted owner).trans hc
  refine h.shift hs ?_ (Standing.waiting_withCycle ..) (Standing.granted_withCycle ..)
    ?_ ?_ ?_ ?_ ?_ (stopped_withCycle h.stopped hc')
  · intro hf ho
    cases ho with
    | visit cycle turn ho =>
      cases hc.symm.trans cycle
      cases hv.symm.trans turn
      rw [hf] at ho
      cases ho
  · -- the other visits have slots of their own, and stay as they are
    intro y hy ho
    refine ((p.offering_queue y waiting granted).2 ho).withCycle hc' ?_
    rintro k v' rfl hk ho
    refine ⟨v', ?_, ho⟩
    rwa [List.getElem?_set_ne]
    rintro rfl
    exact hy rfl
  · intro hb
    refine .visit (v := { v with phase }) (Standing.cycleOf_withCycle hc') ?_ hb
    rw [List.getElem?_set_self (List.getElem?_eq_some_iff.1 hv).1]
  · -- the turn has not moved on
    intro y _ _ hu
    refine hu.imp (hg.woken _) fun ⟨hr, hd⟩ => ⟨hg.running.trans hr, fun d hd' => ?_⟩
    by_cases hy : y.actor = owner
    · rw [hy] at hd hd'
      cases (Standing.cycleOf_withCycle hc').symm.trans hd'
      exact hd c hc
    · rw [Standing.cycleOf_withCycle_of_ne hy, Standing.cycleOf_queue] at hd'
      exact hd d hd'
  · intro a d hd hr
    have ha : a ≠ owner := by
      rintro rfl
      exact hr (hg.running.trans hrun)
    rw [Standing.cycleOf_withCycle_of_ne ha, Standing.cycleOf_queue] at hd
    exact h.reset a d hd (by rwa [← hg.running])
  · rw [Standing.producers_withCycle, Standing.hired_withCycle]
    exact h.numbered

/-- **The turn of a cycle moves on**, if whoever will come to use its slot still
will. -/
theorem turn {c : Poller.Cycle} {n : Nat} (h : Attended p g) (hc : p.cycleOf owner = some c)
    (hrun : g.running = some owner)
    (hu : ∀ y ∈ p.granted, g.IsWoken y.actor ∨ p.Due g y →
      g'.IsWoken y.actor ∨ (p.withCycle { c with cursor := n } owner).Due g' y)
    (hr : g'.running = some owner ∨ n = 0) :
    Attended (p.withCycle { c with cursor := n } owner) g' := by
  refine ⟨?_, ?_, ?_, ?_, ?_, stopped_withCycle h.stopped hc⟩
  · rw [Standing.waiting_withCycle, Standing.granted_withCycle]
    exact h.nodup
  · intro x hx
    rw [Standing.waiting_withCycle, Standing.granted_withCycle] at hx
    exact (h.offering x hx).withCycle hc fun _ v _ hv ho => ⟨v, hv, ho⟩
  · intro x hx
    rw [Standing.granted_withCycle] at hx
    exact hu x hx (h.used x hx)
  · intro a d hd ha
    by_cases he : a = owner
    · subst he
      cases (Standing.cycleOf_withCycle hc).symm.trans hd
      exact hr.resolve_left ha
    · rw [Standing.cycleOf_withCycle_of_ne he] at hd
      exact h.reset a d hd fun hra => he (Option.some.inj (hra.symm.trans hrun))
  · rw [Standing.producers_withCycle, Standing.hired_withCycle]
    exact h.numbered

/-- **A visit that has not been handed a slot** may be passed over. -/
theorem skip {c : Poller.Cycle} (h : Attended p g) (hc : p.cycleOf owner = some c)
    (hrun : g.running = some owner)
    (hno : ({ actor := owner, slot := c.cursor + 1 } : Sender) ∉ p.granted) :
    Attended (p.withCycle { c with cursor := c.cursor + 1 } owner) g := by
  refine h.turn hc hrun (fun y hy hu => hu.imp_right fun ⟨hr, hd⟩ => ⟨hr, fun d hd' => ?_⟩)
    (.inl hrun)
  have hy' : y.actor = owner := Option.some.inj (hr.symm.trans hrun)
  rw [hy'] at hd hd'
  cases (Standing.cycleOf_withCycle hc).symm.trans hd'
  -- only the visit that is passed over could lose its turn
  refine Nat.lt_of_le_of_ne (hd c hc) fun he => hno ?_
  obtain ⟨a, k⟩ := y
  subst hy' he
  exact hy

/-- Nobody counts on a cycle that has asked all its visits. -/
theorem not_due_of_done {c : Poller.Cycle} (h : Attended p g) (hc : p.cycleOf owner = some c)
    (hrun : g.running = some owner) (hv : c.visits[c.cursor]? = none) :
    ∀ y ∈ p.granted, ¬ p.Due g y := by
  rintro y hy ⟨hr, hd⟩
  have ho := h.offering y (List.mem_append_right _ hy)
  have hy' : y.actor = owner := Option.some.inj (hr.symm.trans hrun)
  have hlt := hd c (by rw [hy']; exact hc)
  cases ho with
  | client ho =>
    subst hy'
    rw [Standing.cycleOf, ho] at hc
    cases hc
  | producer ho =>
    subst hy'
    cases hc
  | visit cycle turn _ =>
    subst hy'
    cases hc.symm.trans cycle
    -- the slots of a cycle are those of its visits, and the turn is past them all
    have hk := (List.getElem?_eq_some_iff.1 turn).1
    rw [List.getElem?_eq_none_iff] at hv
    dsimp only at hlt
    omega

/-- **A cycle that has asked all its visits** waits, and will start with the first
one again. -/
theorem wrap {c : Poller.Cycle} (h : Attended p g) (hc : p.cycleOf owner = some c)
    (hrun : g.running = some owner) (hv : c.visits[c.cursor]? = none) :
    Attended (p.withCycle { c with cursor := 0 } owner) g.rest :=
  h.turn hc hrun
    (fun y hy hu => .inl (hu.resolve_right (h.not_due_of_done hc hrun hv y hy)))
    (.inr rfl)

/-- **An actor that has no event waiting for room** may take up something else. -/
theorem change (h : Attended p g) (hf : ∀ x, p.Offering x → x.actor ≠ a)
    (hw : q.waiting = p.waiting) (hg : q.granted = p.granted)
    (ho : ∀ x, x.actor ≠ a → p.Offering x → q.Offering x)
    (hc : ∀ b, b ≠ a → q.cycleOf b = p.cycleOf b)
    (hwoken : ∀ b, b ≠ a → g.IsWoken b → g'.IsWoken b)
    (hrun : g'.running = g.running ∨ g.running = none ∨ g.running = some a)
    (hown : ∀ c, q.cycleOf a = some c → g'.running = some a)
    (hn : ∀ r ∈ q.producers, r.number < q.hired)
    (hst : q.polling = false → q.loop = .absent ∨ q.client = .awaitingLoop) :
    Attended q g' := by
  refine ⟨by rw [hw, hg]; exact h.nodup, ?_, ?_, ?_, hn, hst⟩
  · intro x hx
    rw [hw, hg] at hx
    exact ho x (hf x (h.offering x hx)) (h.offering x hx)
  · intro x hx
    rw [hg] at hx
    have hxa := hf x (h.offering x (List.mem_append_right _ hx))
    refine (h.used x hx).imp (hwoken _ hxa) fun ⟨hr, hd⟩ => ⟨?_, fun c hcx => ?_⟩
    · -- whoever is counted on is running, and is not the actor
      rcases hrun with he | hr' | hr'
      · exact he.trans hr
      · cases hr'.symm.trans hr
      · exact absurd (Option.some.inj (hr'.symm.trans hr)).symm hxa
    · rw [hc _ hxa] at hcx
      exact hd c hcx
  · intro b c hb hr
    have hba : b ≠ a := by
      rintro rfl
      exact hr (hown c hb)
    rw [hc b hba] at hb
    refine h.reset b c hb fun hgb => ?_
    rcases hrun with he | hr' | hr'
    · exact hr (he.trans hgb)
    · cases hr'.symm.trans hgb
    · exact hba (Option.some.inj (hr'.symm.trans hgb)).symm

/-- **A client that offers nothing** may take up something else. -/
theorem setClient {c : Client} {polling : Bool} (h : Attended p g)
    (hf : ∀ x, p.Offering x → x.actor ≠ .client)
    (hwoken : ∀ b, b ≠ .client → g.IsWoken b → g'.IsWoken b)
    (hrun : g'.running = g.running ∨ g.running = none ∨ g.running = some .client)
    (hown : ∀ d, c = .cycling d → g'.running = some .client)
    (hst : polling = false → p.loop = .absent ∨ c = .awaitingLoop) :
    Attended { p with client := c, polling } g' := by
  exact h.change hf rfl rfl (fun x hx ho => ho.setClient hx c polling)
    (fun b hb => Standing.cycleOf_client_of_ne c polling hb) hwoken hrun
    (fun d hd => hown d (Client.cycle?_eq_some.1 hd)) h.numbered hst

/-- **A loop that offers nothing** may take up something else. -/
theorem setLoop {l : Loop} {polling : Bool} (h : Attended p g)
    (hf : ∀ x, p.Offering x → x.actor ≠ .poller)
    (hwoken : ∀ b, b ≠ .poller → g.IsWoken b → g'.IsWoken b)
    (hrun : g'.running = g.running ∨ g.running = none ∨ g.running = some .poller)
    (hown : ∀ next d, l = .cycling next d → g'.running = some .poller)
    (hst : polling = false → l = .absent ∨ p.client = .awaitingLoop) :
    Attended { p with loop := l, polling } g' := by
  refine h.change hf rfl rfl (fun x hx ho => ho.setLoop hx l polling)
    (fun b hb => Standing.cycleOf_loop_of_ne l polling hb) hwoken hrun (fun d hd => ?_)
    h.numbered hst
  obtain ⟨next, hl⟩ := Loop.cycle?_eq_some.1 hd
  exact hown next d hl

/-- The next producer gets a number that nobody has. -/
theorem hire (h : Attended p g) : Attended { p with hired := p.hired + 1 } g where
  nodup := h.nodup
  offering := fun x hx => (h.offering x hx).setProducers _ fun _ hr _ => hr
  used := fun x hx => (h.used x hx).imp_right fun ⟨hr, hd⟩ =>
    ⟨hr, fun c hc => hd c ((Standing.cycleOf_producers ..).symm.trans hc)⟩
  reset := fun a c hc => h.reset a c ((Standing.cycleOf_producers ..).symm.trans hc)
  numbered := fun r hr => Nat.lt_succ_of_lt (h.numbered r hr)
  stopped := h.stopped

/-- **A slot is handed to the sender that came first**, and its sender is woken. -/
theorem grant {x : Sender} {waiting : List Sender} (h : Attended p g)
    (hw : p.waiting = x :: waiting) :
    Attended { p with waiting, granted := p.granted ++ [x] } (g.wake x.actor) := by
  have hperm : (waiting ++ (p.granted ++ [x])).Perm (p.waiting ++ p.granted) := by
    rw [hw, ← List.append_assoc, List.cons_append]
    exact List.perm_append_singleton _ _
  have hsame := Agenda.Stirs.wake g x.actor
  refine ⟨hperm.nodup_iff.2 h.nodup, ?_, ?_, ?_, h.numbered, h.stopped⟩
  · intro y hy
    exact (p.offering_queue y _ _).2 (h.offering y (hperm.mem_iff.1 hy))
  · intro y hy
    rcases List.mem_append.1 hy with hy | hy
    · refine (h.used y hy).imp (hsame.woken _) fun ⟨hr, hd⟩ => ⟨hsame.running.trans hr, ?_⟩
      rw [Standing.cycleOf_queue]
      exact hd
    · -- the sender that has been handed the slot is woken
      rw [List.mem_singleton] at hy
      subst hy
      exact .inl ((Agenda.isWoken_wake ..).2 (.inr rfl))
  · intro a c hc hr
    rw [Standing.cycleOf_queue] at hc
    exact h.reset a c hc (by rwa [← hsame.running])

/-- **All who wait are turned away.** -/
theorem close (h : Attended p g) : Attended { p with waiting := [], granted := [] } g where
  nodup := .nil
  offering := fun _ hx => nomatch hx
  used := fun _ hx => nomatch hx
  reset := fun a c hc hr => h.reset a c (by rwa [Standing.cycleOf_queue] at hc) hr
  numbered := h.numbered
  stopped := h.stopped

end Attended

end Rota.Relay
