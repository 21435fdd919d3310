import Mathlib.Data.List.Perm.Basic
import Mathlib.Data.List.Nodup
import Rota.Proofs.Relay.Ledger

/-!
# The accounts of the queue

What the ledger obeys at every moment, whatever happened before. Four
invariants, each kept by every change that `Ledger.Next` allows:

* `Conserved`: events are neither lost nor doubled. In the order in which they
  were accepted, they are those whose deliveries have begun, then the one that
  the worker holds, then those in the queue; and a delivery that has begun is
  either under way or has ended.
* `Counted`: the counts are the lengths of what they count.
* `Bounded`: neither the queue nor the deliveries under way outgrow their room.
* `Shut`: how far the worker has got on its way out.

`Ledger.Sound` puts them together, and `Ledger.Sound.next` is the step that
carries them along any course.
-/

namespace Rota.Relay

/-- The event of an offer that was accepted. -/
def Offer.accepted? (o : Offer) : Option Event :=
  match o.result with
  | .ok () => some o.event
  | .error _ => none

/-- The event of an offer that was turned away. -/
def Offer.refused? (o : Offer) : Option Event :=
  match o.result with
  | .ok () => none
  | .error _ => some o.event

/-- **The events accepted**, in order, where the latest offer comes first. -/
def admitted (offers : List Offer) : List Event :=
  (offers.filterMap Offer.accepted?).reverse

/-- **The events turned away**, in order. -/
def refused (offers : List Offer) : List Event :=
  (offers.filterMap Offer.refused?).reverse

section Offers

variable (x : Sender) (e : Event) (failure : Failure) (offers : List Offer)

@[simp] theorem admitted_ok :
    admitted ({ sender := x, event := e, result := .ok () } :: offers)
      = admitted offers ++ [e] := by
  simp [admitted, Offer.accepted?]

@[simp] theorem admitted_error :
    admitted ({ sender := x, event := e, result := .error failure } :: offers)
      = admitted offers := by
  unfold admitted
  rw [List.filterMap_cons_none rfl]

@[simp] theorem refused_ok :
    refused ({ sender := x, event := e, result := .ok () } :: offers) = refused offers := by
  unfold refused
  rw [List.filterMap_cons_none rfl]

@[simp] theorem refused_error :
    refused ({ sender := x, event := e, result := .error failure } :: offers)
      = refused offers ++ [e] := by
  simp [refused, Offer.refused?]

theorem admitted_append (later : List Offer) :
    admitted (later ++ offers) = admitted offers ++ admitted later := by
  unfold admitted
  rw [List.filterMap_append, List.reverse_append]

/-- The events accepted are some of those offered, in their order. -/
theorem accepted_sublist :
    (offers.filterMap Offer.accepted?).Sublist (offers.map Offer.event) := by
  induction offers with
  | nil => exact .slnil
  | cons o rest ih =>
    obtain ⟨x, e, result⟩ := o
    cases result with
    | ok _ => exact ih.cons_cons e
    | error failure => exact ih.cons e

/-- Among all events accepted, those of one sender stand in the order of its offers. -/
theorem accepted_sublist_admitted :
    ((offers.filter (·.sender = x)).reverse.filterMap Offer.accepted?).Sublist
      (admitted offers) := by
  unfold admitted
  rw [List.filterMap_reverse, List.reverse_sublist]
  exact List.filter_sublist.filterMap _

/-- Each offer that has ended was accepted or turned away. -/
theorem length_offers : offers.length = (admitted offers).length + (refused offers).length := by
  induction offers with
  | nil => rfl
  | cons o rest ih =>
    obtain ⟨x, e, result⟩ := o
    cases result with
    | ok _ =>
      rw [List.length_cons, ih, admitted_ok, refused_ok, List.length_append, List.length_singleton]
      omega
    | error failure =>
      rw [List.length_cons, ih, admitted_error, refused_error, List.length_append,
        List.length_singleton]
      omega

end Offers

/-- The event that the worker has taken and holds. -/
def Worker.held : Worker → List Event
  | holding e _ => [e]
  | _ => []

/-- Has the worker begun to end? -/
def Worker.isEnding : Worker → Bool
  | holding _ d => d
  | draining | parting | gone => true
  | _ => false

/-- Has the worker emptied the queue? -/
def Worker.isDone : Worker → Bool
  | parting | gone => true
  | _ => false

theorem Worker.isEnding_of_isDone {w : Worker} (h : w.isDone = true) : w.isEnding = true := by
  cases w <;> first | rfl | cases h

namespace Ledger

theorem held_between (draining : Bool) : (between draining).held = [] := by
  cases draining <;> rfl

theorem isEnding_between (draining : Bool) : (between draining).isEnding = draining := by
  cases draining <;> rfl

theorem isDone_between (draining : Bool) : (between draining).isDone = false := by
  cases draining <;> rfl

/-! ## Events are conserved -/

/-- **Events are neither lost nor doubled.** -/
structure Conserved (l : Ledger) : Prop where
  admitted_eq : admitted l.offers = l.begun.reverse ++ l.worker.held ++ l.queue.items
  begun_perm : l.begun.Perm (l.flights.map Prod.snd ++ l.landings.map Landing.event)
  nodup : (l.flights.map Prod.fst).Nodup
  lt_launched : ∀ f ∈ l.flights, f.1 < l.launched
  handed_eq : l.handed = l.landings.map Landing.record

/-- A flight that has ended was one of those under way. -/
theorem perm_land {flights : List (Nat × Event)} (hn : (flights.map Prod.fst).Nodup)
    {n : Nat} {e : Event} (h : (n, e) ∈ flights) :
    flights.Perm ((n, e) :: flights.filter (·.1 ≠ n)) := by
  induction flights with
  | nil => cases h
  | cons f rest ih =>
    rw [List.map_cons, List.nodup_cons] at hn
    rcases List.mem_cons.1 h with rfl | hr
    · -- no other flight has its number
      have hkeep : rest.filter (·.1 ≠ n) = rest := by
        refine List.filter_eq_self.2 fun g hg => ?_
        have hne : g.1 ≠ n := fun hgn => hn.1 (List.mem_map.2 ⟨g, hg, hgn⟩)
        simpa using hne
      rw [List.filter_cons_of_neg (by simp), hkeep]
    · have hf : f.1 ≠ n := fun hfn => hn.1 (List.mem_map.2 ⟨_, hr, hfn.symm⟩)
      rw [List.filter_cons_of_pos (by simpa using hf)]
      exact ((ih hn.2 hr).cons f).trans (.swap _ _ _)

theorem Conserved.next {l l' : Ledger} (h : l.Conserved) (hl : l.Next l') : l'.Conserved := by
  cases hl with
  | same => exact h
  | push x e _ _ | use x e _ _ =>
    refine { h with admitted_eq := ?_ }
    rw [admitted_ok, h.admitted_eq, List.append_assoc]
    rfl
  | refuse x e failure queue left _ =>
    refine { h with admitted_eq := ?_ }
    rw [admitted_error, h.admitted_eq]
    rcases left with rfl | rfl <;> rfl
  | await x _ _ => exact { h with admitted_eq := h.admitted_eq }
  | take e queue x draining free oldest =>
    refine { h with admitted_eq := ?_ }
    rw [h.admitted_eq, free, held_between, (Queue.take?_eq_some oldest).1]
    simp [Worker.held]
  | launch e draining holding _ =>
    have ha := h.admitted_eq
    rw [holding] at ha
    refine ⟨?_, ?_, ?_, ?_, h.handed_eq⟩
    · rw [held_between, List.append_nil, List.reverse_cons]
      exact ha
    · rw [List.map_append, List.append_assoc]
      exact (h.begun_perm.cons e).trans List.perm_middle.symm
    · rw [List.map_append, List.nodup_append]
      refine ⟨h.nodup, List.nodup_singleton _, ?_⟩
      intro a ha b hb hab
      obtain ⟨f, hf, rfl⟩ := List.mem_map.1 ha
      rw [List.map_singleton, List.mem_singleton] at hb
      exact absurd (hab.trans hb) (Nat.ne_of_lt (h.lt_launched f hf))
    · intro f hf
      rcases List.mem_append.1 hf with hf | hf
      · exact Nat.lt_succ_of_lt (h.lt_launched f hf)
      · rw [List.mem_singleton] at hf
        subst hf
        exact Nat.lt_succ_self _
  | land n e r flying =>
    have hp := (perm_land h.nodup flying).map Prod.snd
    refine ⟨h.admitted_eq, ?_, ?_, ?_, ?_⟩
    · refine h.begun_perm.trans ((hp.append_right _).trans ?_)
      exact List.perm_middle.symm
    · exact h.nodup.sublist (List.Sublist.map _ List.filter_sublist)
    · intro f hf
      exact h.lt_launched f (List.mem_of_mem_filter hf)
    · rw [List.map_cons, h.handed_eq]
  | start free | close free | part free _ | leave free _ =>
    -- the worker holds no event, neither before nor afterwards
    refine { h with admitted_eq := ?_ }
    have ha := h.admitted_eq
    rwa [free] at ha

/-- **Each accepted event is in exactly one place.** -/
theorem Conserved.admitted_perm {l : Ledger} (h : l.Conserved) :
    (admitted l.offers).Perm
      (l.queue.items ++ l.worker.held ++ l.flights.map Prod.snd
        ++ l.landings.map Landing.event) := by
  -- what has begun is under way or has ended
  have hrest : (l.begun.reverse ++ l.worker.held).Perm
      (l.worker.held ++ (l.flights.map Prod.snd ++ l.landings.map Landing.event)) :=
    List.perm_append_comm.trans (((List.reverse_perm _).trans h.begun_perm).append_left _)
  rw [h.admitted_eq, List.append_assoc l.queue.items, List.append_assoc l.queue.items,
    List.append_assoc l.worker.held]
  exact List.perm_append_comm.trans (hrest.append_left _)

/-! ## The counts are right -/

/-- **The counts are the lengths of what they count.** -/
structure Counted (l : Ledger) : Prop where
  enqueued_eq : l.counts.enqueued = (admitted l.offers).length
  rejected_eq : l.counts.rejected = (refused l.offers).length
  delivered_eq : l.counts.delivered = l.landings.countP (·.record.success)
  failed_eq : l.counts.failed = l.landings.countP (!·.record.success)

theorem Counted.next {l l' : Ledger} (h : l.Counted) (hl : l.Next l') : l'.Counted := by
  obtain ⟨he, hr, hd, hf⟩ := h
  cases hl with
  | push x e _ _ | use x e _ _ =>
    refine ⟨?_, ?_, hd, hf⟩
    · rw [admitted_ok, List.length_append, ← he]
      rfl
    · rw [refused_ok, hr]
  | refuse x e failure queue _ _ =>
    refine ⟨?_, ?_, hd, hf⟩
    · rw [admitted_error, he]
    · rw [refused_error, List.length_append, ← hr]
      rfl
  | land n e r _ =>
    cases hs : r.success with
    | true => exact ⟨he, hr, by simp [hs, hd], by simp [hs, hf]⟩
    | false => exact ⟨he, hr, by simp [hs, hd], by simp [hs, hf]⟩
  | same | await _ _ _ | take _ _ _ _ _ _ | launch _ _ _ _ | start _ | close _ | part _ _
  | leave _ _ => exact ⟨he, hr, hd, hf⟩

/-- Each delivery that has ended was counted once. -/
theorem Counted.finished_eq {l : Ledger} (h : l.Counted) :
    l.counts.delivered + l.counts.failed = l.landings.length := by
  have hlen := l.landings.length_eq_countP_add_countP (·.record.success)
  simp only [Bool.not_eq_true, Bool.decide_eq_false] at hlen
  rw [hlen]
  exact congrArg₂ (· + ·) h.delivered_eq h.failed_eq

/-! ## Nothing outgrows its room -/

/-- **Neither the queue nor the deliveries outgrow their room.** -/
structure Bounded (l : Ledger) : Prop where
  pending_le : l.queue.pending ≤ l.queue.capacity
  flights_le : l.flights.length ≤ l.workers

theorem Bounded.next {l l' : Ledger} (h : l.Bounded) (hl : l.Next l') : l'.Bounded := by
  obtain ⟨hp, hf⟩ := h
  cases hl with
  | push x e _ room =>
    refine ⟨?_, hf⟩
    rw [Queue.pending_push]
    exact (Queue.hasRoom_iff _).1 room
  | use x e _ granted => exact ⟨Nat.le_trans (Queue.pending_use _ x e granted) hp, hf⟩
  | refuse x e failure queue left _ =>
    rcases left with rfl | rfl
    · exact ⟨hp, hf⟩
    · exact ⟨hp, hf⟩
  | take e queue x draining _ oldest =>
    refine ⟨Nat.le_trans (Queue.pending_take? oldest) ?_, hf⟩
    rw [(Queue.take?_fixed oldest).1]
    exact hp
  | launch e draining _ room =>
    refine ⟨hp, ?_⟩
    rw [List.length_append, List.length_singleton]
    exact room
  | land n e r _ => exact ⟨hp, Nat.le_trans (List.length_filter_le _ _) hf⟩
  | close _ =>
    refine ⟨Nat.le_trans ?_ hp, hf⟩
    simp [Queue.close, Queue.pending]
  | same | await _ _ _ | start _ | part _ _ | leave _ _ => exact ⟨hp, hf⟩

/-! ## How the worker ends -/

/-- **How far the worker has got on its way out**: once it has begun to end, the
queue is closed and nobody waits for room; once it has emptied the queue, that
stays so; and when it is gone, it has found the free workers it waited for. -/
structure Shut (l : Ledger) : Prop where
  closed : l.worker.isEnding = true → l.queue.closed = true
  nobody : l.queue.closed = true → l.queue.waiting = [] ∧ l.queue.granted = []
  empty : l.worker.isDone = true → l.queue.items = []
  quorum : l.worker = .gone → l.workers % UInt32.size ≤ l.workers - l.flights.length

theorem Shut.next {l l' : Ledger} (h : l.Shut) (hl : l.Next l') : l'.Shut := by
  obtain ⟨hc, hn, he, hq⟩ := h
  cases hl with
  | same => exact ⟨hc, hn, he, hq⟩
  | push x e isOpen _ | use x e isOpen _ =>
    -- the queue is open, so the worker has not begun to end
    have hw : ∀ {p : Prop}, l.worker.isEnding = true → p := by
      intro p hw
      rw [hc hw] at isOpen
      cases isOpen
    have hcl : ∀ {p : Prop}, l.queue.closed = true → p := by
      intro p hcl
      rw [hcl] at isOpen
      cases isOpen
    exact ⟨hw, hcl, fun hd => hw (Worker.isEnding_of_isDone hd), hq⟩
  | refuse x e failure queue left _ =>
    rcases left with rfl | rfl
    · exact ⟨hc, hn, he, hq⟩
    · refine ⟨hc, fun hcl => ⟨?_, (hn hcl).2⟩, he, hq⟩
      simp [Queue.withdraw, (hn hcl).1]
  | await x isOpen _ =>
    refine ⟨hc, fun hcl => ?_, he, hq⟩
    rw [show (l.queue.await x).closed = l.queue.closed from rfl, isOpen] at hcl
    cases hcl
  | take e queue x draining free oldest =>
    rw [free, isEnding_between] at hc
    obtain ⟨-, ⟨-, -, hr⟩ | ⟨y, waiting, -, hw, hr⟩⟩ := Queue.take?_eq_some oldest
    · rw [hr]
      exact ⟨hc, hn, (nomatch ·), (nomatch ·)⟩
    · -- somebody waits, so the queue is open
      rw [hr]
      refine ⟨hc, fun hcl => ?_, (nomatch ·), (nomatch ·)⟩
      rw [(hn hcl).1] at hw
      cases hw
  | launch e draining holding _ =>
    rw [holding] at hc
    refine ⟨?_, hn, ?_, ?_⟩
    · rw [isEnding_between]
      exact hc
    · rw [isDone_between]
      exact (nomatch ·)
    · intro hg
      cases draining <;> cases hg
  | land n e r _ =>
    refine ⟨hc, hn, he, fun hg => Nat.le_trans (hq hg) ?_⟩
    exact Nat.sub_le_sub_left (List.length_filter_le _ _) _
  | start unstarted =>
    exact ⟨(nomatch ·), hn, (nomatch ·), (nomatch ·)⟩
  | close idle =>
    exact ⟨fun _ => rfl, fun _ => ⟨rfl, rfl⟩, (nomatch ·), (nomatch ·)⟩
  | part draining empty =>
    rw [draining] at hc
    exact ⟨fun _ => hc rfl, hn, fun _ => (Queue.take?_eq_none_iff _).1 empty, (nomatch ·)⟩
  | leave parting quorum =>
    rw [parting] at hc he
    exact ⟨fun _ => hc rfl, hn, fun _ => he rfl, fun _ => quorum⟩

/-! ## All accounts together -/

/-- What was offered stays on the list. -/
theorem Next.offers_suffix {l l' : Ledger} (h : l.Next l') : l.offers <:+ l'.offers := by
  cases h with
  | push _ _ _ _ | use _ _ _ _ | refuse _ _ _ _ _ _ => exact List.suffix_cons _ _
  | _ => exact List.suffix_rfl

/-- Neither the room of the queue nor the number of workers ever changes. -/
theorem Next.fixed {l l' : Ledger} (h : l.Next l') :
    l'.queue.capacity = l.queue.capacity ∧ l'.workers = l.workers := by
  cases h with
  | refuse x e failure queue left _ => rcases left with rfl | rfl <;> exact ⟨rfl, rfl⟩
  | take e queue x draining _ oldest => exact ⟨(Queue.take?_fixed oldest).1, rfl⟩
  | _ => exact ⟨rfl, rfl⟩

/-- An event is accepted, or turned away because the queue is closed or full. -/
def Explained (l : Ledger) : Prop :=
  ∀ o ∈ l.offers, o.result = .ok () ∨ o.result = .error .queueClosed
    ∨ o.result = .error (.queueFull l.queue.capacity)

theorem Explained.next {l l' : Ledger} (h : l.Explained) (hl : l.Next l') : l'.Explained := by
  unfold Explained
  rw [hl.fixed.1]
  cases hl with
  | push x e _ _ | use x e _ _ =>
    intro o ho
    rcases List.mem_cons.1 ho with rfl | ho
    · exact .inl rfl
    · exact h o ho
  | refuse x e failure queue _ cause =>
    intro o ho
    rcases List.mem_cons.1 ho with rfl | ho
    · rcases cause with rfl | rfl
      · exact .inr (.inl rfl)
      · exact .inr (.inr rfl)
    · exact h o ho
  | _ => exact h

/-- **The accounts are sound.** -/
structure Sound (l : Ledger) : Prop where
  conserved : l.Conserved
  counted : l.Counted
  bounded : l.Bounded
  shut : l.Shut
  explained : l.Explained

/-- **The accounts stay sound**, whatever happens. -/
theorem Sound.next {l l' : Ledger} (h : l.Sound) (hl : l.Next l') : l'.Sound :=
  ⟨h.conserved.next hl, h.counted.next hl, h.bounded.next hl, h.shut.next hl,
    h.explained.next hl⟩

end Ledger

namespace System

theorem map_snd_flights_ledger (s : System) :
    s.ledger.flights.map Prod.snd = s.flights.map Flight.event := by
  rw [flights_ledger, List.map_map]
  rfl

section New

variable (settings : Settings) (capacity auditCapacity : Nat) (audited : Bool) (grace : Nat)
  (resolver : Directory.Resolver)

/-- At first nothing has happened. -/
theorem ledger_new :
    (new settings capacity auditCapacity audited grace resolver).ledger
      = { queue := { capacity := max capacity 1 }
          worker := .unstarted
          counts := {}
          flights := []
          launched := 0
          begun := []
          offers := []
          landings := []
          handed := []
          workers := max settings.workers 1 } := rfl

/-- At first the accounts are empty. -/
theorem sound_new :
    (new settings capacity auditCapacity audited grace resolver).ledger.Sound := by
  rw [ledger_new]
  exact {
    conserved := ⟨rfl, .refl _, .nil, (fun _ hf => nomatch hf), rfl⟩
    counted := ⟨rfl, rfl, rfl, rfl⟩
    bounded := ⟨Nat.zero_le _, Nat.zero_le _⟩
    shut := ⟨(nomatch ·), (nomatch ·), (nomatch ·), (nomatch ·)⟩
    explained := fun _ ho => nomatch ho }

end New

/-- **Along every course** the accounts stay sound, and the room and the number
of workers stay what they are. -/
theorem Course.sound {o : Outside} {s s' : System} (h : Course o s s') (hs : s.ledger.Sound) :
    s'.ledger.Sound ∧ s'.queue.capacity = s.queue.capacity
      ∧ s'.settings.workers = s.settings.workers := by
  induction h with
  | refl => exact ⟨hs, rfl, rfl⟩
  | tail _ hadv ih =>
    obtain ⟨hs, hc, hw⟩ := ih
    obtain ⟨hc', hw'⟩ := hadv.next.fixed
    exact ⟨hs.next hadv.next, hc'.trans hc, hw'.trans hw⟩

theorem Course.offers_suffix {o : Outside} {s s' : System} (h : Course o s s') :
    s.offers <:+ s'.offers := by
  induction h with
  | refl => exact List.suffix_rfl
  | tail _ hadv ih => exact ih.trans hadv.next.offers_suffix

/-- **The events that have come into the queue**, in order: those whose deliveries have
begun, the one that the worker holds, and those that are still there. -/
def arrivals (s : System) : List Event :=
  s.begun.reverse ++ s.worker.held ++ s.queue.items

/-- What has come into the queue is what was accepted, in the same order. -/
theorem Course.arrivals_eq {o : Outside} {settings : Settings} {capacity auditCapacity : Nat}
    {audited : Bool} {grace : Nat} {resolver : Directory.Resolver} {s : System}
    (h : Course o (new settings capacity auditCapacity audited grace resolver) s) :
    s.arrivals = admitted s.offers :=
  (Course.sound h (sound_new ..)).1.conserved.admitted_eq.symm

end System

end Rota.Relay
