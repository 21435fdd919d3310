import Rota.Proofs.Relay.Attendance

/-!
# Every event is accounted for

Whatever is offered to the service, in whatever order, and however slowly or
badly the world outside answers: an accepted event is in exactly one place – in
the queue, in the hands of the worker, under way, or ended – and an event that
was turned away is in none of them. `Balanced` is what the accounts of a service
say at one moment, and `Course.balanced` that they say so at every moment of
every course from a fresh service.

The accounts can be trusted: an offer is entered with its sender, its event and
the very result that the sender gets, once, when it ends (`offers_enqueue`,
`offers_offer`, `offers_offerAgain`).
-/

namespace Rota.Relay.System

/-! ## Offers are entered as they end -/

section Offers

variable (s : System) (e : Event) (x : Sender)

theorem offers_accepted :
    (s.accepted x e).offers = { sender := x, event := e, result := .ok () } :: s.offers :=
  congrArg Ledger.offers (ledger_accepted s x e)

theorem offers_enqueue :
    (s.enqueue e x).2.offers
      = { sender := x, event := e, result := (s.enqueue e x).1 } :: s.offers := by
  unfold enqueue
  split
  · rfl
  · split
    · exact offers_accepted _ _ _
    · rfl

/-- Nothing is entered while the sender waits. -/
theorem offers_offer (limit : Nat) :
    (s.offer x e limit).2.offers
      = ((s.offer x e limit).1.map fun result => { sender := x, event := e, result }).toList
        ++ s.offers := by
  unfold offer
  split
  · exact offers_enqueue s e x
  · rfl

theorem offers_offerAgain (deadline : Nat) :
    (s.offerAgain x e deadline).2.offers
      = ((s.offerAgain x e deadline).1.map fun result =>
          { sender := x, event := e, result }).toList
        ++ s.offers := by
  unfold offerAgain
  split
  · rfl
  · split
    · exact offers_accepted _ _ _
    · split <;> rfl

end Offers

/-! ## Where the events are -/

/-- **What the accounts of a service say**, if its queue has so much room and so
many deliveries may be under way at once. -/
structure Balanced (s : System) (capacity workers : Nat) : Prop where
  /-- The slots taken never outnumber the slots. -/
  pending_le : s.queue.pending ≤ capacity
  /-- When everyone waits, the slots taken are those of the queued events. -/
  pending_eq : s.agenda.isSettled = true → s.queue.pending = s.queue.items.length
  enqueued_eq : s.counts.enqueued = (admitted s.offers).length
  rejected_eq : s.counts.rejected = (refused s.offers).length
  offers_eq : s.counts.enqueued + s.counts.rejected = s.offers.length
  /-- An event is turned away because the queue is closed or full. -/
  refused_why : ∀ o ∈ s.offers, o.result = .ok () ∨ o.result = .error .queueClosed
    ∨ o.result = .error (.queueFull capacity)
  /-- **Each accepted event is in exactly one place.** -/
  admitted_perm : (admitted s.offers).Perm
    (s.queue.items ++ s.worker.held ++ s.flights.map Flight.event
      ++ s.landings.map Landing.event)
  held_le : s.worker.held.length ≤ 1
  flights_le : s.flights.length ≤ workers
  /-- The deliveries begun are those of accepted events, each at most once. -/
  begun_prefix : s.begun.reverse <+: admitted s.offers
  begun_perm : s.begun.Perm (s.flights.map Flight.event ++ s.landings.map Landing.event)
  /-- What was only turned away is never delivered. -/
  not_begun : ∀ e ∈ refused s.offers, e ∉ admitted s.offers → e ∉ s.begun
  delivered_eq : s.counts.delivered = s.landings.countP (·.record.success)
  finished_eq : s.counts.delivered + s.counts.failed = s.landings.length
  /-- Each delivery that has ended has handed over its record, and nobody else has. -/
  records_eq : s.pipeline.offered = s.landings.map Landing.record

/-- **Every event is accounted for**, in every course of a fresh service. -/
theorem Course.balanced {o : Outside} {settings : Settings} {capacity auditCapacity : Nat}
    {audited : Bool} {grace : Nat} {resolver : Directory.Resolver} {s : System}
    (h : Course o (new settings capacity auditCapacity audited grace resolver) s) :
    s.Balanced (max capacity 1) (max settings.workers 1) := by
  obtain ⟨hs, hcap, hwork⟩ := Course.sound h (sound_new ..)
  have hatt := Course.attended h (sound_new ..) (attended_new ..)
  have hbegun := hs.conserved.begun_perm
  rw [map_snd_flights_ledger] at hbegun
  have hadmitted : admitted s.offers = s.begun.reverse ++ s.worker.held ++ s.queue.items :=
    hs.conserved.admitted_eq
  refine {
    pending_le := Nat.le_trans hs.bounded.pending_le (Nat.le_of_eq hcap)
    pending_eq := fun hset => ?_
    enqueued_eq := hs.counted.enqueued_eq
    rejected_eq := hs.counted.rejected_eq
    offers_eq := ?_
    refused_why := ?_
    admitted_perm := map_snd_flights_ledger s ▸ hs.conserved.admitted_perm
    held_le := ?_
    flights_le := ?_
    begun_prefix := ⟨s.worker.held ++ s.queue.items, by rw [hadmitted, List.append_assoc]⟩
    begun_perm := hbegun
    not_begun := fun e _ he hb => he ?_
    delivered_eq := hs.counted.delivered_eq
    finished_eq := hs.counted.finished_eq
    records_eq := hs.conserved.handed_eq }
  · have hg : s.queue.granted = [] := hatt.granted_eq_nil hset
    rw [Queue.pending, hg]
    rfl
  · rw [length_offers s.offers]
    exact congrArg₂ (· + ·) hs.counted.enqueued_eq hs.counted.rejected_eq
  · have he := hs.explained
    unfold Ledger.Explained at he
    rw [show s.ledger.queue.capacity = s.queue.capacity from rfl, hcap] at he
    exact he
  · cases s.worker <;> simp [Worker.held]
  · have hle := hs.bounded.flights_le
    rw [flights_ledger, List.length_map, workers_ledger, hwork] at hle
    exact hle
  · rw [hadmitted, List.append_assoc]
    exact List.mem_append_left _ (List.mem_reverse.2 hb)

/-- A service with one worker and one slot. Its first call is answered at once, and
no other call ever. After these requests one event has ended, one is under way, one is
held, one is queued, and one was turned away. -/
theorem balanced_crowded :
    let o : Outside :=
      { lookup := fun _ key => { answer := .error (.unknownPerson key.text) }
        call := fun n _ => { delay := if n = 0 then some 0 else none, answer := .ok () }
        append := fun _ _ => { answer := .ok () }
        fetch := fun _ _ => { answer := .error (.fetch "no source") } }
    let event : Event := { id := "a", delivery := .callback "u", title := "t", message := "m" }
    let fresh := new { workers := 1 } 1 4 true 5000 {}
    let s := fresh.serveAll o 50
      [.start, .enqueue event, .enqueue event, .enqueue event, .enqueue event, .enqueue event]
    (s.counts = { enqueued := 4, rejected := 1, delivered := 1, failed := 0 }
      ∧ s.queue.pending = 1 ∧ s.flights.length = 1) ∧ s.Balanced 1 1 := by
  intro o event fresh s
  exact ⟨by decide +kernel, Course.balanced (course_serveAll o 50 fresh _ (by decide +kernel))⟩

end Rota.Relay.System
