import Rota.Gateway
import Rota.Proofs.Relay.Tracing

/-!
# Courses of the gateway

Through the gateway, callers meet a service that is running. `Advance` is one
thing that can happen to the two of them: the service makes an advance, in
whatever world outside; a request is answered, whatever the directory says; or
the directory and the log change. A **course** is any number of these, in any
order.

Answering a request touches the service in one place only, its queue: the
deliveries and the records are left alone (`outbound_answer`), and to the ledger
happens nothing new (`next_answer`). So what holds along every course of the
service also holds along every course of the gateway (`Course.sound`,
`Course.outbound`).
-/

namespace Rota.Gateway

open Relay (Outside Outbound System)

/-- **What can happen next** to a gateway and its service. -/
inductive Advance : Gateway → Gateway → Prop
  /-- The service goes on. -/
  | serve {g : Gateway} {o : Outside} {s : System} (advance : System.Advance o g.system s) :
      Advance g { g with system := s }
  /-- A request is answered. -/
  | answer {g : Gateway} (ask : Key → Except Failure Identity) (r : Request) :
      Advance g (g.answer ask r).2
  /-- The directory and the log are changed by others. -/
  | elsewhere {g : Gateway} (directory : Directory) (log : Option Audit.Log) :
      Advance g { g with directory, log }

/-- **A course**: one thing after the other. -/
abbrev Course : Gateway → Gateway → Prop :=
  Relation.ReflTransGen Advance

/-- **Can a gateway be in this state?** Its service began at rest. -/
def Reachable (g : Gateway) : Prop :=
  ∃ (start : Gateway) (settings : Relay.Settings) (capacity auditCapacity : Nat)
    (audited : Bool) (grace : Nat) (resolver : Directory.Resolver),
    start.system = .new settings capacity auditCapacity audited grace resolver ∧ Course start g

/-! ## What an answer changes -/

/-- **What an answer does**: nothing, or somebody is notified, or a user list is taken
over. -/
inductive Effect (g : Gateway) (ask : Key → Except Failure Identity) : Gateway → Prop
  | nothing : Effect g ask g
  | notify (channel : Channel) (n : Notice) : Effect g ask (g.notify ask channel n).2
  | sync (entries : List Directory.Entry) : Effect g ask (g.sync entries).2

/-- **What an answer does to the service**: at most somebody is remembered, an id is given
out, and an event is offered. -/
inductive Answered (s : System) : System → Prop
  | same : Answered s s
  | remembered (resolver : Directory.Resolver) (ids : Nat) :
      Answered s { s with resolver, ids }
  | offered (resolver : Directory.Resolver) (ids : Nat) (e : Event) :
      Answered s (({ s with resolver, ids } : System).enqueue e).2

section Answer

variable (g : Gateway) (ask : Key → Except Failure Identity)

theorem effect_answerRoute (r : Request) (route : Route) :
    Effect g ask (g.answerRoute ask r route).2 := by
  unfold answerRoute
  split
  · next channel =>
    split
    · exact .nothing
    · next n _ => exact .notify channel n
  · split
    · exact .nothing
    · next entries _ => exact .sync entries
  · exact .nothing
  · exact .nothing
  · split <;> exact .nothing

theorem effect_answer (r : Request) : Effect g ask (g.answer ask r).2 := by
  unfold answer
  dsimp only
  split
  · exact .nothing
  · split
    · exact .nothing
    · next route _ =>
      split
      · exact effect_answerRoute g ask r route
      · exact .nothing

theorem answered_notify (channel : Channel) (n : Notice) :
    Answered g.system (g.notify ask channel n).2.system := by
  unfold notify
  split
  · exact .same
  · dsimp only
    split
    · exact .remembered _ _
    · exact .offered _ _ _

/-- Taking over a user list leaves the service alone. -/
theorem system_sync (entries : List Directory.Entry) : (g.sync entries).2.system = g.system := by
  unfold sync
  split <;> rfl

theorem answered_answer (r : Request) : Answered g.system (g.answer ask r).2.system := by
  have h := effect_answer g ask r
  generalize (g.answer ask r).2 = g' at h
  cases h with
  | nothing => exact .same
  | notify channel n => exact answered_notify g ask channel n
  | sync entries =>
    rw [system_sync]
    exact .same

/-- **Answering a request sends nothing out.** -/
theorem outbound_answer (r : Request) :
    (g.answer ask r).2.system.outbound = g.system.outbound := by
  have h := answered_answer g ask r
  generalize (g.answer ask r).2.system = s at h
  cases h with
  | same | remembered _ _ => rfl
  | offered resolver ids e => exact (System.within_enqueue _ _ _).outbound

theorem next_answer (r : Request) :
    g.system.ledger.Next (g.answer ask r).2.system.ledger := by
  have h := answered_answer g ask r
  generalize (g.answer ask r).2.system = s at h
  cases h with
  | same | remembered _ _ => exact .same
  | offered resolver ids e =>
    exact System.next_enqueue { g.system with resolver, ids } e { actor := .client }

end Answer

/-! ## Along a course -/

theorem Advance.outbound {g g' : Gateway} (h : Advance g g') :
    g.system.outbound.Step g'.system.outbound := by
  cases h with
  | serve advance => exact advance.outbound
  | answer ask r =>
    rw [outbound_answer]
    exact .same
  | elsewhere _ _ => exact .same

theorem Advance.next {g g' : Gateway} (h : Advance g g') :
    g.system.ledger.Next g'.system.ledger := by
  cases h with
  | serve advance => exact advance.next
  | answer ask r => exact next_answer g ask r
  | elsewhere _ _ => exact .same

theorem Course.outbound {g g' : Gateway} (h : Course g g') :
    Relation.ReflTransGen Outbound.Step g.system.outbound g'.system.outbound := by
  induction h with
  | refl => exact .refl
  | tail _ hadv ih => exact ih.tail hadv.outbound

/-- **Whatever happens**, the accounts of the queue stay sound. -/
theorem Course.sound {g g' : Gateway} (h : Course g g') (hs : g.system.ledger.Sound) :
    g'.system.ledger.Sound := by
  induction h with
  | refl => exact hs
  | tail _ hadv ih => exact ih.next hadv.next

/-- **In every state that a gateway can be in**, the accounts of the queue are sound and
every delivery can be traced. -/
theorem Reachable.sound {g : Gateway} (h : g.Reachable) :
    g.system.ledger.Sound ∧ g.system.outbound.Traced := by
  obtain ⟨start, settings, capacity, auditCapacity, audited, grace, resolver, hs, hc⟩ := h
  refine ⟨hc.sound ?_, Outbound.Traced.course ?_ hc.outbound⟩
  · rw [hs]
    exact System.sound_new ..
  · rw [hs]
    exact Outbound.traced_new ..

theorem Reachable.course {g g' : Gateway} (h : g.Reachable) (hc : Course g g') :
    g'.Reachable := by
  obtain ⟨start, settings, capacity, auditCapacity, audited, grace, resolver, hs, h⟩ := h
  exact ⟨start, settings, capacity, auditCapacity, audited, grace, resolver, hs, h.trans hc⟩

/-- **Letting the service run** for a request of its client is a course. -/
theorem course_run (g : Gateway) (ask : Key → Except Failure Identity) (o : Outside)
    (fuel : Nat) (r : Relay.Request) (answered : g.system.isAnswered = true)
    (idle : g.system.agenda.running = none) (plain : r.isRecord = false) :
    Course g (g.run ask o fuel r).2 := by
  have hserve : System.Course (g.outside ask o) g.system
      (g.system.serve (g.outside ask o) fuel r).2 :=
    .trans (.single (.request r answered (.inl idle) plain))
      ((System.course_run _ fuel _).trans (System.course_settle _ fuel _))
  have hlift : ∀ {s : System}, System.Course (g.outside ask o) g.system s →
      Course g { g with system := s } := by
    intro s hs
    induction hs with
    | refl => exact .refl
    | tail _ hadv ih => exact ih.tail (.serve hadv)
  exact (hlift hserve).tail (.elsewhere g.directory _)

end Rota.Gateway
