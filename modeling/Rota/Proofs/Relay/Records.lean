import Rota.Proofs.Relay.Outbound

/-!
# Every record is accounted for

Records come from the deliveries that end, and from anybody else who offers
one, at any moment; the writer is started, stopped or dropped at any moment, and
the log answers as it likes. `Accounted` is what the accounts of the records say
at one moment, and `accounted_of_happenings` that they say so at every moment of
a service that keeps records.

The accounts are about the records that were really offered: between two moments
nothing but offers changes what was dropped and what was accepted
(`Happening.offers`).
-/

namespace Rota

namespace Audit

theorem length_logged (appends : List Append) :
    (logged appends).length + appends.countP (!·.succeeded) = appends.length := by
  have h := appends.length_eq_countP_add_countP Append.succeeded
  simp only [Bool.not_eq_true, Bool.decide_eq_false] at h
  rw [logged, List.length_map, List.length_reverse, ← List.countP_eq_length_filter, h]

namespace Pipeline

/-! ## What the accounts say -/

/-- **The time for the flush was up** when the writer was cut off. -/
def IsLate (p : Pipeline) (grace : Nat) : Prop :=
  ∃ time begun, p.ending = some (.cutOff time) ∧ p.flushed = some begun ∧ begun + grace ≤ time

/-- **What the accounts of the records say**, if there is room for so many records and a
flush may take so long. -/
structure Accounted (p : Pipeline) (capacity grace : Nat) : Prop where
  /-- **Each record offered is in exactly one place.** -/
  offered_eq : p.offered.length = p.dropped + p.written + p.failed + p.buffer.length
    + p.writer.inHand.length + p.abandoned.length
  inHand_le : p.writer.inHand.length ≤ 1
  buffer_le : p.buffer.length ≤ capacity
  /-- **A record offered now is dropped**, and counted, exactly if the buffer is full or
  the writer is closing it. -/
  offer_eq : ∀ r, p.offer r =
    if capacity ≤ p.buffer.length ∨ p.writer.isClosing = true then
      { p with offered := r :: p.offered, dropped := p.dropped + 1 }
    else { p with
      offered := r :: p.offered
      accepted := r :: p.accepted
      buffer := p.buffer ++ [r] }
  /-- What was not dropped was accepted, in the same order. -/
  accepted_length : p.accepted.length + p.dropped = p.offered.length
  accepted_sublist : p.accepted.Sublist p.offered
  /-- **In the order in which they were accepted** the records are those whose append was
  begun, each once, those in the buffer, and those that nobody took. -/
  accepted_eq : p.accepted.reverse
    = p.attempted.reverse.map Append.record ++ p.buffer ++ p.discarded
  /-- **The log has exactly the records whose append succeeded**, in that order. -/
  attempted_eq : ∃ ended, p.attempted = p.writer.inHand ++ p.cut.toList ++ ended
    ∧ p.stored = logged ended ∧ p.failed = ended.countP (!·.succeeded)
  /-- Records are given up only if the writer was dropped, or its time was up. -/
  abandoned_why : p.abandoned ≠ [] → p.ending = some .dropped ∨ p.IsLate grace
  /-- **A writer that ends in time** has given nothing up. -/
  over_why : p.isOver = true → p.ending = some .dropped ∨ p.IsLate grace
    ∨ p.ending = some .finished ∧ p.abandoned = []
      ∧ p.offered.length = p.dropped + p.written + p.failed

theorem Conserved.accounted {p : Pipeline} (h : p.Conserved) :
    p.Accounted p.capacity p.grace := by
  obtain ⟨⟨enabled, hoffered, hsub, hle, hclosed⟩, hstage, haccepted, ended, hattempted, hlogged⟩ :=
    h
  have hsum : p.offered.length = p.dropped + p.written + p.failed + p.buffer.length
      + p.writer.inHand.length + p.abandoned.length := by
    -- what was accepted was begun, is in the buffer, or was discarded
    have hlen := congrArg List.length haccepted
    have hbegun := congrArg List.length hattempted
    have hended := length_logged ended
    rw [← hlogged.1, ← hlogged.2] at hended
    simp only [List.length_append, List.length_map, List.length_reverse] at hlen hbegun
    simp only [written, abandoned, List.length_append, List.length_map]
    omega
  refine {
    offered_eq := hsum
    inHand_le := p.writer.length_inHand_le
    buffer_le := hle
    offer_eq := fun r => ?_
    accepted_length := hoffered.symm
    accepted_sublist := hsub
    accepted_eq := haccepted
    attempted_eq := ⟨ended, hattempted, hlogged⟩
    abandoned_why := fun hne => ?_
    over_why := fun hover => ?_ }
  · rw [offer_eq p r enabled, isShut, hclosed]
    simp only [Bool.or_eq_true, decide_eq_true_eq, or_comm]
  · cases hstage with
    | running _ _ kept => exact absurd kept hne
    | dropped ending _ _ => exact .inl ending
    | finished _ _ _ kept => exact absurd kept hne
    | late ending _ _ flushed late => exact .inr ⟨_, _, ending, flushed, late⟩
  · cases hstage with
    | running _ alive _ _ =>
      rw [alive] at hover
      cases hover
    | dropped ending _ _ => exact .inl ending
    | finished ending gone empty kept =>
      refine .inr (.inr ⟨ending, kept, ?_⟩)
      rw [hsum, empty, kept, gone]
      rfl
    | late ending _ _ flushed late => exact .inr (.inl ⟨_, _, ending, flushed, late⟩)

end Pipeline

end Audit

namespace Relay.System

open Rota.Audit (Pipeline Record)

/-! ## What can happen to the records -/

/-- **What can happen** in a service whose records are looked after. Besides what the
service does, anybody may offer records at any moment, and may start the writer, tell it
to stop or drop it. -/
inductive Happening (o : Outside) : System → System → Prop
  | advance {s s' : System} (advance : Advance o s s') : Happening o s s'
  | record {s : System} (r : Record) : Happening o s (s.record r)
  /-- The client offers a record several times. -/
  | request {s : System} (r : Record) (times : Nat) (answered : s.isAnswered = true) :
      Happening o s (s.request (.record r times))
  | start {s : System} : Happening o s s.startWriter
  | stop {s : System} : Happening o s s.signalWriter
  | leave {s : System} : Happening o s s.endRecords
  | drop {s : System} : Happening o s s.dropWriter

theorem pipeline_record (s : System) (r : Record) :
    (s.record r).pipeline = s.pipeline.offer r :=
  congrArg Outbound.pipeline (outbound_record s r)

/-- Offering a record several times is offering it once, again and again. -/
theorem pipeline_recordTimes (s : System) (r : Record) (times : Nat) :
    (s.recordTimes r times).pipeline
      = (List.replicate times r).foldl Pipeline.offer s.pipeline := by
  induction times generalizing s with
  | zero => rfl
  | succ times ih =>
    rw [recordTimes, ih, pipeline_record, List.replicate_succ, List.foldl_cons]

/-- **What happens to the records** is a number of offers, or one other thing. -/
theorem Happening.pipeline {o : Outside} {s s' : System} (h : Happening o s s') :
    s.pipeline.Next s'.pipeline
      ∨ ∃ records : List Record, s'.pipeline = records.foldl Pipeline.offer s.pipeline := by
  cases h with
  | advance h => exact .inl h.outbound.pipeline
  | record r => exact .inr ⟨[r], pipeline_record s r⟩
  | request r times _ => exact .inr ⟨_, pipeline_recordTimes s r times⟩
  | start => exact .inl (step_startWriter s).pipeline
  | stop => exact .inl (step_signalWriter s).pipeline
  | leave => exact .inl (step_endRecords s).pipeline
  | drop => exact .inl (step_dropWriter s).pipeline

/-- **Only offers** change what became of the offers. -/
theorem Happening.offers {o : Outside} {s s' : System} (h : Happening o s s') :
    ∃ records : List Record,
      s'.pipeline.tally = (records.foldl Pipeline.offer s.pipeline).tally := by
  rcases h.pipeline with hnext | ⟨records, hoffers⟩
  · rcases hnext.tally with htally | ⟨r, hoffer⟩
    · exact ⟨[], htally⟩
    · exact ⟨[r], by rw [hoffer]; rfl⟩
  · exact ⟨records, by rw [hoffers]⟩

/-- What happens to the records in a service is a course of theirs. -/
theorem course_of_happenings {o : Outside} {s s' : System}
    (h : Relation.ReflTransGen (Happening o) s s') : Pipeline.Course s.pipeline s'.pipeline := by
  induction h with
  | refl => exact .refl
  | tail _ hlast ih =>
    rcases hlast.pipeline with hnext | ⟨records, hoffers⟩
    · exact ih.tail hnext
    · rw [hoffers]
      exact ih.trans (Pipeline.course_offers _ records)

/-- **Every record is accounted for** in a service that keeps records, whatever happens
and however the log answers; and between two moments nothing but offers changes what
was dropped and what was accepted. -/
theorem accounted_of_happenings {o : Outside} {settings : Settings}
    {capacity auditCapacity : Nat} {grace : Nat} {resolver : Directory.Resolver} {s : System}
    (h : Relation.ReflTransGen (Happening o)
      (new settings capacity auditCapacity true grace resolver) s) :
    s.pipeline.Accounted (max auditCapacity 1) grace
      ∧ ∀ s', Happening o s s' → ∃ records : List Record,
          s'.pipeline.tally = (records.foldl Pipeline.offer s.pipeline).tally := by
  obtain ⟨hc, hcap, hgrace⟩ := (course_of_happenings h).conserved (Pipeline.conserved_new ..)
  refine ⟨?_, fun s' hs => hs.offers⟩
  have ha := hc.accounted
  rw [hcap, hgrace] at ha
  exact ha

/-- A log that takes a second for each record, and cannot take the first one. There is
room for two records in front of it, and two are dropped. The last record is cut off half
a second after the flush began. -/
theorem accounted_cut_off :
    let o : Outside :=
      { lookup := fun _ key => { answer := .error (.unknownPerson key.text) }
        call := fun _ _ => { answer := .ok () }
        append := fun n _ =>
          { delay := some 1000, answer := if n = 0 then .error .queueClosed else .ok () }
        fetch := fun _ _ => { answer := .error (.fetch "no source") } }
    let event (url : String) : Event :=
      { id := "a", delivery := .callback url, title := "t", message := "m" }
    let fresh := new {} 8 2 true 500 {}
    let s := fresh.serveAll o 200
      [.start, .enqueue (event "a"), .enqueue (event "b"), .enqueue (event "c"),
        .enqueue (event "d"), .sleep 1000, .enqueue (event "e"), .enqueue (event "f"),
        .sleep 1000, .shutdown]
    (s.pipeline.offered.length = 6 ∧ s.pipeline.dropped = 2 ∧ s.pipeline.failed = 1
      ∧ s.pipeline.stored.map Record.recipient = ["b", "c"]
      ∧ s.pipeline.abandoned.map Record.recipient = ["e"]
      ∧ s.pipeline.ending = some (.cutOff 3500) ∧ s.pipeline.flushed = some 3000)
      ∧ s.pipeline.Accounted 2 500 := by
  intro o event fresh s
  have hcourse : Course o fresh s := course_serveAll o 200 fresh _ (by decide +kernel)
  exact ⟨by decide +kernel,
    (accounted_of_happenings (Relation.ReflTransGen.mono (fun _ _ => .advance) _ _ hcourse)).1⟩

end Relay.System

end Rota
