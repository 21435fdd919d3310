import Mathlib.Data.List.Basic
import Mathlib.Logic.Relation
import Rota.Audit.Pipeline

/-!
# No record is lost in silence

A record that is offered is dropped at once, or it waits in the buffer until the
writer takes it. From then on it is being appended, and in the end it is in the
log, has failed, or was given up.

`Pipeline.Next` lists once what can happen to the buffer and the writer behind
it, and `next_move` says that the writer does nothing else. Three invariants are
kept by all of it:

* `Admitting`: an offer is dropped or accepted, and the buffer is closed exactly
  when the writer is closing it.
* `Stage`: how the writer ended, if it has. Records are given up in two ways
  only: a writer that was never started is dropped, or the flush is cut off, and
  not before its time was up.
* `InOrder`: the records accepted are, in order, those whose append was begun,
  those in the buffer, and those that nobody took; the log has exactly those
  whose append succeeded. So no record overtakes another one, and none is
  appended twice.

`Conserved` puts them together, and `Course.conserved` carries them along any
course.
-/

namespace Rota.Audit

open Rota.Relay (Reply)

/-- Did an append succeed? -/
def Append.succeeded (a : Append) : Bool :=
  match a.answer with
  | .ok () => true
  | .error _ => false

/-- **The records that appends have put into the log**, in order, where the latest
append comes first. -/
def logged (appends : List Append) : List Record :=
  (appends.filter Append.succeeded).reverse.map Append.record

namespace Writer

/-- The append that is under way. -/
def inHand : Writer → List Append
  | appending a | appendingLast a _ => [a]
  | _ => []

/-- Has the writer begun its last flush, or is it gone? -/
def isClosing : Writer → Bool
  | flushing _ | appendingLast _ _ | gone => true
  | _ => false

/-- The time at which the flush may be cut off. -/
def deadline? : Writer → Option Nat
  | flushing d | appendingLast _ d => some d
  | _ => none

theorem length_inHand_le (w : Writer) : w.inHand.length ≤ 1 := by
  cases w <;> simp [inHand]

end Writer

namespace Pipeline

/-! ## What can happen -/

/-- **What can happen** to the buffer and the writer. -/
inductive Next (p : Pipeline) : Pipeline → Prop
  | same : Next p p
  | offer (r : Record) : Next p (p.offer r)
  /-- The writer is told something. -/
  | tell (stopping orphaned : Bool) : Next p { p with stopping, orphaned }
  /-- The writer starts, and may be told something at once. -/
  | start (stopping orphaned : Bool) (unstarted : p.writer = .unstarted) :
      Next p { p.start with stopping, orphaned }
  | drop (unstarted : p.writer = .unstarted) : Next p p.dropWriter
  /-- The writer begins its last flush. -/
  | flush (now : Nat) (idle : p.writer = .idle) : Next p (p.beginFlush now)
  /-- The writer takes the oldest record. -/
  | take (a : Append) (rest : List Record) (idle : p.writer = .idle)
      (oldest : p.buffer = a.record :: rest) : Next p (p.take a rest (.appending a))
  | takeLast (a : Append) (rest : List Record) (deadline : Nat)
      (flushing : p.writer = .flushing deadline) (oldest : p.buffer = a.record :: rest) :
      Next p (p.take a rest (.appendingLast a deadline))
  /-- An append ends. -/
  | conclude (a : Append) (busy : p.writer = .appending a) :
      Next p { p.conclude a with writer := .idle }
  | concludeLast (a : Append) (deadline : Nat) (busy : p.writer = .appendingLast a deadline) :
      Next p { p.conclude a with writer := .flushing deadline }
  | finish (deadline : Nat) (flushing : p.writer = .flushing deadline) (empty : p.buffer = []) :
      Next p p.finish
  /-- The writer is stopped in the middle of an append, when its time is up. -/
  | cutOff (now : Nat) (a : Append) (deadline : Nat)
      (busy : p.writer = .appendingLast a deadline) (late : deadline ≤ now) :
      Next p (p.cutOff now a)

/-- **The writer does nothing else.** -/
theorem next_move (p : Pipeline) (now : Nat) (reply : Record → Reply (Except Failure Unit)) :
    p.Next (p.move now reply).1 := by
  unfold move
  split
  · exact .same
  · exact .same
  · next hw =>
    split
    · exact .flush now hw
    · split
      · next r rest hb => exact .take (begin now r (reply r)) rest hw hb
      · split
        · exact .flush now hw
        · exact .same
  · next a hw =>
    split
    · exact .conclude a hw
    · exact .same
  · next d hw =>
    split
    · next r rest hb => exact .takeLast (begin now r (reply r)) rest d hw hb
    · next hb => exact .finish d hw hb
  · next a d hw =>
    split
    · exact .concludeLast a d hw
    · split
      · next hd => exact .cutOff now a d hw hd
      · exact .same

/-- One thing after the other. -/
abbrev Course : Pipeline → Pipeline → Prop :=
  Relation.ReflTransGen Next

/-! ## What an offer and the end of an append do -/

/-- Is a record that is offered now turned away? -/
def isShut (p : Pipeline) : Bool :=
  p.closed || decide (p.capacity ≤ p.buffer.length)

section Operations

variable (p : Pipeline) (r : Record) (a : Append)

/-- **What an offer does**: the record is dropped and counted, or it is the last one in
the buffer from now on. -/
theorem offer_eq (enabled : p.enabled = true) :
    p.offer r =
      if p.isShut then { p with offered := r :: p.offered, dropped := p.dropped + 1 }
      else { p with
        offered := r :: p.offered
        accepted := r :: p.accepted
        buffer := p.buffer ++ [r] } := by
  unfold offer isShut
  simp [enabled]

/-- What the end of an append does. -/
theorem conclude_eq :
    p.conclude a = { p with
      stored := p.stored ++ if a.succeeded then [a.record] else []
      failed := p.failed + if a.succeeded then 0 else 1 } := by
  unfold conclude Append.succeeded
  cases a.answer <;> simp

theorem abandoned_eq_nil : p.abandoned = [] ↔ p.cut = none ∧ p.discarded = [] := by
  unfold abandoned
  cases p.cut <;> simp

end Operations

/-- Whether records are kept, and for how many there is room, never changes; nor does
the time that a flush may take. -/
theorem Next.fixed {p q : Pipeline} (h : p.Next q) :
    q.enabled = p.enabled ∧ q.capacity = p.capacity ∧ q.grace = p.grace := by
  cases h with
  | offer r =>
    unfold Pipeline.offer
    dsimp only
    split
    · exact ⟨rfl, rfl, rfl⟩
    · split <;> exact ⟨rfl, rfl, rfl⟩
  | conclude a _ | concludeLast a _ _ =>
    rw [conclude_eq]
    exact ⟨rfl, rfl, rfl⟩
  | _ => exact ⟨rfl, rfl, rfl⟩

/-- What became of the offers: the records offered and those accepted, the latest first,
and the number of those dropped. -/
def tally (p : Pipeline) : List Record × List Record × Nat :=
  (p.offered, p.accepted, p.dropped)

/-- **Only an offer** changes what became of the offers. -/
theorem Next.tally {p q : Pipeline} (h : p.Next q) :
    q.tally = p.tally ∨ ∃ r, q = p.offer r := by
  cases h with
  | offer r => exact .inr ⟨r, rfl⟩
  | conclude a _ | concludeLast a _ _ =>
    rw [conclude_eq]
    exact .inl rfl
  | _ => exact .inl rfl

/-! ## Offers are dropped or accepted -/

/-- **Each offer is dropped or accepted.** -/
structure Admitting (p : Pipeline) : Prop where
  enabled : p.enabled = true
  offered_eq : p.offered.length = p.accepted.length + p.dropped
  accepted_sublist : p.accepted.Sublist p.offered
  buffer_le : p.buffer.length ≤ p.capacity
  closed_eq : p.closed = p.writer.isClosing

theorem Admitting.next {p q : Pipeline} (h : p.Admitting) (hq : p.Next q) : q.Admitting := by
  obtain ⟨he, ho, hs, hb, hc⟩ := h
  cases hq with
  | same | tell _ _ => exact ⟨he, ho, hs, hb, hc⟩
  | offer r =>
    rw [offer_eq p r he]
    split
    · exact ⟨he, congrArg (· + 1) ho, hs.cons r, hb, hc⟩
    · next hshut =>
      have hroom : p.buffer.length < p.capacity := by
        simp only [isShut, Bool.or_eq_true, decide_eq_true_eq, not_or, Nat.not_le] at hshut
        exact hshut.2
      refine ⟨he, ?_, hs.cons_cons r, ?_, hc⟩
      · simp only [List.length_cons, ho]
        omega
      · rw [List.length_append]
        exact hroom
  | start _ _ unstarted =>
    rw [unstarted] at hc
    exact ⟨he, ho, hs, hb, hc⟩
  | drop _ => exact ⟨he, ho, hs, Nat.zero_le _, rfl⟩
  | flush now _ => exact ⟨he, ho, hs, hb, rfl⟩
  | take a rest free oldest | takeLast a rest _ free oldest =>
    rw [free] at hc
    rw [oldest, List.length_cons] at hb
    exact ⟨he, ho, hs, Nat.le_of_succ_le hb, hc⟩
  | conclude a busy | concludeLast a _ busy =>
    rw [busy] at hc
    rw [conclude_eq]
    exact ⟨he, ho, hs, hb, hc⟩
  | finish _ flushing _ =>
    rw [flushing] at hc
    exact ⟨he, ho, hs, hb, hc⟩
  | cutOff _ a _ busy _ =>
    rw [busy] at hc
    exact ⟨he, ho, hs, Nat.zero_le _, hc⟩

/-- Once the writer is closing, every offer is turned away. -/
theorem Admitting.isShut_eq {p : Pipeline} (h : p.Admitting) :
    p.isShut = (p.writer.isClosing || decide (p.capacity ≤ p.buffer.length)) := by
  rw [isShut, h.closed_eq]

/-! ## How the writer ends -/

/-- **How far the writer has got.** -/
inductive Stage (p : Pipeline) : Prop
  /-- It has not ended, and nothing was given up. -/
  | running (ending : p.ending = none) (alive : p.isOver = false) (kept : p.abandoned = [])
      (due : ∀ d, p.writer.deadline? = some d → ∃ begun, p.flushed = some begun
        ∧ d = begun + p.grace)
  | dropped (ending : p.ending = some .dropped) (gone : p.writer = .gone) (empty : p.buffer = [])
  | finished (ending : p.ending = some .finished) (gone : p.writer = .gone)
      (empty : p.buffer = []) (kept : p.abandoned = [])
  /-- The time for the flush was up. -/
  | late {time begun : Nat} (ending : p.ending = some (.cutOff time)) (gone : p.writer = .gone)
      (empty : p.buffer = []) (flushed : p.flushed = some begun)
      (late : begun + p.grace ≤ time)

/-- A writer that is not gone has given nothing up. -/
theorem Stage.of_ne_gone {p : Pipeline} (h : p.Stage) (hw : p.writer ≠ .gone) :
    p.ending = none ∧ p.abandoned = []
      ∧ ∀ d, p.writer.deadline? = some d → ∃ begun, p.flushed = some begun
        ∧ d = begun + p.grace := by
  cases h with
  | running ending _ kept due => exact ⟨ending, kept, due⟩
  | dropped _ gone _ | finished _ gone _ _ | late _ gone _ _ _ => exact absurd gone hw

/-- A stage depends on nothing else. -/
theorem Stage.congr {p q : Pipeline} (h : p.Stage) (hw : q.writer = p.writer)
    (hb : q.buffer = p.buffer) (ha : q.abandoned = p.abandoned) (hf : q.flushed = p.flushed)
    (he : q.ending = p.ending) (hg : q.grace = p.grace) : q.Stage := by
  cases h with
  | running ending alive kept due =>
    refine .running (he.trans ending) ?_ (ha.trans kept) ?_
    · rw [isOver, hw]
      exact alive
    · rw [hw, hf, hg]
      exact due
  | dropped ending gone empty =>
    exact .dropped (he.trans ending) (hw.trans gone) (hb.trans empty)
  | finished ending gone empty kept =>
    exact .finished (he.trans ending) (hw.trans gone) (hb.trans empty) (ha.trans kept)
  | late ending gone empty flushed late =>
    exact .late (he.trans ending) (hw.trans gone) (hb.trans empty) (hf.trans flushed)
      (by rw [hg]; exact late)

/-- **The writer goes on**, with the same deadline if it had one. -/
theorem Stage.goOn {p q : Pipeline} (h : p.Stage) (hw : p.writer ≠ .gone)
    (alive : q.isOver = false) (ha : q.abandoned = p.abandoned) (hf : q.flushed = p.flushed)
    (he : q.ending = p.ending) (hg : q.grace = p.grace)
    (hd : ∀ d, q.writer.deadline? = some d → p.writer.deadline? = some d) : q.Stage := by
  obtain ⟨ending, kept, due⟩ := h.of_ne_gone hw
  refine .running (he.trans ending) alive (ha.trans kept) fun d hq => ?_
  rw [hf, hg]
  exact due d (hd d hq)

theorem Stage.next {p q : Pipeline} (h : p.Stage) (hp : p.Admitting) (hq : p.Next q) :
    q.Stage := by
  cases hq with
  | same => exact h
  | tell _ _ => exact h.congr rfl rfl rfl rfl rfl rfl
  | offer r =>
    rw [offer_eq p r hp.enabled]
    split
    · exact h.congr rfl rfl rfl rfl rfl rfl
    · next hshut =>
      -- a writer that is gone has closed the buffer
      have hw : p.writer ≠ .gone := by
        intro hw
        rw [hp.isShut_eq, hw] at hshut
        exact hshut rfl
      refine h.goOn hw ?_ rfl rfl rfl rfl fun _ hd => hd
      cases hwriter : p.writer <;> simp_all [isOver]
  | start _ _ unstarted =>
    exact h.goOn (by rw [unstarted]; exact nofun) rfl rfl rfl rfl rfl nofun
  | drop _ => exact .dropped rfl rfl rfl
  | flush now idle =>
    obtain ⟨ending, kept, -⟩ := h.of_ne_gone (by rw [idle]; exact nofun)
    refine .running ending rfl kept fun d hd => ⟨now, rfl, ?_⟩
    exact (Option.some.inj hd).symm
  | take a rest idle _ =>
    exact h.goOn (by rw [idle]; exact nofun) rfl rfl rfl rfl rfl nofun
  | takeLast a rest deadline flushing _ =>
    refine h.goOn (by rw [flushing]; exact nofun) rfl rfl rfl rfl rfl fun d hd => ?_
    rw [flushing]
    exact hd
  | conclude a busy =>
    rw [conclude_eq]
    exact h.goOn (by rw [busy]; exact nofun) rfl rfl rfl rfl rfl nofun
  | concludeLast a deadline busy =>
    rw [conclude_eq]
    refine h.goOn (by rw [busy]; exact nofun) rfl rfl rfl rfl rfl fun d hd => ?_
    rw [busy]
    exact hd
  | finish deadline flushing empty =>
    obtain ⟨-, kept, -⟩ := h.of_ne_gone (by rw [flushing]; exact nofun)
    exact .finished rfl rfl empty kept
  | cutOff now a deadline busy late =>
    obtain ⟨-, -, due⟩ := h.of_ne_gone (by rw [busy]; exact nofun)
    obtain ⟨begun, hf, hd⟩ := due deadline (by rw [busy]; rfl)
    exact .late rfl rfl rfl hf (hd ▸ late)

/-! ## Nothing is lost, doubled or overtaken -/

/-- **Records are appended in the order in which they were accepted**, each at most
once. -/
structure InOrder (p : Pipeline) : Prop where
  accepted_eq : p.accepted.reverse
    = p.attempted.reverse.map Append.record ++ p.buffer ++ p.discarded
  /-- What was begun is under way, was cut off, or has ended. -/
  attempted_eq : ∃ ended, p.attempted = p.writer.inHand ++ p.cut.toList ++ ended
    ∧ p.stored = logged ended ∧ p.failed = ended.countP (!·.succeeded)

theorem logged_cons (a : Append) (appends : List Append) :
    logged (a :: appends) = logged appends ++ if a.succeeded then [a.record] else [] := by
  unfold logged
  rw [List.filter_cons]
  split <;> simp

/-- An append that ends has its record in the log, or is counted as failed. -/
theorem InOrder.conclude {p : Pipeline} (h : p.InOrder) {a : Append}
    (busy : p.writer.inHand = [a]) (kept : p.abandoned = []) {w : Writer} (hw : w.inHand = []) :
    ({ p.conclude a with writer := w } : Pipeline).InOrder := by
  obtain ⟨ended, hattempted, hstored, hfailed⟩ := h.attempted_eq
  rw [busy, ((abandoned_eq_nil p).1 kept).1] at hattempted
  rw [conclude_eq]
  refine ⟨h.accepted_eq, a :: ended, ?_, ?_, ?_⟩
  · rw [hw, ((abandoned_eq_nil p).1 kept).1]
    exact hattempted
  · rw [logged_cons, hstored]
  · rw [List.countP_cons, hfailed]
    cases a.succeeded <;> rfl

/-- A record that is taken is the oldest one in the buffer. -/
theorem InOrder.take {p : Pipeline} (h : p.InOrder) {a : Append} {rest : List Record}
    (oldest : p.buffer = a.record :: rest) (free : p.writer.inHand = []) {w : Writer}
    (hw : w.inHand = [a]) : (p.take a rest w).InOrder := by
  obtain ⟨ended, hattempted, hlogged⟩ := h.attempted_eq
  refine ⟨?_, ended, ?_, hlogged⟩
  · show p.accepted.reverse
      = (a :: p.attempted).reverse.map Append.record ++ rest ++ p.discarded
    rw [h.accepted_eq, oldest, List.reverse_cons, List.map_append, List.append_assoc _ _ rest]
    rfl
  · show a :: p.attempted = w.inHand ++ p.cut.toList ++ ended
    rw [hw, hattempted, free]
    rfl

theorem InOrder.next {p q : Pipeline} (h : p.InOrder) (hp : p.Admitting) (hs : p.Stage)
    (hq : p.Next q) : q.InOrder := by
  obtain ⟨ended, hattempted, hlogged⟩ := h.attempted_eq
  cases hq with
  | same => exact h
  | tell _ _ => exact ⟨h.accepted_eq, ended, hattempted, hlogged⟩
  | offer r =>
    rw [offer_eq p r hp.enabled]
    split
    · exact ⟨h.accepted_eq, ended, hattempted, hlogged⟩
    · next hshut =>
      -- the writer is not gone, so nothing was discarded behind the buffer
      have hw : p.writer ≠ .gone := by
        intro hw
        rw [hp.isShut_eq, hw] at hshut
        exact hshut rfl
      have hd := ((abandoned_eq_nil p).1 (hs.of_ne_gone hw).2.1).2
      have ha := h.accepted_eq
      refine ⟨?_, ended, hattempted, hlogged⟩
      rw [hd, List.append_nil] at ha ⊢
      rw [List.reverse_cons, ha, List.append_assoc]
  | start _ _ unstarted =>
    rw [unstarted] at hattempted
    exact ⟨h.accepted_eq, ended, hattempted, hlogged⟩
  | drop unstarted =>
    obtain ⟨-, kept, -⟩ := hs.of_ne_gone (by rw [unstarted]; exact nofun)
    have ha := h.accepted_eq
    rw [((abandoned_eq_nil p).1 kept).2, List.append_nil] at ha
    rw [unstarted] at hattempted
    refine ⟨?_, ended, hattempted, hlogged⟩
    rw [show p.dropWriter.buffer = [] from rfl, List.append_nil]
    exact ha
  | flush now idle =>
    rw [idle] at hattempted
    exact ⟨h.accepted_eq, ended, hattempted, hlogged⟩
  | take a rest idle oldest => exact h.take oldest (by rw [idle]; rfl) rfl
  | takeLast a rest deadline flushing oldest =>
    exact h.take oldest (by rw [flushing]; rfl) rfl
  | conclude a busy =>
    exact h.conclude (by rw [busy]; rfl) (hs.of_ne_gone (by rw [busy]; exact nofun)).2.1 rfl
  | concludeLast a deadline busy =>
    exact h.conclude (by rw [busy]; rfl) (hs.of_ne_gone (by rw [busy]; exact nofun)).2.1 rfl
  | finish deadline flushing _ =>
    rw [flushing] at hattempted
    exact ⟨h.accepted_eq, ended, hattempted, hlogged⟩
  | cutOff now a deadline busy _ =>
    obtain ⟨-, kept, -⟩ := hs.of_ne_gone (by rw [busy]; exact nofun)
    obtain ⟨hcut, hd⟩ := (abandoned_eq_nil p).1 kept
    have ha := h.accepted_eq
    rw [hd, List.append_nil] at ha
    rw [busy, hcut] at hattempted
    refine ⟨?_, ended, hattempted, hlogged⟩
    rw [show (p.cutOff now a).buffer = [] from rfl, List.append_nil]
    exact ha

/-! ## All together -/

/-- **No record is lost in silence.** -/
structure Conserved (p : Pipeline) : Prop where
  admitting : p.Admitting
  stage : p.Stage
  inOrder : p.InOrder

/-- At first nothing was offered. -/
theorem conserved_new (capacity grace : Nat) :
    ({ enabled := true, capacity, writer := .unstarted, grace } : Pipeline).Conserved where
  admitting := ⟨rfl, rfl, .slnil, Nat.zero_le _, rfl⟩
  stage := .running rfl rfl rfl nofun
  inOrder := ⟨rfl, [], rfl, rfl, rfl⟩

theorem Conserved.next {p q : Pipeline} (h : p.Conserved) (hq : p.Next q) : q.Conserved :=
  ⟨h.admitting.next hq, h.stage.next h.admitting hq, h.inOrder.next h.admitting h.stage hq⟩

/-- Offers, one after the other. -/
theorem course_offers (p : Pipeline) (records : List Record) :
    Course p (records.foldl offer p) := by
  induction records generalizing p with
  | nil => exact .refl
  | cons r rest ih => exact .head (.offer r) (ih (p.offer r))

/-- **Whatever happens**, no record is lost in silence. -/
theorem Course.conserved {p q : Pipeline} (h : Course p q) (hp : p.Conserved) :
    q.Conserved ∧ q.capacity = p.capacity ∧ q.grace = p.grace := by
  induction h with
  | refl => exact ⟨hp, rfl, rfl⟩
  | tail _ hq ih =>
    obtain ⟨hc, hcap, hg⟩ := ih
    exact ⟨hc.next hq, hq.fixed.2.1.trans hcap, hq.fixed.2.2.trans hg⟩

end Pipeline

end Rota.Audit
