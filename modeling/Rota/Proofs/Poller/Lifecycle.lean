import Rota.Proofs.Poller.Duration
import Rota.Proofs.Poller.Telling

/-!
# The life of the polling loop

The client starts the polling loop and stops it, as often as it likes. There is a loop exactly
when the last word was to start it (`OnTrack.polling_iff`), so there are never two of them; it
keeps to the schedules it was started with, and goes through one cycle after the other.

A loop that is told to stop winds down (`Winds`): the cycle under way is completed as any other,
and no further one begins. Then the loop is gone and the client has its answer; nothing happens
until the next start (`Course.off`), and the next loop goes on from the registry that this one has
left.
-/

namespace Rota

open Rota.Poller (Cycle Phase Visit Report)
open Rota.Roster (Snapshot Transition Registry)

/-! ## As many cycles as reports -/

namespace Book

variable {o : Relay.Outside} {b b' : Book}

/-- The number of cycles under way. -/
def underWay (b : Book) : Nat :=
  b.client.toList.length + b.loop.toList.length

/-- **Every cycle that was counted** is reported on or under way. -/
def Counted (b : Book) : Prop :=
  b.counts.cycles = b.reports.length + b.underWay

/-- They go on being counted when the cycle of an actor begins, goes on or ends, if this is
counted, or reported on. -/
theorem Counted.withCycle {owner : Relay.Actor} (h : b.Counted)
    (polls : owner = .client ∨ owner = .poller) (cycles : ∀ a, b'.cycleOf a = b.cycleOf a)
    (c : Option Cycle)
    (counts : b'.counts.cycles + b.reports.length + (b.cycleOf owner).toList.length
      = b.counts.cycles + b'.reports.length + c.toList.length) :
    (b'.withCycle c owner).Counted := by
  have hclient : b'.client = b.client := cycles .client
  have hloop : b'.loop = b.loop := cycles .poller
  unfold Counted underWay at h ⊢
  rw [counts_withCycle, reports_withCycle]
  rcases polls with rfl | rfl
  · show _ = _ + (c.toList.length + b'.loop.toList.length)
    rw [hloop]
    have counts : _ + (b.client).toList.length = _ := counts
    omega
  · show _ = _ + (b'.client.toList.length + c.toList.length)
    rw [hclient]
    have counts : _ + (b.loop).toList.length = _ := counts
    omega

/-- A visit that makes a move is no new cycle. -/
theorem cycles_goes {schedule : Config.Schedule} {p p' : Phase}
    (h : Poller.Goes o schedule b p p' b') : b'.counts.cycles = b.counts.cycles := by
  have htell : ∀ change, (b.counts.tell change).cycles = b.counts.cycles := fun change => by
    cases change <;> rfl
  have hheed : ∀ (counts : Poller.Counts) result, (counts.heed result).cycles = counts.cycles :=
    fun counts result => by cases result <;> rfl
  cases h with
  | fetch | receive | succeed => rfl
  | fail due answer bad =>
    show (b.counts.fail answer).cycles = _
    unfold Poller.Counts.fail
    split <;> rfl
  | skip _ _ member change left mute => exact htell change
  | offer _ _ member change left x deliverable origin => exact (hheed _ _).trans (htell change)
  | wait _ _ member change left event deadline deliverable origin => exact htell change
  | offered event deadline roster t left x same => exact hheed _ _

theorem Counted.next (h : b.Counted) (hn : b.Next o b') : b'.Counted := by
  cases hn with
  | same => exact h
  | start owner schedules polls free =>
    refine h.withCycle polls (fun a => by cases a <;> rfl) _ ?_
    rw [free]
    show b.counts.cycles + 1 + b.reports.length + 0 = b.counts.cycles + b.reports.length + 1
    omega
  | visit owner c v p b₁ cycle turn goes =>
    obtain ⟨-, hreports, hcycles⟩ := goes.fixed
    refine h.withCycle (polls_of_cycleOf cycle) hcycles _ ?_
    rw [cycle, cycles_goes goes, hreports]
    rfl
  | turn owner c n cycle =>
    refine h.withCycle (polls_of_cycleOf cycle) (fun _ => rfl) _ ?_
    rw [cycle]
    rfl
  | finish owner c cycle allOver =>
    refine h.withCycle (polls_of_cycleOf cycle) (fun a => by cases a <;> rfl) _ ?_
    rw [cycle]
    rfl

end Book

namespace Relay.System

variable {o : Outside} {s s' s₁ : System} {b : Book}

/-! ## One loop at most -/

/-- **There is a loop** exactly when it is meant to run. -/
theorem OnTrack.polling_iff (track : s.OnTrack) (answered : s.isAnswered = true) :
    s.polling = true ↔ s.loop ≠ .absent := by
  refine ⟨track.minded.present, fun present => ?_⟩
  by_contra hoff
  exact present ((free_of_isAnswered track.attended answered).2 (by simpa using hoff))

/-- **Starting it again** changes nothing. -/
theorem OnTrack.start_again (track : s.OnTrack) (answered : s.isAnswered = true)
    (present : s.loop ≠ .absent) (schedules : List Config.Schedule) :
    s.request (.startPolling schedules) = s.answer .nothing := by
  rw [request, startPolling, if_pos ((track.polling_iff answered).2 present)]

/-- **Stopping it again** changes nothing. -/
theorem OnTrack.stop_again (track : s.OnTrack) (answered : s.isAnswered = true)
    (absent : s.loop = .absent) : s.request .stopPolling = s.answer .nothing := by
  rw [request, if_neg fun on => (track.polling_iff answered).1 on absent]

/-! ## One cycle after the other -/

/-- **The loop keeps to its schedules.** -/
def KeepsTo (s : System) : Prop :=
  ∀ next c, s.loop = .cycling next c → c.visits.map Visit.schedule = s.loopSchedules

theorem Advance.keepsTo (hadv : Advance o s s') (h : s.KeepsTo) : s'.KeepsTo := by
  intro next c hc
  cases hadv.loops with
  | still loop _ schedules => exact (h next c (loop.symm.trans hc)).trans schedules.symm
  | start _ _ _ _ loop _ _ => cases loop.symm.trans hc
  | stop _ _ loop _ schedules _ => exact (h next c (loop.symm.trans hc)).trans schedules.symm
  | begin due _ _ _ loop _ schedules =>
    cases loop.symm.trans hc
    rw [schedules]
    simp [Cycle.of, Function.comp_def]
  | goOn next' d d' cycling loop visits _ schedules =>
    cases loop.symm.trans hc
    exact visits.trans ((h _ _ cycling).trans schedules.symm)
  | finish _ _ _ _ loop _ _ _ | halt _ _ _ loop _ _ => cases loop.symm.trans hc

/-- It is not given others as long as it is there. -/
theorem OnTrack.loopSchedules_eq (track : s.OnTrack) (hadv : Advance o s s')
    (present : s.loop ≠ .absent) : s'.loopSchedules = s.loopSchedules := by
  cases hadv.loops with
  | start _ answered _ off _ _ _ =>
    cases ((track.polling_iff answered).2 present).symm.trans off
  | still _ _ schedules | stop _ _ _ _ schedules _ | begin _ _ _ _ _ _ schedules
  | goOn _ _ _ _ _ _ _ schedules | finish _ _ _ _ _ _ _ schedules | halt _ _ _ _ _ schedules =>
    exact schedules

/-- **A cycle of the loop** goes on until all its visits are over, and is reported on then. -/
theorem OnTrack.in_turn (track : s.OnTrack) (hadv : Advance o s s') {next : Nat} {c : Cycle}
    (hc : s.loop = .cycling next c) :
    (∃ c', s'.loop = .cycling next c'
        ∧ c'.visits.map Visit.schedule = c.visits.map Visit.schedule)
      ∨ c.visits.all Visit.isOver = true ∧ s'.loop = .waiting next
        ∧ s'.reports = c.report :: s.reports := by
  have present : s.loop ≠ .absent := by rw [hc]; nofun
  cases hadv.loops with
  | still loop _ _ | stop _ _ loop _ _ _ => exact .inl ⟨c, loop.trans hc, rfl⟩
  | start _ answered _ off _ _ _ =>
    cases ((track.polling_iff answered).2 present).symm.trans off
  | begin _ waits _ _ _ _ _ | halt _ waits _ _ _ _ => cases hc.symm.trans waits
  | goOn _ d d' cycling loop visits _ _ =>
    cases hc.symm.trans cycling
    exact .inl ⟨d', loop, visits⟩
  | finish _ d cycling allOver loop reports _ _ =>
    cases hc.symm.trans cycling
    exact .inr ⟨allOver, loop, reports⟩

/-- **A cycle of the loop begins** only while none is under way, when it is due and the loop is
meant to run; it is over the schedules of the loop. -/
theorem Advance.begins (hadv : Advance o s s') {next : Nat} {c : Cycle}
    (hnone : s.loop.cycle? = none) (hc : s'.loop = .cycling next c) :
    s.polling = true ∧ c = .of s.loopSchedules ∧ ∃ due ≤ s.now, s.loop = .waiting due := by
  cases hadv.loops with
  | still loop _ _ | stop _ _ loop _ _ _ =>
    rw [loop.symm.trans hc] at hnone
    cases hnone
  | start _ _ _ _ loop _ _ | finish _ _ _ _ loop _ _ _ | halt _ _ _ loop _ _ =>
    cases loop.symm.trans hc
  | begin due waits on isDue loop _ _ =>
    cases loop.symm.trans hc
    exact ⟨on, rfl, due, isDue, waits⟩
  | goOn _ _ _ cycling _ _ _ _ =>
    rw [cycling] at hnone
    cases hnone

/-! ## Winding down -/

/-- **While the client waits** for the loop to stop. -/
abbrev Stopping (o : Outside) : System → System → Prop :=
  Relation.ReflTransGen fun s s' => Advance o s s' ∧ s.client = .awaitingLoop

/-- It goes on to wait until the loop is gone. -/
theorem Advance.client_of_awaitingLoop (hadv : Advance o s s') (awaits : s.client = .awaitingLoop) :
    s'.client = .awaitingLoop ∨ s'.client = .idle .nothing ∧ s'.loop = .absent := by
  cases hadv with
  | @move a hrun =>
    by_cases hclient : a = .client
    · subst hclient
      show (s.moveClient o).client = _ ∨ (s.moveClient o).client = _ ∧ (s.moveClient o).loop = _
      rw [loop_moveClient.1, moveClient, awaits]
      dsimp only
      split
      · next hl => exact .inr ⟨rfl, hl⟩
      · exact .inl awaits
    · exact .inl ((client_move hclient).trans awaits)
  | turn _ _ | call _ _ | pass _ | elsewhere _ _ _ => exact .inl awaits
  | request r answered _ _ =>
    rw [isAnswered, awaits] at answered
    cases answered

/-- Where no cycle is under way, and none begins, the book is left alone. -/
theorem Entry.rests (h : s.Entry o b) (resting : ∀ a, s.book.cycleOf a = none)
    (resting' : ∀ a, b.cycleOf a = none) : b = s.book := by
  cases h with
  | same => rfl
  | start a schedules polls free =>
    have hbegun := resting' a
    rw [Book.cycleOf_withCycle polls] at hbegun
    cases hbegun
  | visit a c v phase s' cycle turn moves => cases (resting a).symm.trans cycle
  | turn a c n cycle | finish a c cycle allOver => cases (resting a).symm.trans cycle

/-- **A cycle of the loop** goes on or is over, if the client has none. -/
theorem Entry.winds (h : s.Entry o b) (client : s.book.client = none) (client' : b.client = none)
    {c : Cycle} (hc : s.book.loop = some c) :
    (∃ c', b.loop = some c' ∧ c.After c' ∧ b.reports = s.reports)
      ∨ c.visits.all Visit.isOver = true
        ∧ b = { s.book with reports := c.report :: s.reports, loop := none } := by
  cases h with
  | same => exact .inl ⟨c, hc, .refl c, rfl⟩
  | start a schedules polls free =>
    rcases polls with rfl | rfl
    · cases client'
    · cases hc.symm.trans free
  | visit a d v phase s' cycle turn moves =>
    rcases Book.polls_of_cycleOf cycle with rfl | rfl
    · cases client.symm.trans cycle
    · cases hc.symm.trans cycle
      exact .inl ⟨_, rfl, .set turn moves.size.1 moves.size.2,
        (moves.goes (Nat.succ_ne_zero _)).fixed.2.1⟩
  | turn a d n cycle =>
    rcases Book.polls_of_cycleOf cycle with rfl | rfl
    · cases client.symm.trans cycle
    · cases hc.symm.trans cycle
      exact .inl ⟨_, rfl, .turn c n, rfl⟩
  | finish a d cycle allOver =>
    rcases Book.polls_of_cycleOf cycle with rfl | rfl
    · cases client.symm.trans cycle
    · cases hc.symm.trans cycle
      exact .inr ⟨allOver, rfl⟩

/-- **What is known of the service** at any moment. -/
structure InHand (s : System) : Prop where
  track : s.OnTrack
  keepsTo : s.KeepsTo
  counted : s.book.Counted
  agree : Book.Agree s.pollCounts s.book.offers s.unsent s.book.total
  chronicle : ∃ heard, Chronicle {} [] s.settings.templates s.book heard s.reports

theorem InHand.next (h : s.InHand) (hadv : Advance o s s') : s'.InHand := by
  obtain ⟨hsettings, hentry⟩ := hadv.enters h.track.attended
  refine ⟨h.track.next hadv, hadv.keepsTo h.keepsTo, h.counted.next hentry.next,
    h.agree.next hentry.next, ?_⟩
  obtain ⟨heard, hchron⟩ := h.chronicle
  obtain ⟨heard', new, hchron'⟩ := hchron.next hentry
  have hnew : s'.reports = new := hchron'.reports.trans (List.append_nil _)
  rw [hsettings, hnew]
  exact ⟨heard', hchron'⟩

theorem Course.inHand (hc : Course o s s') (h : s.InHand) : s'.InHand := by
  induction hc with
  | refl => exact h
  | tail _ hadv ih => exact ih.next hadv

theorem inHand_new {settings : Settings} {capacity auditCapacity : Nat} {audited : Bool}
    {grace : Nat} {resolver : Directory.Resolver} :
    (new settings capacity auditCapacity audited grace resolver).InHand where
  track := onTrack_new
  keepsTo := fun _ _ hc => (nomatch hc)
  counted := rfl
  agree := ⟨rfl, rfl, rfl, rfl, rfl⟩
  chronicle := by
    refine ⟨[], chronicle_begin (b := (new settings capacity auditCapacity audited grace
      resolver).book) _ fun a => ?_⟩
    cases a <;> rfl

/-- **A cycle was completed**: it went on with its schedules until all its visits were over and was
reported on; each of its transitions was recorded and told in full. -/
structure Completes (templates : Config.Templates) (b b' : Book) (c c' : Cycle) : Prop where
  schedules : c'.visits.map Visit.schedule = c.visits.map Visit.schedule
  allOver : c'.visits.all Visit.isOver = true
  reports : b'.reports = c'.report :: b.reports
  told : ∃ heard, b'.registry = Registry.recordAll {} heard
    ∧ ∀ i v t, c'.visits[i]? = some v → v.phase = .succeeded t →
      InFull {} heard templates b' (Actor.poller.visitor i) v.schedule.name t

/-- **How a loop that was told to stop winds down.** -/
inductive Winds (s s' : System) : Prop
  /-- No cycle was under way, and none begins. -/
  | idle (was : s.book.loop = none) (same : s'.book = s.book)
  | underWay {c c' : Cycle} (was : s.book.loop = some c) (cycle : s'.book.loop = some c')
      (after : c.After c') (reports : s'.reports = s.reports)
  /-- The cycle that was under way has been completed, and no further one begins. -/
  | completed {c c' : Cycle} (was : s.book.loop = some c) (absent : s'.book.loop = none)
      (completes : Completes s.settings.templates s.book s'.book c c')

theorem Winds.next (h : s.Winds s₁) (hand : s₁.InHand) (settings : s₁.settings = s.settings)
    (awaits : s₁.client = .awaitingLoop) (hadv : Advance o s₁ s') : s.Winds s' := by
  have hentry := (hadv.enters hand.track.attended).entry
  have client : s₁.book.client = none := by
    show s₁.client.cycle? = none
    rw [awaits]
    rfl
  have client' : s'.book.client = none := by
    show s'.client.cycle? = none
    rcases hadv.client_of_awaitingLoop awaits with hc | ⟨hc, -⟩ <;> rw [hc] <;> rfl
  -- once no cycle is under way, nothing more happens
  have hrests : s₁.book.loop = none → s'.book = s₁.book := fun absent => by
    have absent' := hand.track.halted absent awaits hadv
    exact hentry.rests (fun a => by cases a <;> first | rfl | exact client | exact absent)
      (fun a => by cases a <;> first | rfl | exact client' | exact absent')
  cases h with
  | idle was same =>
    have absent : s₁.book.loop = none := by rw [same, was]
    exact .idle was ((hrests absent).trans same)
  | @underWay c c₁ was cycle after reports =>
    rcases hentry.winds client client' cycle with ⟨c', cycle', after', reports'⟩ | ⟨allOver, hbook⟩
    · exact .underWay was cycle' (after.trans after') (reports'.trans reports)
    · obtain ⟨heard, hchron⟩ := hand.chronicle
      have hcycle : s₁.book.cycleOf .poller = some c₁ := cycle
      refine .completed was (by rw [hbook]) ⟨after.schedules, allOver, ?_, heard, ?_, ?_⟩
      · rw [hbook, reports]
        rfl
      · rw [hbook]
        exact hchron.registry
      · intro i v t hv hp
        rw [hbook, ← settings]
        exact (hchron.visits .poller i v t ((Book.visitAt_of_cycleOf hcycle).trans hv)
          (by rw [hp]; rfl)).inFull hp
  | completed was absent completes =>
    rw [← hrests absent] at completes absent
    exact .completed was absent completes

/-- The request to stop leaves the book alone. -/
theorem OnTrack.request_stop (track : s.OnTrack) (answered : s.isAnswered = true)
    (present : s.loop ≠ .absent) :
    (s.request .stopPolling).book = s.book
      ∧ (s.request .stopPolling).client = .awaitingLoop := by
  rw [request, if_pos ((track.polling_iff answered).2 present)]
  exact ⟨(posts_setClient answered (posts_signalLoop s) .awaitingLoop rfl).book, rfl⟩

/-- **While the loop is being stopped**, it winds down. -/
theorem InHand.stopping (hand : s.InHand) (answered : s.isAnswered = true)
    (idle : s.agenda.running = none) (present : s.loop ≠ .absent)
    (h : Stopping o (s.request .stopPolling) s') :
    s'.InHand ∧ s'.settings = s.settings ∧ s.Winds s'
      ∧ (s'.client = .awaitingLoop ∨ s'.client = .idle .nothing ∧ s'.loop = .absent) := by
  induction h with
  | refl =>
    have hadv : Advance o s (s.request .stopPolling) := .request _ answered (.inl idle) rfl
    obtain ⟨hbook, hclient⟩ := hand.track.request_stop answered present
    refine ⟨hand.next hadv, (hadv.enters hand.track.attended).settings, ?_, .inl hclient⟩
    cases hc : s.book.loop with
    | none => exact .idle hc hbook
    | some c =>
      exact .underWay hc ((congrArg Book.loop hbook).trans hc) (.refl c)
        (congrArg Book.reports hbook)
  | tail _ hstep ih =>
    obtain ⟨hand', hsettings, hwinds, -⟩ := ih
    obtain ⟨hadv, awaits⟩ := hstep
    exact ⟨hand'.next hadv, (hadv.enters hand'.track.attended).settings.trans hsettings,
      hwinds.next hand' hsettings awaits hadv, hadv.client_of_awaitingLoop awaits⟩

/-- **The loop has been stopped**, and the cycle that was under way completed. -/
structure Stopped (s s' : System) : Prop where
  answer : s'.client = .idle .nothing
  loop : s'.loop = .absent
  polling : s'.polling = false
  /-- No cycle has begun. -/
  cycles : s'.pollCounts.cycles = s.pollCounts.cycles
  completed : ∀ next c, s.loop = .cycling next c →
    ∃ c', Completes s.settings.templates s.book s'.book c c'
  idle : s.loop.cycle? = none → s'.book = s.book
  /-- The counts are those of the reports. -/
  counts : Book.Agree s'.pollCounts s'.book.offers s'.unsent
    fun m => (s'.reports.map fun report => report.sum m).sum

theorem InHand.stopped (hand : s.InHand) (answered : s.isAnswered = true)
    (idle : s.agenda.running = none) (present : s.loop ≠ .absent)
    (h : Stopping o (s.request .stopPolling) s') (answered' : s'.isAnswered = true) :
    s.Stopped s' := by
  obtain ⟨hand', -, hwinds, hclient⟩ := hand.stopping answered idle present h
  obtain ⟨hidle, habsent⟩ := hclient.resolve_left fun hc => by
    rw [isAnswered, hc] at answered'
    cases answered'
  have hloop : s'.book.loop = none := by
    show s'.loop.cycle? = none
    rw [habsent]
    rfl
  have hnone : s.book.client = none := cycle?_of_isAnswered answered
  have hnone' : s'.book.client = none := cycle?_of_isAnswered answered'
  refine ⟨hidle, habsent, ?_, ?_, fun next c hc => ?_, fun hc => ?_, ?_⟩
  · by_contra hon
    exact hand'.track.minded.present (by simpa using hon) habsent
  · show s'.book.counts.cycles = s.book.counts.cycles
    rw [hand'.counted, hand.counted, Book.underWay, Book.underWay, hnone, hnone', hloop]
    cases hwinds with
    | idle was same => rw [was, same]
    | underWay was cycle after reports => cases hloop.symm.trans cycle
    | completed was absent completes =>
      rw [was, completes.reports]
      rfl
  · have hc : s.book.loop = some c := Loop.cycle?_eq_some.2 ⟨next, hc⟩
    cases hwinds with
    | idle was same => cases was.symm.trans hc
    | underWay was cycle after reports => cases hloop.symm.trans cycle
    | completed was absent completes =>
      cases hc.symm.trans was
      exact ⟨_, completes⟩
  · cases hwinds with
    | idle was same => exact same
    | underWay was cycle after reports => cases hloop.symm.trans cycle
    | completed was absent completes => cases was.symm.trans hc
  · have htotal : s'.book.total = fun m => (s'.reports.map fun report => report.sum m).sum :=
      funext fun m => Book.total_resting hnone' hloop fun _ => rfl
    rw [← htotal]
    exact hand'.agree

/-- What holds the client up is the loop that it waits for. -/
theorem InHand.stopping_of_during (hand : s.InHand) (answered : s.isAnswered = true)
    (idle : s.agenda.running = none) (present : s.loop ≠ .absent)
    (h : During o .poller (s.request .stopPolling) s') :
    Stopping o (s.request .stopPolling) s' := by
  induction h with
  | refl => exact .refl
  | tail _ hstep ih =>
    obtain ⟨ht, held⟩ := hstep
    refine ih.tail ⟨ht.advance, ?_⟩
    obtain ⟨-, -, -, hclient⟩ := hand.stopping answered idle present ih
    refine hclient.resolve_right fun ⟨hidle, habsent⟩ => ?_
    rcases held with hcycle | ⟨-, hawaits⟩
    · refine hcycle ?_
      show Loop.cycle? _ = none
      rw [habsent]
      rfl
    · cases hidle.symm.trans hawaits

/-- **The client has its answer** in the end, if the service is left to run. -/
theorem InHand.returns (hand : s.InHand) (ahead : s.agenda.Ahead) (answered : s.isAnswered = true)
    (idle : s.agenda.running = none) (present : s.loop ≠ .absent)
    (interval : 0 < s.settings.interval) :
    ∃ n, Stopping o (s.request .stopPolling) ((s.request .stopPolling).steps o n)
      ∧ ((s.request .stopPolling).steps o n).isAnswered = true := by
  have hadv : Advance o s (s.request .stopPolling) := .request _ answered (.inl idle) rfl
  have hand₁ := hand.next hadv
  have hinterval : 0 < (s.request .stopPolling).settings.interval := by
    rwa [(hadv.enters hand.track.attended).settings]
  obtain ⟨n, hduring, hreleased⟩ := hand₁.track.exists_released
    ⟨hand₁.track.sound, fun _ => hinterval⟩ (Course.ahead (.single hadv) ahead)
  have hstopping : Stopping o _ _ := hand.stopping_of_during answered idle present hduring
  refine ⟨n, hstopping, ?_⟩
  obtain ⟨-, -, -, hclient⟩ := hand.stopping answered idle present hstopping
  rcases hclient with hawaits | ⟨hidle, -⟩
  · exact absurd (.inr ⟨rfl, hawaits⟩) hreleased
  · exact isAnswered_iff.2 ⟨_, hidle⟩

/-! ## Off and on again -/

/-- **A loop that is gone** stays away until the client starts another one. -/
theorem Course.off (hc : Course o s s') (track : s.OnTrack) (absent : s.loop = .absent) :
    s'.loop = .absent ∨ ∃ s₁ schedules, Course o s s₁ ∧ s₁.loop = .absent ∧ s₁.isAnswered = true
      ∧ Course o (s₁.request (.startPolling schedules)) s' := by
  induction hc with
  | refl => exact .inl absent
  | @tail s₁ s₂ hcourse hadv ih =>
    rcases ih with hl | ⟨t, schedules, hpast, hl, answered, hlater⟩
    · cases hadv.loops with
      | still loop _ _ => exact .inl (loop.trans hl)
      | start schedules answered asks _ _ _ _ =>
        exact .inr ⟨s₁, schedules, hcourse, hl, answered, asks ▸ .refl⟩
      | stop _ on _ _ _ _ => exact absurd hl ((Course.onTrack hcourse track).minded.present on)
      | begin _ waits _ _ _ _ _ => cases hl.symm.trans waits
      | goOn _ _ _ cycling _ _ _ _ | finish _ _ cycling _ _ _ _ _ => cases hl.symm.trans cycling
      | halt _ _ _ loop _ _ => exact .inl loop
    · exact .inr ⟨t, schedules, hpast, hl, answered, hlater.tail hadv⟩

/-- **While there is no loop** and the client asks for no cycle. -/
abbrev Resting (o : Outside) : System → System → Prop :=
  Relation.ReflTransGen fun s s' => Advance o s s' ∧ s'.loop = .absent ∧ s'.client.cycle? = none

/-- Nothing is polled then. -/
theorem OnTrack.rests (track : s.OnTrack) (absent : s.loop = .absent)
    (client : s.client.cycle? = none) (h : Resting o s s') : s'.book = s.book := by
  have hfree : ∀ t : System, t.loop = .absent → t.client.cycle? = none →
      ∀ a, t.book.cycleOf a = none := fun t hl hc a => by
    have hloop : t.loop.cycle? = none := by rw [hl]; rfl
    cases a <;> first | rfl | exact hc | exact hloop
  suffices hrests : s'.OnTrack ∧ s'.loop = .absent ∧ s'.client.cycle? = none ∧ s'.book = s.book from
    hrests.2.2.2
  induction h with
  | refl => exact ⟨track, absent, client, rfl⟩
  | tail _ hstep ih =>
    obtain ⟨track₁, absent₁, client₁, hbook⟩ := ih
    obtain ⟨hadv, absent', client'⟩ := hstep
    refine ⟨track₁.next hadv, absent', client', ?_⟩
    exact ((hadv.enters track₁.attended).entry.rests (hfree _ absent₁ client₁)
      (hfree _ absent' client')).trans hbook

/-- **The loop starts**: its first cycle is due at once, and whatever is heard from now on is
compared with the rosters that were the latest before. -/
structure Starts (o : Outside) (s : System) (schedules : List Config.Schedule) : Prop where
  book : (s.request (.startPolling schedules)).book = s.book
  loop : (s.request (.startPolling schedules)).loop = .waiting s.now
  polling : (s.request (.startPolling schedules)).polling = true
  loopSchedules : (s.request (.startPolling schedules)).loopSchedules = schedules
  diffs : ∀ s', Course o (s.request (.startPolling schedules)) s' → ∃ heard new,
    Chronicle s.registry s.reports s.settings.templates s'.book heard new
      ∧ ∀ name roster t, Records s.registry heard name roster t →
        ∃ before after, heard = before ++ (name, roster) :: after
          ∧ t = ((before.reverse.lookup name).or (s.registry.current name)).elim {} fun last =>
              Roster.diff last.members roster.members

theorem OnTrack.starts (track : s.OnTrack) (answered : s.isAnswered = true)
    (absent : s.loop = .absent) (schedules : List Config.Schedule) : s.Starts o schedules := by
  have off : ¬ s.polling = true := fun on => (track.polling_iff answered).1 on absent
  have hrequest : s.request (.startPolling schedules)
      = ((({ s with polling := true, loop := .waiting s.now, loopSchedules := schedules } :
          System).wake .poller).answer .nothing) := by
    rw [request, startPolling, if_neg off]
  have hbook : (s.request (.startPolling schedules)).book = s.book :=
    (posts_setClient answered (posts_startPolling (fun _ => absent) schedules) (.idle .nothing)
      rfl).book
  refine ⟨hbook, by rw [hrequest]; rfl, by rw [hrequest]; rfl, by rw [hrequest]; rfl,
    fun s' hc => ?_⟩
  have hadv : Advance o s (s.request (.startPolling schedules)) :=
    .request _ answered (.inr rfl) rfl
  have track₁ := track.next hadv
  have hsettings := (hadv.enters track.attended).settings
  have hbegin := chronicle_begin (b := (s.request (.startPolling schedules)).book)
    (s.request (.startPolling schedules)).settings.templates fun a => by
      have hclient : s.book.client = none := cycle?_of_isAnswered answered
      have hloop : s.book.loop = none := by
        show s.loop.cycle? = none
        rw [absent]
        rfl
      rw [hbook]
      cases a <;> first | rfl | exact hclient | exact hloop
  obtain ⟨hsame, heard, new, hchron⟩ := Course.chronicle hc track₁.sound track₁.attended hbegin
  rw [hsame, hsettings, hbook] at hchron
  exact ⟨heard, new, hchron, fun _ _ _ hrecords => hrecords.eq⟩

/-! ## The whole life -/

/-- **As long as there is a loop.** -/
abbrev Present (o : Outside) : System → System → Prop :=
  Relation.ReflTransGen fun s s' => Advance o s s' ∧ s.loop ≠ .absent

theorem InHand.keeps (hand : s.InHand) (h : Present o s s') :
    s'.InHand ∧ s'.loopSchedules = s.loopSchedules := by
  induction h with
  | refl => exact ⟨hand, rfl⟩
  | tail _ hstep ih =>
    obtain ⟨hand', hsame⟩ := ih
    obtain ⟨hadv, present⟩ := hstep
    exact ⟨hand'.next hadv, (hand'.track.loopSchedules_eq hadv present).trans hsame⟩

/-- **How the polling loop lives**, from some moment on. -/
structure Lifecycle (o : Outside) (s : System) : Prop where
  /-- There is a loop exactly when it is meant to run, so no start finds one that is left over. -/
  polling_iff : s.isAnswered = true → (s.polling = true ↔ s.loop ≠ .absent)
  /-- Every cycle that has begun is reported on or under way, and the loop has at most one under
  way. -/
  counted : s.pollCounts.cycles = s.reports.length
    + (s.client.cycle?.toList.length + s.loop.cycle?.toList.length)
  /-- A cycle of the loop goes on until all its visits are over, and is reported on then. -/
  in_turn : ∀ s' next c, Advance o s s' → s.loop = .cycling next c →
    (∃ c', s'.loop = .cycling next c'
        ∧ c'.visits.map Visit.schedule = c.visits.map Visit.schedule)
      ∨ c.visits.all Visit.isOver = true ∧ s'.loop = .waiting next
        ∧ s'.reports = c.report :: s.reports
  /-- Another one begins only when none is under way, and only if the loop is meant to run. -/
  begins : ∀ s' next c, Advance o s s' → s.loop.cycle? = none → s'.loop = .cycling next c →
    s.polling = true ∧ c = .of s.loopSchedules ∧ ∃ due ≤ s.now, s.loop = .waiting due
  start_again : s.isAnswered = true → s.loop ≠ .absent →
    ∀ schedules, s.request (.startPolling schedules) = s.answer .nothing
  /-- Whatever happens, a start included, the loop keeps to its schedules. -/
  keeps : ∀ s', Present o s s' → s'.loopSchedules = s.loopSchedules
    ∧ ∀ next c, s'.loop = .cycling next c → c.visits.map Visit.schedule = s.loopSchedules
  stop_again : s.isAnswered = true → s.loop = .absent →
    s.request .stopPolling = s.answer .nothing
  /-- When the client has its answer to a stop, the cycle that was under way is completed. -/
  stops : s.isAnswered = true → s.agenda.running = none → s.loop ≠ .absent →
    ∀ s', Stopping o (s.request .stopPolling) s' → s'.isAnswered = true → s.Stopped s'
  /-- It does have its answer in the end. -/
  returns : s.isAnswered = true → s.agenda.running = none → s.loop ≠ .absent →
    0 < s.settings.interval → ∃ n,
      Stopping o (s.request .stopPolling) ((s.request .stopPolling).steps o n)
        ∧ ((s.request .stopPolling).steps o n).isAnswered = true
  /-- From then on there is no loop until the next start. -/
  off : s.loop = .absent → ∀ s', Course o s s' → s'.loop = .absent
    ∨ ∃ s₁ schedules, Course o s s₁ ∧ s₁.loop = .absent ∧ s₁.isAnswered = true
      ∧ Course o (s₁.request (.startPolling schedules)) s'
  /-- Nor is anything polled, unless the client does so itself. -/
  rests : s.loop = .absent → s.client.cycle? = none →
    ∀ s', Resting o s s' → s'.book = s.book
  /-- A start keeps the registry. -/
  starts : s.isAnswered = true → s.loop = .absent → ∀ schedules, s.Starts o schedules

section Lifecycle

variable {settings : Settings} {capacity auditCapacity : Nat} {audited : Bool} {grace : Nat}
  {resolver : Directory.Resolver}

/-- **How the polling loop lives**, whatever the client, the source and everybody else do. -/
theorem Course.lifecycle
    (h : Course o (new settings capacity auditCapacity audited grace resolver) s) :
    s.Lifecycle o := by
  have hand : s.InHand := Course.inHand h inHand_new
  have ahead : s.agenda.Ahead := Course.ahead h fun _ hx => (nomatch hx)
  have track := hand.track
  exact {
    polling_iff := track.polling_iff
    counted := hand.counted
    in_turn := fun _ _ _ hadv => track.in_turn hadv
    begins := fun _ _ _ hadv => hadv.begins
    start_again := track.start_again
    keeps := fun _ hc => by
      obtain ⟨hand', hsame⟩ := hand.keeps hc
      exact ⟨hsame, fun next c hl => (hand'.keepsTo next c hl).trans hsame⟩
    stop_again := track.stop_again
    stops := fun answered idle present _ => hand.stopped answered idle present
    returns := hand.returns ahead
    off := fun absent _ hc => Course.off hc track absent
    rests := fun absent client _ => track.rests absent client
    starts := track.starts }

/-- The loop is started for one schedule, and the rosters take their time. In its first cycle it is
started again for another schedule, which changes nothing, and is then stopped: the cycle is
completed 40 milliseconds later. The next start compares with the roster of that cycle. -/
theorem lifecycle_restarted :
    let o : Outside :=
      { lookup := fun _ key => { answer := .error (.unknownPerson key.text) }
        call := fun _ _ => { answer := .ok () }
        append := fun _ _ => { answer := .ok () }
        fetch := fun n schedule =>
          { delay := some 50
            answer := .ok
              { scheduleId := "i"
                name := schedule.name
                members := if n = 0 then ["x"] else ["y"] } } }
    let a : Config.Schedule := { name := "a" }
    let fresh := new { fetchTimeout := 100, interval := 1000 } 4 4 true 5000 {}
    let s := fresh.serveAll o 60 [.startPolling [a], .sleep 10, .startPolling [{ name := "b" }]]
    let stopped := (s.serve o 60 .stopPolling).2
    let restarted := stopped.serveAll o 60 [.stopPolling, .startPolling [a], .sleep 60]
    Course o fresh s
      ∧ (s.loop.cycle?.isSome = true ∧ s.loopSchedules.map Config.Schedule.name = ["a"])
      ∧ ((s.serve o 60 .stopPolling).1 = 40 ∧ stopped.isAnswered = true
        ∧ stopped.polling = false ∧ stopped.reports = [{ transitions := [("a", {})] }])
      ∧ restarted.reports = [{ transitions := [("a", { started := ["y"], ended := ["x"] })] },
          { transitions := [("a", {})] }]
      ∧ s.Lifecycle o := by
  intro o a fresh s stopped restarted
  have hopen : fresh.isOpenTo o 60 [.startPolling [a], .sleep 10, .startPolling [{ name := "b" }]]
      = true := by decide +kernel
  have hs : Course o fresh s := course_serveAll o 60 fresh _ hopen
  have hlife : s.Lifecycle o := Course.lifecycle hs
  exact ⟨hs, by decide +kernel, by decide +kernel, by decide +kernel, hlife⟩

end Lifecycle

end Relay.System

end Rota
