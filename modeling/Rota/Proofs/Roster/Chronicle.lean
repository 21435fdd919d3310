import Mathlib.Data.String.Basic
import Mathlib.Data.List.Induction
import Mathlib.Data.List.Sort
import Rota.Proofs.Roster.Surplus
import Rota.Roster.Duty

/-!
# The registry over whole runs

The registry is asked for one thing after the other, under any names. What it
answers, and what it holds in the end, is told here by the **transcript** of
such a run: the queries with their answers.

A name hears of nothing but its own queries (`askAll_own`), so all else is said
of one name: its history holds the latest of those rosters that were recorded
and not taken away again, and never more than two; and what was told of its
changes adds up to the difference between the last roster and the first one.
`Kept` is this invariant, and `kept_askAll` carries it through any queries.
`chronicled` puts the laws together, for a registry that knew no name before.
-/

namespace Rota.Roster

/-! ## Queries and answers -/

/-- **What can be asked** under a name. -/
inductive Use where
  /-- The history itself; it exists from then on. -/
  | touch
  | record (roster : Snapshot)
  | pop
  /-- The latest roster, if there is one. -/
  | look
  deriving DecidableEq, Repr

/-- Does the name become known by this? -/
def Use.isTouching : Use → Bool
  | look => false
  | _ => true

/-- **A query**: a name, and what is asked under it. -/
structure Query where
  name : String
  use : Use
  deriving DecidableEq, Repr

/-- **What is answered** to a query. -/
inductive Answer where
  | history (h : History)
  | change (t : Transition)
  | popped (result : Except Failure Snapshot)
  | latest (roster : Option Snapshot)
  deriving DecidableEq

/-- **The transcript** of a run: the queries, in order, with their answers. -/
abbrev Transcript : Type := List (Query × Answer)

namespace Registry

/-- **Ask a registry.** -/
def ask (r : Registry) (q : Query) : Answer × Registry :=
  match q.use with
  | .touch => (.history (r.touch q.name).1, (r.touch q.name).2)
  | .record roster => (.change (r.record q.name roster).1, (r.record q.name roster).2)
  | .pop => (.popped (r.pop q.name).1, (r.pop q.name).2)
  | .look => (.latest (r.current q.name), r)

/-- **Ask a registry one thing after the other.** -/
def askAll (r : Registry) : List Query → Transcript × Registry
  | [] => ([], r)
  | q :: rest =>
    ((q, (r.ask q).1) :: ((r.ask q).2.askAll rest).1, ((r.ask q).2.askAll rest).2)

/-! ## One query -/

section One

variable (r : Registry) (name other : String)

@[simp] theorem get?_store (h : History) :
    (r.store name h).histories.get? other
      = if other = name then some h else r.histories.get? other :=
  Keyed.get?_put r.histories name other h

theorem history_store (h : History) :
    (r.store name h).history other = if other = name then h else r.history other := by
  unfold history
  rw [get?_store]
  split <;> rfl

/-- What a query makes of the history under its name, if it makes anything of it. -/
def leaves? (q : Query) : Option History :=
  match q.use with
  | .touch => some (r.history q.name)
  | .record roster => some ((r.history q.name).record roster).2
  | .pop => some (r.history q.name).pop.2
  | .look => none

/-- Whoever opens a history is given it as it is, and leaves every other one as it is. -/
theorem history_touch :
    (r.touch name).1 = r.history name ∧ (r.touch name).2.history other = r.history other := by
  refine ⟨rfl, ?_⟩
  show (r.store name (r.history name)).history other = r.history other
  rw [history_store]
  split
  · next ho => rw [ho]
  · rfl

/-- **A roster that is recorded** comes on top, and at most one stays below it. -/
theorem history_record (roster : Snapshot) :
    ((r.record name roster).2.history name).rosters
        = roster :: (r.history name).rosters.take 1
      ∧ (r.record name roster).2.current name = some roster := by
  let h := ((r.history name).record roster).2
  show ((r.store name h).history name).rosters = _
    ∧ ((r.store name h).histories.get? name).bind (·.rosters.head?) = _
  rw [history_store, get?_store, if_pos rfl, if_pos rfl]
  exact ⟨rfl, rfl⟩

/-- **Nothing can be taken from an empty history**, and it stays as it is. -/
theorem pop_of_nil (hname : (r.history name).name = name)
    (hr : (r.history name).rosters = []) :
    (r.history name).peek = .error (.emptyHistory name)
      ∧ (r.pop name).1 = .error (.emptyHistory name)
      ∧ (r.pop name).2.history other = r.history other := by
  have hpeek : (r.history name).peek = .error (.emptyHistory name) := by
    unfold History.peek
    rw [hr, hname]
  have hsame : (r.history name).pop.2 = r.history name := by
    unfold History.pop
    cases hh : r.history name with
    | mk n rosters _ =>
      rw [hh] at hr
      subst hr
      rfl
  refine ⟨hpeek, hpeek, ?_⟩
  show (r.store name (r.history name).pop.2).history other = r.history other
  rw [hsame]
  exact (r.history_touch name other).2

/-- **The roster on top is taken away.** -/
theorem pop_of_cons {top : Snapshot} {rest : List Snapshot}
    (hr : (r.history name).rosters = top :: rest) :
    (r.history name).peek = .ok top ∧ (r.pop name).1 = .ok top
      ∧ ((r.pop name).2.history name).rosters = rest := by
  have hpeek : (r.history name).peek = .ok top := by
    unfold History.peek
    rw [hr]
  refine ⟨hpeek, hpeek, ?_⟩
  show ((r.store name (r.history name).pop.2).history name).rosters = rest
  rw [history_store, if_pos rfl]
  show (r.history name).rosters.tail = rest
  rw [hr]
  rfl

/-- **What a query does to a registry**: it leaves a history under its name, or nothing
is changed. -/
theorem ask_eq (q : Query) :
    (r.ask q).2 = (r.leaves? q).elim r fun h => r.store q.name h := by
  obtain ⟨name, use⟩ := q
  cases use <;> rfl

/-- Other names do not hear of a query. -/
theorem get?_ask_of_ne (q : Query) (h : other ≠ q.name) :
    (r.ask q).2.histories.get? other = r.histories.get? other := by
  rw [ask_eq]
  cases r.leaves? q with
  | none => rfl
  | some h' => exact (get?_store r q.name other h').trans (if_neg h)

/-- **A query hears of nothing but its name**: two registries that hold the same under
this name give the same answer, and hold the same under it afterwards. -/
theorem ask_congr {r' : Registry} (q : Query)
    (h : r.histories.get? q.name = r'.histories.get? q.name) :
    (r.ask q).1 = (r'.ask q).1
      ∧ (r.ask q).2.histories.get? q.name = (r'.ask q).2.histories.get? q.name := by
  have hh : r.history q.name = r'.history q.name := by
    unfold history
    rw [h]
  have hl : r.leaves? q = r'.leaves? q := by
    unfold leaves?
    rw [hh]
  refine ⟨?_, ?_⟩
  · unfold ask touch record pop current
    rw [hh, h]
    split <;> rfl
  · rw [ask_eq, ask_eq, hl]
    cases r'.leaves? q with
    | none => exact h
    | some h' =>
      show (r.store q.name h').histories.get? q.name = (r'.store q.name h').histories.get? q.name
      rw [get?_store, get?_store, if_pos rfl, if_pos rfl]

end One

/-! ## One query after the other -/

/-- The transcript holds the queries as they were asked. -/
theorem map_fst_askAll (r : Registry) (queries : List Query) :
    (r.askAll queries).1.map Prod.fst = queries := by
  induction queries generalizing r with
  | nil => rfl
  | cons q rest ih => exact congrArg (q :: ·) (ih _)

theorem askAll_concat (r : Registry) (queries : List Query) (q : Query) :
    r.askAll (queries ++ [q])
      = ((r.askAll queries).1 ++ [(q, ((r.askAll queries).2.ask q).1)],
          ((r.askAll queries).2.ask q).2) := by
  induction queries generalizing r with
  | nil => rfl
  | cons first rest ih =>
    rw [List.cons_append, askAll, ih]
    rfl

/-- **What happens to a name depends on its own queries alone**, in their order: the
answers to them, and the history in the end. -/
theorem askAll_own (name : String) (queries : List Query) {r r' : Registry}
    (h : r.histories.get? name = r'.histories.get? name) :
    (r.askAll queries).1.filter (·.1.name = name)
        = (r'.askAll (queries.filter (·.name = name))).1
      ∧ (r.askAll queries).2.histories.get? name
        = (r'.askAll (queries.filter (·.name = name))).2.histories.get? name := by
  induction queries generalizing r r' with
  | nil => exact ⟨rfl, h⟩
  | cons q rest ih =>
    by_cases hq : q.name = name
    · -- the query is one of its own, and both registries answer it alike
      subst hq
      obtain ⟨hanswer, hnext⟩ := ask_congr r q h
      obtain ⟨ht, hr⟩ := ih hnext
      rw [List.filter_cons_of_pos (by simp)]
      unfold askAll
      refine ⟨?_, hr⟩
      rw [List.filter_cons_of_pos (by simp), ht, hanswer]
    · -- the name does not hear of the query
      have hnext : (r.ask q).2.histories.get? name = r'.histories.get? name :=
        (get?_ask_of_ne r name q (Ne.symm hq)).trans h
      obtain ⟨ht, hr⟩ := ih hnext
      rw [List.filter_cons_of_neg (by simpa using hq), askAll]
      refine ⟨?_, hr⟩
      rw [List.filter_cons_of_neg (by simpa using hq), ht]

end Registry

/-! ## What a transcript tells -/

/-- The roster that is recorded by a query. -/
def Use.roster? : Use → Option Snapshot
  | record roster => some roster
  | _ => none

/-- The change that is told by an answer. -/
def Answer.change? : Answer → Option Transition
  | change t => some t
  | _ => none

namespace Transcript

/-- **The rosters recorded**, in order. -/
def recorded (t : Transcript) : List Snapshot :=
  t.filterMap (·.1.use.roster?)

/-- **The changes told**, in order. -/
def changes (t : Transcript) : List Transition :=
  t.filterMap (·.2.change?)

/-- How often a member has started, over all changes told. -/
def started (t : Transcript) (id : String) : Nat :=
  (t.changes.flatMap Transition.started).count id

/-- How often a member has ended, over all changes told. -/
def ended (t : Transcript) (id : String) : Nat :=
  (t.changes.flatMap Transition.ended).count id

/-- What one more query makes of the rosters that were not taken away. -/
def keep (kept : List Snapshot) : Query × Answer → List Snapshot
  | (⟨_, .record roster⟩, _) => roster :: kept
  | (⟨_, .pop⟩, .popped (.ok _)) => kept.tail
  | _ => kept

/-- **The rosters recorded and not yet taken away**, the latest first. -/
def kept (t : Transcript) : List Snapshot :=
  t.foldl keep []

/-- The part of a transcript that is about one name. -/
def of (t : Transcript) (name : String) : Transcript :=
  t.filter (·.1.name = name)

section Concat

variable (t : Transcript) (e : Query × Answer)

theorem kept_concat : kept (t ++ [e]) = keep t.kept e := by
  simp [kept]

theorem recorded_concat : recorded (t ++ [e]) = t.recorded ++ e.1.use.roster?.toList := by
  unfold recorded
  rw [List.filterMap_append]
  cases h : e.1.use.roster? <;> simp [h]

theorem changes_concat : changes (t ++ [e]) = t.changes ++ e.2.change?.toList := by
  unfold changes
  rw [List.filterMap_append]
  cases h : e.2.change? <;> simp [h]

end Concat

end Transcript

/-! ## What holds of one name -/

namespace Registry

/-- **The changes told add up**: from the first roster to the last one, and the last one
is on top. -/
structure Balanced (t : Transcript) (rosters : List Snapshot) : Prop where
  top : rosters.head? = t.recorded.getLast?
  silent : t.recorded = [] → t.changes = []
  sum_eq : ∀ first last, t.recorded.head? = some first → t.recorded.getLast? = some last →
    ∀ id, first.members.count id + t.started id = last.members.count id + t.ended id

/-- **What is held under a name**, given the part of the transcript that is about it. -/
structure Kept (h? : Option History) (name : String) (t : Transcript) : Prop where
  named : (h?.getD { name }).name = name
  held_latest : (h?.getD { name }).rosters <+: t.kept
  known : h?.isSome = t.any (·.1.use.isTouching)
  balanced : (∀ e ∈ t, e.1.use ≠ .pop) → Balanced t (h?.getD { name }).rosters

/-- At first nothing is held. -/
theorem kept_none (name : String) : Kept none name [] :=
  ⟨rfl, List.nil_prefix, rfl, fun _ => ⟨rfl, fun _ => rfl, fun _ _ h => nomatch h⟩⟩

section Ask

variable {q : Query} {t : Transcript}

/-- Whoever asks for the history, or looks, leaves the rosters and the changes alone. -/
theorem Balanced.quiet {a : Answer} {rosters : List Snapshot} (h : Balanced t rosters)
    (hq : q.use.roster? = none) (ha : a.change? = none) : Balanced (t ++ [(q, a)]) rosters := by
  have hrec : Transcript.recorded (t ++ [(q, a)]) = t.recorded := by
    rw [Transcript.recorded_concat, hq]
    exact List.append_nil _
  have hch : Transcript.changes (t ++ [(q, a)]) = t.changes := by
    rw [Transcript.changes_concat, ha]
    exact List.append_nil _
  refine ⟨by rw [hrec]; exact h.top, by rw [hrec, hch]; exact h.silent,
    fun first last hf hl id => ?_⟩
  rw [hrec] at hf hl
  unfold Transcript.started Transcript.ended
  rw [hch]
  exact h.sum_eq first last hf hl id

/-- **A roster is recorded**: its change carries the sum from the roster on top to this
one. -/
theorem Balanced.record {h : History} (hb : Balanced t h.rosters) (name : String)
    (roster : Snapshot) :
    Balanced (t ++ [(⟨name, .record roster⟩, .change (h.record roster).1)])
      (h.record roster).2.rosters := by
  have hrec : Transcript.recorded
        (t ++ [(⟨name, .record roster⟩, .change (h.record roster).1)])
      = t.recorded ++ [roster] := Transcript.recorded_concat ..
  have hch : Transcript.changes
        (t ++ [(⟨name, .record roster⟩, .change (h.record roster).1)])
      = t.changes ++ [(h.record roster).1] := Transcript.changes_concat ..
  refine ⟨?_, fun hnil => ?_, fun first last hf hl id => ?_⟩
  · rw [hrec, List.getLast?_concat]
    rfl
  · rw [hrec] at hnil
    exact absurd hnil (List.append_ne_nil_of_right_ne_nil _ (List.cons_ne_nil _ _))
  · rw [hrec, List.getLast?_concat, Option.some.injEq] at hl
    subst hl
    unfold Transcript.started Transcript.ended
    rw [hch, List.flatMap_append, List.flatMap_append, List.count_append, List.count_append,
      List.flatMap_singleton, List.flatMap_singleton]
    have htop := hb.top
    rw [hrec] at hf
    unfold History.record History.changeTo
    cases hr : h.rosters with
    | nil =>
      -- nothing was recorded before, so nothing has been told yet
      rw [hr] at htop
      have hnone : t.recorded = [] := List.getLast?_eq_none_iff.1 htop.symm
      rw [hnone] at hf
      cases hf
      rw [hb.silent hnone]
      rfl
    | cons top rest =>
      rw [hr] at htop
      have hne : t.recorded ≠ [] := by
        intro hnil
        rw [hnil] at htop
        cases htop
      rw [List.head?_append_of_ne_nil _ hne] at hf
      have hsum := hb.sum_eq first top hf htop.symm id
      have hdiff := count_diff top.members roster.members id
      unfold Transcript.started Transcript.ended at hsum
      dsimp only
      omega

end Ask

section Uses

variable {h? : Option History} {name : String} {t : Transcript}

/-- None of the queries before the last one was a pop. -/
theorem not_pop_of_concat {e : Query × Answer} (h : ∀ f ∈ t ++ [e], f.1.use ≠ .pop) :
    ∀ f ∈ t, f.1.use ≠ .pop :=
  fun f hf => h f (List.mem_append_left _ hf)

theorem Kept.touch (h : Kept h? name t) :
    Kept (some (h?.getD { name })) name
      (t ++ [(⟨name, .touch⟩, .history (h?.getD { name }))]) := by
  refine ⟨h.named, ?_, by simp [Use.isTouching], fun hpop => ?_⟩
  · rw [Transcript.kept_concat]
    exact h.held_latest
  · exact (h.balanced (not_pop_of_concat hpop)).quiet rfl rfl

theorem Kept.look (h : Kept h? name t) (roster : Option Snapshot) :
    Kept h? name (t ++ [(⟨name, .look⟩, .latest roster)]) := by
  refine ⟨h.named, ?_, ?_, fun hpop => ?_⟩
  · rw [Transcript.kept_concat]
    exact h.held_latest
  · rw [h.known]
    simp [Use.isTouching]
  · exact (h.balanced (not_pop_of_concat hpop)).quiet rfl rfl

theorem Kept.record (h : Kept h? name t) (roster : Snapshot) :
    Kept (some ((h?.getD { name }).record roster).2) name
      (t ++ [(⟨name, .record roster⟩, .change ((h?.getD { name }).record roster).1)]) := by
  refine ⟨h.named, ?_, by simp [Use.isTouching], fun hpop => ?_⟩
  · rw [Transcript.kept_concat]
    show (roster :: (h?.getD { name }).rosters).take maxDepth <+: roster :: t.kept
    exact (List.take_prefix _ _).trans ((List.prefix_cons_inj roster).2 h.held_latest)
  · exact (h.balanced (not_pop_of_concat hpop)).record name roster

theorem Kept.pop (h : Kept h? name t) :
    Kept (some (h?.getD { name }).pop.2) name
      (t ++ [(⟨name, .pop⟩, .popped (h?.getD { name }).pop.1)]) := by
  refine ⟨h.named, ?_, by simp [Use.isTouching], fun hpop => ?_⟩
  · rw [Transcript.kept_concat]
    have hpre := h.held_latest
    show (h?.getD { name }).rosters.tail
      <+: Transcript.keep t.kept (⟨name, .pop⟩, .popped (h?.getD { name }).peek)
    unfold History.peek
    cases hr : (h?.getD { name }).rosters with
    | nil => exact List.nil_prefix
    | cons top rest =>
      -- the roster on top is the latest one that was not taken away
      rw [hr] at hpre
      obtain ⟨below, hbelow⟩ := hpre
      rw [← hbelow]
      exact List.prefix_append rest below
  · exact absurd rfl (hpop _ (List.mem_append_right _ (List.mem_singleton_self _)))

end Uses

/-- **One query of its own** leaves under the name what it should. -/
theorem Kept.ask {r : Registry} {q : Query} {t : Transcript}
    (h : Kept (r.histories.get? q.name) q.name t) :
    Kept ((r.ask q).2.histories.get? q.name) q.name (t ++ [(q, (r.ask q).1)]) := by
  obtain ⟨name, use⟩ := q
  have hstore : ∀ h', (r.store name h').histories.get? name = some h' := fun h' => by
    rw [get?_store, if_pos rfl]
  cases use with
  | touch => exact (hstore _).symm ▸ h.touch
  | record roster => exact (hstore _).symm ▸ h.record roster
  | pop => exact (hstore _).symm ▸ h.pop
  | look => exact h.look _

/-- **After any run**, what is held under a name is what the queries of that name make
of it. -/
theorem kept_askAll (queries : List Query) (name : String) :
    Kept ((askAll {} queries).2.histories.get? name) name
      ((askAll {} queries).1.of name) := by
  induction queries using List.reverseRecOn with
  | nil => exact kept_none name
  | append_singleton queries q ih =>
    rw [askAll_concat]
    by_cases hq : q.name = name
    · subst hq
      have hof : Transcript.of
            ((askAll {} queries).1 ++ [(q, ((askAll {} queries).2.ask q).1)]) q.name
          = (askAll {} queries).1.of q.name ++ [(q, ((askAll {} queries).2.ask q).1)] := by
        simp [Transcript.of]
      exact hof.symm ▸ ih.ask
    · have hof : Transcript.of
            ((askAll {} queries).1 ++ [(q, ((askAll {} queries).2.ask q).1)]) name
          = (askAll {} queries).1.of name := by
        simp [Transcript.of, hq]
      rw [hof]
      dsimp only
      rw [get?_ask_of_ne _ name q (Ne.symm hq)]
      exact ih

/-! ## The names in use -/

theorem mem_schedules_iff (r : Registry) (name : String) :
    name ∈ r.schedules ↔ (r.histories.get? name).isSome = true := by
  unfold schedules Keyed.sortedKeys
  rw [List.mem_mergeSort, Keyed.mem_keys_iff, Option.isSome_iff_exists]

/-- **The names are listed in order**, and none of them twice. -/
theorem pairwise_schedules (r : Registry) : r.schedules.Pairwise (· < ·) := by
  have hle : r.schedules.Pairwise (· ≤ ·) := by
    have hsorted : r.schedules.Pairwise fun a b => decide (a ≤ b) = true := by
      refine List.pairwise_mergeSort (fun a b c hab hbc => ?_) (fun a b => ?_) _
      · exact decide_eq_true (le_trans (of_decide_eq_true hab) (of_decide_eq_true hbc))
      · simpa using le_total a b
    exact hsorted.imp of_decide_eq_true
  have hne : r.schedules.Nodup := by
    unfold schedules Keyed.sortedKeys
    exact (List.mergeSort_perm _ _).nodup_iff.2 r.histories.nodup_keys
  exact (hle.and hne).imp fun ⟨hab, hne⟩ => lt_of_le_of_ne hab hne

/-! ## All laws together -/

/-- **What a registry has answered** to these queries, if it knew no name before. -/
abbrev transcript (queries : List Query) : Transcript :=
  (askAll {} queries).1

/-- **What becomes of a registry** that knew no name, when it is asked these queries. -/
abbrev after (queries : List Query) : Registry :=
  (askAll {} queries).2

/-- **The laws of the registry**, after any queries. -/
structure Chronicled (queries : List Query) : Prop where
  /-- What happens to a name depends on its own queries alone, in their order. -/
  own : ∀ name, (transcript queries).of name = transcript (queries.filter (·.name = name))
    ∧ (after queries).histories.get? name
      = (after (queries.filter (·.name = name))).histories.get? name
  depth_le : ∀ name, ((after queries).history name).depth ≤ 2
  /-- A history holds the latest of the rosters that were recorded and not taken away. -/
  latest : ∀ name, ((after queries).history name).rosters <+: ((transcript queries).of name).kept
  /-- Whoever opens a history changes none. -/
  touch_eq : ∀ name, ((after queries).touch name).1 = (after queries).history name
    ∧ ∀ other, ((after queries).touch name).2.history other = (after queries).history other
  /-- A roster that is recorded comes on top, and at most one stays below it. The first
  one tells no change, the others the difference to the one on top before. -/
  record_eq : ∀ name roster,
    let h := (after queries).history name
    let result := (after queries).record name roster
    result.1 = (match h.rosters with
      | [] => {}
      | top :: _ => diff top.members roster.members)
    ∧ (result.2.history name).rosters = roster :: h.rosters.take 1
    ∧ result.2.current name = some roster
  /-- The roster on top is taken away; where there is none, nothing is changed. -/
  pop_eq : ∀ name,
    let h := (after queries).history name
    let result := (after queries).pop name
    match h.rosters with
    | [] => h.peek = .error (.emptyHistory name) ∧ result.1 = .error (.emptyHistory name)
      ∧ ∀ other, result.2.history other = (after queries).history other
    | top :: rest => h.peek = .ok top ∧ result.1 = .ok top
      ∧ (result.2.history name).rosters = rest
  /-- Without pops, what started and what ended makes up for the difference between the
  first roster and the last one. -/
  balance : ∀ name, (∀ q ∈ queries, q.name = name → q.use ≠ .pop) → ∀ first last,
    ((transcript queries).of name).recorded.head? = some first →
    ((transcript queries).of name).recorded.getLast? = some last →
    ∀ id, (((transcript queries).of name).started id : Int)
        - ((transcript queries).of name).ended id
      = (last.members.count id : Int) - first.members.count id
  /-- Nobody becomes known by being looked at. -/
  look_eq : ∀ name, (after queries).ask ⟨name, .look⟩
    = (.latest ((after queries).current name), after queries)
  /-- The names are listed in order, each of them once. -/
  sorted : (after queries).schedules.Pairwise (· < ·)
  /-- The names listed are those that were asked for anything but a look. -/
  mem_schedules : ∀ name, name ∈ (after queries).schedules
    ↔ ∃ q ∈ queries, q.name = name ∧ q.use.isTouching = true

/-- **The registry keeps its laws**, whatever it is asked. -/
theorem chronicled (queries : List Query) : Chronicled queries := by
  have hkept := kept_askAll queries
  have hmem : ∀ {name e}, e ∈ (transcript queries).of name → e.1 ∈ queries ∧ e.1.name = name := by
    intro name e he
    obtain ⟨he, hn⟩ := List.mem_filter.1 he
    refine ⟨?_, by simpa using hn⟩
    rw [← map_fst_askAll {} queries]
    exact List.mem_map_of_mem he
  refine {
    own := fun name => askAll_own name queries rfl
    depth_le := fun name => ((after queries).history name).depth_le
    latest := fun name => (hkept name).held_latest
    touch_eq := fun name => ⟨rfl, fun other => (history_touch _ name other).2⟩
    record_eq := fun name roster => ⟨rfl, history_record _ name roster⟩
    pop_eq := fun name => ?_
    balance := fun name hpop first last hfirst hlast id => ?_
    look_eq := fun name => rfl
    sorted := pairwise_schedules _
    mem_schedules := fun name => ?_ }
  · dsimp only
    split
    · next hr =>
      have hpop := fun other => pop_of_nil (after queries) name other (hkept name).named hr
      exact ⟨(hpop name).1, (hpop name).2.1, fun other => (hpop other).2.2⟩
    · next hr => exact pop_of_cons _ name hr
  · have hb := (hkept name).balanced fun e he => hpop e.1 (hmem he).1 (hmem he).2
    have hsum : first.members.count id + ((transcript queries).of name).started id
        = last.members.count id + ((transcript queries).of name).ended id :=
      hb.sum_eq first last hfirst hlast id
    omega
  · rw [mem_schedules_iff, (hkept name).known, List.any_eq_true]
    constructor
    · rintro ⟨e, he, htouch⟩
      exact ⟨e.1, (hmem he).1, (hmem he).2, htouch⟩
    · rintro ⟨q, hq, hn, htouch⟩
      rw [← map_fst_askAll {} queries] at hq
      obtain ⟨e, he, rfl⟩ := List.mem_map.1 hq
      exact ⟨e, List.mem_filter.2 ⟨he, by simpa using hn⟩, htouch⟩

end Registry

end Rota.Roster
