import Mathlib.Data.List.Count
import Rota.Roster.Transition

/-!
# What is left over, counted

The difference of two rosters, seen from one member. The entries of a member
cancel one for one and the others have no say in it, so what is left over are
as many entries as the one roster has more than the other.
-/

namespace Rota.Roster

/-- **An entry that cancels another one** takes one from either count. -/
theorem count_cancel {member : String} {against : List String} (hm : member ∈ against)
    (rest : List String) (id : String) :
    rest.count id - (against.erase member).count id
      = (member :: rest).count id - against.count id := by
  rw [List.count_erase, List.count_cons]
  by_cases hid : member = id
  · subst hid
    have hpos : 0 < against.count member := List.count_pos_iff.2 hm
    simp only [beq_self_eq_true, if_true]
    omega
  · have hne : (member == id) = false := by simpa using hid
    simp [hne]

/-- **What is left of a member's entries** are those that find no entry to cancel. -/
theorem count_surplus (roster against : List String) (id : String) :
    (surplus roster against).count id = roster.count id - against.count id := by
  induction roster generalizing against with
  | nil => simp [surplus]
  | cons member rest ih =>
    unfold surplus
    by_cases hm : member ∈ against
    · rw [if_pos hm, ih, count_cancel hm]
    · rw [if_neg hm, List.count_cons, List.count_cons, ih]
      by_cases hid : member = id
      · -- nothing is left that could cancel this entry, or a later one
        subst hid
        simp [List.count_eq_zero_of_not_mem hm]
      · have hne : (member == id) = false := by simpa using hid
        simp [hne]

/-- **The balance of a change**: a member has as many entries as before, and those that
started, and without those that ended. -/
theorem count_diff (previous current : List String) (id : String) :
    previous.count id + (diff previous current).started.count id
      = current.count id + (diff previous current).ended.count id := by
  show previous.count id + (surplus current previous).count id
    = current.count id + (surplus previous current).count id
  rw [count_surplus, count_surplus]
  omega

/-! ## Which entries are left -/

/-- **The last entries of a roster**, in their order: at most so many of each member. An entry
is among them exactly if fewer than so many of the same member come after it. -/
def lastEntries (most : String → Nat) (roster : List String) : List String :=
  (roster.zipIdx.filter fun (id, i) => (roster.drop (i + 1)).count id < most id).map Prod.fst

theorem lastEntries_sublist (most : String → Nat) (roster : List String) :
    (lastEntries most roster).Sublist roster := by
  have h := (List.filter_sublist (l := roster.zipIdx)
    (p := fun (id, i) => decide ((roster.drop (i + 1)).count id < most id))).map Prod.fst
  rwa [List.zipIdx_map_fst] at h

/-- Whether an entry is one of the last is decided by those after it. -/
theorem lastEntries_cons (most : String → Nat) (member : String) (rest : List String) :
    lastEntries most (member :: rest)
      = if rest.count member < most member then member :: lastEntries most rest
        else lastEntries most rest := by
  have hrest : (((rest.zipIdx 1).filter fun (id, i) =>
      ((member :: rest).drop (i + 1)).count id < most id).map Prod.fst)
        = lastEntries most rest := by
    rw [List.zipIdx_succ, List.filter_map, List.map_map]
    rfl
  unfold lastEntries
  rw [List.zipIdx_cons, List.filter_cons]
  simp only [decide_eq_true_eq, Nat.zero_add, List.drop_succ_cons, List.drop_zero]
  split
  · exact congrArg (member :: ·) hrest
  · exact hrest

/-- No more entries can be asked for than there are. -/
theorem lastEntries_congr {most most' : String → Nat} {roster : List String}
    (h : ∀ id, min (most id) (roster.count id) = min (most' id) (roster.count id)) :
    lastEntries most roster = lastEntries most' roster := by
  induction roster with
  | nil => rfl
  | cons member rest ih =>
    have hrest : lastEntries most rest = lastEntries most' rest := by
      refine ih fun id => ?_
      have hle : rest.count id ≤ (member :: rest).count id :=
        (List.sublist_cons_self member rest).count_le id
      have := h id
      omega
    have hkept : rest.count member < most member ↔ rest.count member < most' member := by
      have := h member
      rw [List.count_cons_self] at this
      omega
    rw [lastEntries_cons, lastEntries_cons, hrest]
    simp only [hkept]

/-- **The entries that are left are the last ones.** The first entry of a roster cancels one of
the others if there is one; then both counts go down alike. -/
theorem surplus_eq_lastEntries (roster against : List String) :
    surplus roster against
      = lastEntries (fun id => roster.count id - against.count id) roster := by
  induction roster generalizing against with
  | nil => rfl
  | cons member rest ih =>
    unfold surplus
    rw [lastEntries_cons]
    by_cases hm : member ∈ against
    · have hpos : 0 < against.count member := List.count_pos_iff.2 hm
      have hsame : (fun id => rest.count id - (against.erase member).count id)
          = fun id => (member :: rest).count id - against.count id :=
        funext (count_cancel hm rest)
      have hno : ¬ rest.count member < (member :: rest).count member - against.count member := by
        rw [List.count_cons_self]
        omega
      rw [if_pos hm, if_neg hno, ih, hsame]
    · have hzero : against.count member = 0 := List.count_eq_zero_of_not_mem hm
      have hyes : rest.count member < (member :: rest).count member - against.count member := by
        rw [List.count_cons_self]
        omega
      rw [if_neg hm, if_pos hyes, ih]
      refine congrArg (member :: ·) (lastEntries_congr fun id => ?_)
      -- the entry itself is one more than there are to come
      by_cases hid : member = id
      · subst hid
        rw [List.count_cons_self]
        omega
      · have hne : (member == id) = false := by simpa using hid
        simp [List.count_cons, hne]

-- the first of two shifts cancels, the second is left
example : surplus ["ada", "bob", "ada"] ["ada"] = ["bob", "ada"] := by decide

/-- **The difference of two rosters is exact.** A member comes on duty as many times as the
current roster lists them more often, and goes off as many times as the previous one did; the
entries that tell so are the last ones of that roster, in its order. -/
theorem diff_exact (previous current : List String) :
    (∀ id, (diff previous current).started.count id = current.count id - previous.count id)
      ∧ (∀ id, (diff previous current).ended.count id = previous.count id - current.count id)
      ∧ (diff previous current).started.Sublist current
      ∧ (diff previous current).started
          = lastEntries (fun id => current.count id - previous.count id) current
      ∧ (diff previous current).ended.Sublist previous
      ∧ (diff previous current).ended
          = lastEntries (fun id => previous.count id - current.count id) previous := by
  have hstarted := surplus_eq_lastEntries current previous
  have hended := surplus_eq_lastEntries previous current
  refine ⟨count_surplus current previous, count_surplus previous current, ?_, hstarted, ?_, hended⟩
  · show (surplus current previous).Sublist current
    exact hstarted ▸ lastEntries_sublist _ current
  · show (surplus previous current).Sublist previous
    exact hended ▸ lastEntries_sublist _ previous

end Rota.Roster
