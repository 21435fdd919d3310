import Rota.Proofs.Roster.Surplus

/-!
# In which order a change names its members

The entries of a change stand in the order of the roster they come from. Its members need not:
the first entries of a member are those that cancel, so the first one that is left may stand
far behind, and a member who appears first on the roster may be named last in the change.

The order of the members is that of the first entries that find nothing to cancel
(`firstLeft`): if the other roster lists a member `n` times, this is the entry after the first
`n` ones. `idxOf_surplus_lt_iff` proves it along the recursion of `surplus`, one entry at a
time. It is the order of first appearance between members whom the other roster does not list
at all, and not in general (`not_keepsOrder_of_second_shift`).
-/

namespace Rota.Roster

/-! ## The first entry that is left -/

/-- **Where the first entry of a member stands that finds nothing to cancel**: after as many as
the other roster has. If there is none, it is the end of the roster. -/
def firstLeft (roster against : List String) (id : String) : Nat :=
  roster.idxOfNth id (against.count id)

/-- Whom the other roster does not list has nothing to cancel. -/
theorem firstLeft_of_not_mem {against : List String} {id : String} (h : id ∉ against)
    (roster : List String) : firstLeft roster against id = roster.idxOf id := by
  unfold firstLeft
  rw [List.count_eq_zero_of_not_mem h, List.idxOfNth_zero]

section Cons

variable {member : String} {against : List String} (rest : List String) (id : String)

/-- **An entry that cancels another one** is passed over, for its own member and for the
others. -/
theorem firstLeft_cons_of_mem (hm : member ∈ against) :
    firstLeft (member :: rest) against id = firstLeft rest (against.erase member) id + 1 := by
  unfold firstLeft
  rw [List.count_erase]
  by_cases hid : member = id
  · subst hid
    obtain ⟨n, hn⟩ := Nat.exists_eq_add_one.2 (List.count_pos_iff.2 hm)
    rw [hn, List.idxOfNth_cons_succ_of_beq (beq_self_eq_true _), if_pos (beq_self_eq_true _)]
    rfl
  · have hne : (member == id) = false := by simpa using hid
    rw [List.idxOfNth_cons_of_not_beq hne, hne, if_neg Bool.false_ne_true, Nat.sub_zero]

/-- **An entry that finds nothing to cancel** is the first one of its member that is left. -/
theorem firstLeft_cons_of_not_mem (hm : member ∉ against) :
    firstLeft (member :: rest) against id
      = if member = id then 0 else firstLeft rest against id + 1 := by
  unfold firstLeft
  split
  · next hid =>
    subst hid
    rw [List.count_eq_zero_of_not_mem hm,
      List.idxOfNth_cons_zero_of_beq (beq_self_eq_true _)]
  · next hid =>
    have hne : (member == id) = false := by simpa using hid
    exact List.idxOfNth_cons_of_not_beq hne

end Cons

/-! ## The order of the members -/

/-- **The members of what is left over** come in the order of their first entries that find
nothing to cancel. -/
theorem idxOf_surplus_lt_iff (roster against : List String) (x y : String) :
    (surplus roster against).idxOf x < (surplus roster against).idxOf y
      ↔ firstLeft roster against x < firstLeft roster against y := by
  induction roster generalizing against with
  | nil => exact Iff.rfl
  | cons member rest ih =>
    unfold surplus
    by_cases hm : member ∈ against
    · rw [if_pos hm, ih, firstLeft_cons_of_mem rest x hm, firstLeft_cons_of_mem rest y hm,
        Nat.add_lt_add_iff_right]
    · -- the entry is the first one of its member on both sides, and puts off all the others
      have hcons (id : String) : (member :: surplus rest against).idxOf id
          = if member = id then 0 else (surplus rest against).idxOf id + 1 := by
        rw [List.idxOf_cons, Bool.cond_eq_ite]
        simp only [beq_iff_eq]
      have ih := ih against
      rw [if_neg hm, firstLeft_cons_of_not_mem rest x hm, firstLeft_cons_of_not_mem rest y hm,
        hcons, hcons]
      split <;> split <;> omega

/-- **The order of first appearance**: two members of the part come in it as they come in the
whole. -/
def KeepsOrder (part whole : List String) : Prop :=
  ∀ x ∈ part, ∀ y ∈ part, x ≠ y → (part.idxOf x < part.idxOf y ↔ whole.idxOf x < whole.idxOf y)

/-- A second shift comes to the change although the first one stands before somebody else: the
order of first appearance is not kept, neither among those who started nor among those who
ended. -/
theorem not_keepsOrder_of_second_shift :
    ¬ KeepsOrder (diff ["ada"] ["ada", "bob", "ada"]).started ["ada", "bob", "ada"]
      ∧ ¬ KeepsOrder (diff ["ada", "bob", "ada"] ["ada"]).ended ["ada", "bob", "ada"] := by
  constructor <;>
  · intro h
    have hiff := h "ada" (by decide) "bob" (by decide) (by decide)
    revert hiff
    decide

/-- **The order of the members of a change.** Those who started come in the order of their
first entries on the current roster that find nothing to cancel on the previous one, and those
who ended the other way round. So two members come in the order of first appearance if the
other roster lists neither of them. -/
theorem order_of_diff (previous current : List String) (x y : String) :
    ((diff previous current).started.idxOf x < (diff previous current).started.idxOf y
        ↔ firstLeft current previous x < firstLeft current previous y)
      ∧ ((diff previous current).ended.idxOf x < (diff previous current).ended.idxOf y
        ↔ firstLeft previous current x < firstLeft previous current y)
      ∧ (x ∉ previous → y ∉ previous →
        ((diff previous current).started.idxOf x < (diff previous current).started.idxOf y
          ↔ current.idxOf x < current.idxOf y))
      ∧ (x ∉ current → y ∉ current →
        ((diff previous current).ended.idxOf x < (diff previous current).ended.idxOf y
          ↔ previous.idxOf x < previous.idxOf y)) := by
  have hstarted := idxOf_surplus_lt_iff current previous x y
  have hended := idxOf_surplus_lt_iff previous current x y
  refine ⟨hstarted, hended, fun hx hy => ?_, fun hx hy => ?_⟩
  · rw [← firstLeft_of_not_mem hx current, ← firstLeft_of_not_mem hy current]
    exact hstarted
  · rw [← firstLeft_of_not_mem hx previous, ← firstLeft_of_not_mem hy previous]
    exact hended

/-- Two newcomers among members who gain another shift, and the same change backwards. -/
theorem order_of_newcomers :
    let old := ["ada", "bob", "bob"]
    let new := ["ada", "cy", "bob", "ada", "dan", "bob", "bob"]
    "cy" ∉ old ∧ "dan" ∉ old ∧ (diff old new).started = ["cy", "ada", "dan", "bob"]
      ∧ ((diff old new).started.idxOf "cy" < (diff old new).started.idxOf "dan"
        ↔ new.idxOf "cy" < new.idxOf "dan")
      ∧ ((diff new old).ended.idxOf "cy" < (diff new old).ended.idxOf "dan"
        ↔ new.idxOf "cy" < new.idxOf "dan") := by
  intro old new
  have hcy : "cy" ∉ old := by decide
  have hdan : "dan" ∉ old := by decide
  obtain ⟨-, -, hstarted, -⟩ := order_of_diff old new "cy" "dan"
  obtain ⟨-, -, -, hended⟩ := order_of_diff new old "cy" "dan"
  exact ⟨hcy, hdan, by decide, hstarted hcy hdan, hended hcy hdan⟩

end Rota.Roster
