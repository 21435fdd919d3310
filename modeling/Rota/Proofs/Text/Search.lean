import Mathlib.Data.Nat.Find
import Mathlib.Order.Bounds.Basic
import Rota.Text.Search

/-!
# Where a pattern is found

A search walks through a text from the left and takes the first place at which it finds the
pattern. Candidates that begin like the pattern and go on differently do not lead it astray,
since it looks at every position anew: `FirstAt.breakOn` says that it cuts the text at the
least position of all, and `breakOn_eq_none` that it gives up only if there is none.

What is inserted at a position can be taken out again (`cutOut_insertAt`).
-/

namespace Rota.Text

variable {pattern text : List Char} {k : Nat}

/-! ## The first place of a pattern -/

/-- **The first place of a pattern**: the least position at which it stands in the text. -/
def FirstAt (pattern text : List Char) (k : Nat) : Prop :=
  IsLeast {i | pattern <+: text.drop i} k

/-- **There is a first place** exactly if the text contains the pattern. -/
theorem exists_firstAt_iff : (∃ k, FirstAt pattern text k) ↔ pattern <:+: text := by
  constructor
  · rintro ⟨k, hk, -⟩
    exact hk.isInfix.trans (List.drop_suffix k text).isInfix
  · rintro ⟨before, after, rfl⟩
    have hex : ∃ i, pattern <+: (before ++ pattern ++ after).drop i := by
      refine ⟨before.length, ?_⟩
      rw [List.append_assoc, List.drop_left]
      exact List.prefix_append pattern after
    exact ⟨Nat.find hex, Nat.find_spec hex, fun _ hi => Nat.find_min' hex hi⟩

theorem FirstAt.le_length (h : FirstAt pattern text k) : k ≤ text.length := by
  by_contra hlt
  -- behind the end there is nothing that is not also at the end
  have hend : pattern <+: text.drop text.length := by
    have hk : pattern <+: text.drop k := h.1
    rwa [List.drop_eq_nil_of_le (Nat.le_of_not_le hlt), ← List.drop_length] at hk
  exact hlt (h.2 hend)

/-- A pattern that stands at the beginning is found there. -/
theorem FirstAt.eq_zero (h : FirstAt pattern text k) (hp : pattern <+: text) : k = 0 :=
  Nat.le_zero.1 (h.2 hp)

/-- A pattern that does not stand at the beginning is found behind the first character. -/
theorem FirstAt.of_cons {c : Char} {rest : List Char} (h : FirstAt pattern (c :: rest) k)
    (hp : ¬ pattern <+: c :: rest) : ∃ j, k = j + 1 ∧ FirstAt pattern rest j := by
  cases k with
  | zero => exact absurd h.1 hp
  | succ j => exact ⟨j, rfl, h.1, fun i hi => Nat.le_of_succ_le_succ (h.2 hi)⟩

/-! ## The search -/

theorem breakOn_cons (pattern : List Char) (c : Char) (rest : List Char) :
    breakOn pattern (c :: rest)
      = if pattern <+: c :: rest then some ([], c :: rest)
        else (breakOn pattern rest).map fun parts => (c :: parts.1, parts.2) := by
  unfold breakOn
  rw [breakOnFrom, breakOnFrom_seen pattern rest [c]]
  simp only [List.isPrefixOf_iff_prefix, List.reverse_nil, List.reverse_singleton,
    List.singleton_append]

/-- **A text is cut at the first place of the pattern.** -/
theorem FirstAt.breakOn (h : FirstAt pattern text k) :
    breakOn pattern text = some (text.take k, text.drop k) := by
  induction text generalizing k with
  | nil =>
    have hnil : pattern = [] := List.prefix_nil.1 (by simpa using h.1)
    simp [Text.breakOn, breakOnFrom, hnil]
  | cons c rest ih =>
    rw [breakOn_cons]
    by_cases hp : pattern <+: c :: rest
    · obtain rfl := h.eq_zero hp
      rw [if_pos hp]
      rfl
    · obtain ⟨j, rfl, hj⟩ := h.of_cons hp
      rw [if_neg hp, ih hj]
      rfl

/-- **A text without the pattern** is not cut. -/
theorem breakOn_eq_none (h : ¬ pattern <:+: text) : breakOn pattern text = none := by
  induction text with
  | nil =>
    have hnil : pattern ≠ [] := fun hnil => h (hnil ▸ List.nil_infix)
    simp [breakOn, breakOnFrom, hnil]
  | cons c rest ih =>
    rw [List.infix_cons_iff, not_or] at h
    rw [breakOn_cons, if_neg h.1, ih h.2]
    rfl

/-! ## Insertions -/

/-- A text with another one inserted at a position. -/
def insertAt (text : List Char) (k : Nat) (inserted : List Char) : List Char :=
  text.take k ++ inserted ++ text.drop k

/-- A text without some characters from a position on. -/
def cutOut (text : List Char) (k count : Nat) : List Char :=
  text.take k ++ text.drop (k + count)

/-- **What was inserted can be taken out again.** -/
theorem cutOut_insertAt (hk : k ≤ text.length) (inserted : List Char) :
    cutOut (insertAt text k inserted) k inserted.length = text := by
  have hlen : (text.take k).length = k := List.length_take_of_le hk
  unfold cutOut insertAt
  rw [List.append_assoc, List.take_left' hlen, ← List.drop_drop, List.drop_left' hlen,
    List.drop_left, List.take_append_drop]

end Rota.Text
