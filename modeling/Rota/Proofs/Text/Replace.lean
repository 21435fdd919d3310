import Mathlib.Data.List.Infix
import Rota.Proofs.Text.Search

/-!
# Replacing a pattern everywhere

A replacement walks through the text from the left. Where the pattern stands, the walk writes
the replacement and goes on behind the pattern; elsewhere it copies a character
(`walk_induction`). Of two places that overlap it would meet only the first. A pattern without
a border has no such places (`Borderless`), and then a text can be taken apart at any of them:

* what stands before a place and what stands behind it are replaced on their own
  (`Borderless.replaceAll_append`);
* the places cut a text into pieces without the pattern (`exists_pieces`), one more than there
  are places (`Borderless.length_pieces`);
* a replacement joins the same pieces with another text between them
  (`Borderless.replaceAll_intercalate`).
-/

namespace Rota.Text

variable {pattern before text : List Char} {pieces : List (List Char)}

/-! ## Patterns without a border -/

/-- **A pattern without a border**: only the whole of it is both a beginning and an end of
it. -/
structure Borderless (pattern : List Char) : Prop where
  ne_nil : pattern ≠ []
  eq_of_border : ∀ {border}, border ≠ [] → border <+: pattern → border <:+ pattern →
    border = pattern

/-- A pattern in which the first character does not return has no border. -/
theorem Borderless.of_not_mem {c : Char} {rest : List Char} (h : c ∉ rest) :
    Borderless (c :: rest) where
  ne_nil := List.cons_ne_nil c rest
  eq_of_border := by
    intro border hne hbegin hend
    rcases List.suffix_cons_iff.1 hend with rfl | hrest
    · rfl
    · -- an end that is not the whole would begin with the first character once more
      obtain ⟨d, border, rfl⟩ := List.exists_cons_of_ne_nil hne
      have hd : d = c := (List.cons_prefix_cons.1 hbegin).1
      exact absurd (hd ▸ hrest.subset List.mem_cons_self) h

/-- **No place begins inside another one**: an end of the pattern, whatever follows it, does
not begin with the pattern. -/
theorem Borderless.not_prefix_append (h : Borderless pattern) {tail : List Char}
    (hne : tail ≠ []) (hend : tail <:+ pattern) (hpart : tail ≠ pattern) (after : List Char) :
    ¬ pattern <+: tail ++ after := by
  intro hplace
  rcases List.prefix_or_prefix_of_prefix hplace (List.prefix_append tail after) with hp | hp
  · exact hpart (hend.eq_of_length_le hp.length_le)
  · exact hpart (h.eq_of_border hne hp hend)

/-- **No place reaches into another one**: before a place, the pattern stands where it stands
in the text up to there. -/
theorem Borderless.prefix_append_iff (h : Borderless pattern) (hne : before ≠ [])
    (after : List Char) : pattern <+: before ++ pattern ++ after ↔ pattern <+: before := by
  constructor
  · intro hplace
    rw [List.append_assoc] at hplace
    rcases List.prefix_or_prefix_of_prefix hplace (List.prefix_append before _) with hp | hp
    · exact hp
    · -- the pattern begins with all of `before`, and what remains of it begins the next place
      obtain ⟨tail, rfl⟩ := hp
      have hover : tail <+: before ++ tail :=
        List.prefix_of_prefix_length_le ((List.prefix_append_right_inj before).1 hplace)
          (List.prefix_append (before ++ tail) after) (List.suffix_append before tail).length_le
      by_cases htail : tail = []
      · rw [htail, List.append_nil]
      · have hwhole := h.eq_of_border htail hover (List.suffix_append before tail)
        exact absurd (List.self_eq_append_left.1 hwhole) hne
  · intro hplace
    exact hplace.trans ((List.prefix_append before pattern).trans (List.prefix_append _ after))

/-! ## The walk -/

/-- **Induction along the walk**: a text is at its end, or it begins with the pattern, or with
a character at which the pattern does not stand. -/
theorem walk_induction {motive : List Char → Prop} (hne : pattern ≠ []) (nil : motive [])
    (place : ∀ rest, motive rest → motive (pattern ++ rest))
    (other : ∀ c rest, ¬ pattern <+: c :: rest → motive rest → motive (c :: rest)) :
    ∀ text, motive text
  | [] => nil
  | c :: rest => by
    by_cases hp : pattern <+: c :: rest
    · obtain ⟨after, hafter⟩ := hp
      have hshort : after.length < (c :: rest).length := by
        rw [← hafter, List.length_append]
        exact Nat.lt_add_of_pos_left (List.length_pos_of_ne_nil hne)
      rw [← hafter]
      exact place after (walk_induction hne nil place other after)
    · exact other c rest hp (walk_induction hne nil place other rest)
termination_by text => text.length
decreasing_by
  · exact hshort
  · exact Nat.lt_succ_self rest.length

/-- What is done already stands in front of the rest. -/
theorem replaceAllFrom_done (pattern replacement : List Char) (skip : Nat)
    (done text : List Char) :
    replaceAllFrom pattern replacement skip done text
      = done.reverse ++ replaceAllFrom pattern replacement skip [] text := by
  induction text generalizing skip done with
  | nil => simp only [replaceAllFrom, List.reverse_nil, List.append_nil]
  | cons c rest ih =>
    cases skip with
    | succ skip =>
      rw [replaceAllFrom, replaceAllFrom]
      exact ih skip done
    | zero =>
      rw [replaceAllFrom, replaceAllFrom]
      by_cases hp : pattern.isPrefixOf (c :: rest)
      · rw [if_pos hp, if_pos hp, ih, ih _ (replacement.reverse ++ [])]
        simp only [List.reverse_append, List.append_assoc, List.reverse_nil, List.nil_append]
      · rw [if_neg hp, if_neg hp, ih, ih 0 [c], List.reverse_cons, List.append_assoc,
          List.reverse_singleton]

/-- What is still to be passed over is left out. -/
theorem replaceAllFrom_skip (pattern replacement : List Char) (skip : Nat) (text : List Char) :
    replaceAllFrom pattern replacement skip [] text
      = replaceAll pattern replacement (text.drop skip) := by
  induction skip generalizing text with
  | zero => rfl
  | succ skip ih =>
    cases text with
    | nil => rfl
    | cons c rest =>
      rw [replaceAllFrom, List.drop_succ_cons]
      exact ih rest

/-- **A place at the beginning** is replaced, and the walk goes on behind it. -/
theorem replaceAll_append_left (hne : pattern ≠ []) (replacement rest : List Char) :
    replaceAll pattern replacement (pattern ++ rest)
      = replacement ++ replaceAll pattern replacement rest := by
  obtain ⟨c, tail, rfl⟩ := List.exists_cons_of_ne_nil hne
  have hp : (c :: tail).isPrefixOf (c :: (tail ++ rest)) := by
    rw [List.isPrefixOf_iff_prefix]
    exact List.prefix_append (c :: tail) rest
  rw [replaceAll, List.cons_append, replaceAllFrom, if_pos hp, replaceAllFrom_done,
    replaceAllFrom_skip, List.length_cons, Nat.add_sub_cancel, List.drop_left, List.append_nil,
    List.reverse_reverse]

/-- A character at which the pattern does not stand is copied. -/
theorem replaceAll_cons {c : Char} {rest : List Char} (hp : ¬ pattern <+: c :: rest)
    (replacement : List Char) :
    replaceAll pattern replacement (c :: rest) = c :: replaceAll pattern replacement rest := by
  rw [← List.isPrefixOf_iff_prefix] at hp
  rw [replaceAll, replaceAllFrom, if_neg hp, replaceAllFrom_done]
  rfl

/-! ## What is replaced -/

/-- **A text without the pattern** stays as it is. -/
theorem replaceAll_of_not_infix (h : ¬ pattern <:+: text) (replacement : List Char) :
    replaceAll pattern replacement text = text := by
  induction text with
  | nil => rfl
  | cons c rest ih =>
    rw [List.infix_cons_iff, not_or] at h
    rw [replaceAll_cons h.1, ih h.2]

/-- **A text is replaced on both sides of a place** on its own. -/
theorem Borderless.replaceAll_append (h : Borderless pattern)
    (replacement before after : List Char) :
    replaceAll pattern replacement (before ++ pattern ++ after)
      = replaceAll pattern replacement before ++ replacement
        ++ replaceAll pattern replacement after := by
  induction before using walk_induction h.ne_nil with
  | nil => exact replaceAll_append_left h.ne_nil replacement after
  | place rest ih =>
    rw [List.append_assoc, List.append_assoc, replaceAll_append_left h.ne_nil,
      ← List.append_assoc rest, ih, replaceAll_append_left h.ne_nil]
    simp only [List.append_assoc]
  | other c rest hp ih =>
    have hafter : ¬ pattern <+: c :: (rest ++ pattern ++ after) :=
      fun hplace => hp ((h.prefix_append_iff (List.cons_ne_nil c rest) after).1 hplace)
    rw [List.cons_append, List.cons_append, replaceAll_cons hafter, ih, replaceAll_cons hp]
    rfl

/-! ## How often a pattern stands in a text -/

/-- **How many places a pattern has**: at how many positions it stands in the text. -/
def placeCount (pattern text : List Char) : Nat :=
  text.tails.countP fun rest => pattern.isPrefixOf rest

theorem placeCount_cons (pattern : List Char) (c : Char) (rest : List Char) :
    placeCount pattern (c :: rest)
      = placeCount pattern rest + if pattern <+: c :: rest then 1 else 0 := by
  unfold placeCount
  rw [List.tails_cons, List.countP_cons]
  simp only [List.isPrefixOf_iff_prefix]

theorem placeCount_of_not_infix (h : ¬ pattern <:+: text) : placeCount pattern text = 0 := by
  unfold placeCount
  rw [List.countP_eq_zero]
  intro rest hrest hp
  have hend : rest <:+ text := (List.mem_tails rest text).1 hrest
  exact h ((List.isPrefixOf_iff_prefix.1 hp).isInfix.trans hend.isInfix)

/-- In an end of the pattern and what follows it, all places are in what follows. -/
theorem Borderless.placeCount_tail (h : Borderless pattern) {tail : List Char}
    (hend : tail <:+ pattern) (hpart : tail ≠ pattern) (after : List Char) :
    placeCount pattern (tail ++ after) = placeCount pattern after := by
  induction tail with
  | nil => rfl
  | cons c tail ih =>
    have hno := h.not_prefix_append (List.cons_ne_nil c tail) hend hpart after
    have hrest : tail <:+ pattern := (List.suffix_cons c tail).trans hend
    have hshort : tail ≠ pattern := by
      rintro rfl
      exact absurd hend.length_le (Nat.not_succ_le_self _)
    rw [List.cons_append] at hno ⊢
    rw [placeCount_cons, if_neg hno, ih hrest hshort, Nat.add_zero]

/-- **A place divides the others** into those before it and those behind it. -/
theorem Borderless.placeCount_append (h : Borderless pattern) (before after : List Char) :
    placeCount pattern (before ++ pattern ++ after)
      = placeCount pattern before + 1 + placeCount pattern after := by
  induction before with
  | nil =>
    have hnone : placeCount pattern [] = 0 :=
      placeCount_of_not_infix fun hp => h.ne_nil (List.infix_nil.1 hp)
    rw [hnone, List.nil_append]
    obtain ⟨c, tail, rfl⟩ := List.exists_cons_of_ne_nil h.ne_nil
    have hplace : c :: tail <+: c :: (tail ++ after) := List.prefix_append (c :: tail) after
    have htail := h.placeCount_tail (List.suffix_cons c tail) (List.cons_ne_self c tail).symm after
    rw [List.cons_append, placeCount_cons, if_pos hplace, htail]
    omega
  | cons c rest ih =>
    have hiff := h.prefix_append_iff (List.cons_ne_nil c rest) after
    rw [List.cons_append, List.cons_append] at hiff ⊢
    rw [placeCount_cons, placeCount_cons, ih, if_congr hiff rfl rfl]
    omega

/-! ## The pieces between the places -/

theorem prefix_intercalate (pattern piece : List Char) (rest : List (List Char)) :
    piece <+: pattern.intercalate (piece :: rest) := by
  cases rest with
  | nil => rw [List.intercalate_singleton]
  | cons next rest =>
    rw [List.intercalate_cons_cons, List.append_assoc]
    exact List.prefix_append piece _

/-- **A text is cut into pieces** without the pattern. -/
theorem exists_pieces (hne : pattern ≠ []) (text : List Char) :
    ∃ pieces, pieces ≠ [] ∧ (∀ piece ∈ pieces, ¬ pattern <:+: piece)
      ∧ pattern.intercalate pieces = text := by
  have hempty : ¬ pattern <:+: [] := fun hp => hne (List.infix_nil.1 hp)
  induction text using walk_induction hne with
  | nil => exact ⟨[[]], List.cons_ne_nil [] [], List.forall_mem_singleton.2 hempty, rfl⟩
  | place rest ih =>
    obtain ⟨pieces, hpieces, hfree, rfl⟩ := ih
    refine ⟨[] :: pieces, List.cons_ne_nil [] pieces, List.forall_mem_cons.2 ⟨hempty, hfree⟩, ?_⟩
    rw [List.intercalate_cons_of_ne_nil hpieces, List.nil_append]
  | other c rest hp ih =>
    obtain ⟨pieces, hpieces, hfree, rfl⟩ := ih
    obtain ⟨piece, pieces, rfl⟩ := List.exists_cons_of_ne_nil hpieces
    rw [List.forall_mem_cons] at hfree
    have hlonger : ¬ pattern <:+: c :: piece := by
      rw [List.infix_cons_iff, not_or]
      refine ⟨fun hplace => hp (hplace.trans ?_), hfree.1⟩
      exact List.cons_prefix_cons.2 ⟨rfl, prefix_intercalate pattern piece pieces⟩
    exact ⟨(c :: piece) :: pieces, List.cons_ne_nil _ _,
      List.forall_mem_cons.2 ⟨hlonger, hfree.2⟩, List.intercalate_cons_cons_left⟩

/-- **There is one piece more than there are places.** -/
theorem Borderless.length_pieces (h : Borderless pattern) (hpieces : pieces ≠ [])
    (hfree : ∀ piece ∈ pieces, ¬ pattern <:+: piece) :
    pieces.length = placeCount pattern (pattern.intercalate pieces) + 1 := by
  obtain ⟨piece, rest, rfl⟩ := List.exists_cons_of_ne_nil hpieces
  clear hpieces
  induction rest generalizing piece with
  | nil =>
    have hpiece : ¬ pattern <:+: piece := hfree piece List.mem_cons_self
    rw [List.intercalate_singleton, placeCount_of_not_infix hpiece]
    rfl
  | cons next rest ih =>
    rw [List.forall_mem_cons] at hfree
    rw [List.intercalate_cons_cons, h.placeCount_append, placeCount_of_not_infix hfree.1,
      List.length_cons, ih next hfree.2]
    omega

/-- **A replacement joins the pieces** with the new text between them. -/
theorem Borderless.replaceAll_intercalate (h : Borderless pattern) (replacement : List Char)
    (hfree : ∀ piece ∈ pieces, ¬ pattern <:+: piece) :
    replaceAll pattern replacement (pattern.intercalate pieces)
      = replacement.intercalate pieces := by
  induction pieces with
  | nil => rfl
  | cons piece rest ih =>
    rw [List.forall_mem_cons] at hfree
    have hpiece := replaceAll_of_not_infix hfree.1 replacement
    by_cases hrest : rest = []
    · rw [hrest, List.intercalate_singleton, List.intercalate_singleton, hpiece]
    · rw [List.intercalate_cons_of_ne_nil hrest, List.intercalate_cons_of_ne_nil hrest,
        h.replaceAll_append, hpiece, ih hfree.2]

end Rota.Text
