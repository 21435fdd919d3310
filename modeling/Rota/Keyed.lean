/-!
# Values by name

A finite map from names to values, kept in the order in which the names were
first used. No name occurs twice, so a name has at most one value and the
number of entries is the number of names.
-/

namespace Rota

/-- **Values by name**, at most one for each name. -/
structure Keyed (α : Type) where
  /-- The entries, in the order in which their names were first used. -/
  entries : List (String × α) := []
  nodup : (entries.map Prod.fst).Nodup := by simp

namespace Keyed

variable {α : Type}

instance : EmptyCollection (Keyed α) := ⟨{}⟩

instance : Inhabited (Keyed α) := ⟨∅⟩

/-- The names in use. -/
def keys (m : Keyed α) : List String :=
  m.entries.map Prod.fst

/-- The value of a name. -/
def get? (m : Keyed α) (name : String) : Option α :=
  m.entries.lookup name

/-- The number of names in use. -/
def size (m : Keyed α) : Nat :=
  m.entries.length

theorem map_fst_replace (entries : List (String × α)) (name : String) (value : α) :
    (entries.map (fun e => if e.1 = name then (name, value) else e)).map Prod.fst
      = entries.map Prod.fst := by
  rw [List.map_map]
  apply List.map_congr_left
  intro e _
  by_cases h : e.1 = name <;> simp [h]

/-- **Give a name a value.** A name in use keeps its place. -/
def put (m : Keyed α) (name : String) (value : α) : Keyed α :=
  if h : name ∈ m.entries.map Prod.fst then
    { entries := m.entries.map (fun e => if e.1 = name then (name, value) else e)
      nodup := by rw [map_fst_replace]; exact m.nodup }
  else
    { entries := m.entries ++ [(name, value)]
      nodup := by
        rw [List.map_append, List.nodup_append]
        refine ⟨m.nodup, by simp, ?_⟩
        intro a ha b hb hab
        simp only [List.map_cons, List.map_nil, List.mem_singleton] at hb
        subst hab hb
        exact h ha }

/-- **Forget a name.** The others keep their order. -/
def erase (m : Keyed α) (name : String) : Keyed α :=
  { entries := m.entries.filter (fun e => e.1 ≠ name)
    nodup := m.nodup.sublist (List.Sublist.map _ List.filter_sublist) }

/-- The names in use, in the order of their code points. -/
def sortedKeys (m : Keyed α) : List String :=
  m.keys.mergeSort (fun a b => decide (a ≤ b))

@[simp] theorem get?_empty (name : String) : (∅ : Keyed α).get? name = none := rfl

theorem lookup_replace (entries : List (String × α)) (name k : String) (value : α)
    (h : name ∈ entries.map Prod.fst) :
    (entries.map (fun e => if e.1 = name then (name, value) else e)).lookup k
      = if k = name then some value else entries.lookup k := by
  induction entries with
  | nil => simp at h
  | cons e rest ih =>
    obtain ⟨used, old⟩ := e
    by_cases he : used = name
    · subst he
      by_cases hr : used ∈ rest.map Prod.fst
      · by_cases hk : k = used
        · simp [hk]
        · have hke : (k == used) = false := by simpa using hk
          simpa [List.lookup_cons, hke, hk] using ih hr
      · have keep : rest.map (fun e => if e.1 = used then (used, value) else e) = rest := by
          refine (List.map_congr_left fun f hf => ?_).trans (List.map_id _)
          have hfn : f.1 ≠ used := fun hfn => hr (hfn ▸ List.mem_map_of_mem hf)
          simp [hfn]
        by_cases hk : k = used
        · simp [hk]
        · have hke : (k == used) = false := by simpa using hk
          simp only [List.map_cons, if_true, List.lookup_cons, hke, keep, if_neg hk]
    · have hr : name ∈ rest.map Prod.fst := by
        rcases List.mem_cons.1 h with h | h
        · exact absurd h.symm he
        · exact h
      have ih := ih hr
      simp only [List.map_cons, if_neg he, List.lookup_cons]
      by_cases hke : k = used
      · subst hke; simp [he]
      · have : (k == used) = false := by simpa using hke
        simp only [this, ih]

/-- Putting a value changes what is found under that name, and nothing else. -/
@[simp] theorem get?_put (m : Keyed α) (name k : String) (value : α) :
    (m.put name value).get? k = if k = name then some value else m.get? k := by
  unfold put get?
  split
  · next h => exact lookup_replace m.entries name k value h
  · next h =>
    rw [List.lookup_append]
    by_cases hk : k = name
    · subst hk
      have : m.entries.lookup k = none := by
        rw [List.lookup_eq_none_iff]
        intro e he
        have : e.1 ≠ k := fun hek => h (hek ▸ List.mem_map_of_mem he)
        simpa using fun hk => this hk.symm
      simp [this]
    · have : (k == name) = false := by simpa using hk
      simp [List.lookup_cons, this, hk]

theorem lookup_filter_ne (entries : List (String × α)) (name k : String) :
    (entries.filter (fun e => e.1 ≠ name)).lookup k
      = if k = name then none else entries.lookup k := by
  induction entries with
  | nil => simp
  | cons e rest ih =>
    obtain ⟨used, value⟩ := e
    by_cases hu : used = name
    · subst hu
      by_cases hk : k = used
      · simpa [hk] using ih
      · have hku : (k == used) = false := by simpa using hk
        simpa [List.lookup_cons, hku, hk] using ih
    · by_cases hk : k = used
      · subst hk; simp [hu]
      · have hku : (k == used) = false := by simpa using hk
        simpa [List.lookup_cons, hu, hku] using ih

/-- A forgotten name has no value; the others keep theirs. -/
@[simp] theorem get?_erase (m : Keyed α) (name k : String) :
    (m.erase name).get? k = if k = name then none else m.get? k :=
  lookup_filter_ne m.entries name k

theorem nodup_keys (m : Keyed α) : m.keys.Nodup :=
  m.nodup

/-- The names in use are those with a value. -/
theorem mem_keys_iff (m : Keyed α) (name : String) :
    name ∈ m.keys ↔ ∃ value, m.get? name = some value := by
  unfold keys get?
  constructor
  · intro h
    cases hl : m.entries.lookup name with
    | some value => exact ⟨value, rfl⟩
    | none =>
      obtain ⟨e, he, rfl⟩ := List.mem_map.1 h
      have := List.lookup_eq_none_iff.1 hl e he
      simp at this
  · rintro ⟨value, hv⟩
    refine Decidable.byContradiction fun h => ?_
    have hnone : m.entries.lookup name = none := by
      rw [List.lookup_eq_none_iff]
      intro e he
      have : e.1 ≠ name := fun hen => h (hen ▸ List.mem_map_of_mem he)
      simpa using fun hn => this hn.symm
    simp [hnone] at hv

/-- An entry is what is found under its name. -/
theorem mem_entries_iff (m : Keyed α) (name : String) (value : α) :
    (name, value) ∈ m.entries ↔ m.get? name = some value := by
  unfold get?
  rw [List.lookup_eq_some_iff]
  constructor
  · intro h
    obtain ⟨before, after, he⟩ := List.append_of_mem h
    refine ⟨before, after, he, fun e hb => ?_⟩
    -- no name occurs twice
    have hn := m.nodup
    rw [he, List.map_append, List.nodup_append] at hn
    have hne := hn.2.2 e.1 (List.mem_map_of_mem hb) name (by simp)
    simpa using Ne.symm hne
  · rintro ⟨before, after, he, -⟩
    rw [he]
    simp

end Keyed

end Rota
