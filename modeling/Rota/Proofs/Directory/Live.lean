import Mathlib.Data.List.Nodup
import Mathlib.Data.List.Perm.Basic
import Rota.Directory.Cache

/-!
# What the cache holds

The cache is a pair of linked maps. Seen from outside it is something simpler:
of the people remembered one after the other, it holds those whom nobody
remembered later has replaced, be it by taking over the id or by taking over
the address. These are the **live** entries of the history, and `Cache.Holds`
says that the two maps show exactly them.

An insertion kills every live entry that shares the id or the address of the
newcomer (`live_concat`), and the two maps follow (`Cache.Holds.insert`). The
number of entries is then the number of live ones (`Cache.Holds.size_eq`).
-/

namespace Rota

/-- **There are as many names in use as a list has** that lists each of them once. -/
theorem Keyed.size_eq_length {α : Type} {m : Keyed α} {names : List String}
    (hnodup : names.Nodup) (h : ∀ name, name ∈ names ↔ ∃ value, m.get? name = some value) :
    m.size = names.length := by
  have hperm : m.keys.Perm names := by
    rw [List.perm_ext_iff_of_nodup m.nodup_keys hnodup]
    exact fun name => (m.mem_keys_iff name).trans (h name).symm
  rw [← hperm.length_eq, keys, List.length_map]
  rfl

namespace Directory

/-! ## Live entries -/

/-- Do two entries share an id or an address? -/
def Remembered.Clashes (e f : Remembered) : Prop :=
  e.person.id = f.person.id ∨ e.person.email = f.person.email

instance (e f : Remembered) : Decidable (e.Clashes f) :=
  inferInstanceAs (Decidable (_ ∨ _))

/-- **The live entries** of a history, oldest first: those with which no later
entry shares the id or the address. -/
def live : List Remembered → List Remembered
  | [] => []
  | e :: later => if ∃ l ∈ later, l.Clashes e then live later else e :: live later

/-- The live entries are entries of the history, in its order. -/
theorem live_sublist (past : List Remembered) : (live past).Sublist past := by
  induction past with
  | nil => exact List.Sublist.refl _
  | cons e later ih =>
    unfold live
    split
    · exact ih.cons e
    · exact ih.cons_cons e

/-- **A newcomer replaces** every entry that shares the id or the address. -/
def arrive (known : List Remembered) (e : Remembered) : List Remembered :=
  known.filter (fun f => ¬ e.Clashes f) ++ [e]

theorem mem_arrive {known : List Remembered} {e f : Remembered} :
    f ∈ arrive known e ↔ f ∈ known ∧ ¬ e.Clashes f ∨ f = e := by
  simp [arrive]

/-- The live entries, when one more person is remembered. -/
theorem live_concat (past : List Remembered) (e : Remembered) :
    live (past ++ [e]) = arrive (live past) e := by
  unfold arrive
  induction past with
  | nil => simp [live]
  | cons f later ih =>
    rw [List.cons_append, live, live]
    by_cases hl : ∃ l ∈ later, l.Clashes f
    · -- the entry had been replaced before
      have hle : ∃ l ∈ later ++ [e], l.Clashes f := by
        obtain ⟨l, hm, hc⟩ := hl
        exact ⟨l, List.mem_append_left _ hm, hc⟩
      rw [if_pos hle, if_pos hl, ih]
    · by_cases he : e.Clashes f
      · -- the newcomer replaces it
        have hle : ∃ l ∈ later ++ [e], l.Clashes f := ⟨e, by simp, he⟩
        rw [if_pos hle, if_neg hl, ih, List.filter_cons_of_neg (by simpa using he)]
      · have hle : ¬ ∃ l ∈ later ++ [e], l.Clashes f := by
          rintro ⟨l, hm, hc⟩
          rcases List.mem_append.1 hm with hm | hm
          · exact hl ⟨l, hm, hc⟩
          · rw [List.mem_singleton] at hm
            exact he (hm ▸ hc)
        rw [if_neg hle, if_neg hl, ih, List.filter_cons_of_pos (by simpa using he),
          List.cons_append]

/-- No two live entries share an id or an address. -/
theorem live_pairwise (past : List Remembered) :
    (live past).Pairwise (fun e f => ¬ f.Clashes e) := by
  induction past with
  | nil => exact List.Pairwise.nil
  | cons e later ih =>
    unfold live
    split
    · exact ih
    · next h =>
      refine List.Pairwise.cons (fun f hf hc => h ⟨f, ?_, hc⟩) ih
      exact (live_sublist later).subset hf

/-- Entries that one key names share an id or an address. -/
theorem Remembered.clashes_of_isNamedBy {e f : Remembered} {key : Key}
    (he : e.person.isNamedBy key) (hf : f.person.isNamedBy key) : e.Clashes f := by
  cases key with
  | userId id => exact .inl ((beq_iff_eq.1 he).trans (beq_iff_eq.1 hf).symm)
  | email address => exact .inr ((beq_iff_eq.1 he).trans (beq_iff_eq.1 hf).symm)

/-- **A live entry is alone** with its id and its address. -/
theorem live_unique {past : List Remembered} {e f : Remembered} (he : e ∈ live past)
    (hf : f ∈ live past) (hc : e.Clashes f) : e = f := by
  have hflip : (live past).Pairwise (flip fun e f => e.Clashes f → e = f) :=
    (live_pairwise past).imp (fun hn h => absurd h hn)
  have hpair : (live past).Pairwise (fun e f => e.Clashes f → e = f) :=
    (live_pairwise past).imp (fun hn h => absurd (h.imp Eq.symm Eq.symm) hn)
  exact hpair.forall_of_forall_of_flip (fun _ _ _ => rfl) hflip he hf hc

/-! ## The two maps -/

namespace Cache

/-- **The maps show these entries**: each under its id, its id under its
address, and nothing else. -/
structure Holds (c : Cache) (known : List Remembered) : Prop where
  byId : ∀ id e, c.byId.get? id = some e ↔ e ∈ known ∧ e.person.id = id
  byEmail : ∀ address id, c.idByEmail.get? address = some id
    ↔ ∃ e ∈ known, e.person.email = address ∧ e.person.id = id

/-- Nothing is remembered at first. -/
theorem holds_empty : Holds {} [] where
  byId := by simp [Keyed.get?_empty]
  byEmail := by simp [Keyed.get?_empty]

@[simp] theorem byId_dropStaleEmail (c : Cache) (person : Identity) :
    (c.dropStaleEmail person).byId = c.byId := by
  unfold dropStaleEmail
  split
  · split <;> rfl
  · rfl

/-- Only the former address of the newcomer is unlinked. -/
theorem idByEmail_dropStaleEmail (c : Cache) (person : Identity) (address : String) :
    (c.dropStaleEmail person).idByEmail.get? address
      = if address ≠ person.email ∧ c.idByEmail.get? address = some person.id
          ∧ ∃ former, c.byId.get? person.id = some former ∧ former.person.email = address
        then none else c.idByEmail.get? address := by
  unfold dropStaleEmail
  cases hf : c.byId.get? person.id with
  | none => simp
  | some former =>
    by_cases ha : former.person.email = address
    · subst ha
      by_cases hs : former.person.email ≠ person.email
        ∧ c.idByEmail.get? former.person.email = some person.id
      · simp [hs]
      · rw [if_neg (fun h => hs ⟨h.1, h.2.1⟩)]
        simp only [if_neg hs]
    · have hne : ¬ address = former.person.email := fun h => ha h.symm
      rw [if_neg (by simp [ha])]
      by_cases hs : former.person.email ≠ person.email
        ∧ c.idByEmail.get? former.person.email = some person.id
      · simp [hs, hne]
      · simp only [if_neg hs]

@[simp] theorem idByEmail_dropFormerOwner (c : Cache) (person : Identity) :
    (c.dropFormerOwner person).idByEmail = c.idByEmail := by
  unfold dropFormerOwner
  split
  · split <;> rfl
  · rfl

/-- Only the former owner of the address is forgotten. -/
theorem byId_dropFormerOwner (c : Cache) (person : Identity) (id : String) :
    (c.dropFormerOwner person).byId.get? id
      = if id ≠ person.id ∧ c.idByEmail.get? person.email = some id then none
        else c.byId.get? id := by
  unfold dropFormerOwner
  cases ho : c.idByEmail.get? person.email with
  | none => simp
  | some owner =>
    by_cases hid : id = owner
    · subst hid
      by_cases hp : id = person.id <;> simp [hp]
    · have hne : ¬ owner = id := fun h => hid h.symm
      simp only [Option.some.injEq, hne, and_false, if_false]
      split <;> simp [hid]

/-- **The entries after an insertion**: the newcomer is under its id, the
former owner of its address is gone, the others stay. -/
theorem byId_insert (c : Cache) (now : Nat) (person : Identity) (id : String) :
    (c.insert now person).byId.get? id
      = if id = person.id then some { person, since := now }
        else if c.idByEmail.get? person.email = some id then none
        else c.byId.get? id := by
  unfold insert
  rw [Keyed.get?_put, byId_dropFormerOwner, idByEmail_dropStaleEmail, byId_dropStaleEmail]
  by_cases hid : id = person.id <;> simp [hid]

/-- **The index after an insertion**: the address of the newcomer leads to it,
an address that it gave up leads nowhere, the others lead where they did. -/
theorem idByEmail_insert (c : Cache) (now : Nat) (person : Identity) (address : String) :
    (c.insert now person).idByEmail.get? address
      = if address = person.email then some person.id
        else if c.idByEmail.get? address = some person.id
          ∧ ∃ former, c.byId.get? person.id = some former ∧ former.person.email = address
        then none else c.idByEmail.get? address := by
  unfold insert
  rw [Keyed.get?_put, idByEmail_dropFormerOwner, idByEmail_dropStaleEmail]
  by_cases ha : address = person.email <;> simp [ha]

section Insert

variable {c : Cache} {known : List Remembered}

theorem Holds.byId_insert (h : c.Holds known) (now : Nat) (person : Identity) (id : String)
    (e : Remembered) :
    (c.insert now person).byId.get? id = some e
      ↔ e ∈ arrive known { person, since := now } ∧ e.person.id = id := by
  rw [Cache.byId_insert, mem_arrive]
  by_cases hid : id = person.id
  · -- an old entry with this id clashes, so only the newcomer is left
    rw [if_pos hid, Option.some.injEq]
    constructor
    · rintro rfl
      exact ⟨Or.inr rfl, hid.symm⟩
    · rintro ⟨⟨-, hne⟩ | rfl, he⟩
      · exact absurd (Or.inl (hid ▸ he.symm)) hne
      · rfl
  · rw [if_neg hid]
    by_cases hown : c.idByEmail.get? person.email = some id
    · -- an old entry with the id of the former owner clashes by its address
      rw [if_pos hown]
      obtain ⟨f, hf, hfa, hfi⟩ := (h.byEmail _ _).1 hown
      refine ⟨(nomatch ·), ?_⟩
      rintro ⟨⟨he, hne⟩ | rfl, hei⟩
      · have hef : some e = some f := by
          rw [← (h.byId id e).2 ⟨he, hei⟩, (h.byId id f).2 ⟨hf, hfi⟩]
        cases hef
        exact absurd (Or.inr hfa.symm) hne
      · exact absurd hei.symm hid
    · rw [if_neg hown, h.byId]
      constructor
      · rintro ⟨he, hei⟩
        refine ⟨Or.inl ⟨he, ?_⟩, hei⟩
        rintro (hi | ha)
        · exact hid (hi.trans hei).symm
        · exact hown ((h.byEmail _ _).2 ⟨e, he, ha.symm, hei⟩)
      · rintro ⟨⟨he, -⟩ | rfl, hei⟩
        · exact ⟨he, hei⟩
        · exact absurd hei.symm hid

theorem Holds.byEmail_insert (h : c.Holds known) (now : Nat) (person : Identity)
    (address id : String) :
    (c.insert now person).idByEmail.get? address = some id
      ↔ ∃ e ∈ arrive known { person, since := now },
        e.person.email = address ∧ e.person.id = id := by
  rw [idByEmail_insert]
  simp only [mem_arrive]
  by_cases ha : address = person.email
  · -- an old entry with this address clashes, so only the newcomer is left
    rw [if_pos ha, Option.some.injEq]
    constructor
    · intro hi
      exact ⟨_, Or.inr rfl, ha.symm, hi⟩
    · rintro ⟨e, ⟨-, hne⟩ | rfl, hea, hei⟩
      · exact absurd (Or.inr (hea.trans ha).symm) hne
      · exact hei
  · rw [if_neg ha]
    split
    · -- an old entry with the address that was given up clashes by its id
      next hup =>
      refine ⟨(nomatch ·), ?_⟩
      rintro ⟨e, ⟨he, hne⟩ | rfl, hea, hei⟩
      · have hid := (h.byEmail address e.person.id).2 ⟨e, he, hea, rfl⟩
        rw [hup.1, Option.some.injEq] at hid
        exact absurd (Or.inl hid) hne
      · exact absurd hea.symm ha
    · next hkeep =>
      rw [h.byEmail]
      constructor
      · rintro ⟨e, he, hea, hei⟩
        refine ⟨e, Or.inl ⟨he, ?_⟩, hea, hei⟩
        rintro (hi | hae)
        · have hby := (h.byId person.id e).2 ⟨he, hi.symm⟩
          exact hkeep ⟨(h.byEmail _ _).2 ⟨e, he, hea, hi.symm⟩, e, hby, hea⟩
        · exact ha (hae.trans hea).symm
      · rintro ⟨e, ⟨he, -⟩ | rfl, hea, hei⟩
        · exact ⟨e, he, hea, hei⟩
        · exact absurd hea.symm ha

/-- **The maps follow the history.** After an insertion they show the newcomer
and those of the former entries that share neither id nor address with it. -/
theorem Holds.insert (h : c.Holds known) (now : Nat) (person : Identity) :
    (c.insert now person).Holds (arrive known { person, since := now }) :=
  ⟨h.byId_insert now person, h.byEmail_insert now person⟩

end Insert

/-- **The size is the number of live entries**, since no two of them share an
id. -/
theorem Holds.size_eq {c : Cache} {past : List Remembered} (h : c.Holds (live past)) :
    c.size = (live past).length := by
  have hids : ((live past).map (fun e => e.person.id)).Nodup := by
    rw [List.Nodup, List.pairwise_map]
    exact (live_pairwise past).imp (fun hn hid => hn (Or.inl hid.symm))
  have hmem (id : String) : id ∈ (live past).map (fun e => e.person.id)
      ↔ ∃ e, c.byId.get? id = some e := by
    rw [List.mem_map]
    exact exists_congr (fun e => (h.byId id e).symm)
  exact (Keyed.size_eq_length hids hmem).trans (List.length_map _)

/-- **What a key leads to** is the live entry that it names. -/
theorem Holds.get?_eq_some_iff {c : Cache} {known : List Remembered} (h : c.Holds known)
    (key : Key) (e : Remembered) :
    c.get? key = some e ↔ e ∈ known ∧ e.person.isNamedBy key = true := by
  cases key with
  | userId id => simpa [get?, Identity.isNamedBy] using h.byId id e
  | email address =>
    simp only [get?, Identity.isNamedBy, Option.bind_eq_some_iff, beq_iff_eq]
    constructor
    · rintro ⟨id, hid, hby⟩
      obtain ⟨f, hf, hfa, hfi⟩ := (h.byEmail _ _).1 hid
      have hef : some e = some f := by rw [← hby, (h.byId id f).2 ⟨hf, hfi⟩]
      cases hef
      exact ⟨hf, hfa⟩
    · rintro ⟨he, ha⟩
      exact ⟨e.person.id, (h.byEmail _ _).2 ⟨e, he, ha, rfl⟩, (h.byId _ _).2 ⟨he, rfl⟩⟩

end Cache

end Directory

end Rota
