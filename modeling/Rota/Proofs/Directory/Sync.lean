import Mathlib.Data.List.Perm.Basic
import Rota.Proofs.Directory.Latest

/-!
# A list in any order

When no user is named twice, a list of users says what the table is to be, and not how to get
there: `synced` applies all its entries at once. The table takes them one after the other, and
never holds an address twice on the way. So an entry that gives a user the address of another
one must come after the entry that gives the other one a new address (`InTurn`).

`collides_iff` says that nothing else is in the way. All orders of a list that are taken over
lead to the same table (`synced_perm`); but addresses that go round in a circle cannot be taken
over in any order.
-/

namespace Rota.Directory

/-! ## All entries at once -/

/-- The ids of rows. -/
def ids (rows : List Row) : List String :=
  rows.map fun r => r.person.id

/-- A row with what a list says of its user. -/
def Row.revised (entries : List Entry) (r : Row) : Row :=
  (entries.find? fun e => e.id == r.person.id).elim r r.update

/-- **The rows with all entries applied at once.** The row of a user who is named gets address,
login and role, and those who are new get a row; all others stay as they are. -/
def synced (rows : List Row) (entries : List Entry) : List Row :=
  rows.map (Row.revised entries)
    ++ (entries.filter fun e => e.id ∉ ids rows).map Row.ofEntry

section Synced

variable {rows : List Row} {entries : List Entry} {e : Entry}

theorem any_id_iff : (rows.any fun r => r.person.id == e.id) = true ↔ e.id ∈ ids rows := by
  unfold ids
  rw [List.any_eq_true, List.mem_map]
  exact exists_congr fun r => and_congr_right fun _ => beq_iff_eq

theorem applied_of_mem (h : e.id ∈ ids rows) :
    applied rows e = rows.map fun r => if r.person.id = e.id then r.update e else r :=
  if_pos (any_id_iff.2 h)

theorem applied_of_not_mem (h : e.id ∉ ids rows) : applied rows e = rows ++ [.ofEntry e] :=
  if_neg fun hany => h (any_id_iff.1 hany)

theorem ids_applied_of_mem (h : e.id ∈ ids rows) : ids (applied rows e) = ids rows := by
  rw [applied_of_mem h]
  unfold ids
  rw [List.map_map]
  refine List.map_congr_left fun r _ => ?_
  show (if r.person.id = e.id then r.update e else r).person.id = r.person.id
  split <;> rfl

theorem ids_applied_of_not_mem (h : e.id ∉ ids rows) :
    ids (applied rows e) = ids rows ++ [e.id] := by
  rw [applied_of_not_mem h]
  exact List.map_append

theorem revised_cons_of_ne {r : Row} (h : r.person.id ≠ e.id) :
    r.revised (e :: entries) = r.revised entries := by
  unfold Row.revised
  rw [List.find?_cons_of_neg (by simpa using h.symm)]

theorem revised_cons_of_eq {r : Row} (h : r.person.id = e.id) :
    r.revised (e :: entries) = r.update e := by
  have hfirst : ((e :: entries).find? fun e' => e'.id == r.person.id) = some e :=
    List.find?_cons_of_pos (beq_iff_eq.2 h.symm)
  unfold Row.revised
  rw [hfirst]
  rfl

theorem revised_of_not_mem {r : Row} (h : r.person.id ∉ entries.map Entry.id) :
    r.revised entries = r := by
  have hno : (entries.find? fun e => e.id == r.person.id) = none := by
    refine List.find?_eq_none.2 fun e he hid => h ?_
    exact List.mem_map.2 ⟨e, he, beq_iff_eq.1 hid⟩
  unfold Row.revised
  rw [hno]
  rfl

theorem synced_nil (rows : List Row) : synced rows [] = rows := by
  unfold synced
  rw [List.filter_nil, List.map_nil, List.append_nil]
  exact List.map_id _

/-- **One entry and then the others** are all of them at once, if they name other users. -/
theorem synced_applied (hnew : e.id ∉ entries.map Entry.id) :
    synced (applied rows e) entries = synced rows (e :: entries) := by
  unfold synced
  by_cases hin : e.id ∈ ids rows
  · rw [ids_applied_of_mem hin, applied_of_mem hin, List.map_map,
      List.filter_cons_of_neg (by simpa using hin)]
    refine congrArg (· ++ _) (List.map_congr_left fun r _ => ?_)
    show (if r.person.id = e.id then r.update e else r).revised entries = _
    by_cases hr : r.person.id = e.id
    · rw [if_pos hr, revised_cons_of_eq hr]
      exact revised_of_not_mem (hr ▸ hnew)
    · rw [if_neg hr, revised_cons_of_ne hr]
  · rw [ids_applied_of_not_mem hin, applied_of_not_mem hin, List.map_append, List.append_assoc,
      List.filter_cons_of_pos (by simpa using hin), List.map_cons]
    refine congrArg₂ (· ++ ·) (List.map_congr_left fun r hr => ?_) ?_
    · refine (revised_cons_of_ne fun hid => hin ?_).symm
      exact hid ▸ List.mem_map_of_mem hr
    · have hrest : (entries.filter fun e' => e'.id ∉ ids rows ++ [e.id])
          = entries.filter fun e' => e'.id ∉ ids rows := by
        refine List.filter_congr fun e' he' => ?_
        have hne : e'.id ≠ e.id := fun hid => hnew (hid ▸ List.mem_map_of_mem he')
        simp [hne]
      rw [hrest]
      exact congrArg (· :: _) (revised_of_not_mem (r := .ofEntry e) hnew)

/-- **Entries applied in turn** are applied at once, if no user is named twice. -/
theorem foldl_applied_eq_synced (distinct : (entries.map Entry.id).Nodup) :
    entries.foldl applied rows = synced rows entries := by
  induction entries generalizing rows with
  | nil => exact (synced_nil rows).symm
  | cons e rest ih =>
    rw [List.map_cons, List.nodup_cons] at distinct
    rw [List.foldl_cons, ih distinct.2, synced_applied distinct.1]

/-- The one entry for a user. -/
theorem find?_entry_iff (distinct : (entries.map Entry.id).Nodup) (id : String) :
    (entries.find? fun e => e.id == id) = some e ↔ e ∈ entries ∧ e.id = id := by
  constructor
  · intro hf
    exact ⟨List.mem_of_find?_eq_some hf, by simpa using List.find?_some hf⟩
  · rintro ⟨he, rfl⟩
    cases hf : entries.find? fun e' => e'.id == e.id with
    | none => exact absurd (List.find?_eq_none.1 hf e he) (by simp)
    | some e' =>
      have hid : e'.id = e.id := by simpa using List.find?_some hf
      rw [List.inj_on_of_nodup_map distinct (List.mem_of_find?_eq_some hf) he hid]

/-- **In any order** the entries lead to the same rows. -/
theorem synced_perm {order : List Entry} (h : order.Perm entries)
    (distinct : (entries.map Entry.id).Nodup) (rows : List Row) :
    (synced rows order).Perm (synced rows entries) := by
  have hrevised : Row.revised order = Row.revised entries := by
    funext r
    refine congrArg (Option.elim · r r.update) (Option.ext fun e => ?_)
    rw [find?_entry_iff distinct, find?_entry_iff ((h.map Entry.id).nodup_iff.2 distinct),
      h.mem_iff]
  unfold synced
  rw [hrevised]
  exact ((h.filter _).map _).append_left _

end Synced

/-! ## Addresses that are handed over -/

/-- **Every address is free before it is taken.** If an entry takes the address of somebody
else, an earlier entry has named them. -/
def InTurn (rows : List Row) (entries : List Entry) : Prop :=
  ∀ i : Fin entries.length, ∀ r ∈ rows,
    r.person.email = entries[i].email → r.person.id ≠ entries[i].id →
      ∃ e ∈ entries.take i, e.id = r.person.id

instance (rows : List Row) (entries : List Entry) : Decidable (InTurn rows entries) :=
  inferInstanceAs (Decidable (∀ _, _))

section InTurn

variable {rows : List Row} {entries : List Entry}

theorem inTurn_iff : InTurn rows entries ↔ ∀ before e after, entries = before ++ e :: after →
    ∀ r ∈ rows, r.person.email = e.email → r.person.id ≠ e.id →
      ∃ e' ∈ before, e'.id = r.person.id := by
  constructor
  · rintro h before e after rfl
    have hi := h ⟨before.length, by simp⟩
    simpa using hi
  · intro h i
    exact h (entries.take i) entries[i] (entries.drop (i + 1)) (by simp)

/-- Nobody has to wait for an address that is nobody else's. -/
theorem inTurn_of_free
    (h : ∀ e ∈ entries, ∀ r ∈ rows, r.person.email = e.email → r.person.id = e.id) :
    InTurn rows entries :=
  fun i r hr hemail hid => absurd (h _ (List.getElem_mem i.isLt) r hr hemail) hid

end InTurn

section Collides

variable {rows : List Row} {entries : List Entry}

theorem nodup_ids_foldl_applied (h : (ids rows).Nodup) (entries : List Entry) :
    (ids (entries.foldl applied rows)).Nodup := by
  induction entries generalizing rows with
  | nil => exact h
  | cons e rest ih =>
    refine ih ?_
    by_cases hin : e.id ∈ ids rows
    · rwa [ids_applied_of_mem hin]
    · rw [ids_applied_of_not_mem hin]
      exact List.nodup_append_comm.1 (List.nodup_cons.2 ⟨hin, h⟩)

/-- The row of an entry shows it, if no user is named twice. -/
theorem exists_shown_of_distinct (distinct : (entries.map Entry.id).Nodup) {e : Entry}
    (he : e ∈ entries) (rows : List Row) : ∃ r ∈ entries.foldl applied rows, r.Shows e := by
  obtain ⟨r, hr, hid⟩ := exists_shown he rows
  rcases shown_of_mem hr with ⟨e', hlast, shown⟩ | ⟨hnone, -⟩
  · obtain ⟨he', hid'⟩ := mem_of_lastFor hlast
    rw [List.inj_on_of_nodup_map distinct he' he (hid'.trans hid)] at shown
    exact ⟨r, hr, shown⟩
  · exact absurd hid.symm (lastFor_eq_none_iff.1 hnone e he)

/-- **No address is shared** if rows with the same address have the same id. -/
theorem nodup_emails_of_ids (hids : (ids rows).Nodup)
    (h : ∀ q ∈ rows, ∀ q' ∈ rows, q.person.email = q'.person.email → q.person.id = q'.person.id) :
    (emails rows).Nodup := by
  refine List.Nodup.map_on (fun q hq q' hq' hsame => ?_) hids.of_map
  exact List.inj_on_of_nodup_map hids hq hq' (h q hq q' hq' hsame)

/-- No two rows share an address if the entries come in turn, and no two do in the end. -/
theorem not_collides (hids : (ids rows).Nodup) (hemails : (emails rows).Nodup)
    (distinct : (entries.map Entry.id).Nodup)
    (hend : (emails (entries.foldl applied rows)).Nodup) (hturn : InTurn rows entries) :
    ¬ Collides rows entries := by
  rintro ⟨done, ⟨left, rfl⟩, hshared⟩
  have hpart : (done.map Entry.id).Nodup := by
    rw [List.map_append] at distinct
    exact (List.nodup_append.1 distinct).1
  -- an entry that was applied and a row that was not named yet cannot share an address
  have hapart : ∀ e ∈ done, ∀ r ∈ rows, lastFor done r.person.id = none →
      r.person.email ≠ e.email := by
    intro e he r hr hnone hemail
    have hnone := lastFor_eq_none_iff.1 hnone
    obtain ⟨before, after, rfl⟩ := List.append_of_mem he
    obtain ⟨e', he', hid⟩ :=
      inTurn_iff.1 hturn before e (after ++ left) (by simp) r hr hemail (hnone e he).symm
    exact hnone e' (List.mem_append_left _ he') hid
  -- two entries that were applied are still there in the end
  have hentries : ∀ e ∈ done, ∀ e' ∈ done, e.email = e'.email → e.id = e'.id := by
    intro e he e' he' hemail
    obtain ⟨q, hq, shown⟩ := exists_shown_of_distinct distinct (List.mem_append_left left he) rows
    obtain ⟨q', hq', shown'⟩ :=
      exists_shown_of_distinct distinct (List.mem_append_left left he') rows
    have hsame : q.person.email = q'.person.email := by rw [shown.email, shown'.email, hemail]
    rw [← shown.id, ← shown'.id, List.inj_on_of_nodup_map hend hq hq' hsame]
  refine hshared (nodup_emails_of_ids (nodup_ids_foldl_applied hids done) ?_)
  intro q hq q' hq' hsame
  rcases shown_of_mem hq with ⟨e, hlast, shown⟩ | ⟨hnone, hold⟩
  · have he := (mem_of_lastFor hlast).1
    rcases shown_of_mem hq' with ⟨e', hlast', shown'⟩ | ⟨hnone', hold'⟩
    · rw [shown.id, shown'.id]
      refine hentries e he e' (mem_of_lastFor hlast').1 ?_
      rw [← shown.email, ← shown'.email, hsame]
    · exact absurd (hsame.symm.trans shown.email) (hapart e he q' hold' hnone')
  · rcases shown_of_mem hq' with ⟨e', hlast', shown'⟩ | ⟨-, hold'⟩
    · exact absurd (hsame.trans shown'.email)
        (hapart e' (mem_of_lastFor hlast').1 q hold hnone)
    · rw [List.inj_on_of_nodup_map hemails hold hold' hsame]

/-- Entries that never make two rows share an address come in turn. -/
theorem inTurn_of_not_collides (distinct : (entries.map Entry.id).Nodup)
    (h : ¬ Collides rows entries) : InTurn rows entries := by
  refine inTurn_iff.2 ?_
  rintro before e after rfl r hr hemail hne
  by_contra hno
  push Not at hno
  refine h ⟨before ++ [e], ⟨after, by simp⟩, fun nodup => hne ?_⟩
  -- the row is as it was when the entry takes its address
  have hpart : ((before ++ [e]).map Entry.id).Nodup := by
    refine distinct.sublist (List.Sublist.map _ ?_)
    exact List.Sublist.append_left (List.singleton_sublist.2 List.mem_cons_self) before
  obtain ⟨q, hq, shown⟩ :=
    exists_shown_of_distinct hpart (List.mem_append_right before List.mem_cons_self) rows
  have hold : r ∈ (before ++ [e]).foldl applied rows := by
    refine mem_foldl_applied hr fun e' he' => ?_
    rcases List.mem_append.1 he' with he' | he'
    · exact hno e' he'
    · rw [List.mem_singleton.1 he']
      exact hne.symm
  rw [List.inj_on_of_nodup_map nodup hold hq (hemail.trans shown.email.symm), shown.id]

/-- **Two rows share an address on the way** exactly if two do in the end, or if an entry takes
an address that is not free yet. -/
theorem collides_iff (hids : (ids rows).Nodup) (hemails : (emails rows).Nodup)
    (distinct : (entries.map Entry.id).Nodup) :
    Collides rows entries ↔ ¬ ((emails (synced rows entries)).Nodup ∧ InTurn rows entries) := by
  rw [← foldl_applied_eq_synced distinct]
  constructor
  · rintro hc ⟨hend, hturn⟩
    exact not_collides hids hemails distinct hend hturn hc
  · intro h
    by_contra hc
    refine h ⟨?_, inTurn_of_not_collides distinct hc⟩
    by_contra hend
    exact hc ⟨entries, List.prefix_refl _, hend⟩

end Collides

/-! ## User lists without repetitions -/

/-- **A list that names nobody twice**, if no address is shared with all its entries applied at
once. In each of its orders in which every address is free before it is taken, the list is taken
over, and leads to these rows; in each other order it is refused and changes nothing. So the
order makes no difference if no entry takes an address that somebody else has. -/
theorem import_in_turn (operations : List Operation) (entries : List Entry)
    (distinct : (entries.map Entry.id).Nodup) (usable : ∀ e ∈ entries, e.isUsable = true) :
    let d := operations.foldl after {}
    (emails (synced d.rows entries)).Nodup → ∀ order, order.Perm entries →
      (InTurn d.rows order → ∃ d' report, d.importAll order = .ok (d', report)
          ∧ d'.rows.Perm (synced d.rows entries))
        ∧ (¬ InTurn d.rows order →
          (∃ e ∈ order, ∃ operation,
            d.importAll order = .error (Refusal.emailTaken.at operation e.id))
          ∧ d.after (.importAll order) = d)
        ∧ ((∀ e ∈ entries, ∀ r ∈ d.rows, r.person.email = e.email → r.person.id = e.id) →
          InTurn d.rows order) := by
  intro d hend order hperm
  have hsound : d.Sound := Sound.foldl_after ⟨{}, rfl, Table.sound_empty⟩ operations
  have hdistinct : (order.map Entry.id).Nodup := (hperm.map Entry.id).nodup_iff.2 distinct
  have hsynced := synced_perm hperm distinct d.rows
  have hall : order.filter Entry.isUsable = order :=
    List.filter_eq_self.2 fun e he => usable e (hperm.mem_iff.1 he)
  have hend : (emails (synced d.rows order)).Nodup := (hsynced.map _).nodup_iff.2 hend
  have hiff : Collides d.rows order ↔ ¬ InTurn d.rows order := by
    rw [collides_iff hsound.consistent.ids hsound.consistent.emails hdistinct]
    exact not_congr (and_iff_right hend)
  refine ⟨fun hturn => ?_, fun hturn => ?_, fun hfree => ?_⟩
  · rcases hsound.importAll_cases order with ⟨hc, -⟩ | ⟨-, d', report, hok, hrows, -⟩
    · rw [hall] at hc
      exact absurd hturn (hiff.1 hc)
    · rw [hall, foldl_applied_eq_synced hdistinct] at hrows
      exact ⟨d', report, hok, hrows ▸ hsynced⟩
  · rcases hsound.importAll_cases order with ⟨-, e, he, operation, hfail⟩ | ⟨hc, -⟩
    · exact ⟨⟨e, hall ▸ he, operation, hfail⟩, after_importAll_of_error hfail⟩
    · rw [hall] at hc
      exact absurd (hiff.2 hturn) hc
  · exact inTurn_of_free fun e he => hfree e (hperm.mem_iff.1 he)

/-- One user hands their address over to another one, who hands theirs over to a new user. The
list begins with the first of them. -/
theorem import_handed_over :
    let d := [Operation.upsert { id := "1", email := "a@x.org", slack := some "A" },
      .upsert { id := "2", email := "b@x.org" }].foldl after {}
    let entries : List Entry :=
      [{ id := "1", email := "c@x.org" }, { id := "2", email := "a@x.org" },
        { id := "3", email := "b@x.org", isAdmin := true }]
    InTurn d.rows entries ∧ ¬ InTurn d.rows entries.reverse
      ∧ (∃ d' report, d.importAll entries = .ok (d', report)
        ∧ d'.rows.Perm
          [{ person := { id := "1", email := "c@x.org", slack := some "A" } },
            { person := { id := "2", email := "a@x.org" } },
            { person := { id := "3", email := "b@x.org", role := "admin" } }])
      ∧ d.after (.importAll entries.reverse) = d := by
  intro d entries
  have h := import_in_turn [.upsert { id := "1", email := "a@x.org", slack := some "A" },
    .upsert { id := "2", email := "b@x.org" }] entries
    (by decide +kernel) (by decide +kernel) (by decide +kernel)
  have hturn : InTurn d.rows entries := by decide +kernel
  have hnot : ¬ InTurn d.rows entries.reverse := by decide +kernel
  exact ⟨hturn, hnot, (h entries (.refl _)).1 hturn,
    ((h entries.reverse (List.reverse_perm _)).2.1 hnot).2⟩

/-- **The order of a list makes a difference**, although no address is shared in the end. -/
theorem exists_refused_order :
    let d := [Operation.upsert { id := "1", email := "a@x.org" },
      .upsert { id := "2", email := "b@x.org" }].foldl after {}
    let entries : List Entry :=
      [{ id := "2", email := "a@x.org" }, { id := "1", email := "c@x.org" }]
    (entries.map Entry.id).Nodup ∧ (∀ e ∈ entries, e.isUsable = true)
      ∧ (emails (synced d.rows entries)).Nodup
      ∧ (d.importAll entries).map Prod.snd
        = .error (.directory "update 2: UNIQUE constraint failed: users.email")
      ∧ (d.importAll entries.reverse).map Prod.snd = .ok { updated := 2 } := by
  decide +kernel

end Rota.Directory
