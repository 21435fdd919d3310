import Rota.Proofs.Directory.Consistency

/-!
# Taking over a user list

A user list is taken over as a whole or not at all. What it does when it is taken over is
said by `applied`, on the rows alone: the entries that can be used are applied one after the
other, whether or not two rows come to share an address on the way. The list is refused
exactly if they do (`Collides`).

`Sound.takeOver` is the step: an entry puts one row, and the table takes it if the addresses
of the applied rows are all different. `Sound.foldlM_takeOver` goes through a list of entries.
What becomes of a row that is not listed, and of phone numbers and chat handles, is proved of
`applied`, with no table in sight.
-/

namespace Rota

namespace Keyed

variable {α : Type} {m : Keyed α} {name : String}

theorem entries_put_of_mem (value : α) (h : name ∈ m.keys) :
    (m.put name value).entries
      = m.entries.map fun e => if e.1 = name then (name, value) else e := by
  unfold put
  exact congrArg entries (dif_pos h)

theorem entries_put_of_not_mem (value : α) (h : name ∉ m.keys) :
    (m.put name value).entries = m.entries ++ [(name, value)] := by
  unfold put
  exact congrArg entries (dif_neg h)

end Keyed

namespace Directory

/-! ## Entries applied to rows -/

/-- How somebody can be reached: number, whether it is verified, and chat handle. -/
def Row.contacts (r : Row) : Option String × Bool × Option String :=
  (r.person.phone, r.person.phoneVerified, r.person.slack)

/-- **The rows with an entry applied.** A row with its id gets address, login, role and
whether the person can be found, and keeps the rest; without one, a row is added. -/
def applied (rows : List Row) (e : Entry) : List Row :=
  if rows.any fun r => r.person.id == e.id then
    rows.map fun r =>
      if r.person.id = e.id then
        { person := { id := r.person.id, email := e.email, username := e.login, role := e.role
                      phone := r.person.phone, phoneVerified := r.person.phoneVerified
                      slack := r.person.slack }
          active := !e.isDisabled }
      else r
  else
    rows ++ [{ person := { id := e.id, email := e.email, username := e.login, role := e.role
                           phone := none, phoneVerified := false, slack := none }
               active := !e.isDisabled }]

/-- The addresses of rows. -/
def emails (rows : List Row) : List String :=
  rows.map fun r => r.person.email

/-- **Two rows come to share an address** when the entries are applied in turn. -/
def Collides (rows : List Row) (entries : List Entry) : Prop :=
  ∃ done, done <+: entries ∧ ¬ (emails (done.foldl applied rows)).Nodup

theorem not_collides_nil {rows : List Row} (h : (emails rows).Nodup) : ¬ Collides rows [] := by
  rintro ⟨done, hd, hn⟩
  obtain rfl := List.prefix_nil.1 hd
  exact hn h

theorem collides_cons {rows : List Row} (h : (emails rows).Nodup) (e : Entry)
    (rest : List Entry) : Collides rows (e :: rest) ↔ Collides (applied rows e) rest := by
  constructor
  · rintro ⟨done, hd, hn⟩
    rcases List.prefix_cons_iff.1 hd with rfl | ⟨later, rfl, hl⟩
    · exact absurd h hn
    · exact ⟨later, hl, hn⟩
  · rintro ⟨later, hl, hn⟩
    exact ⟨e :: later, List.prefix_cons_iff.2 (.inr ⟨later, rfl, hl⟩), hn⟩

/-- What has collided stays refused, whatever follows. -/
theorem collides_of_not_nodup {rows : List Row} (h : ¬ (emails rows).Nodup)
    (entries : List Entry) : Collides rows entries :=
  ⟨[], List.nil_prefix, h⟩

/-! ### What the rows keep -/

section Kept

variable {rows : List Row} {r r' : Row}

/-- **A row stays as it is** if no entry has its id. -/
theorem mem_foldl_applied {entries : List Entry} (h : r ∈ rows)
    (hno : ∀ e ∈ entries, e.id ≠ r.person.id) : r ∈ entries.foldl applied rows := by
  induction entries generalizing rows with
  | nil => exact h
  | cons e rest ih =>
    refine ih ?_ fun e he => hno e (List.mem_cons_of_mem _ he)
    have hne : r.person.id ≠ e.id := (hno e List.mem_cons_self).symm
    unfold applied
    split
    · exact List.mem_map.2 ⟨r, h, if_neg hne⟩
    · exact List.mem_append_left _ h

/-- An entry leaves nobody out, and nobody's contacts. -/
theorem exists_mem_applied (h : r ∈ rows) (e : Entry) :
    ∃ r' ∈ applied rows e, r'.person.id = r.person.id ∧ r'.contacts = r.contacts := by
  unfold applied
  split
  · refine ⟨_, List.mem_map_of_mem h, ?_⟩
    split <;> exact ⟨rfl, rfl⟩
  · exact ⟨r, List.mem_append_left _ h, rfl, rfl⟩

theorem exists_mem_foldl_applied (h : r ∈ rows) (entries : List Entry) :
    ∃ r' ∈ entries.foldl applied rows, r'.person.id = r.person.id
      ∧ r'.contacts = r.contacts := by
  induction entries generalizing rows r with
  | nil => exact ⟨r, h, rfl, rfl⟩
  | cons e rest ih =>
    obtain ⟨next, hn, hid, hc⟩ := exists_mem_applied h e
    obtain ⟨last, hl, hid', hc'⟩ := ih hn
    exact ⟨last, hl, hid'.trans hid, hc'.trans hc⟩

/-- **Where the contacts of a row come from**: from the row that had its id, and if there was
none, the row has no contacts. -/
def HasContactsOf (rows : List Row) (r : Row) : Prop :=
  (∃ old ∈ rows, old.person.id = r.person.id ∧ r.contacts = old.contacts)
    ∨ (∀ old ∈ rows, old.person.id ≠ r.person.id) ∧ r.contacts = (none, false, none)

theorem hasContactsOf_applied {e : Entry} (h : r ∈ applied rows e) : HasContactsOf rows r := by
  unfold applied at h
  split at h
  · obtain ⟨old, ho, rfl⟩ := List.mem_map.1 h
    refine .inl ⟨old, ho, ?_⟩
    split <;> exact ⟨rfl, rfl⟩
  · next hany =>
    rcases List.mem_append.1 h with h | h
    · exact .inl ⟨r, h, rfl, rfl⟩
    · obtain rfl := List.mem_singleton.1 h
      refine .inr ⟨fun old ho he => hany ?_, rfl⟩
      exact List.any_eq_true.2 ⟨old, ho, beq_iff_eq.2 he⟩

theorem hasContactsOf_foldl_applied {entries : List Entry}
    (h : r ∈ entries.foldl applied rows) : HasContactsOf rows r := by
  induction entries generalizing rows with
  | nil => exact .inl ⟨r, h, rfl, rfl⟩
  | cons e rest ih =>
    rcases ih h with ⟨next, hn, hid, hc⟩ | ⟨hno, hc⟩
    · rcases hasContactsOf_applied hn with ⟨old, ho, hid', hc'⟩ | ⟨hno, hc'⟩
      · exact .inl ⟨old, ho, hid'.trans hid, hc.trans hc'⟩
      · exact .inr ⟨fun old ho => hid ▸ hno old ho, hc.trans hc'⟩
    · refine .inr ⟨fun old ho he => ?_, hc⟩
      obtain ⟨next, hn, hid, -⟩ := exists_mem_applied ho e
      exact hno next hn (hid.trans he)

end Kept

/-! ## Entries taken over by the table -/

/-- **A report counts the entries** of a user list. -/
structure ImportReport.Counts (report : ImportReport) (entries : List Entry) : Prop where
  total : report.inserted + report.updated + report.skipped = entries.length
  skipped : report.skipped = entries.countP fun e => !e.isUsable
  disabled : report.disabled = entries.countP fun e => e.isUsable && e.isDisabled

theorem counts_nil : ({} : ImportReport).Counts [] :=
  ⟨rfl, rfl, rfl⟩

namespace Table

section TakeOver

variable {t t' : Table} {report report' : ImportReport} {e : Entry}

/-- The row that an entry puts. -/
def rowFor (t : Table) (e : Entry) : Row :=
  match t.row? e.id with
  | some r => r.update e
  | none => .ofEntry e

theorem rowFor_email (t : Table) (e : Entry) : (t.rowFor e).person.email = e.email := by
  unfold rowFor
  split <;> rfl

theorem Sound.rowFor_id (h : t.Sound) (e : Entry) : (t.rowFor e).person.id = e.id := by
  unfold rowFor
  split
  · next r hr => exact h.keyed e.id r hr
  · rfl

/-! ### One entry -/

theorem takeOver_of_unusable (h : e.isUsable = false) :
    t.takeOver report e = .ok (t, { report with skipped := report.skipped + 1 }) := by
  unfold Table.takeOver
  rw [h]
  rfl

theorem takeOver_of_usable (h : e.isUsable = true) :
    t.takeOver report e
      = ((t.put (t.rowFor e)).mapError
          (·.at (if (t.row? e.id).isSome then "update" else "insert") e.id)).map fun next =>
        (next,
          { report with
            updated := if (t.row? e.id).isSome then report.updated + 1 else report.updated
            inserted := if (t.row? e.id).isSome then report.inserted else report.inserted + 1
            disabled := if e.isDisabled then report.disabled + 1 else report.disabled }) := by
  unfold Table.takeOver rowFor
  rw [h]
  cases hd : e.isDisabled <;> cases hr : t.row? e.id <;> rfl

/-- Each entry adds to one of the three sums, and if it was disabled, to the fourth. -/
theorem counts_takeOver {done : List Entry} (h : report.Counts done)
    (ht : t.takeOver report e = .ok (t', report')) : report'.Counts (done ++ [e]) := by
  obtain ⟨htotal, hskipped, hdisabled⟩ := h
  cases usable : e.isUsable with
  | false =>
    rw [takeOver_of_unusable usable] at ht
    cases ht
    exact ⟨by simp; omega, by simp [usable, hskipped], by simp [usable, hdisabled]⟩
  | true =>
    rw [takeOver_of_usable usable] at ht
    cases hput : t.put (t.rowFor e) with
    | error refusal =>
      rw [hput] at ht
      cases ht
    | ok next =>
      rw [hput] at ht
      cases ht
      refine ⟨?_, ?_, ?_⟩
      · cases (t.row? e.id).isSome <;> simp <;> omega
      · simp [usable, hskipped]
      · cases hd : e.isDisabled <;> simp [usable, hd, hdisabled]

/-- The table with the row of an entry in it. -/
def withEntry (t : Table) (e : Entry) : Table :=
  { rows := t.rows.put e.id (t.rowFor e) }

theorem Sound.id_of_mem_entries (h : t.Sound) {entry : String × Row}
    (he : entry ∈ t.rows.entries) : entry.2.person.id = entry.1 :=
  h.keyed _ _ ((t.rows.mem_entries_iff _ _).1 he)

theorem Sound.any_id_iff (h : t.Sound) (id : String) :
    (t.toList.any fun r => r.person.id == id) = true ↔ id ∈ t.rows.keys := by
  unfold toList Keyed.keys
  rw [List.any_map, List.any_eq_true, List.mem_map]
  refine exists_congr fun entry => and_congr_right fun he => ?_
  rw [Function.comp_apply, beq_iff_eq, h.id_of_mem_entries he]

/-- **Putting the row of an entry** is applying the entry to the rows. -/
theorem Sound.toList_withEntry (h : t.Sound) (e : Entry) :
    (t.withEntry e).toList = applied t.toList e := by
  unfold applied
  by_cases hin : e.id ∈ t.rows.keys
  · rw [if_pos ((h.any_id_iff e.id).2 hin)]
    unfold withEntry toList
    rw [Keyed.entries_put_of_mem _ hin, List.map_map, List.map_map]
    refine List.map_congr_left fun entry he => ?_
    have hid := h.id_of_mem_entries he
    show (if entry.1 = e.id then (e.id, t.rowFor e) else entry).2
      = if entry.2.person.id = e.id then _ else entry.2
    by_cases hname : entry.2.person.id = e.id
    · have hkey : entry.1 = e.id := hid.symm.trans hname
      have hrow : t.row? e.id = some entry.2 :=
        hkey ▸ (t.rows.mem_entries_iff entry.1 entry.2).1 he
      rw [if_pos hname, if_pos hkey, rowFor, hrow]
      rfl
    · rw [if_neg hname, if_neg fun hkey => hname (hid.trans hkey)]
  · have hrow : t.row? e.id = none := by
      refine Option.eq_none_iff_forall_ne_some.2 fun r hr => hin ?_
      exact (t.rows.mem_keys_iff e.id).2 ⟨r, hr⟩
    rw [if_neg fun hany => hin ((h.any_id_iff e.id).1 hany)]
    unfold withEntry toList
    rw [Keyed.entries_put_of_not_mem _ hin, List.map_append, rowFor, hrow]
    rfl

/-- **An address is taken** exactly if two rows would share it. -/
theorem Sound.isTaken_iff (h : t.Sound) (e : Entry) :
    t.isTaken e.email e.id = true ↔ ¬ (emails (applied t.toList e)).Nodup := by
  have hemail := t.rowFor_email e
  have hid := h.rowFor_id e
  have hrow (id : String) : (t.withEntry e).row? id
      = if id = e.id then some (t.rowFor e) else t.row? id := t.rows.get?_put _ _ _
  rw [← h.toList_withEntry]
  constructor
  · intro htaken nodup
    -- the row that has the address is still there, next to the new one
    have htaken : ¬ t.isTaken e.email e.id = false := by simp [htaken]
    rw [isTaken_eq_false_iff] at htaken
    push Not at htaken
    obtain ⟨id, r, hr, he, hne⟩ := htaken
    have hold : r ∈ (t.withEntry e).toList :=
      (mem_toList_iff _ _).2 ⟨id, by rw [hrow, if_neg hne, hr]⟩
    have hnew : t.rowFor e ∈ (t.withEntry e).toList :=
      (mem_toList_iff _ _).2 ⟨e.id, by rw [hrow, if_pos rfl]⟩
    have hsame : r = t.rowFor e :=
      List.inj_on_of_nodup_map nodup hold hnew (he.trans hemail.symm)
    exact hne ((h.keyed id r hr).symm.trans (hsame ▸ hid))
  · intro nodup
    by_contra hfree
    refine nodup (Sound.nodup_emails (h.put (r := t.rowFor e) (put_eq_ok_iff.2 ⟨?_, ?_⟩)))
    · rw [hemail, hid]
      exact Bool.eq_false_iff.2 hfree
    · rw [hid]
      rfl

theorem Sound.takeOver (h : t.Sound) (report : ImportReport) (usable : e.isUsable = true) :
    (¬ (emails (applied t.toList e)).Nodup ∧ ∃ operation,
        t.takeOver report e = .error (Refusal.emailTaken.at operation e.id))
      ∨ (t.withEntry e).Sound
        ∧ ∃ report', t.takeOver report e = .ok (t.withEntry e, report') := by
  rw [takeOver_of_usable usable, ← h.isTaken_iff]
  cases htaken : t.isTaken e.email e.id with
  | true =>
    have hput : t.put (t.rowFor e) = .error .emailTaken := by
      unfold Table.put
      rw [rowFor_email, h.rowFor_id, htaken]
      rfl
    rw [hput]
    exact .inl ⟨rfl, _, rfl⟩
  | false =>
    have hput : t.put (t.rowFor e) = .ok (t.withEntry e) := by
      refine put_eq_ok_iff.2 ⟨by rw [rowFor_email, h.rowFor_id, htaken], ?_⟩
      rw [h.rowFor_id]
      rfl
    rw [hput]
    exact .inr ⟨h.put hput, _, rfl⟩

/-! ### A list of entries -/

/-- **A list is taken over** entry by entry, if no two rows come to share an address; else it
is refused because of one of its entries. -/
theorem Sound.foldlM_takeOver (h : t.Sound) {done : List Entry} (hc : report.Counts done)
    (entries : List Entry) :
    (Collides t.toList (entries.filter Entry.isUsable)
        ∧ ∃ e ∈ entries.filter Entry.isUsable, ∃ operation,
          entries.foldlM (fun (t, report) e => t.takeOver report e) (t, report)
            = .error (Refusal.emailTaken.at operation e.id))
      ∨ ¬ Collides t.toList (entries.filter Entry.isUsable)
        ∧ ∃ t' report',
          entries.foldlM (fun (t, report) e => t.takeOver report e) (t, report)
            = .ok (t', report')
          ∧ t'.toList = (entries.filter Entry.isUsable).foldl applied t.toList
          ∧ report'.Counts (done ++ entries) := by
  induction entries generalizing t report done with
  | nil =>
    refine .inr ⟨not_collides_nil h.nodup_emails, t, report, rfl, rfl, ?_⟩
    rwa [List.append_nil]
  | cons e rest ih =>
    rw [List.foldlM_cons]
    cases usable : e.isUsable with
    | false =>
      have ht : t.takeOver report e = .ok (t, { report with skipped := report.skipped + 1 }) :=
        takeOver_of_unusable usable
      have hrest := ih h (counts_takeOver hc ht)
      rw [List.filter_cons_of_neg (by simp [usable]), List.append_cons]
      dsimp only
      rw [ht]
      exact hrest
    | true =>
      rw [List.filter_cons_of_pos usable, List.append_cons, collides_cons h.nodup_emails]
      dsimp only
      rcases h.takeOver report usable with ⟨hn, operation, ht⟩ | ⟨hs, report', ht⟩
      · rw [ht]
        exact .inl ⟨collides_of_not_nodup hn _, e, List.mem_cons_self, operation, rfl⟩
      · have hrest := ih hs (counts_takeOver hc ht)
        rw [h.toList_withEntry] at hrest
        rw [ht]
        rcases hrest with ⟨hn, e', he', hfail⟩ | hdone
        · exact .inl ⟨hn, e', List.mem_cons_of_mem _ he', hfail⟩
        · exact .inr hdone

end TakeOver

end Table

/-! ## User lists -/

/-- **What comes of a user list** that is taken over: of the rows, and of the report. -/
structure Imported (rows : List Row) (entries : List Entry) (rows' : List Row)
    (report : ImportReport) : Prop where
  /-- The entries that can be used were applied, in their order. -/
  rows_eq : rows' = (entries.filter Entry.isUsable).foldl applied rows
  counts : report.Counts entries
  /-- A row that no such entry names is as it was. -/
  unlisted : ∀ r ∈ rows, (∀ e ∈ entries.filter Entry.isUsable, e.id ≠ r.person.id) → r ∈ rows'
  /-- Nobody is left out. -/
  kept : ∀ r ∈ rows, ∃ r' ∈ rows', r'.person.id = r.person.id ∧ r'.contacts = r.contacts
  /-- Contacts are as they were, and those who are new have none. -/
  contacts : ∀ r' ∈ rows', HasContactsOf rows r'

theorem imported_foldl_applied (rows : List Row) {entries : List Entry} {report : ImportReport}
    (h : report.Counts entries) :
    Imported rows entries ((entries.filter Entry.isUsable).foldl applied rows) report where
  rows_eq := rfl
  counts := h
  unlisted _ hr hno := mem_foldl_applied hr hno
  kept _ hr := exists_mem_foldl_applied hr _
  contacts _ hr := hasContactsOf_foldl_applied hr

section Directory

variable {d next : Directory} {entries : List Entry} {report : ImportReport}

theorem Sound.foldl_after (h : d.Sound) (operations : List Operation) :
    (operations.foldl Directory.after d).Sound := by
  induction operations generalizing d with
  | nil => exact h
  | cons operation rest ih => exact ih (h.after operation)

theorem after_importAll_of_ok (h : d.importAll entries = .ok (next, report)) :
    d.after (.importAll entries) = next := by
  unfold Directory.after
  dsimp only
  rw [h]
  rfl

theorem after_importAll_of_error {failure : Failure} (h : d.importAll entries = .error failure) :
    d.after (.importAll entries) = d := by
  unfold Directory.after
  dsimp only
  rw [h]
  rfl

/-- A list of which no entry can be used is skipped. -/
theorem counts_of_unusable (h : entries.any Entry.isUsable = false) :
    ({ skipped := entries.length } : ImportReport).Counts entries := by
  rw [List.any_eq_false] at h
  have hskipped : entries.countP (fun e => !e.isUsable) = entries.length :=
    List.countP_eq_length.2 fun e he => by simpa using h e he
  have hdisabled : entries.countP (fun e => e.isUsable && e.isDisabled) = 0 :=
    List.countP_eq_zero.2 fun e he => by simp [h e he]
  exact ⟨Nat.zero_add _, hskipped.symm, hdisabled.symm⟩

/-- **A sound directory takes a list over**, or refuses it. -/
theorem Sound.importAll_cases (h : d.Sound) (entries : List Entry) :
    (Collides d.rows (entries.filter Entry.isUsable)
        ∧ ∃ e ∈ entries.filter Entry.isUsable, ∃ operation,
          d.importAll entries = .error (Refusal.emailTaken.at operation e.id))
      ∨ ¬ Collides d.rows (entries.filter Entry.isUsable)
        ∧ ∃ d' report, d.importAll entries = .ok (d', report)
          ∧ d'.rows = (entries.filter Entry.isUsable).foldl applied d.rows
          ∧ report.Counts entries := by
  obtain ⟨t, ht, hs⟩ := h
  rw [importAll_of_users ht, rows_of_users ht]
  cases hany : entries.any Entry.isUsable with
  | false =>
    have hnone : entries.filter Entry.isUsable = [] :=
      List.filter_eq_nil_iff.2 (List.any_eq_false.1 hany)
    rw [hnone]
    refine .inr ⟨not_collides_nil hs.nodup_emails, d, _, rfl, rows_of_users ht, ?_⟩
    exact counts_of_unusable hany
  | true =>
    rw [if_pos rfl]
    unfold Table.importAll
    rcases hs.foldlM_takeOver counts_nil entries with
      ⟨hcollides, e, he, operation, hfail⟩ | ⟨hfree, t', report, hok, hrows, hcounts⟩
    · rw [hfail]
      exact .inl ⟨hcollides, e, he, operation, rfl⟩
    · rw [hok]
      exact .inr ⟨hfree, { users := some t' }, report, rfl, hrows, hcounts⟩

end Directory

/-- **A user list is taken over as a whole or not at all**, in every directory that there can
be. Either its entries make two rows share an address, and it is refused and changes nothing;
or they never do, and they are all applied. -/
theorem import_all_or_nothing (operations : List Operation) (entries : List Entry) :
    let d := operations.foldl after {}
    let d' := d.after (.importAll entries)
    (Collides d.rows (entries.filter Entry.isUsable)
        ∧ (∃ e ∈ entries.filter Entry.isUsable, ∃ operation,
          d.importAll entries = .error (Refusal.emailTaken.at operation e.id))
        ∧ d' = d)
      ∨ ¬ Collides d.rows (entries.filter Entry.isUsable)
        ∧ ∃ report, d.importAll entries = .ok (d', report)
          ∧ Imported d.rows entries d'.rows report := by
  intro d d'
  have hsound : d.Sound := Sound.foldl_after ⟨{}, rfl, Table.sound_empty⟩ operations
  rcases hsound.importAll_cases entries with
    ⟨hcollides, e, he, operation, hfail⟩ | ⟨hfree, next, report, hok, hrows, hcounts⟩
  · exact .inl ⟨hcollides, ⟨e, he, operation, hfail⟩, after_importAll_of_error hfail⟩
  · have hafter : d' = next := after_importAll_of_ok hok
    refine .inr ⟨hfree, report, hafter ▸ hok, ?_⟩
    rw [hafter, hrows]
    exact imported_foldl_applied d.rows hcounts

/-- Two users cannot swap their addresses, although nobody would share one in the end. -/
example :
    let d := [Operation.upsert { id := "1", email := "a@x.org" },
      .upsert { id := "2", email := "b@x.org" }].foldl after {}
    let swap : List Entry := [{ id := "1", email := "b@x.org" }, { id := "2", email := "a@x.org" }]
    (emails (swap.foldl applied d.rows)).Nodup
      ∧ (d.importAll swap).map Prod.snd
        = .error (.directory "update 1: UNIQUE constraint failed: users.email") := by
  decide +kernel

end Directory

end Rota
