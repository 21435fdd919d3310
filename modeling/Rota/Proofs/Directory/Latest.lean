import Mathlib.Data.List.Induction
import Rota.Proofs.Directory.Import

/-!
# The last word on a user

A user list may name the same user more than once. Of the entries that can be used the last
one has the last word (`latest?`): it says whether the user can be found from then on, and under
which address, login and role. An entry that cannot be used is skipped before anybody looks
at what else it says, so it decides nothing, not even when it disables its user.

`shown_of_mem` says this of rows to which entries were applied, whatever the table makes of
them, and `lookup_after_import` of the directory.
-/

namespace Rota.Directory

/-! ## What the rows say -/

/-- **A row shows what an entry says** of its user. -/
structure Row.Shows (r : Row) (e : Entry) : Prop where
  id : r.person.id = e.id
  email : r.person.email = e.email
  username : r.person.username = e.login
  role : r.person.role = e.role
  active : r.active = !e.isDisabled

/-- **The last of the entries** with an id. -/
def lastFor (entries : List Entry) (id : String) : Option Entry :=
  (entries.filter fun e => e.id == id).getLast?

theorem lastFor_concat (entries : List Entry) (e : Entry) (id : String) :
    lastFor (entries ++ [e]) id = if e.id = id then some e else lastFor entries id := by
  unfold lastFor
  rw [List.filter_append]
  by_cases h : e.id = id <;> simp [h]

theorem lastFor_eq_none_iff {entries : List Entry} {id : String} :
    lastFor entries id = none ↔ ∀ e ∈ entries, e.id ≠ id := by
  simp [lastFor]

theorem mem_of_lastFor {entries : List Entry} {id : String} {e : Entry}
    (h : lastFor entries id = some e) : e ∈ entries ∧ e.id = id := by
  have hm := List.mem_of_getLast? h
  rw [List.mem_filter, beq_iff_eq] at hm
  exact hm

section Applied

variable {rows : List Row} {r : Row}

theorem shown_of_mem_applied {e : Entry} (h : r ∈ applied rows e) :
    r.Shows e ∨ r.person.id ≠ e.id ∧ r ∈ rows := by
  unfold applied at h
  split at h
  · obtain ⟨old, ho, rfl⟩ := List.mem_map.1 h
    by_cases hid : old.person.id = e.id
    · rw [if_pos hid]
      exact .inl ⟨hid, rfl, rfl, rfl, rfl⟩
    · rw [if_neg hid]
      exact .inr ⟨hid, ho⟩
  · next hany =>
    rcases List.mem_append.1 h with h | h
    · refine .inr ⟨fun hid => hany ?_, h⟩
      exact List.any_eq_true.2 ⟨r, h, beq_iff_eq.2 hid⟩
    · obtain rfl := List.mem_singleton.1 h
      exact .inl ⟨rfl, rfl, rfl, rfl, rfl⟩

theorem exists_shown_applied (rows : List Row) (e : Entry) :
    ∃ r ∈ applied rows e, r.person.id = e.id := by
  unfold applied
  split
  · next hany =>
    obtain ⟨old, ho, hid⟩ := List.any_eq_true.1 hany
    have hid := beq_iff_eq.1 hid
    exact ⟨_, List.mem_map_of_mem ho, by rw [if_pos hid]; exact hid⟩
  · exact ⟨_, List.mem_append_right _ List.mem_cons_self, rfl⟩

/-- **A row says what the last entry for it says**, and if there is none, it is an old row. -/
theorem shown_of_mem {entries : List Entry} (h : r ∈ entries.foldl applied rows) :
    (∃ e, lastFor entries r.person.id = some e ∧ r.Shows e)
      ∨ lastFor entries r.person.id = none ∧ r ∈ rows := by
  induction entries using List.reverseRecOn with
  | nil => exact .inr ⟨rfl, h⟩
  | append_singleton entries e ih =>
    rw [List.foldl_append] at h
    rw [lastFor_concat]
    rcases shown_of_mem_applied h with shown | ⟨hne, h⟩
    · exact .inl ⟨e, if_pos shown.id.symm, shown⟩
    · rw [if_neg hne.symm]
      exact ih h

/-- Whoever is named has a row. -/
theorem exists_shown {entries : List Entry} {e : Entry} (h : e ∈ entries) (rows : List Row) :
    ∃ r ∈ entries.foldl applied rows, r.person.id = e.id := by
  obtain ⟨before, after, rfl⟩ := List.append_of_mem h
  rw [List.foldl_append, List.foldl_cons]
  obtain ⟨r, hr, hid⟩ := exists_shown_applied (before.foldl applied rows) e
  obtain ⟨r', hr', hid', -⟩ := exists_mem_foldl_applied hr after
  exact ⟨r', hr', hid'.trans hid⟩

end Applied

/-! ## What the directory says -/

/-- **The last word on a user**: the last entry with their id that can be used. -/
def latest? (entries : List Entry) (id : String) : Option Entry :=
  lastFor (entries.filter Entry.isUsable) id

/-- **Whoever has a last entry is shown as it says**, in every row with their id. -/
theorem shows_latest {rows : List Row} {entries : List Entry} {r : Row} {e : Entry}
    (hr : r ∈ (entries.filter Entry.isUsable).foldl applied rows)
    (hlast : latest? entries r.person.id = some e) : r.Shows e := by
  rcases shown_of_mem hr with ⟨e', hlast', shown⟩ | ⟨hnone, -⟩
  · rw [← latest?, hlast] at hlast'
    obtain rfl := Option.some.inj hlast'
    exact shown
  · rw [← latest?, hlast] at hnone
    cases hnone

section Directory

variable {d d' : Directory} {entries : List Entry} {report : ImportReport}

/-- **What a list leaves behind** that was taken over: rows and report. -/
theorem Sound.of_importAll (h : d.Sound) (hi : d.importAll entries = .ok (d', report)) :
    d'.Sound ∧ d'.rows = (entries.filter Entry.isUsable).foldl applied d.rows
      ∧ report.Counts entries := by
  refine ⟨sound_importAll h hi, ?_⟩
  rcases h.importAll_cases entries with
    ⟨-, e, -, operation, hfail⟩ | ⟨-, next, _, hok, hrows, hcounts⟩
  · rw [hfail] at hi
    cases hi
  · rw [hok] at hi
    cases hi
    exact ⟨hrows, hcounts⟩

/-- An id leads to nobody if no active row has it. -/
theorem Sound.lookup_userId_eq_error (h : d.Sound) {id : String}
    (hno : ∀ r ∈ d.rows, r.person.id = id → r.active = false) :
    d.lookup (.userId id) = .error (.unknownPerson id) := by
  refine h.lookup_eq_error fun r hr active => ?_
  refine Bool.eq_false_iff.2 fun hkey => ?_
  rw [hno r hr (beq_iff_eq.1 hkey)] at active
  cases active

/-- An id leads to the person whose active row has it. -/
theorem Sound.lookup_userId_eq_ok (h : d.Sound) {r : Row} (hr : r ∈ d.rows)
    (active : r.active = true) : d.lookup (.userId r.person.id) = .ok r.person :=
  (h.lookup_eq_ok_iff _ _).2 ⟨r, hr, active, beq_iff_eq.2 rfl, rfl⟩

/-- Directories with the same rows for an id know the same person by it. -/
theorem lookup_userId_congr (h : d.Sound) (h' : d'.Sound) {id : String}
    (hsame : ∀ r, r.person.id = id → (r ∈ d'.rows ↔ r ∈ d.rows)) :
    d'.lookup (.userId id) = d.lookup (.userId id) := by
  have hiff : ∀ person, d'.lookup (.userId id) = .ok person
      ↔ d.lookup (.userId id) = .ok person := by
    intro person
    rw [h.lookup_eq_ok_iff, h'.lookup_eq_ok_iff]
    refine exists_congr fun r => ?_
    constructor
    · rintro ⟨hr, active, hkey, hp⟩
      exact ⟨(hsame r (beq_iff_eq.1 hkey)).1 hr, active, hkey, hp⟩
    · rintro ⟨hr, active, hkey, hp⟩
      exact ⟨(hsame r (beq_iff_eq.1 hkey)).2 hr, active, hkey, hp⟩
  cases hl : d.lookup (.userId id) with
  | ok person => exact (hiff person).2 hl
  | error failure =>
    -- whoever is looked up in vain is unknown, in either directory
    have hunknown : ∀ {c : Directory}, c.Sound →
        (∀ person, c.lookup (.userId id) ≠ .ok person) →
        c.lookup (.userId id) = .error (.unknownPerson id) := by
      intro c hc hno
      refine hc.lookup_userId_eq_error fun r hr hid => ?_
      exact Bool.eq_false_iff.2 fun active =>
        hno r.person (hid ▸ hc.lookup_userId_eq_ok hr active)
    have hno : ∀ person, d.lookup (.userId id) ≠ .ok person := by
      intro person hp
      rw [hl] at hp
      cases hp
    rw [hunknown h' fun person hp => hno person ((hiff person).1 hp), ← hl, hunknown h hno]

/-- **The last entry that can be used decides** about a user when a list has been taken over.
If it disables them, their id leads to nobody, whether they were known before or not and
whatever else the list says of them; otherwise it leads to them. If no entry that can be used
names them, nothing has changed for their id. The report tells how many entries were skipped
because they could not be used. -/
theorem lookup_after_import (h : d.Sound) (hi : d.importAll entries = .ok (d', report))
    (id : String) :
    (∀ e, latest? entries id = some e → e.isDisabled = true →
        d'.lookup (.userId id) = .error (.unknownPerson id))
      ∧ (∀ e, latest? entries id = some e → e.isDisabled = false →
        ∃ person, d'.lookup (.userId id) = .ok person ∧ person.id = id
          ∧ person.email = e.email ∧ person.username = e.login ∧ person.role = e.role)
      ∧ (latest? entries id = none → d'.lookup (.userId id) = d.lookup (.userId id))
      ∧ report.skipped = (entries.filter fun e => !e.isUsable).length := by
  obtain ⟨h', hrows, hcounts⟩ := h.of_importAll hi
  refine ⟨fun e hlast disabled => ?_, fun e hlast enabled => ?_, fun hnone => ?_, ?_⟩
  · refine h'.lookup_userId_eq_error fun r hr hid => ?_
    rw [(shows_latest (hrows ▸ hr) (hid.symm ▸ hlast)).active, disabled]
    rfl
  · obtain ⟨hmem, hid⟩ := mem_of_lastFor hlast
    obtain ⟨r, hr, hrid⟩ := exists_shown hmem d.rows
    have hrid : r.person.id = id := hrid.trans hid
    have shown : r.Shows e := shows_latest hr (hrid.symm ▸ hlast)
    have active : r.active = true := by
      rw [shown.active, enabled]
      rfl
    have hfound := h'.lookup_userId_eq_ok (hrows ▸ hr) active
    exact ⟨r.person, hrid ▸ hfound, hrid, shown.email, shown.username, shown.role⟩
  · refine lookup_userId_congr h h' fun r hid => ?_
    rw [hrows]
    constructor
    · intro hr
      rcases shown_of_mem hr with ⟨e, hlast, -⟩ | ⟨-, hr⟩
      · rw [hid, ← latest?, hnone] at hlast
        cases hlast
      · exact hr
    · exact fun hr => mem_foldl_applied hr (hid.symm ▸ lastFor_eq_none_iff.1 hnone)
  · rw [hcounts.skipped, List.countP_eq_length_filter]

end Directory

/-- The list names one user four times and a new one twice. The last entry for the first one has
no address and is skipped. -/
theorem lookup_after_disabling :
    let ada : Identity := { id := "1", email := "a@x.org", phone := some "+491" }
    let d := [Operation.upsert ada].foldl after {}
    let entries : List Entry :=
      [{ id := "1", email := "c@x.org", isDisabled := true }, { id := "1", email := "b@x.org" },
        { id := "2", email := "d@x.org" }, { id := "1", email := "b@x.org", isDisabled := true },
        { id := "2", email := "d@x.org", isAdmin := true, isDisabled := true },
        { id := "1", email := "" }]
    let d' := d.after (.importAll entries)
    d.lookup (.userId "1") = .ok ada
      ∧ d.importAll entries
        = .ok (d', { inserted := 1, updated := 4, disabled := 3, skipped := 1 })
      ∧ d'.lookup (.userId "1") = .error (.unknownPerson "1")
      ∧ d'.lookup (.userId "2") = .error (.unknownPerson "2")
      ∧ 1 = (entries.filter fun e => !e.isUsable).length := by
  intro ada d entries d'
  have hsound : d.Sound := Sound.foldl_after ⟨{}, rfl, Table.sound_empty⟩ _
  have hi : d.importAll entries
      = .ok (d', { inserted := 1, updated := 4, disabled := 3, skipped := 1 }) := by rfl
  refine ⟨by decide +kernel, hi, ?_, ?_, ?_⟩
  · exact (lookup_after_import hsound hi "1").1 _ (by rfl) rfl
  · exact (lookup_after_import hsound hi "2").1 _ (by rfl) rfl
  · exact (lookup_after_import hsound hi "1").2.2.2

/-- **A user whom the list disables can still be found** if the entry has no proper address:
it is skipped. -/
theorem found_although_disabled :
    let ada : Identity := { id := "1", email := "a@x.org" }
    let entry : Entry := { id := "1", email := "nobody", isDisabled := true }
    let d := [Operation.upsert ada].foldl after {}
    let d' := d.after (.importAll [entry])
    lastFor [entry] "1" = some entry ∧ entry.isDisabled = true
      ∧ d.importAll [entry] = .ok (d', { skipped := 1 })
      ∧ d'.lookup (.userId "1") = .ok ada := by
  refine ⟨by rfl, rfl, by rfl, by decide +kernel⟩

end Rota.Directory
