import Mathlib.Data.List.Nodup
import Rota.Directory

/-!
# The directory is consistent

Two keys lead to a row of the table of users, the id and the address. No two
rows ever share either of them, whether or not their users can be found, and
whatever upserts and user lists were taken or refused before. This is
`Table.Sound`; a row that is put into the table keeps it, since an address that
another row has is refused (`Table.Sound.put`).

So a key finds one person at most, an id and an address that stand in one row
find the same person, and a user who was disabled is found by neither
(`Consistent`). `consistent_after` says that this holds after any changes of a
directory that was empty at first.
-/

namespace Rota.Directory

/-! ## The table -/

namespace Table

/-- **No two rows share a key.** A row stands under the id of its person, and two rows
with the same address stand under the same id. -/
structure Sound (t : Table) : Prop where
  keyed : ∀ id r, t.row? id = some r → r.person.id = id
  apart : ∀ id id' r r', t.row? id = some r → t.row? id' = some r' →
    r.person.email = r'.person.email → id = id'

theorem sound_empty : Sound {} where
  keyed := by simp [row?]
  apart := by simp [row?]

theorem mem_toList_iff (t : Table) (r : Row) : r ∈ t.toList ↔ ∃ id, t.row? id = some r := by
  unfold toList row?
  rw [List.mem_map]
  constructor
  · rintro ⟨⟨id, r⟩, hm, rfl⟩
    exact ⟨id, (t.rows.mem_entries_iff id r).1 hm⟩
  · rintro ⟨id, h⟩
    exact ⟨(id, r), (t.rows.mem_entries_iff id r).2 h, rfl⟩

section Sound

variable {t t' : Table} {r : Row}

theorem Sound.mem_iff (h : t.Sound) : r ∈ t.toList ↔ t.row? r.person.id = some r := by
  rw [mem_toList_iff]
  constructor
  · rintro ⟨id, hr⟩
    rwa [h.keyed id r hr]
  · exact fun hr => ⟨_, hr⟩

/-- **A key names one row at most.** -/
theorem Sound.eq_of_isNamedBy (h : t.Sound) (key : Key) {q : Row} (hr : r ∈ t.toList)
    (hq : q ∈ t.toList) (hrk : r.person.isNamedBy key = true)
    (hqk : q.person.isNamedBy key = true) : r = q := by
  rw [h.mem_iff] at hr hq
  have hid : r.person.id = q.person.id := by
    cases key with
    | userId id => exact (beq_iff_eq.1 hrk).trans (beq_iff_eq.1 hqk).symm
    | email address =>
      exact h.apart _ _ r q hr hq ((beq_iff_eq.1 hrk).trans (beq_iff_eq.1 hqk).symm)
  rw [hid, hq] at hr
  exact (Option.some.inj hr).symm

theorem Sound.nodup_ids (h : t.Sound) : (t.toList.map fun r => r.person.id).Nodup := by
  have hkeys : t.toList.map (fun r => r.person.id) = t.rows.keys := by
    unfold toList Keyed.keys
    rw [List.map_map]
    refine List.map_congr_left fun e he => ?_
    exact h.keyed e.1 e.2 ((t.rows.mem_entries_iff e.1 e.2).1 he)
  rw [hkeys]
  exact t.rows.nodup_keys

theorem Sound.nodup_toList (h : t.Sound) : t.toList.Nodup :=
  h.nodup_ids.of_map

theorem Sound.nodup_emails (h : t.Sound) : (t.toList.map fun r => r.person.email).Nodup := by
  refine h.nodup_toList.map_on fun r hr q hq he => ?_
  refine h.eq_of_isNamedBy (.email q.person.email) hr hq ?_ ?_
  · exact beq_iff_eq.2 he
  · exact beq_iff_eq.2 rfl

/-- **Who is found under a key**: the person whom it names, if they are active. -/
theorem Sound.find?_eq_some_iff (h : t.Sound) (key : Key) (person : Identity) :
    t.find? key = some person
      ↔ ∃ r ∈ t.toList, r.active = true ∧ r.person.isNamedBy key = true ∧ r.person = person := by
  unfold find?
  rw [Option.map_eq_some_iff]
  constructor
  · rintro ⟨r, hf, rfl⟩
    have hr := List.find?_some hf
    rw [Bool.and_eq_true] at hr
    exact ⟨r, List.mem_of_find?_eq_some hf, hr.1, hr.2, rfl⟩
  · rintro ⟨r, hr, hactive, hkey, rfl⟩
    cases hf : t.toList.find? fun r => r.active && r.person.isNamedBy key with
    | none =>
      have hno := List.find?_eq_none.1 hf r hr
      simp [hactive, hkey] at hno
    | some q =>
      -- whichever row the search comes upon, the key names no other one
      have hq := List.find?_some hf
      rw [Bool.and_eq_true] at hq
      have hqr := h.eq_of_isNamedBy key (List.mem_of_find?_eq_some hf) hr hq.2 hkey
      exact ⟨q, rfl, congrArg Row.person hqr⟩

/-! ## Rows that are put into the table -/

theorem isTaken_eq_false_iff (t : Table) (email id : String) :
    t.isTaken email id = false
      ↔ ∀ id' r, t.row? id' = some r → r.person.email = email → id' = id := by
  unfold isTaken row?
  rw [List.any_eq_false]
  constructor
  · intro h id' r hr he
    have hno := h (id', r) ((t.rows.mem_entries_iff id' r).2 hr)
    simpa [he] using hno
  · rintro h ⟨id', r⟩ hm
    have hid := h id' r ((t.rows.mem_entries_iff id' r).1 hm)
    by_cases he : r.person.email = email
    · simp [hid he]
    · simp [he]

/-- **A row is put** if no other row has its address, and then nothing else changes. -/
theorem put_eq_ok_iff : t.put r = .ok t'
    ↔ t.isTaken r.person.email r.person.id = false
      ∧ t' = { rows := t.rows.put r.person.id r } := by
  unfold put
  split
  · next h => simp [h]
  · next h => simp [h, eq_comm]

theorem row?_put (hput : t.put r = .ok t') (id : String) :
    t'.row? id = if id = r.person.id then some r else t.row? id := by
  obtain ⟨-, rfl⟩ := put_eq_ok_iff.1 hput
  exact t.rows.get?_put r.person.id id r

/-- **Putting a row keeps the keys apart.** -/
theorem Sound.put (h : t.Sound) (hput : t.put r = .ok t') : t'.Sound := by
  have hfree := (isTaken_eq_false_iff t _ _).1 (put_eq_ok_iff.1 hput).1
  have hrow := row?_put hput
  refine ⟨fun id q hq => ?_, fun id id' q q' hq hq' he => ?_⟩
  · rw [hrow] at hq
    split at hq
    · next hid =>
      cases hq
      exact hid.symm
    · exact h.keyed id q hq
  · rw [hrow] at hq hq'
    -- the row that was put, or an old one, on either side
    split at hq
    · next hid =>
      cases hq
      split at hq'
      · next hid' => exact hid.trans hid'.symm
      · exact hid.trans (hfree id' q' hq' he.symm).symm
    · split at hq'
      · next hid' =>
        cases hq'
        exact (hfree id q hq he).trans hid'.symm
      · exact h.apart id id' q q' hq hq' he

theorem upsert_eq_ok {person : Identity} (h : t.upsert person = .ok t') :
    t.put { person } = .ok t' := by
  unfold upsert at h
  cases hput : t.put { person } with
  | error refusal =>
    rw [hput] at h
    cases h
  | ok next =>
    rw [hput] at h
    cases h
    rfl

/-- **An entry of a user list** that was taken over is skipped, or puts a row. -/
theorem takeOver_eq_ok {report report' : ImportReport} {e : Entry}
    (h : t.takeOver report e = .ok (t', report')) :
    t' = t ∨ ∃ r, t.put r = .ok t' := by
  have hput : ∀ {operation : String} {r : Row} {report : ImportReport},
      (((t.put r).mapError (·.at operation e.id)).map fun t => (t, report)) = .ok (t', report') →
        t.put r = .ok t' := by
    intro operation r report h
    cases hr : t.put r with
    | error refusal =>
      rw [hr] at h
      cases h
    | ok next =>
      rw [hr] at h
      cases h
      rfl
  unfold takeOver at h
  split at h
  · cases h
    exact .inl rfl
  · dsimp only at h
    split at h
    · exact .inr ⟨_, hput h⟩
    · exact .inr ⟨_, hput h⟩

/-- A user list is taken over if its first entry is, and then the rest of it. -/
theorem takeOver_cons_eq_ok {start result : Table × ImportReport} {e : Entry}
    {rest : List Entry} :
    (e :: rest).foldlM (fun (t, report) e => takeOver t report e) start = .ok result
      ↔ ∃ next, start.1.takeOver start.2 e = .ok next
        ∧ rest.foldlM (fun (t, report) e => takeOver t report e) next = .ok result := by
  rw [List.foldlM_cons]
  dsimp only
  cases start.1.takeOver start.2 e with
  | error failure => exact ⟨nofun, fun ⟨_, hn, _⟩ => nomatch hn⟩
  | ok next => exact ⟨fun h => ⟨next, rfl, h⟩, fun ⟨_, hn, h⟩ => Except.ok.inj hn ▸ h⟩

/-- **Taking over a user list keeps the keys apart.** -/
theorem Sound.importAll (h : t.Sound) {entries : List Entry} {report : ImportReport}
    (hi : t.importAll entries = .ok (t', report)) : t'.Sound := by
  unfold Table.importAll at hi
  generalize ({} : ImportReport) = start at hi
  induction entries generalizing t start with
  | nil =>
    cases hi
    exact h
  | cons e rest ih =>
    obtain ⟨⟨next, later⟩, he, hi⟩ := takeOver_cons_eq_ok.1 hi
    refine ih ?_ later hi
    rcases takeOver_eq_ok he with rfl | ⟨r, hput⟩
    · exact h
    · exact h.put hput

end Sound

end Table

/-! ## The directory -/

/-- **What can be done to a directory.** It may be opened anew with its table, or without
it, if the table was not kept in a file. -/
inductive Operation where
  | upsert (person : Identity)
  | importAll (entries : List Entry)
  | reopen
  | renew

/-- **A directory after an operation.** One that is refused changes nothing. -/
def after (d : Directory) : Operation → Directory
  | .upsert person => (d.upsert person).toOption.getD d
  | .importAll entries => ((d.importAll entries).map Prod.fst).toOption.getD d
  | .reopen => d.reopen
  | .renew => {}

/-- The rows of the table, if there is one. -/
def rows (d : Directory) : List Row :=
  d.users.elim [] Table.toList

/-- **A directory has a sound table.** -/
def Sound (d : Directory) : Prop :=
  ∃ t, d.users = some t ∧ t.Sound

section Sound

variable {d d' : Directory}

theorem rows_of_users {t : Table} (h : d.users = some t) : d.rows = t.toList := by
  unfold rows
  rw [h]
  rfl

theorem table_of_users {t : Table} (h : d.users = some t) : d.table = .ok t := by
  unfold table
  rw [h]
  rfl

theorem sound_upsert {person : Identity} (h : d.Sound) (hu : d.upsert person = .ok d') :
    d'.Sound := by
  obtain ⟨t, ht, hs⟩ := h
  unfold Directory.upsert at hu
  rw [ht] at hu
  dsimp only at hu
  cases hn : t.upsert person with
  | error failure =>
    rw [hn] at hu
    cases hu
  | ok next =>
    rw [hn] at hu
    cases hu
    exact ⟨next, rfl, hs.put (Table.upsert_eq_ok hn)⟩

/-- A user list with an entry that can be used is taken over into the table. -/
theorem importAll_of_users {t : Table} (h : d.users = some t) (entries : List Entry) :
    d.importAll entries
      = if entries.any Entry.isUsable then
          (t.importAll entries).map fun (t, report) => ({ users := some t }, report)
        else .ok (d, { skipped := entries.length }) := by
  unfold Directory.importAll
  rw [table_of_users h]
  split
  · show (t.importAll entries).bind _ = _
    cases t.importAll entries <;> rfl
  · rfl

theorem sound_importAll {entries : List Entry} {report : ImportReport} (h : d.Sound)
    (hi : d.importAll entries = .ok (d', report)) : d'.Sound := by
  obtain ⟨t, ht, hs⟩ := id h
  rw [importAll_of_users ht] at hi
  split at hi
  · cases hn : t.importAll entries with
    | error failure =>
      rw [hn] at hi
      cases hi
    | ok next =>
      rw [hn] at hi
      cases hi
      exact ⟨next.1, rfl, hs.importAll hn⟩
  · cases hi
    exact h

/-- **Every operation keeps the table sound**, whether it succeeds or is refused. -/
theorem Sound.after (h : d.Sound) (operation : Operation) : (d.after operation).Sound := by
  cases operation with
  | upsert person =>
    show ((d.upsert person).toOption.getD d).Sound
    cases hu : d.upsert person with
    | error _ => exact h
    | ok next => exact sound_upsert h hu
  | importAll entries =>
    show (((d.importAll entries).map Prod.fst).toOption.getD d).Sound
    cases hi : d.importAll entries with
    | error _ => exact h
    | ok result => exact sound_importAll h hi
  | reopen =>
    obtain ⟨t, ht, hs⟩ := h
    exact ⟨t, by unfold Directory.after reopen; rw [ht]; rfl, hs⟩
  | renew => exact ⟨{}, rfl, Table.sound_empty⟩

end Sound

/-- **Both keys of a user lead to the same person**, or to nobody. -/
structure Consistent (d : Directory) : Prop where
  ids : (d.rows.map fun r => r.person.id).Nodup
  emails : (d.rows.map fun r => r.person.email).Nodup
  inactive : ∀ r ∈ d.rows, r.active = false →
    d.lookup (.userId r.person.id) = .error (.unknownPerson r.person.id)
      ∧ d.lookup (.email r.person.email) = .error (.unknownPerson r.person.email)
  active : ∀ r ∈ d.rows, r.active = true →
    d.lookup (.userId r.person.id) = .ok r.person
      ∧ d.lookup (.email r.person.email) = .ok r.person
  /-- No other key leads to anybody. -/
  others : ∀ key, (∀ r ∈ d.rows, r.active = true → r.person.isNamedBy key = false) →
    d.lookup key = .error (.unknownPerson key.text)
  /-- Everybody who can be looked up is counted once. -/
  count : ∃ people : List Identity, people.Nodup
    ∧ (∀ person, person ∈ people ↔ ∃ key, d.lookup key = .ok person)
    ∧ d.count = .ok people.length

theorem lookup_of_users {d : Directory} {t : Table} (h : d.users = some t) (key : Key) :
    d.lookup key = (t.find? key).elim (.error (.unknownPerson key.text)) .ok := by
  unfold lookup
  rw [table_of_users h]
  dsimp only [bind, Except.bind]
  cases t.find? key <;> rfl

/-- **Whom a sound directory names**: the person of an active row that the key names. -/
theorem Sound.lookup_eq_ok_iff {d : Directory} (h : d.Sound) (key : Key) (person : Identity) :
    d.lookup key = .ok person
      ↔ ∃ r ∈ d.rows, r.active = true ∧ r.person.isNamedBy key = true ∧ r.person = person := by
  obtain ⟨t, ht, hs⟩ := h
  rw [lookup_of_users ht, rows_of_users ht, ← hs.find?_eq_some_iff]
  cases t.find? key with
  | none => exact ⟨nofun, nofun⟩
  | some found => exact ⟨fun hp => congrArg some (Except.ok.inj hp),
      fun hp => congrArg Except.ok (Option.some.inj hp)⟩

/-- A sound directory that names nobody says so. -/
theorem Sound.lookup_eq_error {d : Directory} (h : d.Sound) {key : Key}
    (hno : ∀ r ∈ d.rows, r.active = true → r.person.isNamedBy key = false) :
    d.lookup key = .error (.unknownPerson key.text) := by
  have hok := h.lookup_eq_ok_iff key
  obtain ⟨t, ht, -⟩ := h
  rw [lookup_of_users ht] at hok ⊢
  cases hf : t.find? key with
  | none => rfl
  | some person =>
    rw [hf] at hok
    obtain ⟨r, hr, hactive, hkey, -⟩ := (hok person).1 rfl
    rw [hno r hr hactive] at hkey
    cases hkey

theorem Sound.consistent {d : Directory} (h : d.Sound) : d.Consistent := by
  obtain ⟨t, ht, hs⟩ := id h
  have hrows := rows_of_users ht
  have hid : ∀ r : Row, r.person.isNamedBy (.userId r.person.id) = true :=
    fun r => beq_iff_eq.2 rfl
  have hemail : ∀ r : Row, r.person.isNamedBy (.email r.person.email) = true :=
    fun r => beq_iff_eq.2 rfl
  -- a key of a row that is not active is no key of another row
  have hinactive : ∀ r ∈ d.rows, r.active = false → ∀ key, r.person.isNamedBy key = true →
      d.lookup key = .error (.unknownPerson key.text) := by
    intro r hr hactive key hkey
    refine h.lookup_eq_error fun q hq hqa => ?_
    cases hqk : q.person.isNamedBy key with
    | false => rfl
    | true =>
      rw [hrows] at hr hq
      rw [hs.eq_of_isNamedBy key hr hq hkey hqk, hqa] at hactive
      cases hactive
  refine ⟨?_, ?_, fun r hr ha => ⟨hinactive r hr ha _ (hid r), hinactive r hr ha _ (hemail r)⟩,
    fun r hr ha => ⟨?_, ?_⟩, fun key hno => h.lookup_eq_error hno, ?_⟩
  · rw [hrows]
    exact hs.nodup_ids
  · rw [hrows]
    exact hs.nodup_emails
  · exact (h.lookup_eq_ok_iff _ _).2 ⟨r, hr, ha, hid r, rfl⟩
  · exact (h.lookup_eq_ok_iff _ _).2 ⟨r, hr, ha, hemail r, rfl⟩
  · refine ⟨(d.rows.filter Row.active).map Row.person, ?_, fun person => ?_, ?_⟩
    · refine List.Nodup.of_map (fun person => person.id) ?_
      rw [List.map_map]
      refine List.Nodup.sublist (List.filter_sublist.map _) ?_
      rw [hrows]
      exact hs.nodup_ids
    · constructor
      · intro hp
        obtain ⟨r, hr, rfl⟩ := List.mem_map.1 hp
        obtain ⟨hr, ha⟩ := List.mem_filter.1 hr
        exact ⟨.userId r.person.id, (h.lookup_eq_ok_iff _ _).2 ⟨r, hr, ha, hid r, rfl⟩⟩
      · rintro ⟨key, hk⟩
        obtain ⟨r, hr, ha, -, rfl⟩ := (h.lookup_eq_ok_iff _ _).1 hk
        exact List.mem_map_of_mem (List.mem_filter.2 ⟨hr, ha⟩)
    · unfold Directory.count
      rw [table_of_users ht, List.length_map, ← List.countP_eq_length_filter, hrows]
      rfl

/-- **A directory is consistent**, after any operations, whether they succeed or are
refused. -/
theorem consistent_after (operations : List Operation) :
    (operations.foldl after {}).Consistent := by
  have hsound : ∀ d : Directory, d.Sound → (operations.foldl after d).Sound := by
    induction operations with
    | nil => exact fun _ h => h
    | cons operation rest ih => exact fun d h => ih _ (h.after operation)
  exact (hsound {} ⟨{}, rfl, Table.sound_empty⟩).consistent

/-- An upsert and a user list are refused because of an address that somebody else has,
although the list has moved it by then; the next list disables its owner. -/
example :
    let ada : Identity := { id := "1", email := "a@x.org" }
    let bob : Identity := { id := "2", email := "b@x.org" }
    let d := [Operation.upsert ada, .upsert bob, .upsert { bob with email := "a@x.org" },
      .importAll [{ id := "1", email := "c@x.org" }, { id := "3", email := "b@x.org" }],
      .reopen, .importAll [{ id := "2", email := "b@x.org", isDisabled := true }]].foldl after {}
    d.lookup (.userId "1") = .ok ada ∧ d.lookup (.email "a@x.org") = .ok ada
      ∧ d.lookup (.email "b@x.org") = .error (.unknownPerson "b@x.org")
      ∧ d.lookup (.userId "3") = .error (.unknownPerson "3") ∧ d.count = .ok 1
      ∧ d.rows.length = 2 := by
  decide +kernel

end Rota.Directory
