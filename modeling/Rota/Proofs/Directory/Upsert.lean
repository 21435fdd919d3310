import Rota.Proofs.Directory.Import

/-!
# What an upsert does

An upsert meets the rows of the table in two places, under the id and under the address of the
person. The row with the id is replaced, and a row that is not there is added; a row with the
address under another id refuses the person. Nothing else can go wrong, and nothing else
changes.

`Upserted` says what a table looks like then: it has the row of the person, who can be found
whether or not that was so before, and the rows of everybody else as they were. The address
which the person had before leads nowhere, since no other row can have it.
`upsert_replaces_or_refuses` says that an upsert leads there, or is refused, from every table
that a directory can come to have.
-/

namespace Rota.Directory

namespace Table

section Upsert

variable {t t' : Table} {r q : Row}

/-- **An address is taken** if it stands in a row with another id. -/
theorem Sound.isTaken_eq_true_iff (h : t.Sound) (email id : String) :
    t.isTaken email id = true ↔ ∃ r ∈ t.toList, r.person.id ≠ id ∧ r.person.email = email := by
  unfold isTaken toList
  rw [List.any_eq_true]
  simp only [List.mem_map, exists_exists_and_eq_and]
  refine exists_congr fun entry => and_congr_right fun he => ?_
  rw [Bool.and_eq_true, bne_iff_ne, beq_iff_eq, h.id_of_mem_entries he]

/-- An upsert is refused over the address alone. -/
theorem upsert_eq (t : Table) (person : Identity) :
    t.upsert person
      = if t.isTaken person.email person.id then
          .error (Refusal.emailTaken.at "upsert" person.id)
        else .ok { rows := t.rows.put person.id { person } } := by
  unfold upsert put
  split <;> rfl

/-- **The rows after one was put**: this one, and those of the others. -/
theorem Sound.mem_put (h : t.Sound) (hput : t.put r = .ok t') :
    q ∈ t'.toList ↔ q = r ∨ q.person.id ≠ r.person.id ∧ q ∈ t.toList := by
  rw [(h.put hput).mem_iff, row?_put hput, h.mem_iff]
  split
  · next hid =>
    constructor
    · exact fun hr => .inl (Option.some.inj hr).symm
    · rintro (rfl | ⟨hne, -⟩)
      · rfl
      · exact absurd hid hne
  · next hid =>
    constructor
    · exact fun hq => .inr ⟨hid, hq⟩
    · rintro (rfl | ⟨-, hq⟩)
      · exact absurd rfl hid
      · exact hq

end Upsert

end Table

/-- **A directory after an upsert**, compared with the one before. -/
structure Upserted (d d' : Directory) (person : Identity) : Prop where
  /-- The person has an active row, and the rows of the others are those from before. -/
  rows : ∀ r, r ∈ d'.rows ↔
    r = { person, active := true } ∨ r.person.id ≠ person.id ∧ r ∈ d.rows
  byId : d'.lookup (.userId person.id) = .ok person
  byEmail : d'.lookup (.email person.email) = .ok person
  /-- The address from before leads nowhere. -/
  former : ∀ r ∈ d.rows, r.person.id = person.id → r.person.email ≠ person.email →
    d'.lookup (.email r.person.email) = .error (.unknownPerson r.person.email)
  /-- Everybody else is found as before. -/
  others : ∀ key q, q.id ≠ person.id → (d'.lookup key = .ok q ↔ d.lookup key = .ok q)

section Upsert

variable {d : Directory}

/-- **Putting an active row is an upsert** of its person. -/
theorem upserted_of_put {t t' : Table} {person : Identity} (h : t.Sound)
    (hput : t.put { person } = .ok t') :
    Upserted { users := some t } { users := some t' } person := by
  have hold : Sound { users := some t } := ⟨t, rfl, h⟩
  have hnew : Sound { users := some t' } := ⟨t', rfl, h.put hput⟩
  have hrows (r : Row) : r ∈ t'.toList ↔
      r = { person, active := true } ∨ r.person.id ≠ person.id ∧ r ∈ t.toList := h.mem_put hput
  have hperson : { person, active := true } ∈ t'.toList := (hrows _).2 (.inl rfl)
  refine ⟨hrows, ?_, ?_, fun r hr hid hne => ?_, fun key q hq => ?_⟩
  · exact (hnew.lookup_eq_ok_iff _ _).2 ⟨_, hperson, rfl, beq_iff_eq.2 rfl, rfl⟩
  · exact (hnew.lookup_eq_ok_iff _ _).2 ⟨_, hperson, rfl, beq_iff_eq.2 rfl, rfl⟩
  · refine hnew.lookup_eq_error fun q hq _ => ?_
    rcases (hrows q).1 hq with rfl | ⟨hqid, hq⟩
    · exact beq_eq_false_iff_ne.2 hne.symm
    · -- the table from before had the address in one row only
      refine Bool.eq_false_iff.2 fun hqe => hqid ?_
      rw [h.eq_of_isNamedBy (.email r.person.email) hq hr hqe (beq_iff_eq.2 rfl), hid]
  · rw [hnew.lookup_eq_ok_iff, hold.lookup_eq_ok_iff]
    refine exists_congr fun r => ⟨?_, ?_⟩
    · rintro ⟨hr, hactive, hkey, rfl⟩
      rcases (hrows r).1 hr with rfl | ⟨-, hr⟩
      · exact absurd rfl hq
      · exact ⟨hr, hactive, hkey, rfl⟩
    · rintro ⟨hr, hactive, hkey, rfl⟩
      exact ⟨(hrows r).2 (.inr ⟨hq, hr⟩), hactive, hkey, rfl⟩

/-- **An upsert is refused, or carried out**, and which of the two is decided by the
address. -/
theorem Sound.upsert_cases (h : d.Sound) (person : Identity) :
    ((∃ r ∈ d.rows, r.person.id ≠ person.id ∧ r.person.email = person.email)
        ∧ d.upsert person = .error (Refusal.emailTaken.at "upsert" person.id))
      ∨ (¬ ∃ r ∈ d.rows, r.person.id ≠ person.id ∧ r.person.email = person.email)
        ∧ ∃ d', d.upsert person = .ok d' ∧ Upserted d d' person := by
  obtain ⟨⟨users⟩, t, rfl, ht⟩ := d, h
  have htaken := ht.isTaken_eq_true_iff person.email person.id
  have hupsert : upsert { users := some t } person
      = (t.upsert person).map fun t => { users := some t } := rfl
  rw [t.upsert_eq] at hupsert
  by_cases hfree : t.isTaken person.email person.id = true
  · rw [if_pos hfree] at hupsert
    exact .inl ⟨htaken.1 hfree, hupsert⟩
  · rw [if_neg hfree] at hupsert
    refine .inr ⟨fun htaken' => hfree (htaken.2 htaken'), _, hupsert, ?_⟩
    exact upserted_of_put ht (Table.put_eq_ok_iff.2 ⟨Bool.eq_false_iff.2 hfree, rfl⟩)

end Upsert

/-- **An upsert replaces one row, or changes nothing.** In a directory after any operations it
succeeds exactly if nobody with another id has the address of the person. The person is then
found under id and address, the former address leads nowhere, and the others are as before. If
it fails, it says that the address is taken, and the directory is the one from before. -/
theorem upsert_replaces_or_refuses (operations : List Operation) (person : Identity) :
    let d := operations.foldl after {}
    ((∃ d', d.upsert person = .ok d')
        ↔ ¬ ∃ r ∈ d.rows, r.person.id ≠ person.id ∧ r.person.email = person.email)
      ∧ (∀ d', d.upsert person = .ok d' →
        d.after (.upsert person) = d' ∧ Upserted d d' person)
      ∧ (∀ failure, d.upsert person = .error failure →
        d.after (.upsert person) = d
          ∧ failure = Refusal.emailTaken.at "upsert" person.id) := by
  intro d
  have hsound : d.Sound := Sound.foldl_after ⟨{}, rfl, Table.sound_empty⟩ operations
  have hafter : d.after (.upsert person) = (d.upsert person).toOption.getD d := rfl
  rcases hsound.upsert_cases person with ⟨htaken, hu⟩ | ⟨hfree, next, hu, hnext⟩
  · rw [hafter, hu]
    refine ⟨⟨nofun, fun hfree => absurd htaken hfree⟩, nofun, ?_⟩
    rintro failure ⟨⟩
    exact ⟨rfl, rfl⟩
  · rw [hafter, hu]
    refine ⟨⟨fun _ => hfree, fun _ => ⟨next, rfl⟩⟩, ?_, nofun⟩
    rintro d' ⟨⟩
    exact ⟨rfl, hnext⟩

/-- A user who was disabled comes back under a new address and without a number, and somebody
new is refused the address of somebody else. -/
theorem upsert_of_disabled :
    let ada : Identity := { id := "1", email := "a@x.org", phone := some "+491", slack := "ada" }
    let bob : Identity := { id := "2", email := "b@x.org" }
    let back : Identity := { id := "1", email := "c@x.org", slack := some "" }
    let cy : Identity := { id := "3", email := "b@x.org" }
    let operations := [Operation.upsert ada, .upsert bob,
      .importAll [{ id := "1", email := "a@x.org", isDisabled := true }]]
    let d := operations.foldl after {}
    let d' := d.after (.upsert back)
    d.lookup (.userId "1") = .error (.unknownPerson "1")
      ∧ d.upsert back = .ok d' ∧ Upserted d d' back
      ∧ d.upsert cy
        = .error (.directory "upsert 3: UNIQUE constraint failed: users.email")
      ∧ d.after (.upsert cy) = d := by
  intro ada bob back cy operations d d'
  have hback : d.upsert back = .ok d' := by rfl
  have hcy : d.upsert cy
      = .error (.directory "upsert 3: UNIQUE constraint failed: users.email") := by rfl
  refine ⟨by decide +kernel, hback, ?_, hcy, ?_⟩
  · exact ((upsert_replaces_or_refuses operations back).2.1 d' hback).2
  · exact ((upsert_replaces_or_refuses operations cy).2.2 _ hcy).1

end Rota.Directory
