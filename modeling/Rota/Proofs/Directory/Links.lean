import Rota.Proofs.Directory.Live

/-!
# The two maps of the cache belong together

The cache keeps the people by id, and next to them an index from addresses to ids. An
insertion may have to mend three links at once: the former address of the person, the former
owner of the new address, and the new address itself. That the index has neither too many nor
too few of them is `Linked`: the two maps are inverse to each other.

A linked cache is one that holds some entries (`linked_iff_holds`), whatever their history,
and so insertions keep it linked (`Linked.insert`). It follows that everybody remembered is
found by address, that no address leads to nobody, and that the maps are equally large
(`linked_after_insertions`).
-/

namespace Rota.Directory.Cache

/-- **The two maps are inverse to each other.** -/
structure Linked (c : Cache) : Prop where
  /-- An entry stands under its own id, to which its address leads. -/
  byId : ∀ id e, c.byId.get? id = some e →
    e.person.id = id ∧ c.idByEmail.get? e.person.email = some id
  /-- An address leads to an entry that has this address. -/
  byEmail : ∀ address id, c.idByEmail.get? address = some id →
    ∃ e, c.byId.get? id = some e ∧ e.person.email = address

section Linked

variable {c : Cache} {known : List Remembered}

theorem Holds.linked (h : c.Holds known) : c.Linked where
  byId id e he := by
    obtain ⟨hm, hid⟩ := (h.byId id e).1 he
    exact ⟨hid, (h.byEmail _ _).2 ⟨e, hm, rfl, hid⟩⟩
  byEmail address id ha := by
    obtain ⟨e, hm, hea, hid⟩ := (h.byEmail address id).1 ha
    exact ⟨e, (h.byId id e).2 ⟨hm, hid⟩, hea⟩

/-- The entries of a linked cache stand where their ids and addresses lead. -/
theorem Linked.holds (h : c.Linked) : c.Holds (c.byId.entries.map Prod.snd) := by
  have hmem (e : Remembered) : e ∈ c.byId.entries.map Prod.snd
      ↔ c.byId.get? e.person.id = some e := by
    rw [List.mem_map]
    constructor
    · rintro ⟨⟨id, e⟩, hm, rfl⟩
      have he := (c.byId.mem_entries_iff id e).1 hm
      rwa [(h.byId id e he).1]
    · exact fun he => ⟨_, (c.byId.mem_entries_iff _ e).2 he, rfl⟩
  refine ⟨fun id e => ?_, fun address id => ?_⟩
  · rw [hmem]
    constructor
    · intro he
      have hid := (h.byId id e he).1
      exact ⟨hid ▸ he, hid⟩
    · rintro ⟨he, rfl⟩
      exact he
  · constructor
    · intro ha
      obtain ⟨e, he, hea⟩ := h.byEmail address id ha
      have hid := (h.byId id e he).1
      exact ⟨e, (hmem e).2 (hid ▸ he), hea, hid⟩
    · rintro ⟨e, hm, rfl, rfl⟩
      exact (h.byId _ e ((hmem e).1 hm)).2

/-- **A cache is linked** exactly if it holds some entries. -/
theorem linked_iff_holds : c.Linked ↔ ∃ known, c.Holds known :=
  ⟨fun h => ⟨_, h.holds⟩, fun ⟨_, h⟩ => h.linked⟩

/-- **An insertion keeps the maps inverse**, whoever is inserted and whoever was known. -/
theorem Linked.insert (h : c.Linked) (now : Nat) (person : Identity) :
    (c.insert now person).Linked := by
  obtain ⟨known, hknown⟩ := linked_iff_holds.1 h
  exact linked_iff_holds.2 ⟨_, hknown.insert now person⟩

/-- **Everybody remembered is found by address.** -/
theorem Linked.get?_email (h : c.Linked) {id : String} {e : Remembered}
    (he : c.byId.get? id = some e) : c.get? (.email e.person.email) = some e := by
  show (c.idByEmail.get? e.person.email).bind c.byId.get? = some e
  rw [(h.byId id e he).2]
  exact he

/-- **No address leads to nobody.** -/
theorem Linked.exists_get? (h : c.Linked) {address : String} (ha : address ∈ c.idByEmail.keys) :
    ∃ e, c.get? (.email address) = some e ∧ e.person.email = address := by
  obtain ⟨id, hid⟩ := (c.idByEmail.mem_keys_iff address).1 ha
  obtain ⟨e, he, rfl⟩ := h.byEmail address id hid
  exact ⟨e, h.get?_email he, rfl⟩

/-- **The maps are equally large**: the names in the index are the addresses of the entries,
each of them once. -/
theorem Linked.size_eq (h : c.Linked) : c.byId.size = c.idByEmail.size := by
  have hnodup : (c.byId.entries.map fun e => e.2.person.email).Nodup := by
    refine c.byId.nodup.of_map.map_on ?_
    rintro ⟨id, e⟩ hm ⟨id', e'⟩ hm' heq
    have he := (c.byId.mem_entries_iff id e).1 hm
    have he' := (c.byId.mem_entries_iff id' e').1 hm'
    -- the address leads to either id
    have hid : some id = some id' := by
      rw [← (h.byId id e he).2, ← (h.byId id' e' he').2]
      exact congrArg c.idByEmail.get? heq
    cases hid
    rw [Option.some.inj (he.symm.trans he')]
  have hmem (address : String) : address ∈ c.byId.entries.map (fun e => e.2.person.email)
      ↔ ∃ id, c.idByEmail.get? address = some id := by
    rw [List.mem_map]
    constructor
    · rintro ⟨⟨id, e⟩, hm, rfl⟩
      exact ⟨id, (h.byId id e ((c.byId.mem_entries_iff id e).1 hm)).2⟩
    · rintro ⟨id, hid⟩
      obtain ⟨e, he, hea⟩ := h.byEmail address id hid
      exact ⟨(id, e), (c.byId.mem_entries_iff id e).2 he, hea⟩
  exact ((Keyed.size_eq_length hnodup hmem).trans (List.length_map _)).symm

end Linked

/-- **Insert one after the other** the people of these entries, each at its time. -/
def insertAll (c : Cache) (insertions : List Remembered) : Cache :=
  insertions.foldl (fun c e => c.insert e.since e.person) c

theorem Linked.insertAll {c : Cache} (h : c.Linked) (insertions : List Remembered) :
    (c.insertAll insertions).Linked := by
  unfold Cache.insertAll
  induction insertions generalizing c with
  | nil => exact h
  | cons e rest ih => exact ih (h.insert e.since e.person)

/-- **The cache is linked after any insertions**, whatever the ids and addresses of the people
and in whatever order they come. So everybody in it is found by address, no address leads to
nobody, and there are as many addresses as people. -/
theorem linked_after_insertions (insertions : List Remembered) :
    let c := insertAll {} insertions
    c.Linked
      ∧ (∀ id e, c.get? (.userId id) = some e → c.get? (.email e.person.email) = some e)
      ∧ (∀ address ∈ c.idByEmail.keys, ∃ e, c.get? (.email address) = some e)
      ∧ c.byId.size = c.idByEmail.size := by
  intro c
  have hlinked : c.Linked := holds_empty.linked.insertAll insertions
  refine ⟨hlinked, fun id e he => hlinked.get?_email he, fun address ha => ?_, hlinked.size_eq⟩
  obtain ⟨e, he, -⟩ := hlinked.exists_get? ha
  exact ⟨e, he⟩

/-- Bob takes over the address of Ada and gives up his own; Cy comes with an id and an address
that are empty; Ada comes back with the address that was given up. -/
theorem linked_after_exchange :
    let insertions : List Remembered :=
      [⟨{ id := "1", email := "a@x.org" }, 0⟩, ⟨{ id := "2", email := "b@x.org" }, 10⟩,
        ⟨{ id := "2", email := "a@x.org" }, 20⟩, ⟨{ id := "", email := "" }, 30⟩,
        ⟨{ id := "1", email := "b@x.org" }, 40⟩]
    let c := insertAll {} insertions
    c.get? (.userId "1") = some ⟨{ id := "1", email := "b@x.org" }, 40⟩
      ∧ c.get? (.email "b@x.org") = some ⟨{ id := "1", email := "b@x.org" }, 40⟩
      ∧ "a@x.org" ∈ c.idByEmail.keys ∧ (∃ e, c.get? (.email "a@x.org") = some e)
      ∧ c.byId.size = 3 ∧ c.idByEmail.size = 3 := by
  intro insertions c
  obtain ⟨-, hfound, haddress, hsize⟩ := linked_after_insertions insertions
  have hada : c.get? (.userId "1") = some ⟨{ id := "1", email := "b@x.org" }, 40⟩ := by
    decide +kernel
  have ha : "a@x.org" ∈ c.idByEmail.keys := by decide +kernel
  have hthree : c.byId.size = 3 := by decide +kernel
  exact ⟨hada, hfound "1" _ hada, ha, haddress _ ha, hthree, hsize ▸ hthree⟩

end Rota.Directory.Cache
