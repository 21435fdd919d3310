import Mathlib.Data.List.Nodup
import Rota.Format
import Rota.Keyed

/-!
# Members of records

A description of a record is made of descriptions of its members. What is built from a
description that is put together of others is told by theirs (`build_map`, `build_seq`,
`build_member`).

A reader goes through the members in the order in which they stand in the text, and builds
the value from what it has found under each name. If no name is given twice, the order
makes no difference: what is found is what the members are (`finds_reverse`).
-/

namespace Rota.Fields

variable {τ α β : Type}

theorem build_map (f : α → β) (F : Fields τ α) (get : String → Option τ) :
    (f <$> F).build get = (F.build get).map f :=
  rfl

theorem known_seq (F : Fields τ (α → β)) (G : Fields τ α) :
    (F <*> G).known = F.known ++ G.known :=
  rfl

theorem build_seq (F : Fields τ (α → β)) (G : Fields τ α) (get : String → Option τ) :
    (F <*> G).build get = (do let f ← F.build get; let a ← G.build get; return f a) :=
  rfl

theorem build_member (name : String) (read : τ → Except Fault α) (absent : Except Fault α)
    (optional : Bool) (get : String → Option τ) :
    (Fields.member name read absent optional).build get =
      match get name with
      | some value => read value
      | none => absent :=
  rfl

/-- The names of the fields. -/
def names (F : Fields τ α) : List String :=
  F.known.map Field.name

theorem find?_known {known : List (Field τ)} (nodup : (known.map Field.name).Nodup) {f : Field τ}
    (hf : f ∈ known) : known.find? (fun g => g.name == f.name) = some f := by
  cases hfind : known.find? fun g => g.name == f.name with
  | none => simpa using List.find?_eq_none.1 hfind f hf
  | some g =>
    have hname : g.name = f.name := by simpa using List.find?_some hfind
    exact congrArg some
      (List.inj_on_of_nodup_map nodup (List.mem_of_find?_eq_some hfind) hf hname)

/-- **Every member is known**, and its value passes the check. -/
def Passes (known : List (Field τ)) (members : List (String × τ)) : Prop :=
  ∀ m ∈ members, ∃ f ∈ known, f.name = m.1 ∧ f.check m.2 = .ok ()

/-- A member that is collected does not stand in the way of those behind it. -/
theorem apart_cons {rest : List (String × β)} {met : List (String × τ)} {name : String} (value : τ)
    (once : name ∉ rest.map Prod.fst) (apart : ∀ m ∈ rest, met.lookup m.1 = none) :
    ∀ m ∈ rest, ((name, value) :: met).lookup m.1 = none := by
  intro m hm
  have hne : m.1 ≠ name := fun he => once (List.mem_map.2 ⟨m, hm, he⟩)
  rw [List.lookup_cons, beq_eq_false_iff_ne.2 hne]
  exact apart m hm

/-- **The members are what is found** under their names. -/
def Finds (get : String → Option τ) (members : List (String × τ)) : Prop :=
  ∀ name value, get name = some value ↔ (name, value) ∈ members

/-- Each name has been collected once, in whatever order. -/
theorem finds_reverse {members : List (String × τ)} (once : (members.map Prod.fst).Nodup) :
    Finds (fun name => members.reverse.lookup name) members := by
  let met : Keyed τ :=
    { entries := members.reverse
      nodup := by rwa [List.map_reverse, List.nodup_reverse] }
  exact fun name value => (met.mem_entries_iff name value).symm.trans List.mem_reverse

end Rota.Fields
