import Rota.Proofs.Format
import Rota.Proofs.Json.Text

/-!
# Records, read back

A value that is written as JSON *holds* what a reader makes of it (`Holds`). There is one rule
for each of the readers that the others are made of, and `Holds.parse` takes the rule to texts.

A record is written with one member for each of its fields, in their order, and a field may
be left out if reading supplies what it holds. `Written` says so of a description of the
fields: it has one rule for each way in which descriptions are made, so that the proof for a
record has the shape of its description. `Written.holds` reads such a record back.
-/

namespace Rota

namespace Document

/-- **What a value holds** for a reader: the reader makes `a` of what is found in the text
of the value, and the text can be read, in which at most so many levels are nested. -/
structure Holds {α : Type} (levels : Nat) (read : Document → Except Fault α) (value : Json)
    (a : α) : Prop where
  readable : value.Readable levels
  read_eq : read value.document = .ok a

namespace Holds

variable {α β : Type} {levels : Nat} {read : Document → Except Fault α} {value : Json} {a : α}

/-- **A text is read** as what the value in it holds. -/
theorem parse (h : Holds levels read value a) (deep : levels < maxDepth) :
    parse read value.render = .ok a := by
  rw [parse_render read h.readable deep, h.read_eq]

theorem map (f : α → β) (h : Holds levels read value a) :
    Holds levels (fun d => (read d).map f) value (f a) where
  readable := h.readable
  read_eq := by rw [h.read_eq]; rfl

theorem text (s : String) : Holds levels Tree.text (.text s) s where
  readable := .text s
  read_eq := rfl

theorem flag (b : Bool) : Holds levels Tree.flag (.flag b) b where
  readable := .flag b
  read_eq := rfl

theorem natural {bound n : Nat} (small : n < bound) (bounded : bound ≤ UInt64.size) :
    Holds levels (Tree.natural bound) (.number n) n where
  readable := .number (by omega)
  read_eq := if_pos small

theorem uint16 (n : UInt16) : Holds levels Tree.uint16 (.number n.toNat) n := by
  have h : Holds levels (Tree.natural UInt16.size) (.number n.toNat) n.toNat :=
    natural n.toNat_lt (by decide)
  have hmap := h.map UInt16.ofNat
  rwa [UInt16.ofNat_toNat] at hmap

theorem uint64 (n : UInt64) : Holds levels Tree.uint64 (.number n.toNat) n := by
  have h : Holds levels (Tree.natural UInt64.size) (.number n.toNat) n.toNat :=
    natural n.toNat_lt (Nat.le_refl _)
  have hmap := h.map UInt64.ofNat
  rwa [UInt64.ofNat_toNat] at hmap

theorem absent : Holds levels (Tree.optional read) .null none where
  readable := .null
  read_eq := rfl

/-- What is not `null` may stand where there could be nothing. -/
theorem present (h : Holds levels read value a) (hne : value.document ≠ .null) :
    Holds levels (Tree.optional read) value (some a) where
  readable := h.readable
  read_eq := by
    show asOption read value.document = _
    rw [asOption, h.read_eq]
    · rfl
    · exact hne

theorem ofOption (o : Option String) :
    Holds levels (Tree.optional Tree.text) (.ofOption o) o := by
  cases o with
  | none => exact .absent
  | some s => exact (text s).present (by simp [Json.document])

theorem list {f : α → Json} {items : List α} (each : ∀ a ∈ items, Holds levels read (f a) a) :
    Holds (levels + 1) (Tree.list read) (.list (items.map f)) items where
  readable := by
    refine .list fun item hi => ?_
    obtain ⟨a, ha, rfl⟩ := List.mem_map.1 hi
    exact (each a ha).readable
  read_eq := by
    have hitems : (Json.documents (items.map f)).mapM read = .ok items := by
      rw [Json.documents_eq_map]
      induction items with
      | nil => rfl
      | cons a rest ih =>
        have hrest := ih fun b hb => each b (List.mem_cons_of_mem _ hb)
        rw [List.map_cons, List.map_cons, List.mapM_cons, (each a List.mem_cons_self).read_eq,
          hrest]
        rfl
    show (do
      let values ← (Json.documents (items.map f)).mapM read
      if true then return values else throw Fault.malformed) = .ok items
    rw [hitems]
    rfl

theorem texts (items : List String) :
    Holds (levels + 1) (Tree.list Tree.text) (.texts items) items :=
  list fun s _ => text s

theorem word {names : List (String × α)} {name : String} (h : names.lookup name = some a) :
    Holds levels (Tree.word names) (.text name) a where
  readable := .text name
  read_eq := by
    have hword : Tree.word names (Document.text (some name))
        = (names.lookup name).elim (.error .mismatch) .ok := rfl
    rw [Json.document, hword, h]
    rfl

/-- **A form** that holds something is a record of one member. -/
theorem variant {forms : List (String × (Document → Except Fault α))} {name : String}
    (hread : forms.lookup name = some read) (h : Holds levels read value a) :
    Holds (levels + 1) (asVariant [] forms) (.record [(name, value)]) a where
  readable := .record fun m hm => by
    obtain rfl := List.mem_singleton.1 hm
    exact h.readable
  read_eq := by
    show asVariant [] forms (.record [(some name, value.document)] true) = _
    unfold asVariant
    simp only [List.lookup_nil, Option.elim_none, hread, h.read_eq]
    rfl

end Holds

/-! ## Records -/

/-- **What a record is written as**: members that hold `a` in the fields `F`. -/
inductive Written (levels : Nat) :
    {α : Type} → Fields Document α → List (String × Json) → α → Prop where
  | map {α β : Type} {F : Fields Document α} {members : List (String × Json)} {a : α}
    (f : α → β) (h : Written levels F members a) : Written levels (f <$> F) members (f a)
  | seq {α β : Type} {F : Fields Document (α → β)} {G : Fields Document α}
    {members more : List (String × Json)} {f : α → β} {a : α} (h : Written levels F members f)
    (next : Written levels G more a) : Written levels (F <*> G) (members ++ more) (f a)
  /-- A member that is there. -/
  | member {α : Type} {name : String} {read : Document → Except Fault α}
    {absent : Except Fault α} {optional : Bool} {value : Json} {a : α}
    (h : Holds levels read value a) :
    Written levels (.member name read absent optional) [(name, value)] a
  /-- A member that is left out. -/
  | omitted {α : Type} {name : String} {read : Document → Except Fault α} {optional : Bool}
    {a : α} : Written levels (.member name read (.ok a) optional) [] a

namespace Written

variable {α : Type} {levels : Nat} {F : Fields Document α} {members : List (String × Json)}
  {a : α}

/-- A member that is left out if there is no text for it. -/
theorem optionalMember (name : String) (optional : Bool) (o : Option String) :
    Written levels (.member name (Tree.optional Tree.text) (.ok none) optional)
      (Json.optionalMember name o) o := by
  cases o with
  | none => exact .omitted
  | some s => exact .member (.ofOption (some s))

/-- Every member that is written can be read. -/
theorem readable (h : Written levels F members a) : ∀ m ∈ members, m.2.Readable levels := by
  induction h with
  | map f h ih => exact ih
  | seq h next ih ihNext =>
    exact fun m hm => (List.mem_append.1 hm).elim (ih m) (ihNext m)
  | member h =>
    intro m hm
    obtain rfl := List.mem_singleton.1 hm
    exact h.readable
  | omitted => exact fun m hm => absurd hm List.not_mem_nil

/-- No other members are written than those that are known. -/
theorem sublist (h : Written levels F members a) : (members.map Prod.fst).Sublist F.names := by
  induction h with
  | map f h ih => exact ih
  | seq h next ih ihNext =>
    unfold Fields.names
    rw [List.map_append, Fields.known_seq, List.map_append]
    exact ih.append ihNext
  | member h => exact List.Sublist.refl _
  | omitted => exact List.nil_sublist _

/-- **What is written passes the checks.** -/
theorem checked (h : Written levels F members a) {name : String} {value : Json}
    (hm : (name, value) ∈ members) :
    ∃ f ∈ F.known, f.name = name ∧ f.check value.document = .ok () := by
  induction h with
  | map f h ih => exact ih hm
  | seq h next ih ihNext =>
    rcases List.mem_append.1 hm with hm | hm
    · obtain ⟨f, hf, hname⟩ := ih hm
      exact ⟨f, List.mem_append_left _ hf, hname⟩
    · obtain ⟨f, hf, hname⟩ := ihNext hm
      exact ⟨f, List.mem_append_right _ hf, hname⟩
  | member h =>
    cases List.mem_singleton.1 hm
    refine ⟨_, List.mem_singleton.2 rfl, rfl, ?_⟩
    dsimp only
    rw [h.read_eq]
    rfl
  | omitted => cases hm

/-- **What is built** from the members that are written, if no other ones are found. -/
theorem build (h : Written levels F members a) (nodup : F.names.Nodup)
    {get : String → Option Document}
    (present : ∀ m ∈ members, get m.1 = some m.2.document)
    (missing : ∀ name ∈ F.names, name ∉ members.map Prod.fst → get name = none) :
    F.build get = .ok a := by
  induction h with
  | map f h ih =>
    rw [Fields.build_map, ih nodup present missing]
    rfl
  | @seq α β F G members more f a h next ih ihNext =>
    have hnames : (F <*> G).names = F.names ++ G.names := List.map_append
    rw [hnames, List.nodup_append] at nodup
    obtain ⟨hF, hG, hne⟩ := nodup
    have hf : F.build get = .ok f := by
      refine ih hF (fun m hm => present m (List.mem_append_left _ hm)) fun name hname hno => ?_
      refine missing name (hnames ▸ List.mem_append_left _ hname) ?_
      rw [List.map_append, List.mem_append]
      rintro (hin | hin)
      · exact hno hin
      · exact hne name hname name (next.sublist.subset hin) rfl
    have ha : G.build get = .ok a := by
      refine ihNext hG (fun m hm => present m (List.mem_append_right _ hm)) fun name hname hno => ?_
      refine missing name (hnames ▸ List.mem_append_right _ hname) ?_
      rw [List.map_append, List.mem_append]
      rintro (hin | hin)
      · exact hne name (h.sublist.subset hin) name hname rfl
      · exact hno hin
    rw [Fields.build_seq, hf, ha]
    rfl
  | @member α name read absent optional value a h =>
    have hget : get name = some value.document := present _ (List.mem_singleton.2 rfl)
    rw [Fields.build_member, hget]
    exact h.read_eq
  | @omitted α name read optional a =>
    rw [Fields.build_member, missing name (List.mem_singleton.2 rfl) List.not_mem_nil]

end Written

/-! ## Reading -/

/-- The members of a record, as they are found in its text. -/
def found (members : List (String × Json)) : List (String × Document) :=
  members.map fun m => (m.1, m.2.document)

theorem map_fst_found (members : List (String × Json)) :
    (found members).map Prod.fst = members.map Prod.fst := by
  rw [found, List.map_map]
  rfl

theorem memberDocuments_eq_map (members : List (String × Json)) :
    Json.memberDocuments members = (found members).map fun m => (some m.1, m.2) := by
  induction members with
  | nil => rfl
  | cons m rest ih => rw [Json.memberDocuments, ih]; rfl

/-- **Every member is collected** if it passes its check and stands there once. -/
theorem collect_passes {known : List (Field Document)} (nodup : (known.map Field.name).Nodup)
    {members : List (String × Document)} (passes : Fields.Passes known members)
    (once : (members.map Prod.fst).Nodup) (met : List (String × Document))
    (apart : ∀ m ∈ members, met.lookup m.1 = none) :
    collect known met (members.map fun m => (some m.1, m.2)) = .ok (members.reverse ++ met) := by
  induction members generalizing met with
  | nil => rfl
  | cons m rest ih =>
    obtain ⟨name, value⟩ := m
    obtain ⟨f, hf, hname, hcheck⟩ := passes _ (List.mem_cons_self ..)
    obtain rfl : f.name = name := hname
    have hnew := apart _ (List.mem_cons_self ..)
    rw [List.map_cons, List.nodup_cons] at once
    have hcollect := ih (fun m hm => passes m (List.mem_cons_of_mem _ hm)) once.2 _
      (Fields.apart_cons value once.1 fun m hm => apart m (List.mem_cons_of_mem _ hm))
    rw [List.map_cons, collect, Fields.find?_known nodup hf]
    dsimp only at hnew hcheck ⊢
    rw [hnew, hcheck]
    show collect known ((f.name, value) :: met) (rest.map fun m => (some m.1, m.2)) = _
    rw [hcollect, List.reverse_cons, List.append_assoc, List.singleton_append]

/-- **A record is read** from its members, in whatever order they stand there. -/
theorem asRecord_passes {α : Type} {F : Fields Document α} (nodup : F.names.Nodup)
    {members : List (String × Document)} (passes : Fields.Passes F.known members)
    (once : (members.map Prod.fst).Nodup) :
    ∃ get, Fields.Finds get members
      ∧ asRecord F (.record (members.map fun m => (some m.1, m.2)) true) = F.build get := by
  refine ⟨_, Fields.finds_reverse once, ?_⟩
  unfold asRecord
  dsimp only
  rw [collect_passes nodup passes once [] fun _ _ => rfl, List.append_nil]
  rfl

/-- **A record holds** what was written of its fields. -/
theorem Written.holds {α : Type} {levels : Nat} {F : Fields Document α}
    {members : List (String × Json)} {a : α} (h : Written levels F members a)
    (nodup : F.names.Nodup) : Holds (levels + 1) (Tree.record F) (.record members) a where
  readable := .record h.readable
  read_eq := by
    have once : ((found members).map Prod.fst).Nodup := by
      rw [map_fst_found]
      exact nodup.sublist h.sublist
    have passes : Fields.Passes F.known (found members) :=
      List.forall_mem_map.2 fun m hm => h.checked hm
    obtain ⟨get, hget, hread⟩ := asRecord_passes nodup passes once
    show asRecord F (.record (Json.memberDocuments members) true) = .ok a
    rw [memberDocuments_eq_map, hread]
    refine h.build nodup (fun m hm => (hget _ _).2 (List.mem_map_of_mem hm)) fun name _ hno => ?_
    refine Option.eq_none_iff_forall_ne_some.2 fun value hvalue => hno ?_
    rw [← map_fst_found]
    exact List.mem_map_of_mem ((hget name value).1 hvalue)

end Document

end Rota
