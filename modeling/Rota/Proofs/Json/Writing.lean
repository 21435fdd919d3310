import Mathlib.Data.List.DropRight
import Rota.Proofs.Json.Text
import Rota.Proofs.Text.Spelling

/-!
# Flat records, however they are written

A record whose members are texts, or `null`, can be written in JSON in many ways: blanks
may stand between its parts, and characters may be escaped although they need not be.
`Document.WritesRecord` says which texts are such a record. However it was written, the
text is read as the record (`WritesRecord.ofText_eq`).

One way to write the record is the compact one (`writesRecord_render`).
-/

namespace Rota

/-- **A flat record**: its members are texts, or `null` for none. -/
def Json.flat (members : List (String × Option String)) : Json :=
  .record (members.map fun m => (m.1, .ofOption m.2))

namespace Document

/-! ## What a record can look like -/

/-- The characters with an escape of their own, behind the letters of these escapes. -/
def letters : List (Char × Char) :=
  [('"', '"'), ('\\', '\\'), ('/', '/'), ('b', Char.ofNat 8), ('f', Char.ofNat 12), ('n', '\n'),
    ('r', '\r'), ('t', '\t')]

/-- **A character between quotes**: as it is, unless it has to be escaped; as an escape
with a letter; or as one unit of sixteen bits, or two, in hexadecimal digits. -/
inductive Inside (c : Char) : List Char → Prop where
  | plain (quote : c ≠ '"') (backslash : c ≠ '\\') (control : 0x20 ≤ c.toNat) : Inside c [c]
  | letter {l : Char} (known : (l, c) ∈ letters) : Inside c ['\\', l]
  | unit {x y z w : Char} (digits : hexUnit? x y z w = some c.toNat) :
    Inside c ['\\', 'u', x, y, z, w]
  | pair {x y z w x' y' z' w' : Char} {high low : Nat} (first : hexUnit? x y z w = some high)
    (second : hexUnit? x' y' z' w' = some low) (isHigh : 0xD800 ≤ high ∧ high ≤ 0xDBFF)
    (isLow : 0xDC00 ≤ low ∧ low ≤ 0xDFFF)
    (value : 0x10000 + (high - 0xD800) * 0x400 + (low - 0xDC00) = c.toNat) :
    Inside c ['\\', 'u', x, y, z, w, '\\', 'u', x', y', z', w']

/-- **A text in quotes**, from behind its opening quote to before its closing one. -/
abbrev Quotes (s : String) (inside : List Char) : Prop :=
  Text.Spelled Inside s.toList inside

/-- **A text, or `null`.** -/
inductive WritesValue : Option String → List Char → Prop where
  | null : WritesValue none ['n', 'u', 'l', 'l']
  | text {s : String} {inside : List Char} (h : Quotes s inside) :
    WritesValue (some s) ('"' :: (inside ++ ['"']))

/-- There is nothing but blanks. -/
def IsBlank (chars : List Char) : Prop :=
  ∀ c ∈ chars, isSpace c = true

/-- **A member**, with blanks around its parts. -/
inductive WritesMember : String × Option String → List Char → Prop where
  | mk {name : String} {value : Option String}
    {before inside between after chars behind : List Char}
    (blank : IsBlank before ∧ IsBlank between ∧ IsBlank after ∧ IsBlank behind)
    (quotes : Quotes name inside) (writes : WritesValue value chars) :
    WritesMember (name, value)
      (before ++ '"' :: (inside ++ '"' :: (between ++ ':' :: (after ++ (chars ++ behind)))))

/-- **Members**, one at least, with commas between them. -/
inductive WritesMembers : List (String × Option String) → List Char → Prop where
  | last {m : String × Option String} {text : List Char} (h : WritesMember m text) :
    WritesMembers [m] text
  | cons {m : String × Option String} {more : List (String × Option String)}
    {text rest : List Char} (h : WritesMember m text) (next : WritesMembers more rest) :
    WritesMembers (m :: more) (text ++ ',' :: rest)

/-- **A text that is a flat record** of these members, and nothing else. -/
def WritesRecord (members : List (String × Option String)) (text : List Char) : Prop :=
  ∃ before inside behind, IsBlank before ∧ WritesMembers members inside ∧ IsBlank behind
    ∧ text = before ++ '\x7b' :: (inside ++ '\x7d' :: behind)

/-! ## Reading quoted texts -/

theorem escaped?_of_mem {l c : Char} (h : (l, c) ∈ letters) : l ≠ 'u' ∧ escaped? l = some c := by
  have hall : ∀ p ∈ letters, p.1 ≠ 'u' ∧ escaped? p.1 = some p.2 := by decide
  exact hall (l, c) h

theorem readQuoted_unit (q : Quoting) {x y z w : Char} {n : Nat} (h : hexUnit? x y z w = some n)
    (rest : List Char) :
    readQuoted q ('\\' :: 'u' :: x :: y :: z :: w :: rest) = readQuoted (q.unit n) rest := by
  rw [readQuoted, h]

/-- A unit that is no half of a pair is a character. -/
theorem unit_toNat (done : List Char) (c : Char) :
    ({ read := done } : Quoting).unit c.toNat = { read := c :: done } := by
  have hvalid : c.toNat < 0xD800 ∨ 0xDFFF < c.toNat ∧ c.toNat < 0x110000 := c.valid
  unfold Quoting.unit
  rw [if_neg (by omega), if_neg (by omega), Char.ofNat_toNat]
  rfl

/-- The two halves of a pair are a character. -/
theorem unit_unit (done : List Char) {high low : Nat} {c : Char}
    (isHigh : 0xD800 ≤ high ∧ high ≤ 0xDBFF) (isLow : 0xDC00 ≤ low ∧ low ≤ 0xDFFF)
    (value : 0x10000 + (high - 0xD800) * 0x400 + (low - 0xDC00) = c.toNat) :
    (({ read := done } : Quoting).unit high).unit low = { read := c :: done } := by
  have hhigh : ({ read := done } : Quoting).unit high = { read := done, high := some high } := by
    unfold Quoting.unit
    rw [if_neg (by omega), if_pos isHigh]
    rfl
  rw [hhigh]
  unfold Quoting.unit
  rw [if_pos isLow]
  dsimp only
  rw [value, Char.ofNat_toNat]

/-- **A character is read back**, however it was written. -/
theorem Inside.readQuoted {c : Char} {piece : List Char} (h : Inside c piece)
    (done rest : List Char) :
    readQuoted { read := done } (piece ++ rest) = readQuoted { read := c :: done } rest := by
  cases h with
  | plain quote backslash control => exact readQuoted_plain _ rest quote backslash control
  | letter known =>
    obtain ⟨hu, he⟩ := escaped?_of_mem known
    exact readQuoted_escaped _ rest hu he
  | unit digits => exact (readQuoted_unit _ digits rest).trans (by rw [unit_toNat])
  | pair first second isHigh isLow value =>
    refine (readQuoted_unit _ first _).trans ((readQuoted_unit _ second rest).trans ?_)
    rw [unit_unit done isHigh isLow value]

/-- **A quoted text is read back**, however it was written. -/
theorem readQuoted_quotes {s : String} {inside : List Char} (h : Quotes s inside)
    (rest : List Char) : readQuoted {} (inside ++ '"' :: rest) = some (some s, rest) := by
  have hread := h.reads (fun done rest => readQuoted { read := done } rest)
    (fun first done rest => first.readQuoted done rest) [] ('"' :: rest)
  refine hread.trans ?_
  show some (some (String.ofList (s.toList.reverse ++ []).reverse), rest) = _
  rw [List.append_nil, List.reverse_reverse, String.ofList_toList]

/-! ## Reading records -/

section Records

variable {fuel depth : Nat} {rest : List Char}

theorem skipSpace_append {blank : List Char} (h : IsBlank blank) {c : Char}
    (hc : isSpace c = false) : skipSpace (blank ++ c :: rest) = c :: rest := by
  unfold skipSpace
  rw [List.dropWhile_append_of_pos h]
  exact skipSpace_cons hc

theorem skipSpace_skipSpace (chars : List Char) : skipSpace (skipSpace chars) = skipSpace chars :=
  List.dropWhile_idempotent isSpace chars

theorem readName_quotes {name : String} {inside between : List Char} (h : Quotes name inside)
    (blank : IsBlank between) :
    readName (inside ++ '"' :: (between ++ ':' :: rest)) = some (some name, some rest) := by
  have hcolon : isSpace ':' = false := by decide
  unfold readName
  simp only [readQuoted_quotes h, Option.map_some, skipSpace_append blank hcolon]

/-- **A value is read back**, however it was written. -/
theorem WritesValue.readValue {value : Option String} {chars after : List Char}
    (h : WritesValue value chars) (blank : IsBlank after) :
    readValue (fuel + 1) depth (after ++ (chars ++ rest))
      = ((Json.ofOption value).document, some rest) := by
  -- what matters is the first character, and what is read behind it
  suffices hscalar : ∃ c run, chars = c :: run ∧ isSpace c = false ∧ c ≠ '[' ∧ c ≠ '\x7b'
      ∧ readScalar (c :: (run ++ rest)) = some ((Json.ofOption value).document, rest) by
    obtain ⟨c, run, rfl, hspace, hlist, hrecord, hread⟩ := hscalar
    rw [List.cons_append, Document.readValue, skipSpace_append blank hspace]
    split
    · next heq => exact absurd (List.cons.inj heq).1 hlist
    · next heq => exact absurd (List.cons.inj heq).1 hrecord
    · rw [hread]
  cases h with
  | null => exact ⟨'n', _, rfl, by decide, by decide, by decide, rfl⟩
  | text quotes =>
    refine ⟨'"', _, rfl, by decide, by decide, by decide, ?_⟩
    rw [List.append_assoc, List.singleton_append]
    show (readQuoted {} _).map _ = _
    rw [readQuoted_quotes quotes]
    rfl

/-- What is found in a text that is this member. -/
def foundMember (m : String × Option String) : Option String × Document :=
  (some m.1, (Json.ofOption m.2).document)

theorem WritesMember.readMembers_next {m : String × Option String} {text : List Char}
    (h : WritesMember m text) (done : List (Option String × Document)) :
    readMembers (fuel + 2) depth done (text ++ ',' :: rest)
      = readMembers (fuel + 1) depth (foundMember m :: done) rest := by
  obtain ⟨⟨before, between, after, behind⟩, quotes, writes⟩ := h
  have hquote : isSpace '"' = false := by decide
  have hcomma : isSpace ',' = false := by decide
  simp only [List.append_assoc, List.cons_append, Document.readMembers,
    skipSpace_append before hquote, readName_quotes quotes between, writes.readValue after,
    skipSpace_append behind hcomma, foundMember]

theorem WritesMember.readMembers_last {m : String × Option String} {text : List Char}
    (h : WritesMember m text) (done : List (Option String × Document)) :
    readMembers (fuel + 2) depth done (text ++ '\x7d' :: rest)
      = (record (foundMember m :: done).reverse true, some rest) := by
  obtain ⟨⟨before, between, after, behind⟩, quotes, writes⟩ := h
  have hquote : isSpace '"' = false := by decide
  have hend : isSpace '\x7d' = false := by decide
  simp only [List.append_assoc, List.cons_append, Document.readMembers,
    skipSpace_append before hquote, readName_quotes quotes between, writes.readValue after,
    skipSpace_append behind hend, foundMember]

/-- **Members are read back** up to the end of the record, however they were written. -/
theorem WritesMembers.readMembers {members : List (String × Option String)} {text : List Char}
    (h : WritesMembers members text) (done : List (Option String × Document))
    (enough : members.length < fuel) :
    readMembers fuel depth done (text ++ '\x7d' :: rest)
      = (record (done.reverse ++ members.map foundMember) true, some rest) := by
  induction h generalizing fuel done with
  | last h =>
    obtain ⟨fuel, rfl⟩ : ∃ k, fuel = k + 2 := Nat.exists_eq_add_of_le' enough
    rw [h.readMembers_last, List.reverse_cons]
    rfl
  | @cons m more text rest' h next ih =>
    have hpos : 0 < more.length := by
      cases next <;> exact Nat.succ_pos _
    rw [List.length_cons] at enough
    obtain ⟨fuel, rfl⟩ : ∃ k, fuel = k + 2 := Nat.exists_eq_add_of_le' (by omega)
    rw [List.append_assoc, List.cons_append, h.readMembers_next, ih _ (by omega),
      List.reverse_cons, List.append_assoc, List.singleton_append, List.map_cons]

theorem readMembers_skipSpace (done : List (Option String × Document)) (chars : List Char) :
    readMembers fuel depth done (skipSpace chars) = readMembers fuel depth done chars := by
  cases fuel with
  | zero => rfl
  | succ fuel => rw [readMembers, readMembers, skipSpace_skipSpace]

theorem readValue_curly_append {blank : List Char} (h : IsBlank blank)
    (deep : depth + 1 < maxDepth) :
    readValue (fuel + 1) depth (blank ++ '\x7b' :: rest)
      = match skipSpace rest with
        | '\x7d' :: rest => (record [] true, some rest)
        | rest => readMembers fuel (depth + 1) [] rest := by
  rw [readValue, skipSpace_append h (by decide)]
  exact if_neg (by omega)

theorem document_flat (members : List (String × Option String)) :
    (Json.flat members).document = record (members.map foundMember) true := by
  have hmembers : Json.memberDocuments (members.map fun m => (m.1, .ofOption m.2))
      = members.map foundMember := by
    induction members with
    | nil => rfl
    | cons m more ih => rw [List.map_cons, Json.memberDocuments, ih]; rfl
  rw [Json.flat, Json.document, hmembers]

theorem WritesMembers.length_le {members : List (String × Option String)} {text : List Char}
    (h : WritesMembers members text) : members.length ≤ text.length := by
  have hpos : ∀ {m text}, WritesMember m text → 1 ≤ text.length := by
    rintro _ _ ⟨-, -, -⟩
    simp only [List.length_append, List.length_cons]
    omega
  induction h with
  | last h => exact hpos h
  | cons h next ih =>
    rw [List.length_append, List.length_cons, List.length_cons]
    omega

/-- No record that is written is empty. -/
theorem WritesMembers.exists_skipSpace {members : List (String × Option String)}
    {text : List Char} (h : WritesMembers members text) (rest : List Char) :
    ∃ run, skipSpace (text ++ rest) = '"' :: run := by
  have hmember : ∀ {m text}, WritesMember m text → ∀ rest,
      ∃ run, skipSpace (text ++ rest) = '"' :: run := by
    rintro _ _ ⟨⟨before, -⟩, -, -⟩ rest
    rw [List.append_assoc, List.cons_append, skipSpace_append before (by decide)]
    exact ⟨_, rfl⟩
  cases h with
  | last h => exact hmember h rest
  | cons h next =>
    rw [List.append_assoc]
    exact hmember h _

end Records

/-- **A flat record is read back**, however it was written. -/
theorem WritesRecord.ofText_eq {members : List (String × Option String)} {text : List Char}
    (h : WritesRecord members text) :
    ofText (String.ofList text) = ((Json.flat members).document, true) := by
  obtain ⟨before, inside, behind, hbefore, hinside, hbehind, rfl⟩ := h
  have hread : ∀ fuel, members.length < fuel →
      readValue (fuel + 1) 0 (before ++ '\x7b' :: (inside ++ '\x7d' :: behind))
        = (record (members.map foundMember) true, some behind) := by
    intro fuel enough
    obtain ⟨run, hrun⟩ := hinside.exists_skipSpace ('\x7d' :: behind)
    rw [readValue_curly_append hbefore (by decide), hrun]
    show readMembers fuel 1 [] ('"' :: run) = _
    rw [← hrun, readMembers_skipSpace, hinside.readMembers [] enough]
    rfl
  have henough := hinside.length_le
  unfold ofText
  rw [String.toList_ofList]
  dsimp only
  rw [hread _ (by simp only [List.length_append, List.length_cons]; omega), document_flat]
  have hend : skipSpace behind = [] := List.dropWhile_eq_nil_iff.2 hbehind
  simp only [hend, List.isEmpty_nil]

/-! ## The compact way to write a record -/

theorem inside_quoteChar (c : Char) : Inside c (Json.quoteChar c) := by
  unfold Json.quoteChar
  -- the seven characters that have an escape of their own
  iterate 7
    split
    · next hc =>
      subst hc
      exact .letter (by decide)
  split
  · next hcontrol => exact .unit (hexUnit?_control c.toNat hcontrol)
  · next hquote hbackslash _ _ _ _ _ hcontrol => exact .plain hquote hbackslash (by omega)

theorem writesValue_render (value : Option String) :
    WritesValue value (Json.ofOption value).render.toList := by
  cases value with
  | none => exact .null
  | some s =>
    rw [Json.ofOption, Json.render, toList_quote]
    exact .text (.flatMap inside_quoteChar _)

theorem writesMember_nameText (name : String) (value : Option String) :
    WritesMember (name, value) (nameText name (Json.ofOption value).render.toList) := by
  have hblank : IsBlank [] := fun c hc => absurd hc List.not_mem_nil
  have hname : Quotes name (name.toList.flatMap Json.quoteChar) := .flatMap inside_quoteChar _
  have h := WritesMember.mk ⟨hblank, hblank, hblank, hblank⟩ hname (writesValue_render value)
  rwa [List.append_nil] at h

theorem writesMembers_renderMembers {members : List (String × Option String)}
    (hne : members ≠ []) :
    WritesMembers members
      (Json.renderMembers (members.map fun m => (m.1, .ofOption m.2))).toList := by
  induction members with
  | nil => exact absurd rfl hne
  | cons m more ih =>
    cases more with
    | nil =>
      rw [List.map_cons, List.map_nil, toList_renderMembers_singleton]
      exact .last (writesMember_nameText m.1 m.2)
    | cons next more =>
      rw [List.map_cons, toList_renderMembers_cons _ _ (by simp), ← nameText_append]
      exact .cons (writesMember_nameText m.1 m.2) (ih (List.cons_ne_nil next more))

/-- **A flat record can be written**, whatever its members are. -/
theorem writesRecord_render {members : List (String × Option String)} (hne : members ≠ []) :
    WritesRecord members (Json.flat members).render.toList := by
  have hblank : IsBlank [] := fun c hc => absurd hc List.not_mem_nil
  refine ⟨[], _, [], hblank, writesMembers_renderMembers hne, hblank, ?_⟩
  rw [Json.flat, toList_render_record]
  rfl

end Document

end Rota
