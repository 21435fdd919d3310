import Rota.Json.Basic
import Rota.Json.Format
import Rota.Proofs.Text.Decimal

/-!
# Values in JSON texts

The text of a value is read back as this value: `readValue_render` says so of a value that
stands somewhere in a text, and `ofText_render` of a text that holds nothing else. Texts
may be any, since what is escaped in them is restored; a number has to fit into 64 bits,
and only so many lists and records may be nested (`Readable`).

The reader is given fuel for two steps on each character. A value of some length is read
with twice as much fuel.
-/

namespace Rota

namespace Json

/-! ## The document of a value -/

mutual

/-- **What is found in the text of a value.** -/
def document : Json → Document
  | null => .null
  | flag b => .flag b
  | number n => .number (.natural n)
  | text s => .text (some s)
  | list items => .list (documents items) true
  | record members => .record (memberDocuments members) true

@[inherit_doc document]
def documents : List Json → List Document
  | [] => []
  | item :: rest => item.document :: documents rest

@[inherit_doc document]
def memberDocuments : List (String × Json) → List (Option String × Document)
  | [] => []
  | (name, value) :: rest => (some name, value.document) :: memberDocuments rest

end

theorem documents_eq_map (items : List Json) : documents items = items.map document := by
  induction items with
  | nil => rfl
  | cons item rest ih => rw [documents, ih, List.map_cons]

/-- **A value that can be read**: its lists and records are nested in at most so many
levels, and its numbers have at most 64 bits. -/
inductive Readable : Nat → Json → Prop where
  | null {levels : Nat} : Readable levels .null
  | flag {levels : Nat} (b : Bool) : Readable levels (.flag b)
  | number {levels n : Nat} (small : n < UInt64.size) : Readable levels (.number n)
  | text {levels : Nat} (s : String) : Readable levels (.text s)
  | list {levels : Nat} {items : List Json} (each : ∀ item ∈ items, Readable levels item) :
    Readable (levels + 1) (.list items)
  | record {levels : Nat} {members : List (String × Json)}
    (each : ∀ m ∈ members, Readable levels m.2) : Readable (levels + 1) (.record members)

end Json

namespace Document

/-! ## Quoted texts -/

theorem readQuoted_escaped (q : Quoting) {c e : Char} (rest : List Char) (hu : c ≠ 'u')
    (h : escaped? c = some e) :
    readQuoted q ('\\' :: c :: rest) = readQuoted (q.char e) rest := by
  rw [readQuoted, h]
  exact fun _ _ _ _ _ hc => absurd hc hu

theorem readQuoted_plain (q : Quoting) {c : Char} (rest : List Char) (hquote : c ≠ '"')
    (hescape : c ≠ '\\') (hcontrol : 0x20 ≤ c.toNat) :
    readQuoted q (c :: rest) = readQuoted (q.char c) rest := by
  have hplain : ¬ (decide (c.toNat < 0x20) || decide (c = '\\')) = true := by
    simp only [Bool.or_eq_true, decide_eq_true_eq, not_or]
    exact ⟨by omega, hescape⟩
  rw [readQuoted, if_neg hplain]
  · exact hquote
  · exact fun _ _ _ _ _ hc => absurd hc hescape
  · exact fun _ _ hc => absurd hc hescape

theorem hexUnit?_control : ∀ n < 0x20,
    hexUnit? '0' '0' (Text.hexDigit false (n / 16)) (Text.hexDigit false (n % 16)) = some n := by
  decide

/-- **A character inside quotes** is read back, whether it was escaped or not. -/
theorem readQuoted_quoteChar (done : List Char) (c : Char) (rest : List Char) :
    readQuoted { read := done } (Json.quoteChar c ++ rest)
      = readQuoted { read := c :: done } rest := by
  unfold Json.quoteChar
  -- the seven characters that have an escape of their own
  iterate 7
    split
    · next hc =>
      subst hc
      exact readQuoted_escaped _ rest (by decide) rfl
  split
  · next hcontrol =>
    have hunit : ({ read := done } : Quoting).unit c.toNat = { read := c :: done } := by
      unfold Quoting.unit
      rw [if_neg (by omega), if_neg (by omega), Char.ofNat_toNat]
      rfl
    show readQuoted _ ('\\' :: 'u' :: '0' :: '0' :: _ :: _ :: rest) = _
    rw [readQuoted, hexUnit?_control c.toNat hcontrol]
    exact congrArg (readQuoted · rest) hunit
  · next hquote hescape _ _ _ _ _ hcontrol =>
    exact readQuoted_plain _ rest hquote hescape (by omega)

/-- **A quoted text is read back** up to its closing quote. -/
theorem readQuoted_quote (done : List Char) (text rest : List Char) :
    readQuoted { read := done } (text.flatMap Json.quoteChar ++ '"' :: rest)
      = some (some (String.ofList (done.reverse ++ text)), rest) := by
  induction text generalizing done with
  | nil => rw [List.append_nil]; rfl
  | cons c text ih =>
    rw [List.flatMap_cons, List.append_assoc, readQuoted_quoteChar, ih, List.reverse_cons,
      List.append_assoc, List.singleton_append]

theorem readName_quote (name : String) (rest : List Char) :
    readName (name.toList.flatMap Json.quoteChar ++ '"' :: ':' :: rest)
      = some (some name, some rest) := by
  unfold readName
  rw [readQuoted_quote [] name.toList, List.reverse_nil, List.nil_append, String.ofList_toList]
  rfl

/-! ## Numbers -/

/-- **A number ends here**: the text goes on with nothing that could belong to it. -/
def Ends (rest : List Char) : Prop :=
  ∀ c ∈ rest.head?, Text.isDigit c = false ∧ c ≠ '.' ∧ c ≠ 'e' ∧ c ≠ 'E'

theorem ends_nil : Ends [] := by
  simp [Ends]

theorem ends_cons {c : Char} {rest : List Char} (h : c = ',' ∨ c = ']' ∨ c = '\x7d') :
    Ends (c :: rest) := by
  intro d hd
  obtain rfl : c = d := by simpa using hd
  rcases h with rfl | rfl | rfl <;> decide

theorem Ends.stops {rest : List Char} (h : Ends rest) : Text.Stops rest :=
  fun c hc => (h c hc).1

theorem Ends.readFraction {rest : List Char} (h : Ends rest) :
    readFraction rest = some (none, rest) := by
  cases rest with
  | nil => rfl
  | cons c rest =>
    unfold Document.readFraction
    split
    · next heq => exact absurd (List.cons.inj heq).1 (h c rfl).2.1
    · rfl

theorem Ends.readExponent {rest : List Char} (h : Ends rest) :
    readExponent rest = some (none, rest) := by
  cases rest with
  | nil => rfl
  | cons c rest =>
    have hc := (h c rfl).2.2
    exact if_neg (not_or.2 hc)

/-- **Digits that fit** are all collected. -/
theorem collectWhole_of_lt {run : List Char} (h : Text.IsNumeral run)
    (small : Nat.ofDigitChars 10 run 0 < UInt64.size) :
    Numeral.collectWhole run = (Nat.ofDigitChars 10 run 0, 0) := by
  unfold Numeral.collectWhole
  suffices hfrom : ∀ start, Nat.ofDigitChars 10 run start < UInt64.size →
      run.foldl (fun (s : Nat × Nat) c =>
        let grown := s.1 * 10 + (Text.digit? c).getD 0
        if s.2 = 0 ∧ grown < Numeral.significandBound then (grown, 0)
        else (s.1, s.2 + 1)) (start, 0)
        = (Nat.ofDigitChars 10 run start, 0) from hfrom 0 small
  clear small
  induction run with
  | nil => exact fun _ _ => rfl
  | cons c run ih =>
    intro start small
    have hc := Text.digit?_of_isDigit (h c (List.mem_cons_self ..))
    rw [Nat.ofDigitChars_cons, Nat.mul_comm] at small ⊢
    -- what is collected so far is never more than what comes of it
    have hle : start * 10 + (c.toNat - '0'.toNat) < UInt64.size := by
      rw [Nat.ofDigitChars_eq_ofDigitChars_zero] at small
      have hpow : 0 < 10 ^ run.length := Nat.pow_pos (by decide)
      have hgrown := Nat.le_mul_of_pos_left (start * 10 + (c.toNat - '0'.toNat)) hpow
      omega
    rw [List.foldl_cons]
    dsimp only
    rw [hc, Option.getD_some, if_pos ⟨rfl, hle⟩]
    exact ih (fun d hd => h d (List.mem_cons_of_mem c hd)) _ small

theorem readNumber_toDigits {n : Nat} (small : n < UInt64.size) {rest : List Char}
    (hr : Ends rest) :
    readNumber false (Nat.toDigits 10 n ++ rest) = some (.natural n, rest) := by
  have hrun := Text.isNumeral_toDigits n
  have hvalue : Nat.ofDigitChars 10 (Nat.toDigits 10 n) 0 = n := Nat.ofDigitChars_ten_toDigits
  have hcollect : Numeral.collectWhole (Nat.toDigits 10 n) = (n, 0) := by
    rw [collectWhole_of_lt hrun (by rwa [hvalue]), hvalue]
  have hzero : ¬ ((Nat.toDigits 10 n).isEmpty = true
      ∨ (Nat.toDigits 10 n).head? = some '0' ∧ (Nat.toDigits 10 n).length ≠ 1) := by
    rintro (hempty | ⟨hhead, hlen⟩)
    · exact Nat.toDigits_ne_nil (List.isEmpty_iff.1 hempty)
    · by_cases hn : n = 0
      · subst hn
        exact hlen rfl
      · exact Text.head?_toDigits hn hhead
  unfold readNumber spanDigits
  rw [Text.takeWhile_isDigit hrun hr.stops, Text.dropWhile_isDigit hrun hr.stops]
  dsimp only
  rw [if_neg hzero, hr.readFraction, Option.bind_eq_bind, Option.bind_some]
  dsimp only
  rw [hr.readExponent, Option.bind_eq_bind, Option.bind_some]
  unfold Numeral.ofParts
  rw [hcollect]
  rfl

/-! ## Values -/

section Values

variable {fuel depth : Nat} {rest : List Char}

theorem skipSpace_cons {c : Char} (h : isSpace c = false) : skipSpace (c :: rest) = c :: rest :=
  List.dropWhile_cons_of_neg (by simp [h])

/-- A value that is neither a list nor a record is read as such. -/
theorem readValue_scalar {c : Char} {chars : List Char} {value : Document}
    (hspace : isSpace c = false) (hlist : c ≠ '[') (hrecord : c ≠ '\x7b')
    (h : readScalar (c :: chars) = some (value, rest)) :
    readValue (fuel + 1) depth (c :: chars) = (value, some rest) := by
  rw [readValue, skipSpace_cons hspace]
  split
  · next heq => exact absurd (List.cons.inj heq).1 hlist
  · next heq => exact absurd (List.cons.inj heq).1 hrecord
  · rw [h]

/-- What begins with a digit is a number. -/
theorem readScalar_digit {c : Char} (h : Text.isDigit c = true) :
    readScalar (c :: rest)
      = (readNumber false (c :: rest)).map fun (n, rest) => (number n, rest) := by
  unfold readScalar
  split
  case h_6 => rfl
  all_goals
    next heq => exact absurd (List.cons.inj heq).1 (Text.ne_of_isDigit h (by decide))

theorem isSpace_of_isDigit {c : Char} (h : Text.isDigit c = true) : isSpace c = false := by
  have hne : ∀ d, Text.isDigit d = false → c ≠ d := fun _ => Text.ne_of_isDigit h
  unfold isSpace
  simp [hne ' ' (by decide), hne '\n' (by decide), hne '\t' (by decide), hne '\r' (by decide)]

theorem toList_render_number (n : Nat) : (Json.number n).render.toList = Nat.toDigits 10 n := by
  rw [Json.render, Nat.toString_eq_ofList_toDigits, String.toList_ofList]

theorem readValue_number {n : Nat} (small : n < UInt64.size) (hr : Ends rest) :
    readValue (fuel + 1) depth ((Json.number n).render.toList ++ rest)
      = (number (.natural n), some rest) := by
  have hread := readNumber_toDigits small hr
  obtain ⟨c, run, hdigits, hc⟩ := Text.exists_toDigits n
  rw [hdigits, List.cons_append] at hread
  rw [toList_render_number, hdigits, List.cons_append]
  refine readValue_scalar (isSpace_of_isDigit hc) (Text.ne_of_isDigit hc (by decide))
    (Text.ne_of_isDigit hc (by decide)) ?_
  rw [readScalar_digit hc, hread]
  rfl

theorem toList_quote (s : String) :
    (Json.quote s).toList = '"' :: (s.toList.flatMap Json.quoteChar ++ ['"']) :=
  String.toList_ofList

theorem readValue_text (s : String) :
    readValue (fuel + 1) depth ((Json.text s).render.toList ++ rest)
      = (text (some s), some rest) := by
  rw [Json.render, toList_quote, List.cons_append, List.append_assoc, List.singleton_append]
  refine readValue_scalar (by decide) (by decide) (by decide) ?_
  show (readQuoted {} _).map _ = _
  rw [readQuoted_quote [] s.toList, List.reverse_nil, List.nil_append, String.ofList_toList]
  rfl

theorem toList_render_list (items : List Json) :
    (Json.list items).render.toList = '[' :: ((Json.renderItems items).toList ++ [']']) := by
  rw [Json.render, String.toList_append, String.toList_append]
  rfl

theorem toList_render_record (members : List (String × Json)) :
    (Json.record members).render.toList
      = '\x7b' :: ((Json.renderMembers members).toList ++ ['\x7d']) := by
  rw [Json.render, String.toList_append, String.toList_append]
  rfl

/-- **No value begins with a blank**, or with the end of a list. -/
theorem exists_toList_render (value : Json) :
    ∃ c chars, value.render.toList = c :: chars ∧ isSpace c = false ∧ c ≠ ']' := by
  cases value with
  | null => exact ⟨'n', _, rfl, by decide⟩
  | flag b => cases b <;> exact ⟨_, _, rfl, by decide⟩
  | number n =>
    obtain ⟨c, run, hdigits, hc⟩ := Text.exists_toDigits n
    exact ⟨c, run, by rw [toList_render_number, hdigits], isSpace_of_isDigit hc,
      Text.ne_of_isDigit hc (by decide)⟩
  | text s => exact ⟨'"', _, toList_quote s, by decide⟩
  | list items => exact ⟨'[', _, toList_render_list items, by decide⟩
  | record members => exact ⟨'\x7b', _, toList_render_record members, by decide⟩

/-- **A value is read back** at a depth, wherever it stands in a text, with fuel for two
steps on each of its characters. -/
def ReadsBack (depth : Nat) (value : Json) : Prop :=
  ∀ fuel rest, 2 * value.render.toList.length ≤ fuel → Ends rest →
    readValue fuel depth (value.render.toList ++ rest) = (value.document, some rest)

theorem toList_renderItems_cons (item : Json) {more : List Json} (h : more ≠ []) :
    (Json.renderItems (item :: more)).toList
      = item.render.toList ++ ',' :: (Json.renderItems more).toList := by
  rw [Json.renderItems]
  · simp
  · exact h

theorem exists_toList_renderItems (item : Json) (more : List Json) :
    ∃ c chars, (Json.renderItems (item :: more)).toList = c :: chars ∧ isSpace c = false
      ∧ c ≠ ']' := by
  obtain ⟨c, chars, htext, hc⟩ := exists_toList_render item
  cases more with
  | nil => exact ⟨c, chars, htext, hc⟩
  | cons next more =>
    rw [toList_renderItems_cons item (List.cons_ne_nil next more), htext, List.cons_append]
    exact ⟨c, _, rfl, hc⟩

theorem readItems_next {item : Json} (h : ReadsBack depth item)
    (hf : 2 * item.render.toList.length ≤ fuel) (done : List Document) :
    readItems (fuel + 1) depth done (item.render.toList ++ ',' :: rest)
      = readItems fuel depth (item.document :: done) rest := by
  have hcomma : isSpace ',' = false := by decide
  simp only [readItems, h fuel (',' :: rest) hf (ends_cons (by decide)), skipSpace_cons hcomma]

theorem readItems_last {item : Json} (h : ReadsBack depth item)
    (hf : 2 * item.render.toList.length ≤ fuel) (done : List Document) :
    readItems (fuel + 1) depth done (item.render.toList ++ ']' :: rest)
      = (list (item.document :: done).reverse true, some rest) := by
  have hend : isSpace ']' = false := by decide
  simp only [readItems, h fuel (']' :: rest) hf (ends_cons (by decide)), skipSpace_cons hend]

/-- **The items of a list are read back** up to its end, behind those read before. -/
theorem readItems_renderItems {items : List Json} (hne : items ≠ [])
    (each : ∀ item ∈ items, ReadsBack depth item) (done : List Document)
    (hf : 2 * (Json.renderItems items).toList.length + 1 ≤ fuel) :
    readItems fuel depth done ((Json.renderItems items).toList ++ ']' :: rest)
      = (list (done.reverse ++ Json.documents items) true, some rest) := by
  induction items generalizing fuel done with
  | nil => exact absurd rfl hne
  | cons item more ih =>
    obtain ⟨fuel, rfl⟩ : ∃ k, fuel = k + 1 := ⟨fuel - 1, by omega⟩
    have hitem := each item (List.mem_cons_self ..)
    cases more with
    | nil =>
      rw [Json.renderItems] at hf ⊢
      rw [readItems_last hitem (by omega)]
      simp only [List.reverse_cons, Json.documents]
    | cons next more =>
      have htext := toList_renderItems_cons item (List.cons_ne_nil next more)
      rw [htext, List.length_append, List.length_cons] at hf
      rw [htext, List.append_assoc, List.cons_append, readItems_next hitem (by omega),
        ih (by simp) (fun i hi => each i (List.mem_cons_of_mem item hi)) _ (by omega)]
      simp only [List.reverse_cons, List.append_assoc, List.singleton_append, Json.documents]

/-- The name of a member and its colon, and what is behind them. -/
def nameText (name : String) (behind : List Char) : List Char :=
  '"' :: (name.toList.flatMap Json.quoteChar ++ '"' :: ':' :: behind)

theorem toList_renderMembers_singleton (name : String) (value : Json) :
    (Json.renderMembers [(name, value)]).toList = nameText name value.render.toList := by
  rw [Json.renderMembers, nameText]
  simp [toList_quote]

theorem toList_renderMembers_cons (name : String) (value : Json) {more : List (String × Json)}
    (h : more ≠ []) :
    (Json.renderMembers ((name, value) :: more)).toList
      = nameText name (value.render.toList ++ ',' :: (Json.renderMembers more).toList) := by
  rw [Json.renderMembers, nameText]
  · simp [toList_quote]
  · exact h

theorem exists_toList_renderMembers (m : String × Json) (more : List (String × Json)) :
    ∃ chars, (Json.renderMembers (m :: more)).toList = '"' :: chars := by
  cases more with
  | nil => exact ⟨_, toList_renderMembers_singleton m.1 m.2⟩
  | cons next more => exact ⟨_, toList_renderMembers_cons m.1 m.2 (List.cons_ne_nil next more)⟩

theorem nameText_append (name : String) (behind rest : List Char) :
    nameText name behind ++ rest = nameText name (behind ++ rest) := by
  simp [nameText]

theorem length_le_nameText (name : String) (behind : List Char) :
    behind.length + 1 ≤ (nameText name behind).length := by
  simp only [nameText, List.length_cons, List.length_append]
  omega

theorem readMembers_next {value : Json} (h : ReadsBack depth value)
    (hf : 2 * value.render.toList.length ≤ fuel) (name : String)
    (done : List (Option String × Document)) :
    readMembers (fuel + 1) depth done (nameText name (value.render.toList ++ ',' :: rest))
      = readMembers fuel depth ((some name, value.document) :: done) rest := by
  have hquote : isSpace '"' = false := by decide
  have hcomma : isSpace ',' = false := by decide
  simp only [nameText, readMembers, skipSpace_cons hquote, readName_quote,
    h fuel (',' :: rest) hf (ends_cons (by decide)), skipSpace_cons hcomma]

theorem readMembers_last {value : Json} (h : ReadsBack depth value)
    (hf : 2 * value.render.toList.length ≤ fuel) (name : String)
    (done : List (Option String × Document)) :
    readMembers (fuel + 1) depth done (nameText name (value.render.toList ++ '\x7d' :: rest))
      = (record ((some name, value.document) :: done).reverse true, some rest) := by
  have hquote : isSpace '"' = false := by decide
  have hend : isSpace '\x7d' = false := by decide
  simp only [nameText, readMembers, skipSpace_cons hquote, readName_quote,
    h fuel ('\x7d' :: rest) hf (ends_cons (by decide)), skipSpace_cons hend]

/-- **The members of a record are read back** up to its end, behind those read before. -/
theorem readMembers_renderMembers {members : List (String × Json)} (hne : members ≠ [])
    (each : ∀ m ∈ members, ReadsBack depth m.2) (done : List (Option String × Document))
    (hf : 2 * (Json.renderMembers members).toList.length + 1 ≤ fuel) :
    readMembers fuel depth done ((Json.renderMembers members).toList ++ '\x7d' :: rest)
      = (record (done.reverse ++ Json.memberDocuments members) true, some rest) := by
  induction members generalizing fuel done with
  | nil => exact absurd rfl hne
  | cons m more ih =>
    obtain ⟨fuel, rfl⟩ : ∃ k, fuel = k + 1 := ⟨fuel - 1, by omega⟩
    obtain ⟨name, value⟩ := m
    have hvalue : ReadsBack depth value := each _ (List.mem_cons_self ..)
    cases more with
    | nil =>
      have hle := length_le_nameText name value.render.toList
      rw [toList_renderMembers_singleton] at hf ⊢
      rw [nameText_append, readMembers_last hvalue (by omega)]
      simp only [List.reverse_cons, Json.memberDocuments]
    | cons next more =>
      have htext := toList_renderMembers_cons name value (List.cons_ne_nil next more)
      have hle := length_le_nameText name
        (value.render.toList ++ ',' :: (Json.renderMembers (next :: more)).toList)
      rw [List.length_append, List.length_cons] at hle
      rw [htext] at hf ⊢
      rw [nameText_append, List.append_assoc, List.cons_append,
        readMembers_next hvalue (by omega),
        ih (by simp) (fun m hm => each m (List.mem_cons_of_mem _ hm)) _ (by omega)]
      simp only [List.reverse_cons, List.append_assoc, List.singleton_append, Json.memberDocuments]

/-- No value has an empty text, so there is fuel. -/
theorem exists_succ_of_le {value : Json} (hf : 2 * value.render.toList.length ≤ fuel) :
    ∃ k, fuel = k + 1 := by
  obtain ⟨c, chars, htext, -⟩ := exists_toList_render value
  rw [htext, List.length_cons] at hf
  exact ⟨fuel - 1, by omega⟩

theorem readValue_square (deep : depth + 1 < maxDepth) :
    readValue (fuel + 1) depth ('[' :: rest)
      = match skipSpace rest with
        | ']' :: rest => (list [] true, some rest)
        | rest => readItems fuel (depth + 1) [] rest := by
  rw [readValue, skipSpace_cons (by decide)]
  exact if_neg (by omega)

theorem readValue_curly (deep : depth + 1 < maxDepth) :
    readValue (fuel + 1) depth ('\x7b' :: rest)
      = match skipSpace rest with
        | '\x7d' :: rest => (record [] true, some rest)
        | rest => readMembers fuel (depth + 1) [] rest := by
  rw [readValue, skipSpace_cons (by decide)]
  exact if_neg (by omega)

theorem readsBack_list {items : List Json} (deep : depth + 1 < maxDepth)
    (each : ∀ item ∈ items, ReadsBack (depth + 1) item) : ReadsBack depth (.list items) := by
  intro fuel rest hf hr
  rw [toList_render_list] at hf ⊢
  simp only [List.length_cons, List.length_append, List.length_nil] at hf
  obtain ⟨fuel, rfl⟩ : ∃ k, fuel = k + 1 := ⟨fuel - 1, by omega⟩
  rw [List.cons_append, List.append_assoc, List.singleton_append, readValue_square deep]
  cases items with
  | nil => rfl
  | cons item more =>
    obtain ⟨c, chars, htext, hspace, hc⟩ := exists_toList_renderItems item more
    rw [htext, List.cons_append, skipSpace_cons hspace]
    split
    · next heq => exact absurd (List.cons.inj heq).1 hc
    · rw [← List.cons_append, ← htext]
      exact readItems_renderItems (List.cons_ne_nil item more) each [] (by omega)

theorem readsBack_record {members : List (String × Json)} (deep : depth + 1 < maxDepth)
    (each : ∀ m ∈ members, ReadsBack (depth + 1) m.2) : ReadsBack depth (.record members) := by
  intro fuel rest hf hr
  rw [toList_render_record] at hf ⊢
  simp only [List.length_cons, List.length_append, List.length_nil] at hf
  obtain ⟨fuel, rfl⟩ : ∃ k, fuel = k + 1 := ⟨fuel - 1, by omega⟩
  rw [List.cons_append, List.append_assoc, List.singleton_append, readValue_curly deep]
  cases members with
  | nil => rfl
  | cons m more =>
    obtain ⟨chars, htext⟩ := exists_toList_renderMembers m more
    rw [htext, List.cons_append, skipSpace_cons (by decide)]
    show readMembers fuel (depth + 1) [] ('"' :: (chars ++ '\x7d' :: rest)) = _
    rw [← List.cons_append, ← htext]
    exact readMembers_renderMembers (List.cons_ne_nil m more) each [] (by omega)

/-- **A value is read back**, wherever it stands in a text, if it can be read at all. -/
theorem readValue_render {levels : Nat} {value : Json} (h : value.Readable levels)
    {depth : Nat} (deep : depth + levels < maxDepth) : ReadsBack depth value := by
  induction h generalizing depth with
  | list each ih => exact readsBack_list (by omega) fun item hi => ih item hi (by omega)
  | record each ih => exact readsBack_record (by omega) fun m hm => ih m hm (by omega)
  | null =>
    intro fuel rest hf hr
    obtain ⟨fuel, rfl⟩ := exists_succ_of_le hf
    exact readValue_scalar (by decide) (by decide) (by decide) rfl
  | flag b =>
    intro fuel rest hf hr
    obtain ⟨fuel, rfl⟩ := exists_succ_of_le hf
    cases b <;> exact readValue_scalar (by decide) (by decide) (by decide) rfl
  | number small =>
    intro fuel rest hf hr
    obtain ⟨fuel, rfl⟩ := exists_succ_of_le hf
    exact readValue_number small hr
  | text s =>
    intro fuel rest hf hr
    obtain ⟨fuel, rfl⟩ := exists_succ_of_le hf
    exact readValue_text s

end Values

theorem ofText_render {levels : Nat} {value : Json} (h : value.Readable levels)
    (deep : levels < maxDepth) : ofText value.render = (value.document, true) := by
  have hback : ReadsBack 0 value := readValue_render h (by omega)
  have hread := hback (2 * value.render.toList.length + 2) [] (by omega) ends_nil
  rw [List.append_nil] at hread
  unfold ofText
  dsimp only
  rw [hread]
  rfl

/-- **Reading a text** that was written is reading what was written. -/
theorem parse_render {α : Type} (read : Document → Except Fault α) {levels : Nat} {value : Json}
    (h : value.Readable levels) (deep : levels < maxDepth) :
    parse read value.render = read value.document := by
  unfold parse
  rw [ofText_render h deep]
  dsimp only [bind, Except.bind]
  cases read value.document <;> rfl

end Document

end Rota
