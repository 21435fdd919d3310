import Mathlib.Data.List.Forall2
import Rota.Http.Form
import Rota.Proofs.Format
import Rota.Proofs.Text.Spelling
import Rota.Proofs.Text.Utf8

/-!
# Fields in forms

A form can be written in many ways, since a byte may be escaped although it need not be:
`Form.Writes` says which bytes are a form of given fields. However it was written, the form
is read as these fields (`Form.Writes.ofBytes_eq`). Names and values may be any texts.

One way to write a form is the usual one (`Form.write`), in which a byte is escaped where
some readers might mistake it.
-/

namespace Rota.Http

/-! ## What a form can look like -/

namespace Form

/-- **A byte of a name or a value**, as it may stand in a form: as it is, unless it means
something else there; a blank as a plus sign; any byte as an escape, in small letters or
in capitals. -/
inductive Octet (b : UInt8) : List UInt8 → Prop where
  | plain (percent : b ≠ 0x25) (ampersand : b ≠ 0x26) (plus : b ≠ 0x2B) (equals : b ≠ 0x3D) :
    Octet b [b]
  | plus (blank : b = 0x20) : Octet b [0x2B]
  | escaped {high low : UInt8} {h l : Nat} (first : hexByte? high = some h)
    (second : hexByte? low = some l) (value : UInt8.ofNat (16 * h + l) = b) :
    Octet b [0x25, high, low]

/-- **The bytes of a name or a value**, as they may stand in a form. -/
abbrev Spells (s : String) (bytes : List UInt8) : Prop :=
  Text.Spelled Octet (Text.encode s.toList) bytes

/-- A field, as it may stand in a form. -/
def WritesField (field : String × String) (bytes : List UInt8) : Prop :=
  ∃ name value, Spells field.1 name ∧ Spells field.2 value ∧ bytes = name ++ 0x3D :: value

/-- **Bytes that are a form** of these fields. -/
def Writes (fields : List (String × String)) (bytes : List UInt8) : Prop :=
  ∃ pieces, List.Forall₂ WritesField fields pieces ∧ bytes = [0x26].intercalate pieces

end Form

/-! ## Reading names and values -/

namespace Form

variable {b : UInt8} {bytes piece text : List UInt8}

/-- A plus sign stands for a blank. -/
def blanked (b : UInt8) : UInt8 :=
  if b = 0x2B then 0x20 else b

theorem blanked_of_ne (h : b ≠ 0x2B) : blanked b = b :=
  if_neg h

/-- No mark is a digit. -/
theorem ne_of_hexByte? {c : UInt8} (hc : hexByte? c = none) {n : Nat} (h : hexByte? b = some n) :
    b ≠ c := by
  rintro rfl
  rw [hc] at h
  cases h

/-- **A byte is read back**, however it was written. -/
theorem Octet.unescapeFrom (h : Octet b piece) (done rest : List UInt8) :
    unescapeFrom done (piece.map blanked ++ rest) = unescapeFrom (b :: done) rest := by
  cases h with
  | plain percent ampersand plus equals =>
    show Http.unescapeFrom done (blanked b :: rest) = _
    rw [blanked_of_ne plus, Http.unescapeFrom.eq_def]
    exact if_neg percent
  | plus blank =>
    subst blank
    show Http.unescapeFrom done (0x20 :: rest) = _
    rw [Http.unescapeFrom.eq_def]
    rfl
  | @escaped high low h l first second value =>
    show Http.unescapeFrom done (0x25 :: blanked high :: blanked low :: rest) = _
    rw [blanked_of_ne (ne_of_hexByte? (by decide) first),
      blanked_of_ne (ne_of_hexByte? (by decide) second), Http.unescapeFrom.eq_def]
    simp only [if_true, first, second, value]

/-- **A name or a value is read back**, however it was written. -/
theorem decode_of_spells {s : String} (h : Spells s text) : decode text = s := by
  have hread := h.reads (fun done rest => Http.unescapeFrom done (rest.map blanked))
    (fun first done rest => by rw [List.map_append, first.unescapeFrom]) [] []
  rw [List.append_nil, List.append_nil, List.map_nil, Http.unescapeFrom.eq_def _ [],
    List.reverse_reverse] at hread
  show String.ofList (Text.decodeLossy (Http.unescapeFrom [] (text.map blanked))) = s
  rw [hread, Text.decodeLossy_encode, String.ofList_toList]

/-! ## Reading fields -/

/-- The marks between names and values and between fields stand for nothing else. -/
theorem Octet.not_mem (h : Octet b piece) {mark : UInt8} (isMark : mark = 0x26 ∨ mark = 0x3D) :
    mark ∉ piece := by
  have hnone : hexByte? mark = none := by
    rcases isMark with rfl | rfl <;> decide
  cases h with
  | plain percent ampersand plus equals =>
    rw [List.mem_singleton]
    rcases isMark with rfl | rfl
    · exact ampersand.symm
    · exact equals.symm
  | plus blank => rcases isMark with rfl | rfl <;> decide
  | escaped first second value =>
    have hpercent : mark ≠ 0x25 := by
      rcases isMark with rfl | rfl <;> decide
    simp [hpercent, (ne_of_hexByte? hnone first).symm, (ne_of_hexByte? hnone second).symm]

theorem not_mem_of_spells {s : String} (h : Spells s text) {mark : UInt8}
    (isMark : mark = 0x26 ∨ mark = 0x3D) : mark ∉ text :=
  h.not_mem fun first => first.not_mem isMark

theorem WritesField.not_mem {field : String × String} (h : WritesField field bytes) :
    0x26 ∉ bytes := by
  obtain ⟨name, value, hname, hvalue, rfl⟩ := h
  simp [not_mem_of_spells hname (.inl rfl), not_mem_of_spells hvalue (.inl rfl)]

/-- **A field is read back**, however it was written. -/
theorem WritesField.pair_eq {field : String × String} (h : WritesField field bytes) :
    pair bytes = field := by
  obtain ⟨name, value, hname, hvalue, rfl⟩ := h
  have hspan : (name ++ 0x3D :: value).takeWhile (· ≠ 0x3D) = name := by
    rw [List.takeWhile_append_of_pos fun b hb => ?_, List.takeWhile_cons_of_neg (by simp),
      List.append_nil]
    have hne : b ≠ 0x3D := fun he => not_mem_of_spells hname (.inr rfl) (he ▸ hb)
    simpa using hne
  unfold pair
  simp only [hspan, List.drop_left, List.drop_one, List.tail_cons]
  exact Prod.ext (decode_of_spells hname) (decode_of_spells hvalue)

theorem WritesField.ne_nil {field : String × String} (h : WritesField field bytes) :
    bytes ≠ [] := by
  obtain ⟨name, value, -, -, rfl⟩ := h
  simp

/-- **A form is read as its fields**, however it was written. -/
theorem Writes.ofBytes_eq {fields : List (String × String)} (h : Writes fields bytes) :
    ofBytes bytes = .fields fields := by
  obtain ⟨pieces, hpieces, rfl⟩ := h
  have hpairs : pieces.map pair = fields
      ∧ ∀ bytes ∈ pieces, 0x26 ∉ bytes ∧ (!bytes.isEmpty) = true := by
    induction hpieces with
    | nil => exact ⟨rfl, fun _ hbytes => absurd hbytes List.not_mem_nil⟩
    | cons first rest ih =>
      refine ⟨List.cons_eq_cons.2 ⟨first.pair_eq, ih.1⟩, List.forall_mem_cons.2 ⟨?_, ih.2⟩⟩
      exact ⟨first.not_mem, by simpa using first.ne_nil⟩
  obtain ⟨hpairs, hmarks⟩ := hpairs
  unfold ofBytes
  cases pieces with
  | nil => exact congrArg Form.fields hpairs
  | cons first rest =>
    rw [List.splitOn_intercalate 0x26 (fun bytes hb => (hmarks bytes hb).1)
      (List.cons_ne_nil first rest), List.filter_eq_self.2 fun bytes hb => (hmarks bytes hb).2,
      hpairs]

/-! ## Reading records -/

/-- **Every field is collected** if it passes its check and stands there once. -/
theorem collect_passes {known : List (Field Form)} (nodup : (known.map Field.name).Nodup)
    {fields : List (String × String)}
    (passes : Fields.Passes known (fields.map fun f => (f.1, value f.2)))
    (once : (fields.map Prod.fst).Nodup) (met : List (String × Form))
    (apart : ∀ f ∈ fields, met.lookup f.1 = none) :
    collect known met fields = .ok ((fields.map fun f => (f.1, value f.2)).reverse ++ met) := by
  induction fields generalizing met with
  | nil => rfl
  | cons field rest ih =>
    obtain ⟨name, text⟩ := field
    obtain ⟨f, hf, hname, hcheck⟩ := passes _ (List.mem_cons_self ..)
    obtain rfl : f.name = name := hname
    have hnew := apart _ (List.mem_cons_self ..)
    rw [List.map_cons, List.nodup_cons] at once
    have hcollect := ih (fun m hm => passes m (List.mem_cons_of_mem _ hm)) once.2 _
      (Fields.apart_cons (.value text) once.1 fun m hm => apart m (List.mem_cons_of_mem _ hm))
    rw [collect, Fields.find?_known nodup hf]
    dsimp only at hnew hcheck ⊢
    rw [hnew, hcheck]
    show collect known ((f.name, value text) :: met) rest = _
    rw [hcollect, List.map_cons, List.reverse_cons, List.append_assoc, List.singleton_append]

/-- **A record is read** from the fields of a form, in whatever order they stand there. -/
theorem asRecord_passes {α : Type} {F : Fields Form α} (nodup : F.names.Nodup)
    {fields : List (String × String)}
    (passes : Fields.Passes F.known (fields.map fun f => (f.1, value f.2)))
    (once : (fields.map Prod.fst).Nodup) :
    ∃ get, Fields.Finds get (fields.map fun f => (f.1, value f.2))
      ∧ asRecord F (.fields fields) = F.build get := by
  have honce : ((fields.map fun f => (f.1, value f.2)).map Prod.fst).Nodup := by
    rwa [List.map_map]
  refine ⟨_, Fields.finds_reverse honce, ?_⟩
  unfold asRecord
  dsimp only
  rw [collect_passes nodup passes once [] fun _ _ => rfl, List.append_nil]
  rfl

/-! ## The usual way to write a form -/

/-- May a byte stand as it is, whoever reads the form? Letters and digits may, and four
marks. -/
def isUnreserved (b : UInt8) : Bool :=
  (0x30 ≤ b && b ≤ 0x39) || (0x41 ≤ b && b ≤ 0x5A) || (0x61 ≤ b && b ≤ 0x7A)
    || b = 0x2A || b = 0x2D || b = 0x2E || b = 0x5F

/-- **The usual way to write a byte.** -/
def writeOctet (b : UInt8) : List UInt8 :=
  if isUnreserved b then [b]
  else if b = 0x20 then [0x2B]
  else Text.encode (escape b)

/-- The usual way to write a field. -/
def writeField (field : String × String) : List UInt8 :=
  (Text.encode field.1.toList).flatMap writeOctet
    ++ 0x3D :: (Text.encode field.2.toList).flatMap writeOctet

/-- **The usual way to write a form.** -/
def write (fields : List (String × String)) : List UInt8 :=
  [0x26].intercalate (fields.map writeField)

/-- No mark may stand as it is. -/
theorem ne_mark_of_isUnreserved : ∀ n < 256, isUnreserved (.ofNat n) = true →
    UInt8.ofNat n ≠ 0x25 ∧ UInt8.ofNat n ≠ 0x26 ∧ UInt8.ofNat n ≠ 0x2B ∧ UInt8.ofNat n ≠ 0x3D := by
  decide +kernel

/-- The byte of a hexadecimal digit. -/
def digitByte (n : Nat) : UInt8 :=
  .ofNat (Text.hexDigit true n).toNat

theorem encode_hexDigit : ∀ n < 16, String.utf8EncodeChar (Text.hexDigit true n) = [digitByte n]
    ∧ hexByte? (digitByte n) = some n := by
  decide +kernel

/-- **A byte can be written**, whichever it is. -/
theorem octet_writeOctet (b : UInt8) : Octet b (writeOctet b) := by
  unfold writeOctet
  split
  · next hfree =>
    obtain ⟨percent, ampersand, plus, equals⟩ :=
      ne_mark_of_isUnreserved b.toNat b.toNat_lt (by rwa [UInt8.ofNat_toNat])
    rw [UInt8.ofNat_toNat] at percent ampersand plus equals
    exact .plain percent ampersand plus equals
  · split
    · next hblank => exact .plus hblank
    · have hb := b.toNat_lt
      obtain ⟨hhigh, first⟩ := encode_hexDigit (b.toNat / 16) (by omega)
      obtain ⟨hlow, second⟩ := encode_hexDigit (b.toNat % 16) (by omega)
      have hescape : Text.encode (escape b)
          = [0x25, digitByte (b.toNat / 16), digitByte (b.toNat % 16)] := by
        simp only [Text.encode, escape, List.flatMap_cons, List.flatMap_nil, hhigh, hlow]
        rfl
      rw [hescape]
      exact .escaped first second (by rw [Nat.div_add_mod, UInt8.ofNat_toNat])

/-- **A form can be written**, whatever its fields are. -/
theorem writes_write (fields : List (String × String)) : Writes fields (write fields) := by
  refine ⟨fields.map writeField, ?_, rfl⟩
  induction fields with
  | nil => exact .nil
  | cons field fields ih =>
    exact .cons ⟨_, _, .flatMap octet_writeOctet _, .flatMap octet_writeOctet _, rfl⟩ ih

end Form

end Rota.Http
