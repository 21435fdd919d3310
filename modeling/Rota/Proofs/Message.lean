import Rota.Message
import Rota.Proofs.Text.Replace
import Rota.Proofs.Text.Search

/-!
# The wording of messages

An alert is decorated by one insertion, and its own text stays as it is. If it mentions its
channel, the instance is inserted before the first mention, or else it follows in brackets.
The place is looked for in the message alone: what the name of the instance contains has no
say in it, and further mentions stay where they are (`decorate_inserts_once`).

A template is filled at each of its placeholders (`fillSchedule_at_each_place`). The brace that
opens the placeholder does not return in it, so that no two placeholders overlap, and what
surrounds them in the template stays as it is. The name is not looked at: where it goes was
settled by the template alone, and braces in it open nothing.
-/

namespace Rota.Message

open Text (FirstAt insertAt cutOut)

section Decorate

variable {incident : Incident} {message name : String} {k : Nat}

/-- Without an instance there is nothing to add. -/
theorem decorate_of_unnamed (h : incident.host = none ∨ incident.host = some "") :
    incident.decorate message = message := by
  unfold Incident.decorate
  rcases h with h | h <;> rw [h]
  rfl

/-- **The instance is inserted before the first mention** of the channel. -/
theorem decorate_of_firstAt (hname : incident.host = some name) (hne : name ≠ "")
    (hk : FirstAt channelMark message.toList k) :
    (incident.decorate message).toList
      = insertAt message.toList k (" on " ++ name).toList := by
  have hempty : name.isEmpty = false := by simpa using hne
  unfold Incident.decorate insertAt
  rw [hname]
  simp only [hempty, hk.breakOn, Bool.false_eq_true, if_false, String.toList_ofList,
    String.toList_append, List.append_assoc]

/-- **The instance follows in brackets** if the channel is not mentioned. -/
theorem decorate_of_not_infix (hname : incident.host = some name) (hne : name ≠ "")
    (hno : ¬ channelMark <:+: message.toList) :
    incident.decorate message = message ++ " (instance: " ++ name ++ ")" := by
  have hempty : name.isEmpty = false := by simpa using hne
  unfold Incident.decorate
  rw [hname]
  simp only [hempty, Text.breakOn_eq_none hno, Bool.false_eq_true, if_false]

end Decorate

/-- **A message is decorated by one insertion.** Without an instance it stays as it is. With
one, ` on ` and the name are inserted where the channel is first mentioned, or else the name
follows in brackets. In either case the message is what remains without the insertion. -/
theorem decorate_inserts_once (incident : Incident) (message : String) :
    (incident.host = none ∨ incident.host = some "" → incident.decorate message = message)
      ∧ ∀ name, incident.host = some name → name ≠ "" →
        let result := incident.decorate message
        (channelMark <:+: message.toList → ∃ k, FirstAt channelMark message.toList k
            ∧ result.toList = insertAt message.toList k (" on " ++ name).toList
            ∧ cutOut result.toList k (" on " ++ name).toList.length = message.toList)
          ∧ (¬ channelMark <:+: message.toList →
            result = message ++ " (instance: " ++ name ++ ")"
              ∧ cutOut result.toList message.toList.length
                (" (instance: " ++ name ++ ")").toList.length = message.toList) := by
  refine ⟨decorate_of_unnamed, fun name hname hne => ⟨fun hmark => ?_, fun hno => ?_⟩⟩
  · obtain ⟨k, hk⟩ := Text.exists_firstAt_iff.2 hmark
    have hresult := decorate_of_firstAt hname hne hk
    refine ⟨k, hk, hresult, ?_⟩
    rw [hresult]
    exact Text.cutOut_insertAt hk.le_length _
  · have hresult := decorate_of_not_infix hname hne hno
    have hinserted : (incident.decorate message).toList
        = insertAt message.toList message.toList.length (" (instance: " ++ name ++ ")").toList := by
      unfold insertAt
      rw [hresult, List.take_length, List.drop_length, List.append_nil]
      simp only [String.toList_append, List.append_assoc]
    refine ⟨hresult, ?_⟩
    rw [hinserted]
    exact Text.cutOut_insertAt (Nat.le_refl _) _

/-- The name of the instance contains the mark, the alert mentions its channel twice, and a
word before that begins like the mark. -/
theorem decorate_mentioned_twice :
    let db : Incident := { host := some "db, alert channel x" }
    let message := "Disk, alert full, alert channel a, alert channel b"
    let result :=
      "Disk, alert full on db, alert channel x, alert channel a, alert channel b"
    db.decorate message = result
      ∧ (∃ k, FirstAt channelMark message.toList k
        ∧ result.toList = insertAt message.toList k " on db, alert channel x".toList
        ∧ cutOut result.toList k 23 = message.toList)
      ∧ db.decorate "Disk, alert" = "Disk, alert (instance: db, alert channel x)"
      ∧ ({ host := some "" } : Incident).decorate message = message := by
  intro db message result
  have hresult : db.decorate message = result := by decide +kernel
  have hmark : channelMark <:+: message.toList := by decide +kernel
  have hno : ¬ channelMark <:+: "Disk, alert".toList := by decide +kernel
  have hne : "db, alert channel x" ≠ "" := by decide
  have hspliced := ((decorate_inserts_once db message).2 _ rfl hne).1 hmark
  have happended := ((decorate_inserts_once db "Disk, alert").2 _ rfl hne).2 hno
  refine ⟨hresult, ?_, happended.1, (decorate_inserts_once _ message).1 (.inr rfl)⟩
  rw [← hresult]
  exact hspliced

section Fill

variable {template : String} {pieces : List String}

/-- The brace that opens the placeholder does not return in it. -/
theorem borderless_placeholder : Text.Borderless placeholder :=
  have hbrace : '\x7b' ∉ "schedule\x7d".toList := by decide
  Text.Borderless.of_not_mem hbrace

/-- A template without a placeholder is used as it is. -/
theorem fillSchedule_of_not_infix (h : ¬ placeholder <:+: template.toList)
    (schedule : String) : fillSchedule template schedule = template := by
  unfold fillSchedule
  rw [Text.replaceAll_of_not_infix h, String.ofList_toList]

/-- **A template is filled on both sides of a placeholder** on its own. -/
theorem fillSchedule_append (before after schedule : String) :
    fillSchedule (before ++ String.ofList placeholder ++ after) schedule
      = fillSchedule before schedule ++ schedule ++ fillSchedule after schedule := by
  unfold fillSchedule
  rw [String.toList_append, String.toList_append, String.toList_ofList,
    borderless_placeholder.replaceAll_append, String.ofList_append, String.ofList_append,
    String.ofList_toList]

theorem toList_intercalate_placeholder (pieces : List String) :
    ((String.ofList placeholder).intercalate pieces).toList
      = placeholder.intercalate (pieces.map String.toList) := by
  rw [String.toList_intercalate, String.toList_ofList]

/-- **A template is cut into pieces** by its placeholders. -/
theorem exists_pieces_of_template (template : String) :
    ∃ pieces : List String, pieces ≠ [] ∧ (∀ piece ∈ pieces, ¬ placeholder <:+: piece.toList)
      ∧ (String.ofList placeholder).intercalate pieces = template := by
  obtain ⟨pieces, hpieces, hfree, hjoined⟩ :=
    Text.exists_pieces borderless_placeholder.ne_nil template.toList
  have hsame : (pieces.map String.ofList).map String.toList = pieces := by
    rw [List.map_map]
    exact List.map_id'' (fun _ => String.toList_ofList) pieces
  refine ⟨pieces.map String.ofList, fun hnil => hpieces (List.map_eq_nil_iff.1 hnil), ?_, ?_⟩
  · rw [List.forall_mem_map]
    intro piece hpiece
    rw [String.toList_ofList]
    exact hfree piece hpiece
  · rw [← String.toList_inj, toList_intercalate_placeholder, hsame, hjoined]

/-- There is one piece more than there are placeholders. -/
theorem length_pieces_of_template (hpieces : pieces ≠ [])
    (hfree : ∀ piece ∈ pieces, ¬ placeholder <:+: piece.toList) :
    let template := (String.ofList placeholder).intercalate pieces
    pieces.length = Text.placeCount placeholder template.toList + 1 := by
  intro template
  have hlists : pieces.map String.toList ≠ [] := fun hnil => hpieces (List.map_eq_nil_iff.1 hnil)
  have hlength := borderless_placeholder.length_pieces hlists (List.forall_mem_map.2 hfree)
  rwa [List.length_map, ← toList_intercalate_placeholder] at hlength

/-- **The name joins the pieces** in place of the placeholders. -/
theorem fillSchedule_intercalate (hfree : ∀ piece ∈ pieces, ¬ placeholder <:+: piece.toList)
    (schedule : String) :
    fillSchedule ((String.ofList placeholder).intercalate pieces) schedule
      = schedule.intercalate pieces := by
  unfold fillSchedule
  rw [← String.toList_inj, String.toList_ofList, toList_intercalate_placeholder,
    String.toList_intercalate]
  exact borderless_placeholder.replaceAll_intercalate schedule.toList (List.forall_mem_map.2 hfree)

end Fill

/-- **A template is filled at each of its placeholders.** Without a placeholder it stays as it
is. At a placeholder the name is inserted, and the template is filled on either side of it as
if the other side were not there. Hence the template is cut into pieces, one more than it has
placeholders, and filling it joins them by the name. The pieces are the same for every name:
what was inserted is not looked at again. -/
theorem fillSchedule_at_each_place :
    (∀ template schedule : String, ¬ placeholder <:+: template.toList →
        fillSchedule template schedule = template)
      ∧ (∀ before after schedule : String,
        fillSchedule (before ++ String.ofList placeholder ++ after) schedule
          = fillSchedule before schedule ++ schedule ++ fillSchedule after schedule)
      ∧ ∀ template : String, ∃ pieces : List String,
        (∀ piece ∈ pieces, ¬ placeholder <:+: piece.toList)
          ∧ pieces.length = Text.placeCount placeholder template.toList + 1
          ∧ (String.ofList placeholder).intercalate pieces = template
          ∧ ∀ schedule : String, fillSchedule template schedule = schedule.intercalate pieces := by
  refine ⟨fun _ schedule h => fillSchedule_of_not_infix h schedule, fillSchedule_append,
    fun template => ?_⟩
  obtain ⟨pieces, hpieces, hfree, rfl⟩ := exists_pieces_of_template template
  exact ⟨pieces, hfree, length_pieces_of_template hpieces hfree, rfl,
    fillSchedule_intercalate hfree⟩

/-- Placeholders are begun and given up, or stand directly behind a brace, and the name holds
a whole one. -/
theorem fillSchedule_among_braces :
    let name := "a\x7bschedule\x7d\x7b"
    let before := "\x7bsched\x7b\x7bschedule\x7d-\x7bschedule"
    let after := "schedule\x7d \x7bSchedule\x7d"
    fillSchedule before name = "\x7bsched\x7ba\x7bschedule\x7d\x7b-\x7bschedule"
      ∧ fillSchedule after name = after
      ∧ fillSchedule (before ++ String.ofList placeholder ++ after) name
        = "\x7bsched\x7ba\x7bschedule\x7d\x7b-\x7bschedule" ++ name ++ after
      ∧ ∃ pieces : List String, pieces.length = 3
        ∧ ∀ other, fillSchedule (before ++ String.ofList placeholder ++ after) other
          = other.intercalate pieces := by
  intro name before after
  have hbefore : fillSchedule before name
      = "\x7bsched\x7ba\x7bschedule\x7d\x7b-\x7bschedule" := by decide +kernel
  have hno : ¬ placeholder <:+: after.toList := by decide +kernel
  have hcount : Text.placeCount placeholder
      (before ++ String.ofList placeholder ++ after).toList = 2 := by decide +kernel
  have hafter := fillSchedule_at_each_place.1 after name hno
  have hsplit := fillSchedule_at_each_place.2.1 before after name
  obtain ⟨pieces, -, hlength, -, hfilled⟩ :=
    fillSchedule_at_each_place.2.2 (before ++ String.ofList placeholder ++ after)
  rw [hbefore, hafter] at hsplit
  rw [hcount] at hlength
  exact ⟨hbefore, hafter, hsplit, pieces, hlength, hfilled⟩

end Rota.Message
