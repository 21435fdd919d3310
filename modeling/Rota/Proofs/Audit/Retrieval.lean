import Mathlib.Data.List.Induction
import Rota.Audit.Log
import Rota.Proofs.Time.Stored

/-!
# The audit log gives back what was appended

A row of the log keeps its record as it is, but for the time, which is kept as text. A
record whose year has four digits is read back as it was; the time of any other one is
read as the epoch (`Row.toRecord_of`).

What becomes of a log is a list of events: records are appended to it, some in vain,
since the storage turns them down or the table is gone; the log is opened anew; somebody
removes the table. `kept` tells from these events alone what should be in the log, and
`Log.gives_back` that this is what it gives back, the latest records first and as many
as are asked for.
-/

namespace Rota.Audit

/-! ## Rows -/

/-- **What is read of a record** once it has been stored. -/
theorem Row.toRecord_of (r : Record) :
    (Row.of r).toRecord = if r.time.HasPlainYear then r else { r with time := .epoch } := by
  unfold Row.of Row.toRecord
  split
  · next h => rw [Time.Timestamp.ofStored?_storedText h]; rfl
  · next h => rw [Time.Timestamp.ofStored?_eq_none h]; rfl

/-! ## What becomes of a log -/

namespace Log

/-- **What can become of a log.** -/
inductive Incident where
  /-- A record is appended, unless the storage says why it takes nothing now. -/
  | append (r : Record) (fault : Option String)
  | reopen
  /-- Somebody removes the table. -/
  | dropTable
  deriving Inhabited

/-- **Append to a storage** that may be out of order: a statement that fails there leaves
its table alone. -/
def tryAppend (l : Log) (r : Record) (fault : Option String) : Except Failure Unit × Log :=
  match fault with
  | some text => (.error (.audit ("insert: " ++ text)), l)
  | none =>
    match l.append r with
    | .ok l' => (.ok (), l')
    | .error f => (.error f, l)

/-- The log after an incident. -/
def after (l : Log) : Incident → Log
  | .append r fault => (l.tryAppend r fault).2
  | .reopen => l.reopen
  | .dropTable => l.dropTable

/-- What is in the table after an incident, if there is a table. -/
def keptAfter (kept : Option (List Record)) : Incident → Option (List Record)
  | .append r none => kept.map (· ++ [r])
  | .append _ (some _) => kept
  | .reopen => some (kept.getD [])
  | .dropTable => none

/-- **What was appended** to a new log and is still there, the oldest first. -/
def kept (incidents : List Incident) : Option (List Record) :=
  incidents.foldl keptAfter (some [])

variable {l : Log} {r : Record} {fault : Option String}

/-- **An append fails** if the storage is out of order or the table is gone, and then
leaves the log as it was. -/
theorem tryAppend_error {f : Failure} (h : (l.tryAppend r fault).1 = .error f) :
    (fault.isSome = true ∨ l.rows = none) ∧ (l.tryAppend r fault).2 = l := by
  unfold tryAppend at h ⊢
  cases fault with
  | some text => exact ⟨.inl rfl, rfl⟩
  | none =>
    unfold append at h ⊢
    cases hl : l.rows with
    | some rows =>
      rw [hl] at h
      cases h
    | none => exact ⟨.inr rfl, rfl⟩

/-- **An incident** does to the rows what it does to the records that are kept. -/
theorem rows_after {kept : Option (List Record)} (h : l.rows = kept.map (List.map Row.of))
    (i : Incident) : (l.after i).rows = (keptAfter kept i).map (List.map Row.of) := by
  cases i with
  | append r fault =>
    cases fault with
    | some text => exact h
    | none =>
      unfold after tryAppend append keptAfter
      rw [h]
      cases kept with
      | none => exact h
      | some records => simp
  | reopen =>
    unfold after reopen keptAfter
    rw [h]
    cases kept <;> rfl
  | dropTable => rfl

/-- **The rows of a log** are those of the records that are kept. -/
theorem rows_afterAll (incidents : List Incident) :
    (incidents.foldl after {}).rows = (kept incidents).map (List.map Row.of) := by
  unfold kept
  suffices h : ∀ (l : Log) (kept : Option (List Record)), l.rows = kept.map (List.map Row.of) →
      (incidents.foldl after l).rows
        = (incidents.foldl keptAfter kept).map (List.map Row.of) from h {} (some []) rfl
  induction incidents with
  | nil => exact fun _ _ h => h
  | cons i rest ih => exact fun _ _ h => ih _ _ (rows_after h i)

/-- Every record that is kept was appended. -/
theorem mem_of_kept {incidents : List Incident} {records : List Record}
    (h : kept incidents = some records) : ∀ r ∈ records, .append r none ∈ incidents := by
  induction incidents using List.reverseRecOn generalizing records with
  | nil =>
    cases h
    exact fun r hr => absurd hr List.not_mem_nil
  | append_singleton rest i ih =>
    have hstep : keptAfter (kept rest) i = some records := by
      rw [← h, kept, kept, List.foldl_append]
      rfl
    intro r hr
    cases hk : kept rest with
    | none =>
      rw [hk] at hstep
      cases i with
      | append r' fault => cases fault <;> cases hstep
      | reopen =>
        cases hstep
        cases hr
      | dropTable => cases hstep
    | some before =>
      have hbefore : r ∈ before → .append r none ∈ rest ++ [i] :=
        fun hr => List.mem_append_left _ (ih hk r hr)
      rw [hk] at hstep
      cases i with
      | append r' fault =>
        cases fault with
        | some text =>
          cases hstep
          exact hbefore hr
        | none =>
          cases hstep
          rcases List.mem_append.1 hr with hr | hr
          · exact hbefore hr
          · cases List.mem_singleton.1 hr
            exact List.mem_append_right _ List.mem_cons_self
      | reopen =>
        cases hstep
        exact hbefore hr
      | dropTable => cases hstep

/-! ## What the log gives back -/

/-- The records of these rows are those that were stored. -/
theorem map_toRecord {records : List Record} (plain : ∀ r ∈ records, r.time.HasPlainYear) :
    (records.map Row.of).map Row.toRecord = records := by
  rw [List.map_map]
  refine (List.map_congr_left fun r hr => ?_).trans (List.map_id records)
  exact (Row.toRecord_of r).trans (if_pos (plain r hr))

/-- **A log of these records**: what it says of their number, and which ones it shows. -/
structure GivesBack (l : Log) (records : List Record) : Prop where
  count_eq : l.count = .ok records.length
  /-- The last ones are shown, the latest of them first, as many as are asked for. -/
  recent_eq : ∀ limit : UInt64, limit.toNat < 2 ^ 63 ∨ records.length ≤ limit.toNat →
    l.recent limit
      = .ok (records.drop (records.length - min limit.toNat records.length)).reverse
  /-- A limit that is no number of 63 bits is none. -/
  recent_all : ∀ limit : UInt64, 2 ^ 63 ≤ limit.toNat → l.recent limit = .ok records.reverse

theorem givesBack_of_rows {records : List Record} (h : l.rows = some (records.map Row.of))
    (plain : ∀ r ∈ records, r.time.HasPlainYear) : l.GivesBack records := by
  have hrecent : ∀ limit : UInt64, l.recent limit
      = .ok (if limit.toNat < 2 ^ 63 then records.reverse.take limit.toNat
        else records.reverse) := by
    intro limit
    unfold recent
    rw [h]
    show Except.ok ((if limit.toNat < 2 ^ 63 then (records.map Row.of).reverse.take limit.toNat
      else (records.map Row.of).reverse).map Row.toRecord) = _
    rw [apply_ite (List.map Row.toRecord), List.map_take, List.map_reverse, map_toRecord plain]
  refine ⟨?_, fun limit hlimit => ?_, fun limit hlimit => ?_⟩
  · unfold count
    rw [h]
    exact congrArg Except.ok (List.length_map _)
  · rw [hrecent, List.take_reverse]
    have hmin : records.length - min limit.toNat records.length
        = records.length - limit.toNat := by
      omega
    rw [hmin]
    split
    · rfl
    · next hlarge =>
      -- then there are no more records than are asked for
      have hzero : records.length - limit.toNat = 0 := by
        omega
      rw [hzero, List.drop_zero]
  · rw [hrecent, if_neg (Nat.not_lt.2 hlimit)]

/-- **The log gives back what was appended**, whatever has become of it. -/
theorem gives_back (incidents : List Incident)
    (plain : ∀ r, .append r none ∈ incidents → r.time.HasPlainYear) :
    (∀ records, kept incidents = some records →
        (incidents.foldl after {}).GivesBack records)
      ∧ ∀ r fault f, ((incidents.foldl after {}).tryAppend r fault).1 = .error f →
        ((incidents.foldl after {}).tryAppend r fault).2 = incidents.foldl after {} := by
  refine ⟨fun records h => ?_, fun r fault f h => (tryAppend_error h).2⟩
  refine givesBack_of_rows ?_ fun r hr => plain r (mem_of_kept h r hr)
  rw [rows_afterAll, h]
  rfl

/-- A record of the year before the first, with a leap second and a fraction of three digits. -/
def earliest : Record where
  time := { date := { year := 0, month := 2, day := 29, isDay := by decide }
            hour := 23, minute := 59, second := 60, nano := 120000000 }
  userId := "u\u0000"
  recipient := "+33600000000"
  channel := "sms"
  success := true
  message := "d'Émeraude 🜁"

/-- A record of the last nanosecond before the years of five digits. -/
def latest : Record where
  time := { date := { year := 9999, month := 12, day := 31, isDay := by decide }
            hour := 23, minute := 59, second := 59, nano := 999999999 }
  userId := ""
  recipient := ""
  channel := "webhook"
  success := false
  message := ""

/-- A log that turns one record down and is opened anew between two others. -/
def interrupted : List Incident :=
  [.append earliest none, .append latest (some "disk I/O error"), .reopen, .append latest none]

/-- **Both records are given back** that the log has taken. -/
theorem interrupted_given_back :
    (∀ r, .append r none ∈ interrupted → r.time.HasPlainYear)
      ∧ (interrupted.foldl after {}).GivesBack [earliest, latest] := by
  have plain : ∀ r, .append r none ∈ interrupted → r.time.HasPlainYear := by
    intro r hr
    simp only [interrupted, List.mem_cons, Incident.append.injEq, reduceCtorEq, and_true, and_false,
      List.not_mem_nil, or_false, false_or] at hr
    rcases hr with rfl | rfl <;> decide
  exact ⟨plain, (gives_back interrupted plain).1 [earliest, latest] rfl⟩

end Log

end Rota.Audit
