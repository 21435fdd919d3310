import Rota.Proofs.Directory.Consistency
import Rota.Proofs.Gateway.Notification
import Rota.Proofs.Relay.Acquaintance

/-!
# Users who were disabled

A user list may disable a user. The row stays, but the directory says from then on
that it knows nobody under its id and its address. The resolver takes this for a
failure like any other: the person whom it remembers under the address stands in.

So a disabled user can still be notified, although the directory never fails: as long
as somebody is remembered under the address of the row, and not for too long. Whoever
that is, the directory itself named them earlier in the run, when their row was
active. `Run.notified_of_inactive` says exactly when a notice for such an address is
accepted, and for whom; when nobody is remembered, the notice is refused.

A `Run` is any order of requests from callers, changes of the directory, and moves of
the service behind the gateway. Everybody is looked up in the directory of the gateway,
which always answers in time.
-/

namespace Rota.Gateway

open Directory (Row)
open Relay (Agenda Outside System)

/-! ## Runs in which the directory answers -/

/-- **What can happen next** to a gateway whose directory answers. -/
inductive Happens (g : Gateway) : Gateway → Prop
  /-- A caller gets an answer. -/
  | answer (r : Request) : Happens g (g.answer g.directory.lookup r).2
  /-- Somebody else changes the directory. -/
  | operate (operation : Directory.Operation) :
      Happens g { g with directory := g.directory.after operation }
  /-- The service goes on; whenever it asks the directory, it gets an answer in time. -/
  | move (o : Outside) (a : Relay.Actor)
      (answers : ∀ n key, ((o.lookup n key).within g.system.resolver.lookupTimeout).2
        = some (g.directory.lookup key)) :
      Happens g { g with system := g.system.move o a }
  | request (r : Relay.Request) (plain : r.isRecord = false) :
      Happens g { g with system := g.system.request r }
  /-- Time passes, and somebody else runs next. -/
  | pass (agenda : Agenda) (clock : Nat) :
      Happens g { g with system := { g.system with agenda, clock } }
  | log (log : Option Audit.Log) : Happens g { g with log }

/-- **A run**: one thing after the other. -/
abbrev Run : Gateway → Gateway → Prop :=
  Relation.ReflTransGen Happens

/-- **A gateway that has just begun**: its service is at rest, it remembers nobody, and
its directory is sound. -/
structure Fresh (g : Gateway) : Prop where
  system : ∃ settings capacity auditCapacity audited grace maxAge lookupTimeout,
    g.system = .new settings capacity auditCapacity audited grace { maxAge, lookupTimeout }
  directory : g.directory.Sound

/-- **The directory named this person** at some moment of a run: an active row had them. -/
def Named (start g : Gateway) (person : Identity) : Prop :=
  ∃ before, Run start before ∧ Run before g
    ∧ ∃ row ∈ before.directory.rows, row.active = true ∧ row.person = person

section Run

variable {start g g' : Gateway} {person : Identity}

theorem Named.next (h : Named start g person) (hs : Happens g g') : Named start g' person := by
  obtain ⟨before, hto, hfrom, hrow⟩ := h
  exact ⟨before, hto, hfrom.tail hs, hrow⟩

/-- Whom the directory names, it will have named when something has happened. -/
theorem named_of_lookup (run : Run start g) (sound : g.directory.Sound) (hs : Happens g g')
    {key : Key} (h : g.directory.lookup key = .ok person) : Named start g' person := by
  obtain ⟨row, hm, ha, -, hp⟩ := (sound.lookup_eq_ok_iff key person).1 h
  exact ⟨g, run, .single hs, row, hm, ha, hp⟩

/-- **An answer** adds nobody but whom the directory names. -/
theorem knowsOnly_answer {P : Identity → Prop} (h : g.system.KnowsOnly P)
    (ask : Key → Except Failure Identity) (named : ∀ key person, ask key = .ok person → P person)
    (r : Request) : (g.answer ask r).2.system.KnowsOnly P := by
  have heffect := effect_answer g ask r
  generalize (g.answer ask r).2 = g' at heffect
  cases heffect with
  | nothing => exact h
  | sync entries =>
    rw [system_sync]
    exact h
  | notify channel n =>
    cases hv : n.validate with
    | error failure =>
      rw [notify_of_invalid hv]
      exact h
    | ok _ =>
      have hrem := h.remembered.resolveFor g.system.clock (.email n.email) channel
        (named (.email n.email))
      rcases hr : g.system.resolver.resolveFor g.system.clock (.email n.email) channel
        (ask (.email n.email)) with ⟨found, resolver⟩
      rw [hr] at hrem
      cases found with
      | error failure =>
        rw [notify_of_error hv hr]
        exact ⟨hrem, h.awaited⟩
      | ok person =>
        rw [notify_of_ok hv hr]
        have hs : ({ g.system with resolver, ids := g.system.ids + 1 } : System).KnowsOnly P :=
          ⟨hrem, h.awaited⟩
        exact hs.unheard (System.within_enqueue _ _ _).unheard

theorem sound_answer (h : g.directory.Sound) (ask : Key → Except Failure Identity)
    (r : Request) : (g.answer ask r).2.directory.Sound := by
  have heffect := effect_answer g ask r
  generalize (g.answer ask r).2 = g' at heffect
  cases heffect with
  | nothing => exact h
  | notify channel n =>
    have hd : (g.notify ask channel n).2.directory = g.directory := by
      unfold notify
      split
      · rfl
      · dsimp only
        split <;> rfl
    rw [hd]
    exact h
  | sync entries =>
    unfold sync
    split
    · next hi => exact Directory.sound_importAll h hi
    · exact h

/-- **In every run**, the directory stays sound, and nobody is known whom it has not
named. -/
theorem Run.keeps (fresh : start.Fresh) (run : Run start g) :
    g.directory.Sound ∧ g.system.KnowsOnly (Named start g) := by
  induction run with
  | refl =>
    obtain ⟨_, _, _, _, _, _, _, hs⟩ := fresh.system
    refine ⟨fresh.directory, ?_⟩
    rw [hs]
    exact System.knowsOnly_new _ _ _ _ _ Directory.Cache.holds_empty
  | @tail g g' run hstep ih =>
    obtain ⟨sound, knows⟩ := ih
    have later : g.system.KnowsOnly (Named start g') := knows.mono fun _ h => h.next hstep
    have named : ∀ key person, g.directory.lookup key = .ok person → Named start g' person :=
      fun _ _ h => named_of_lookup run sound hstep h
    clear knows
    generalize Named start g' = P at later named
    cases hstep with
    | answer r => exact ⟨sound_answer sound _ r, knowsOnly_answer later _ named r⟩
    | operate operation => exact ⟨sound.after operation, later⟩
    | move o a answers =>
      refine ⟨sound, later.move a fun n key person h => named key person ?_⟩
      rw [answers] at h
      exact Option.some.inj h
    | request r plain => exact ⟨sound, later.request r plain⟩
    | pass agenda clock => exact ⟨sound, later.unheard ⟨rfl, rfl⟩⟩
    | log log => exact ⟨sound, later⟩

end Run

/-! ## Notices for users who were disabled -/

/-- **Somebody is remembered** under an address, and not for too long. -/
def Recalls (g : Gateway) (address : String) (person : Identity) : Prop :=
  ∃ entry, g.system.resolver.cache.get? (.email address) = some entry
    ∧ entry.isFresh g.system.resolver.maxAge g.system.clock = true ∧ entry.person = person

/-- **What becomes of a notice** for an address under which the directory knows nobody:
what the caller is told, and how the gateway is left. -/
structure Recalled (start g : Gateway) (channel : Channel) (n : Notice) (response : Response)
    (g' : Gateway) : Prop where
  /-- One event is queued, exactly if somebody with a verified number is remembered and
  nothing else stands against it. -/
  accepted_iff : (∃ e, g'.system.queue.items = g.system.queue.items ++ [e])
    ↔ n.Proper ∧ (∃ person, g.Recalls n.email person ∧ ∃ number, person.HasVerified number)
      ∧ g.system.queue.closed = false ∧ g.system.queue.pending < g.system.queue.capacity
  /-- The caller is told so exactly then. -/
  told_iff : response.status = 200 ∧ response.sent = .json (.record [])
    ↔ ∃ e, g'.system.queue.items = g.system.queue.items ++ [e]
  refused : (¬ ∃ e, g'.system.queue.items = g.system.queue.items ++ [e]) →
    g'.system.queue = g.system.queue
  /-- Whoever is remembered had the address and an active row when the directory named
  them, and an event that is queued is for them. -/
  recalled : ∀ person, g.Recalls n.email person → person.email = n.email
    ∧ Named start g person
    ∧ ∀ e, g'.system.queue.items = g.system.queue.items ++ [e] → n.Tells person channel e
  /-- If nobody is remembered, nobody is found. -/
  forgotten : n.Proper → (∀ person, ¬ g.Recalls n.email person) →
    response.status = (if g.errorsAsOk then 200 else 404)
      ∧ response.sent = .json (.record [("error", .text "user-not-found")])

section Notices

variable {start g : Gateway} {n : Notice} {ask : Key → Except Failure Identity}

/-- When the directory knows nobody, a notice is for the person remembered. -/
theorem concerns_iff_recalls {failure : Failure} (unknown : ask (.email n.email) = .error failure)
    (person : Identity) : g.Concerns ask n person ↔ g.Recalls n.email person := by
  unfold Concerns
  rw [unknown]
  constructor
  · rintro (h | ⟨-, known, fresh⟩)
    · cases h
    · exact ⟨_, known, fresh, rfl⟩
  · rintro ⟨entry, known, fresh, rfl⟩
    exact .remembered rfl known fresh

theorem Recalls.unique {address : String} {p q : Identity} (hp : g.Recalls address p)
    (hq : g.Recalls address q) : p = q := by
  obtain ⟨entry, hp, -, rfl⟩ := hp
  obtain ⟨entry', hq, -, rfl⟩ := hq
  rw [hp] at hq
  rw [Option.some.inj hq]

/-- A proper notice that leads to nobody is refused for this reason. -/
theorem Refuses.eq_unknown {status : Nat} {code : String} (h : g.Refuses ask n status code)
    (proper : n.Proper) (nobody : ∀ person, ¬ g.Concerns ask n person) :
    status = 404 ∧ code = "user-not-found" := by
  cases h with
  | address missing => exact absurd proper.address missing
  | text _ blank =>
    obtain ⟨c, hc, htext⟩ := proper.text
    rw [blank c hc] at htext
    cases htext
  | unknown _ _ => exact ⟨rfl, rfl⟩
  | @unverified person _ concerns _ => exact absurd concerns (nobody person)
  | @closed person _ _ concerns _ _ => exact absurd concerns (nobody person)
  | @full person _ _ concerns _ _ _ => exact absurd concerns (nobody person)

/-- What comes of a notice leaves the switch for rejections alone. -/
theorem Outcome.errorsAsOk {channel : Channel} {result : Except Failure Unit × Gateway}
    (h : Outcome g ask channel n result) : result.2.errorsAsOk = g.errorsAsOk := by
  cases h with
  | accepted _ _ _ _ => rfl
  | refused _ _ => rfl

/-- **What comes of a notice** when the directory knows nobody under the address. -/
theorem Outcome.recalled {channel : Channel} {result : Except Failure Unit} {g' : Gateway}
    (h : Outcome g ask channel n (result, g')) {failure : Failure}
    (unknown : ask (.email n.email) = .error failure)
    (named : ∀ person, g.Recalls n.email person → person.email = n.email ∧ Named start g person) :
    Recalled start g channel n (noticeResponse g.errorsAsOk result) g' := by
  have hconcerns := concerns_iff_recalls (g := g) unknown
  cases h with
  | @accepted person e s accepts tells queued admitted =>
    have hitems : s.queue.items = g.system.queue.items ++ [e] := by rw [queued]; rfl
    have hrecalls := (hconcerns person).1 accepts.concerns
    refine ⟨⟨fun _ => ?_, fun _ => ⟨e, hitems⟩⟩, ⟨fun _ => ⟨e, hitems⟩, fun _ => ⟨rfl, rfl⟩⟩,
      fun hno => absurd ⟨e, hitems⟩ hno, fun other hother => ?_, fun _ hnobody => ?_⟩
    · exact ⟨accepts.proper, ⟨person, hrecalls, accepts.verified⟩, accepts.isOpen, accepts.room⟩
    · obtain ⟨hemail, hnamed⟩ := named other hother
      refine ⟨hemail, hnamed, fun e' he' => ?_⟩
      obtain rfl := hrecalls.unique hother
      have he : [e] = [e'] := List.append_cancel_left (hitems.symm.trans he')
      rw [← List.head_eq_of_cons_eq he]
      exact tells
    · exact absurd hrecalls (hnobody person)
  | @refused failure s refuses untouched =>
    have hnone : ¬ ∃ e, s.queue.items = g.system.queue.items ++ [e] := by
      rintro ⟨e, he⟩
      rw [untouched] at he
      simp at he
    have hsent := sent_noticeResponse g.errorsAsOk failure
    refine ⟨⟨fun h => absurd h hnone, ?_⟩, ⟨fun h => ?_, fun h => absurd h hnone⟩,
      fun _ => untouched, fun person hperson => ?_, fun proper hnobody => ?_⟩
    · rintro ⟨proper, ⟨person, hrecalls, verified⟩, isOpen, room⟩
      exact absurd ⟨proper, (hconcerns person).2 hrecalls, verified, isOpen, room⟩
        (refuses.not_accepts person)
    · -- a caller who is told of a failure is not told of a success
      have hbody := hsent.symm.trans h.2
      simp at hbody
    · obtain ⟨hemail, hnamed⟩ := named person hperson
      exact ⟨hemail, hnamed, fun e he => absurd ⟨e, he⟩ hnone⟩
    · obtain ⟨hcode, htext⟩ := refuses.eq_unknown proper fun person hc =>
        hnobody person ((hconcerns person).1 hc)
      rw [status_noticeResponse, hsent, hcode, htext]
      exact ⟨rfl, rfl⟩

end Notices

/-- **A user who was disabled** is notified exactly as long as somebody is remembered under
the address, and it is this person who is notified; they were named by the directory
earlier in the run. -/
theorem Run.notified_of_inactive {start g : Gateway} (run : Run start g) (fresh : start.Fresh)
    {row : Row} (known : row ∈ g.directory.rows) (inactive : row.active = false) {r : Request}
    {channel : Channel} {n : Notice} (posted : r.method = "POST")
    (path : r.path = "/make_call" ∧ channel = .phone ∨ r.path = "/send_sms" ∧ channel = .sms)
    (decoded : Notice.ofRequest r = .ok n) (names : n.email = row.person.email) :
    Recalled start g channel n (g.answer g.directory.lookup r).1
      (g.answer g.directory.lookup r).2 := by
  obtain ⟨sound, knows⟩ := run.keeps fresh
  have unknown : g.directory.lookup (.email n.email)
      = .error (.unknownPerson row.person.email) := by
    rw [names]
    exact (sound.consistent.inactive row known inactive).2
  have hnamed : ∀ person, g.Recalls n.email person →
      person.email = n.email ∧ Named start g person := by
    rintro person ⟨entry, hget, -, rfl⟩
    obtain ⟨hnamed, hkey⟩ := knows.remembered.of_get? hget
    exact ⟨beq_iff_eq.1 hkey, hnamed⟩
  have needs : channel.needsPhone = true := by
    rcases path with ⟨-, rfl⟩ | ⟨-, rfl⟩ <;> rfl
  have houtcome := notify_outcome g g.directory.lookup needs n
  rw [answer_notice g g.directory.lookup posted path decoded, houtcome.errorsAsOk]
  exact houtcome.recalled unknown hnamed

/-! ## A user who is disabled, and called -/

namespace Sample

/-- A user who can be called. -/
def ada : Identity :=
  { id := "1", email := "ada@x.org", phone := some "+491", phoneVerified := true }

/-- A form that has the user called. -/
def call (alert : String) : Request where
  method := "POST"
  target := "/make_call"
  contentType := some "application/x-www-form-urlencoded"
  body := Text.encode ("email=ada%40x.org&message=fire&alert_id=" ++ alert).toList

/-- A user list in which the user is disabled. -/
def list : Request where
  method := "POST"
  target := "/api/v1/users/sync"
  contentType := some "application/json"
  body := Text.encode
    "[\x7b\"id\":\"1\",\"email\":\"ada@x.org\",\"isDisabled\":true\x7d]".toList

/-- The gateway at the beginning. -/
def start : Gateway :=
  { system := .new {} 8 8 true 5000 {} }

/-- The gateway when the user was called once, and disabled then. -/
def disabled : Gateway :=
  let g := { start with directory := start.directory.after (.upsert ada) }
  let g := (g.answer g.directory.lookup (call "a-1")).2
  (g.answer g.directory.lookup list).2

/-- The row of the user, once disabled. -/
def row : Row :=
  { person := { ada with role := "user" }, active := false }

/-- What the form asks for the second time. -/
def notice : Notice :=
  { email := "ada@x.org", message := "fire", alertId := some "a-2" }

theorem fresh_start : start.Fresh :=
  ⟨⟨_, _, _, _, _, _, _, rfl⟩, _, rfl, Directory.Table.sound_empty⟩

theorem run_disabled : Run start disabled :=
  .tail (.tail (.single (.operate (.upsert ada))) (.answer (call "a-1"))) (.answer list)

theorem row_disabled : row ∈ disabled.directory.rows := by decide +kernel

theorem read_call : Notice.ofRequest (call "a-2") = .ok notice := by decide +kernel

end Sample

/-- Ada is remembered when she has been disabled, and so she is called again. -/
theorem recalled_disabled :
    let g := Sample.disabled
    g.Recalls "ada@x.org" Sample.ada
      ∧ (g.answer g.directory.lookup (Sample.call "a-2")).1.status = 200
      ∧ Recalled Sample.start g .phone Sample.notice
          (g.answer g.directory.lookup (Sample.call "a-2")).1
          (g.answer g.directory.lookup (Sample.call "a-2")).2 := by
  intro g
  refine ⟨⟨{ person := Sample.ada, since := 0 }, ?_, ?_, rfl⟩, ?_, ?_⟩
  · decide +kernel
  · decide +kernel
  · decide +kernel
  · exact Sample.run_disabled.notified_of_inactive Sample.fresh_start Sample.row_disabled rfl rfl
      (.inl ⟨by decide +kernel, rfl⟩) Sample.read_call rfl

/-- **Not every notice for a disabled user is refused**, although the directory answers. -/
theorem exists_accepted_of_inactive :
    ¬ ∀ (start g : Gateway), start.Fresh → Run start g →
      ∀ row ∈ g.directory.rows, row.active = false →
        ∀ (r : Request) (channel : Channel) (n : Notice), r.method = "POST" →
          (r.path = "/make_call" ∧ channel = .phone ∨ r.path = "/send_sms" ∧ channel = .sms) →
            Notice.ofRequest r = .ok n → n.email = row.person.email →
              (g.answer g.directory.lookup r).2.system.queue = g.system.queue := by
  intro h
  have hqueue := h Sample.start Sample.disabled Sample.fresh_start Sample.run_disabled
    Sample.row Sample.row_disabled rfl (Sample.call "a-2") .phone Sample.notice rfl
    (.inl ⟨by decide +kernel, rfl⟩) Sample.read_call rfl
  have hlength := congrArg (fun q => q.items.length) hqueue
  revert hlength
  decide +kernel

end Rota.Gateway
