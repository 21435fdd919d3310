import Rota.Proofs.Json.Records
import Rota.Proofs.Time.Exchange
import Rota.Wire.Audit
import Rota.Wire.ConfigText
import Rota.Wire.Event
import Rota.Wire.Roster

/-!
# The data model, written and read back

Whatever is written as JSON is read back as it was. For each type there is the rule that says
what its values hold in JSON; the rules follow the descriptions of the fields, and the rule
for a type uses those for its parts. A change of one type thus touches its own rule only.

`Restores` states the result for a whole type, on the level of texts.
-/

namespace Rota

open Document (Holds Written)

/-! ## People -/

theorem Channel.holds {levels : Nat} (c : Channel) : Holds levels Channel.read c.toJson c :=
  .word (by cases c <;> rfl)

theorem Medium.holds {levels : Nat} (m : Medium) : Holds levels Medium.read m.toJson m :=
  .word (by cases m <;> rfl)

theorem Key.holds {levels : Nat} (k : Key) : Holds (levels + 1) Key.read k.toJson k := by
  cases k with
  | userId id => exact .variant rfl ((Holds.text id).map Key.userId)
  | email address => exact .variant rfl ((Holds.text address).map Key.email)

theorem Identity.holds {levels : Nat} (p : Identity) :
    Holds (levels + 1) Identity.read p.toJson p := by
  have written : Written levels Identity.fields _ p :=
    (Written.member (.text p.id)).map Identity.mk
      |>.seq (.member (.text p.email))
      |>.seq (.member (.text p.username))
      |>.seq (.member (.text p.role))
      |>.seq (.optionalMember "phone_number" true p.phone)
      |>.seq (.member (.flag p.phoneVerified))
      |>.seq (.optionalMember "slack_user_id" true p.slack)
  exact written.holds (by decide)

/-! ## Events -/

theorem Time.Timestamp.holds {levels : Nat} (t : Timestamp) :
    Holds levels Timestamp.read t.toJson t where
  readable := .text t.text
  read_eq := by
    have hread (s : String) : Timestamp.read (Document.text (some s))
        = (ofText? s).elim (.error .mismatch) .ok := rfl
    rw [toJson, Json.document, hread, ofText?_text]
    rfl

theorem Recipient.holds {levels : Nat} (r : Recipient) :
    Holds (levels + 2) Recipient.read r.toJson r := by
  cases r with
  | lookup key => exact .variant rfl (key.holds.map lookup)
  | resolved person => exact .variant rfl (person.holds.map resolved)

theorem Delivery.holds {levels : Nat} (d : Delivery) :
    Holds (levels + 4) Delivery.read d.toJson d := by
  cases d with
  | push recipient channel =>
    have written : Written (levels + 2) pushFields _ (push recipient channel) :=
      (Written.member recipient.holds).map push
        |>.seq (.member channel.holds)
    exact .variant rfl (written.holds (by decide))
  | callback url =>
    have written : Written (levels + 2) callbackFields _ (callback url) :=
      (Written.member (.text url)).map callback
    exact .variant rfl (written.holds (by decide))

theorem Change.holds {levels : Nat} (c : Change) : Holds levels Change.read c.toJson c :=
  .word (by cases c <;> rfl)

/-- Inside an origin, too, a change is its name. -/
theorem Origin.holds_change {levels : Nat} (c : Change) :
    Holds levels readChange c.toJson c := by
  have h : Holds levels Change.read c.toJson c := c.holds
  exact ⟨h.readable, h.read_eq⟩

/-- The kind of an origin goes first, so that its other members can be collected. -/
theorem Origin.draft_roster (schedule member change : String) :
    draft {} (Json.memberDocuments [("type", .text "roster"), ("schedule", .text schedule),
      ("member", .text member), ("transition", .text change)])
      = .ok { kind := some "roster"
              members := [("transition", .text change), ("member", .text member),
                ("schedule", .text schedule)] } := by
  have hkind : readKind (.text (some "roster")) = .ok "roster" := rfl
  simp [Json.memberDocuments, Json.document, draft, hkind, Document.isSound]
  rfl

theorem Origin.holds {levels : Nat} (o : Origin) : Holds (levels + 1) Origin.read o.toJson o := by
  cases o with
  | inbound =>
    exact ⟨.record (by simp [Json.Readable.text]), rfl⟩
  | roster schedule member change =>
    have written : Written levels rosterFields _ (roster schedule member change) :=
      (Written.member (.text schedule)).map roster
        |>.seq (.member (.text member))
        |>.seq (.member (holds_change change))
    have hroster := written.holds (by decide)
    refine ⟨.record fun m hm => ?_, ?_⟩
    · simp only [List.mem_cons, List.not_mem_nil, or_false] at hm
      rcases hm with rfl | rfl | rfl | rfl <;> exact .text _
    · show Origin.read (.record (Json.memberDocuments _) true) = _
      rw [Origin.read, Change.toJson, draft_roster]
      exact hroster.read_eq

theorem Event.holds {levels : Nat} (e : Event) : Holds (levels + 5) Event.read e.toJson e := by
  have written : Written (levels + 4) Event.fields _ e :=
    (Written.member (.text e.id)).map Event.mk
      |>.seq (.member e.delivery.holds)
      |>.seq (.member (.text e.title))
      |>.seq (.member (.text e.message))
      |>.seq (.member e.origin.holds)
      |>.seq (.member e.created.holds)
  exact written.holds (by decide)

theorem Payload.holds {levels : Nat} (p : Payload) :
    Holds (levels + 1) Payload.read p.toJson p := by
  have written : Written levels Payload.fields _ p :=
    (Written.optionalMember "alert_uid" false p.alertId).map Payload.mk
      |>.seq (.member (.text p.title))
      |>.seq (.member (.text p.message))
      |>.seq (.member (.text p.state))
      |>.seq (.member (.text p.link))
  have h := written.holds (by decide)
  simp only [List.append_assoc, List.cons_append, List.nil_append] at h
  exact h

theorem Audit.Record.holds {levels : Nat} (r : Record) :
    Holds (levels + 1) Record.read r.toJson r := by
  have written : Written levels Record.fields _ r :=
    (Written.member r.time.holds).map Record.mk
      |>.seq (.member (.text r.userId))
      |>.seq (.member (.text r.recipient))
      |>.seq (.member (.text r.channel))
      |>.seq (.member (.flag r.success))
      |>.seq (.member (.text r.message))
  exact written.holds (by decide)

/-! ## Rosters -/

namespace Roster

theorem Target.holds {levels : Nat} (t : Target) : Holds (levels + 1) Target.read t.toJson t := by
  have written : Written levels Target.fields _ t :=
    (Written.member t.medium.holds).map Target.mk
      |>.seq (.member (.ofOption t.callbackUrl))
  exact written.holds (by decide)

theorem Snapshot.holds {levels : Nat} (s : Snapshot) :
    Holds (levels + 2) Snapshot.read s.toJson s := by
  have written : Written (levels + 1) Snapshot.fields _ s :=
    (Written.member (.text s.scheduleId)).map
        (fun id name zone members target fetched => Snapshot.mk id name members zone target fetched)
      |>.seq (.member (.text s.name))
      |>.seq (.member (.text s.timeZone))
      |>.seq (.member (.texts s.members))
      |>.seq (.member s.target.holds)
      |>.seq (.member s.fetched.holds)
  exact written.holds (by decide)

end Roster

/-! ## Configurations -/

namespace Config

theorem Server.holds {levels : Nat} (s : Server) :
    Holds (levels + 1) (Tree.record Server.fields) s.toJson s := by
  have written : Written levels Server.fields _ s :=
    (Written.member (.text s.host)).map Server.mk
      |>.seq (.member (.uint16 s.port))
      |>.seq (.member (.flag s.errorsAsOk))
  exact written.holds (by decide)

theorem Poller.holds {levels : Nat} (p : Poller) :
    Holds (levels + 1) (Tree.record Poller.fields) p.toJson p := by
  have written : Written levels Poller.fields _ p :=
    (Written.member (.flag p.enabled)).map Poller.mk
      |>.seq (.member (.uint64 p.interval))
      |>.seq (.member (.uint64 p.fetchTimeout))
  exact written.holds (by decide)

theorem Dispatcher.holds {levels : Nat} (d : Dispatcher) :
    Holds (levels + 1) (Tree.record Dispatcher.fields) d.toJson d := by
  have written : Written levels Dispatcher.fields _ d :=
    (Written.member (.uint64 d.queueCapacity)).map Dispatcher.mk
      |>.seq (.member (.uint64 d.workers))
      |>.seq (.member (.uint64 d.deliveryTimeout))
  exact written.holds (by decide)

theorem Audit.holds {levels : Nat} (a : Audit) :
    Holds (levels + 1) (Tree.record Audit.fields) a.toJson a := by
  have written : Written levels Audit.fields _ a :=
    (Written.member (.flag a.enabled)).map Audit.mk
      |>.seq (.member (.text a.path))
      |>.seq (.member (.uint64 a.bufferCapacity))
      |>.seq (.member (.uint64 a.flushGrace))
  exact written.holds (by decide)

/-- A number that may be missing. -/
theorem holds_number {levels : Nat} (n : Option UInt64) :
    Holds levels (Tree.optional Tree.uint64) (n.elim .null number) n := by
  cases n with
  | none => exact .absent
  | some n => exact (Holds.uint64 n).present (by simp [Json.document])

theorem Directory.holds {levels : Nat} (d : Directory) :
    Holds (levels + 1) (Tree.record Directory.fields) d.toJson d := by
  have written : Written levels Directory.fields _ d :=
    (Written.member (.text d.path)).map Directory.mk
      |>.seq (.member (.uint64 d.lookupTimeout))
      |>.seq (.member (holds_number d.cacheMaxAge))
  exact written.holds (by decide)

theorem Source.holds {levels : Nat} (s : Source) :
    Holds (levels + 1) (Tree.record Source.fields) s.toJson s := by
  have written : Written levels Source.fields _ s :=
    (Written.member (.text s.url)).map Source.mk
      |>.seq (.member (.text s.token))
  exact written.holds (by decide)

theorem Templates.holds {levels : Nat} (t : Templates) :
    Holds (levels + 1) (Tree.record Templates.fields) t.toJson t := by
  have written : Written levels Templates.fields _ t :=
    (Written.member (.text t.startTitle)).map Templates.mk
      |>.seq (.member (.text t.start))
      |>.seq (.member (.text t.endTitle))
      |>.seq (.member (.text t.end_))
  exact written.holds (by decide)

theorem Provider.holds {levels : Nat} (p : Provider) :
    Holds (levels + 1) (Tree.record Provider.fields) p.toJson p := by
  have written : Written levels Provider.fields _ p :=
    (Written.member (.text p.kind)).map Provider.mk
      |>.seq (.member (.text p.baseUrl))
      |>.seq (.member (.text p.token))
  exact written.holds (by decide)

theorem Schedule.holds {levels : Nat} (s : Schedule) :
    Holds (levels + 1) (Tree.record Schedule.fields) s.toJson s := by
  have written : Written levels Schedule.fields _ s :=
    (Written.member (.text s.name)).map Schedule.mk
      |>.seq (.member (.ofOption s.id))
      |>.seq (.member s.medium.holds)
      |>.seq (.member (.ofOption s.callbackUrl))
      |>.seq (.member (.flag s.expectMembers))
  exact written.holds (by decide)

theorem holds {levels : Nat} (c : Config) : Holds (levels + 3) Config.read c.toJson c := by
  have written : Written (levels + 2) Config.fields _ c :=
    (Written.member c.server.holds).map Config.mk
      |>.seq (.member c.poller.holds)
      |>.seq (.member c.dispatcher.holds)
      |>.seq (.member c.audit.holds)
      |>.seq (.member c.directory.holds)
      |>.seq (.member c.source.holds)
      |>.seq (.member c.templates.holds)
      |>.seq (.member c.provider.holds)
      |>.seq (.member (.list fun s _ => s.holds))
  exact written.holds (by decide)

end Config

/-! ## Texts -/

/-- **Reading undoes writing**: the text of every value is read, and as this value. -/
def Restores {α : Type} (read : Document → Except Fault α) (write : α → Json) : Prop :=
  ∀ a, Document.parse read (write a).render = .ok a

theorem restores_of_holds {α : Type} {levels : Nat} {read : Document → Except Fault α}
    {write : α → Json} (h : ∀ a, Holds levels read (write a) a)
    (deep : levels < Document.maxDepth) : Restores read write :=
  fun a => (h a).parse deep

/-- **Every value of the data model is restored**: events with their parts, rosters with
their targets, audit records, payloads, and configurations with their schedules. -/
theorem data_model_restored :
    Restores Event.read Event.toJson ∧ Restores Delivery.read Delivery.toJson
      ∧ Restores Recipient.read Recipient.toJson ∧ Restores Key.read Key.toJson
      ∧ Restores Identity.read Identity.toJson ∧ Restores Channel.read Channel.toJson
      ∧ Restores Origin.read Origin.toJson ∧ Restores Change.read Change.toJson
      ∧ Restores Roster.Snapshot.read Roster.Snapshot.toJson
      ∧ Restores Roster.Target.read Roster.Target.toJson
      ∧ Restores Audit.Record.read Audit.Record.toJson
      ∧ Restores Payload.read Payload.toJson
      ∧ Restores (Tree.record Config.Schedule.fields) Config.Schedule.toJson
      ∧ Restores Config.read Config.toJson := by
  refine ⟨?event, ?delivery, ?recipient, ?key, ?identity, ?channel, ?origin, ?change, ?snapshot,
    ?target, ?record, ?payload, ?schedule, ?config⟩
  case event => exact restores_of_holds (fun e => e.holds) (by decide : 5 < Document.maxDepth)
  case delivery => exact restores_of_holds (fun d => d.holds) (by decide : 4 < Document.maxDepth)
  case recipient => exact restores_of_holds (fun r => r.holds) (by decide : 2 < Document.maxDepth)
  case key => exact restores_of_holds (fun k => k.holds) (by decide : 1 < Document.maxDepth)
  case identity => exact restores_of_holds (fun p => p.holds) (by decide : 1 < Document.maxDepth)
  case channel => exact restores_of_holds (fun c => c.holds) (by decide : 0 < Document.maxDepth)
  case origin => exact restores_of_holds (fun o => o.holds) (by decide : 1 < Document.maxDepth)
  case change => exact restores_of_holds (fun c => c.holds) (by decide : 0 < Document.maxDepth)
  case snapshot => exact restores_of_holds (fun s => s.holds) (by decide : 2 < Document.maxDepth)
  case target => exact restores_of_holds (fun t => t.holds) (by decide : 1 < Document.maxDepth)
  case record => exact restores_of_holds (fun r => r.holds) (by decide : 1 < Document.maxDepth)
  case payload => exact restores_of_holds (fun p => p.holds) (by decide : 1 < Document.maxDepth)
  case schedule => exact restores_of_holds (fun s => s.holds) (by decide : 1 < Document.maxDepth)
  case config => exact restores_of_holds (fun c => c.holds) (by decide : 3 < Document.maxDepth)

end Rota
