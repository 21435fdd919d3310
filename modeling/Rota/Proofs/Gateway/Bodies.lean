import Rota.Proofs.Gateway.Notification
import Rota.Proofs.Http.Form
import Rota.Proofs.Json.Records
import Rota.Proofs.Json.Writing

/-!
# Notices as forms and in JSON

A caller may post a notice as a form or in JSON. Either way the body can be written in many
ways, with its members in any order, with blanks and with escapes that need not be there; an
option that is absent is left out, or may be `null` in JSON. `Notice.IsForm` and
`Notice.IsJson` say which requests are such postings of a notice, and both of them are read
as the notice (`IsForm.ofRequest_eq`, `IsJson.ofRequest_eq`).

So it makes no difference how a notice was posted (`Alike`): the answer is the same, and so
is what becomes of the gateway. The one thing that can differ is the id that an event gets
at random, where the notice names no alert.
-/

namespace Rota

namespace Gateway

/-! ## What a body can look like -/

/-- **How an option is mentioned**: an absent one is `null`, or is left out. -/
inductive Mentions (name : String) : Option String → List (String × Option String) → Prop where
  | given (s : String) : Mentions name (some s) [(name, some s)]
  | null : Mentions name none [(name, none)]
  | omitted : Mentions name none []

namespace Notice

/-- **The members of a notice**, in whatever order. -/
def IsWritten (n : Notice) (members : List (String × Option String)) : Prop :=
  ∃ alert host, Mentions "alert_id" n.alertId alert ∧ Mentions "instance" n.host host
    ∧ members.Perm (("email", some n.email) :: ("message", some n.message) :: (alert ++ host))

/-- **A request with a notice as its form.** -/
structure IsForm (n : Notice) (r : Request) : Prop where
  type : r.typeBegins "application/x-www-form-urlencoded" = true
  small : r.body.length ≤ maxBody
  body : ∃ fields, n.IsWritten (fields.map fun f => (f.1, some f.2))
    ∧ Http.Form.Writes fields r.body

/-- **A request with a notice in JSON.** -/
structure IsJson (n : Notice) (r : Request) : Prop where
  type : r.typeBegins "application/json" = true
  isJson : (r.typeText.bind Http.MediaType.ofText?).any Http.MediaType.isJson = true
  small : r.body.length ≤ maxBody
  body : ∃ members text, n.IsWritten members ∧ Document.WritesRecord members text
    ∧ r.body = Text.encode text

/-! ## Reading notices -/

section Reading

variable {τ : Type} [Tree τ] {n : Notice} {members : List (String × Option String)}

theorem eq_of_mentions {name : String} {o : Option String}
    {members : List (String × Option String)} (h : Mentions name o members) :
    ∀ m ∈ members, m = (name, o) := by
  cases h <;> simp

/-- A member is the address, the text, the id of the alert or the host. -/
theorem IsWritten.member_cases (h : n.IsWritten members) {m : String × Option String}
    (hm : m ∈ members) : m = ("email", some n.email) ∨ m = ("message", some n.message)
      ∨ m = ("alert_id", n.alertId) ∨ m = ("instance", n.host) := by
  obtain ⟨alert, host, halert, hhost, hperm⟩ := h
  rcases List.mem_cons.1 (hperm.mem_iff.1 hm) with rfl | hm
  · exact .inl rfl
  rcases List.mem_cons.1 hm with rfl | hm
  · exact .inr (.inl rfl)
  rcases List.mem_append.1 hm with hm | hm
  · exact .inr (.inr (.inl (eq_of_mentions halert m hm)))
  · exact .inr (.inr (.inr (eq_of_mentions hhost m hm)))

theorem IsWritten.once (h : n.IsWritten members) : (members.map Prod.fst).Nodup := by
  obtain ⟨email, message, alertId, host⟩ := n
  obtain ⟨alert, host, halert, hhost, hperm⟩ := h
  rw [(hperm.map Prod.fst).nodup_iff]
  cases halert <;> cases hhost <;> simp

/-- **How a language writes** a text, or nothing: it is read back. -/
structure Keeps (value : Option String → τ) (members : List (String × Option String)) :
    Prop where
  text : ∀ s, Tree.text (value (some s)) = .ok s
  optional : ∀ m ∈ members, Tree.optional Tree.text (value m.2) = .ok m.2

/-- **The members of a notice are known**, and pass their checks. -/
theorem IsWritten.passes (h : n.IsWritten members) {value : Option String → τ}
    (keeps : Keeps value members) :
    Fields.Passes (Notice.fields : Fields τ Notice).known
      (members.map fun m => (m.1, value m.2)) := by
  refine List.forall_mem_map.2 fun m hm => ?_
  have hoptional := keeps.optional m hm
  rcases h.member_cases hm with rfl | rfl | rfl | rfl
  · exact ⟨_, .head _, rfl, congrArg (Except.map fun _ => ()) (keeps.text _)⟩
  · exact ⟨_, .tail _ (.head _), rfl, congrArg (Except.map fun _ => ()) (keeps.text _)⟩
  · exact ⟨_, .tail _ (.tail _ (.head _)), rfl, congrArg (Except.map fun _ => ()) hoptional⟩
  · exact ⟨_, .tail _ (.tail _ (.tail _ (.head _))), rfl,
      congrArg (Except.map fun _ => ()) hoptional⟩

/-- A text that is there is read. -/
theorem build_text {value : Option String → τ} (keeps : Keeps value members)
    {get : String → Option τ} (finds : Fields.Finds get (members.map fun m => (m.1, value m.2)))
    {name s : String} (there : (name, some s) ∈ members) :
    (Fields.withDefault name Tree.text "").build get = .ok s := by
  have hget : get name = some (value (some s)) :=
    (finds _ _).2 (List.mem_map_of_mem (f := fun m => (m.1, value m.2)) there)
  rw [Fields.withDefault, Fields.build_member, hget]
  exact keeps.text s

/-- An option is read as it was mentioned, if nothing else has its name. -/
theorem build_option {value : Option String → τ} (keeps : Keeps value members)
    {get : String → Option τ} (finds : Fields.Finds get (members.map fun m => (m.1, value m.2)))
    {name : String} {o : Option String} {mentioned : List (String × Option String)}
    (h : Mentions name o mentioned) (there : mentioned ⊆ members)
    (alone : ∀ m ∈ members, m.1 = name → m ∈ mentioned) :
    (Fields.withDefault name (Tree.optional Tree.text) none).build get = .ok o := by
  have hgiven : ∀ m ∈ mentioned, get m.1 = some (value m.2) := fun m hm =>
    (finds _ _).2 (List.mem_map_of_mem (there hm))
  rw [Fields.withDefault, Fields.build_member]
  cases h with
  | given s =>
    rw [hgiven _ (.head _)]
    exact keeps.optional _ (there (.head _))
  | null =>
    rw [hgiven _ (.head _)]
    exact keeps.optional _ (there (.head _))
  | omitted =>
    have hnone : get name = none := by
      refine Option.eq_none_iff_forall_ne_some.2 fun v hv => ?_
      obtain ⟨m, hm, heq⟩ := List.mem_map.1 ((finds _ _).1 hv)
      exact List.not_mem_nil (alone m hm (congrArg Prod.fst heq))
    rw [hnone]

/-- **A notice is built from its members**, in whatever order they stand there. -/
theorem IsWritten.build (h : n.IsWritten members) {value : Option String → τ}
    (keeps : Keeps value members) {get : String → Option τ}
    (finds : Fields.Finds get (members.map fun m => (m.1, value m.2))) :
    Notice.fields.build get = .ok n := by
  obtain ⟨alert, host, halert, hhost, hperm⟩ := h
  have hemail := build_text keeps finds (hperm.mem_iff.2 (.head _))
  have hmessage := build_text keeps finds (hperm.mem_iff.2 (.tail _ (.head _)))
  have hmember : ∀ m ∈ members, m = ("email", some n.email) ∨ m = ("message", some n.message)
      ∨ m ∈ alert ∨ m ∈ host := fun m hm => by
    simpa using hperm.mem_iff.1 hm
  -- no other member has the name of an option
  have halertId := build_option keeps finds halert (fun m hm => hperm.mem_iff.2 (by simp [hm]))
    fun m hm hname => by
      rcases hmember m hm with rfl | rfl | hm | hm
      · exact absurd hname (by simp)
      · exact absurd hname (by simp)
      · exact hm
      · rw [eq_of_mentions hhost m hm] at hname
        exact absurd hname (by simp)
  have hinstance := build_option keeps finds hhost (fun m hm => hperm.mem_iff.2 (by simp [hm]))
    fun m hm hname => by
      rcases hmember m hm with rfl | rfl | hm | hm
      · exact absurd hname (by simp)
      · exact absurd hname (by simp)
      · rw [eq_of_mentions halert m hm] at hname
        exact absurd hname (by simp)
      · exact hm
  rw [Notice.fields, Fields.build_seq, Fields.build_seq, Fields.build_seq, Fields.build_map, hemail,
    hmessage, halertId, hinstance]
  rfl

theorem names_nodup : (Notice.fields : Fields τ Notice).names.Nodup := by
  show ["email", "message", "alert_id", "instance"].Nodup
  decide

end Reading

/-- **A notice is read from a form.** -/
theorem IsWritten.read_fields {n : Notice} {fields : List (String × String)}
    (h : n.IsWritten (fields.map fun f => (f.1, some f.2))) :
    Notice.read (Http.Form.fields fields) = .ok n := by
  let value : Option String → Http.Form := fun s => .value (s.getD "")
  have keeps : Keeps value (fields.map fun f => (f.1, some f.2)) :=
    ⟨fun s => rfl, List.forall_mem_map.2 fun f hf => rfl⟩
  have hmap : (fields.map fun f => (f.1, some f.2)).map (fun m => (m.1, value m.2))
      = fields.map fun f => (f.1, Http.Form.value f.2) := by
    rw [List.map_map]
    rfl
  have passes := h.passes keeps
  rw [hmap] at passes
  have once := h.once
  rw [List.map_map] at once
  obtain ⟨get, finds, hread⟩ := Http.Form.asRecord_passes names_nodup passes once
  rw [← hmap] at finds
  exact hread.trans (h.build keeps finds)

/-- **A notice is read from a record in JSON.** -/
theorem IsWritten.read_flat {n : Notice} {members : List (String × Option String)}
    (h : n.IsWritten members) : Notice.read (Json.flat members).document = .ok n := by
  have keeps : Keeps (fun s => (Json.ofOption s).document) members :=
    ⟨fun s => rfl, fun m hm => by cases m.2 <;> rfl⟩
  have once : ((members.map fun m => (m.1, (Json.ofOption m.2).document)).map Prod.fst).Nodup := by
    rw [List.map_map]
    exact h.once
  obtain ⟨get, finds, hread⟩ := Document.asRecord_passes names_nodup (h.passes keeps) once
  rw [Document.document_flat]
  refine Eq.trans ?_ (hread.trans (h.build keeps finds))
  rw [List.map_map]
  rfl

/-! ## Reading requests -/

variable {n : Notice} {r : Request}

/-- No type begins with two marks of which neither begins with the other. -/
theorem not_typeBegins_both {mark other : String} (h : r.typeBegins mark = true)
    (apart : ¬ other.toList <+: mark.toList ∧ ¬ mark.toList <+: other.toList) :
    ¬ r.typeBegins other = true := by
  unfold Request.typeBegins at h ⊢
  cases htype : r.typeText with
  | none => exact Bool.false_ne_true
  | some text =>
    rw [htype] at h
    intro hother
    have hp : mark.toList <+: text.toList := List.isPrefixOf_iff_prefix.1 h
    have hq : other.toList <+: text.toList := List.isPrefixOf_iff_prefix.1 hother
    rcases Nat.le_total mark.toList.length other.toList.length with hle | hle
    · exact apart.2 (List.prefix_of_prefix_length_le hp hq hle)
    · exact apart.1 (List.prefix_of_prefix_length_le hq hp hle)

/-- **A notice that was posted as a form** is read as this notice. -/
theorem IsForm.ofRequest_eq (h : n.IsForm r) : Notice.ofRequest r = .ok n := by
  obtain ⟨type, small, fields, hfields, hbody⟩ := h
  have hother : ¬ r.typeBegins "application/json" = true := not_typeBegins_both type (by decide)
  have hbytes : r.bytes = .ok r.body := if_neg (Nat.not_lt.2 small)
  unfold Notice.ofRequest Request.form
  rw [if_neg hother, type, hbytes]
  show (Notice.read (Http.Form.ofBytes r.body)).mapError _ = _
  rw [hbody.ofBytes_eq, hfields.read_fields]
  rfl

/-- **A notice that was posted in JSON** is read as this notice. -/
theorem IsJson.ofRequest_eq (h : n.IsJson r) : Notice.ofRequest r = .ok n := by
  obtain ⟨type, isJson, small, members, text, hmembers, htext, hbody⟩ := h
  have hbytes : r.bytes = .ok r.body := if_neg (Nat.not_lt.2 small)
  have hparse : Document.parse Notice.read (String.ofList text) = .ok n := by
    unfold Document.parse
    rw [htext.ofText_eq]
    dsimp only
    rw [hmembers.read_flat]
    rfl
  unfold Notice.ofRequest Request.json
  rw [if_pos type, isJson, hbytes, hbody]
  simp only [Bool.not_true, Bool.false_eq_true, if_false, bind, Except.bind, Text.decode?_encode,
    hparse]
  rfl

end Notice

/-! ## Ids that differ -/

open Relay (System)

/-- An event without its id. -/
def unnamed (e : Event) : Event :=
  { e with id := "" }

/-- A service without the ids of its events, and of those to come. -/
def withoutIds (s : System) : System :=
  { s with
    ids := 0
    queue := { s.queue with items := s.queue.items.map unnamed }
    offers := s.offers.map fun o => { o with event := unnamed o.event } }

/-- **Two services after one event each** that were the same before, in all but ids. -/
structure Agree (s a b : System) : Prop where
  /-- They are still the same, in all but ids. -/
  state : withoutIds a = withoutIds b
  /-- Nothing was queued, or one event each, and these are the same in all but their ids. -/
  queued : a.queue = s.queue ∧ b.queue = s.queue
    ∨ ∃ e id, a.queue = s.queue.push e ∧ b.queue = s.queue.push { e with id }

section Offers

variable (s : System) (ids : Nat) (e : Event)

theorem wakeWorker_eq :
    s.wakeWorker
      = { s with agenda := if s.worker = .idle then s.agenda.wake .worker else s.agenda } := by
  unfold System.wakeWorker
  split
  · rfl
  · rfl

/-- An event is offered to the service whatever its id is, and whatever ids are to come. -/
theorem agree_enqueue (id : String) :
    (s.enqueue e).1 = ({ s with ids }.enqueue { e with id }).1
      ∧ Agree s (s.enqueue e).2 ({ s with ids }.enqueue { e with id }).2 := by
  unfold System.enqueue
  split
  · exact ⟨rfl, rfl, .inl ⟨rfl, rfl⟩⟩
  · split
    · refine ⟨rfl, ?_, .inr ⟨e, id, ?_, ?_⟩⟩
      · simp only [System.accepted, wakeWorker_eq, withoutIds, Relay.Queue.push, List.map_append]
        rfl
      · rw [System.accepted, wakeWorker_eq]
      · rw [System.accepted, wakeWorker_eq]
    · exact ⟨rfl, rfl, .inl ⟨rfl, rfl⟩⟩

/-- No id is given out for an event that has one. -/
theorem enqueue_withIds :
    ({ s with ids }.enqueue e).2 = { (s.enqueue e).2 with ids } := by
  unfold System.enqueue
  split
  · rfl
  · split
    · simp only [System.accepted, wakeWorker_eq]
    · rfl

end Offers

/-! ## What comes of the two postings -/

/-- **The gateway with other ids** to come. They are random, so it may well give out others. -/
def withIds (g : Gateway) (ids : Nat) : Gateway :=
  { g with system := { g.system with ids } }

/-- **The same comes of two postings** of a notice to a gateway. -/
structure Alike (g : Gateway) (n : Notice) (a b : Response × Gateway) : Prop where
  response : a.1 = b.1
  /-- The service behind the gateway is the same, in all but ids. -/
  agree : Agree g.system a.2.system b.2.system
  /-- Nothing else of the gateway is touched. -/
  others : a.2 = { g with system := a.2.system } ∧ b.2 = { g with system := b.2.system }
  /-- If the notice names an alert, then no event has an id of its own. -/
  named : ∀ id, n.alertId = some id → id ≠ "" → b.2 = a.2.withIds b.2.system.ids

section Notify

variable (g : Gateway) (ask : Key → Except Failure Identity) (n : Notice)

/-- **A notice comes to the same** whatever ids are to come. -/
theorem alike_notify (channel : Channel) (ids : Nat) :
    let a := g.notify ask channel n
    let b := (g.withIds ids).notify ask channel n
    g.Alike n (noticeResponse a.2.errorsAsOk a.1, a.2)
      (noticeResponse b.2.errorsAsOk b.1, b.2) := by
  intro a b
  cases hv : n.validate with
  | error failure =>
    have ha : a = (.error failure, g) := notify_of_invalid hv
    have hb : b = (.error failure, g.withIds ids) := notify_of_invalid hv
    rw [ha, hb]
    exact ⟨rfl, ⟨rfl, .inl ⟨rfl, rfl⟩⟩, ⟨rfl, rfl⟩, fun _ _ _ => rfl⟩
  | ok _ =>
    rcases hr : g.system.resolver.resolveFor g.system.clock (.email n.email) channel
      (ask (.email n.email)) with ⟨found, resolver⟩
    cases found with
    | error failure =>
      have ha : a = _ := notify_of_error hv hr
      have hb : b = _ := notify_of_error (g := g.withIds ids) hv hr
      rw [ha, hb]
      exact ⟨rfl, ⟨rfl, .inl ⟨rfl, rfl⟩⟩, ⟨rfl, rfl⟩, fun _ _ _ => rfl⟩
    | ok person =>
      have ha : a = _ := notify_of_ok hv hr
      have hb : b = _ := notify_of_ok (g := g.withIds ids) hv hr
      rw [ha, hb]
      let s : System := { g.system with resolver, ids := g.system.ids + 1 }
      let e := eventOf g.system.settings.time (Relay.freshId g.system.ids) n person channel
      let e' := eventOf g.system.settings.time (Relay.freshId ids) n person channel
      obtain ⟨hresult, hagree⟩ := agree_enqueue s (ids + 1) e e'.id
      refine ⟨congrArg (noticeResponse g.errorsAsOk) hresult, ⟨hagree.state, hagree.queued⟩,
        ⟨rfl, rfl⟩, fun id hid hne => ?_⟩
      have hsame : e' = e := by
        simp only [e, e', eventOf, hid, String.isEmpty_eq_false_iff.2 hne, Bool.false_eq_true,
          if_false]
      show ({ g with system := ({ s with ids := ids + 1 }.enqueue e').2 } : Gateway)
        = ({ g with system := (s.enqueue e).2 } : Gateway).withIds
          ({ s with ids := ids + 1 }.enqueue e').2.ids
      rw [hsame, enqueue_withIds]
      rfl

end Notify

/-- **It makes no difference how a notice was posted**, as a form or in JSON, however either of
them was written, to a gateway in whatever state. -/
theorem answer_alike (g : Gateway) (ask : Key → Except Failure Identity) {n : Notice}
    {form json : Request} (isForm : n.IsForm form) (isJson : n.IsJson json)
    (posted : form.method = "POST" ∧ json.method = "POST")
    (path : form.path = "/make_call" ∨ form.path = "/send_sms") (same : json.path = form.path) :
    g.answer ask form = g.answer ask json
      ∧ ∀ ids, g.Alike n (g.answer ask form) ((g.withIds ids).answer ask json) := by
  obtain ⟨channel, hform⟩ := exists_channel path
  have hjson := hform
  rw [← same] at hjson
  rw [answer_notice g ask posted.1 hform isForm.ofRequest_eq]
  refine ⟨(answer_notice g ask posted.2 hjson isJson.ofRequest_eq).symm, fun ids => ?_⟩
  rw [answer_notice _ ask posted.2 hjson isJson.ofRequest_eq]
  exact alike_notify g ask n channel ids

/-- A notice with characters of all kinds is posted in both ways, and queued in either case. -/
theorem posted_either_way :
    let n : Notice :=
      { email := "ada+1@x.org", message := "50% = \"½\" & more\n🜁", host := some "" }
    let ask := Directory.lookupIn
      [{ id := "1", email := "ada+1@x.org", phone := some "+491", phoneVerified := true }]
    let fields := [("instance", ""), ("email", n.email), ("message", n.message)]
    let members := [("email", some n.email), ("message", some n.message), ("instance", some ""),
      ("alert_id", none)]
    let form : Request :=
      { method := "POST"
        target := "/send_sms"
        contentType := some "application/x-www-form-urlencoded; charset=utf-8"
        body := Http.Form.write fields }
    let json : Request :=
      { method := "POST"
        target := "/send_sms"
        contentType := some "application/json"
        body := Text.encode (Json.flat members).render.toList }
    let g : Gateway := { system := .new {} 8 8 true 5000 {} }
    n.IsForm form ∧ n.IsJson json ∧ g.answer ask form = g.answer ask json
      ∧ (g.answer ask form).2.system.queue.items.length = 1
      ∧ g.Alike n (g.answer ask form) ((g.withIds 7).answer ask json) := by
  intro n ask fields members form json g
  have isForm : n.IsForm form :=
    { type := by decide +kernel
      small := by decide +kernel
      body := ⟨fields, ⟨[], [("instance", some "")], .omitted, .given "", by decide⟩,
        Http.Form.writes_write fields⟩ }
  have isJson : n.IsJson json :=
    { type := by decide +kernel
      isJson := by decide +kernel
      small := by decide +kernel
      body := ⟨members, (Json.flat members).render.toList,
        ⟨[("alert_id", none)], [("instance", some "")], .null, .given "", by decide⟩,
        Document.writesRecord_render (List.cons_ne_nil _ _), by dsimp only [json]⟩ }
  obtain ⟨hsame, halike⟩ := answer_alike g ask isForm isJson ⟨rfl, rfl⟩ (.inr (by decide +kernel))
    (by decide +kernel)
  exact ⟨isForm, isJson, hsame, by decide +kernel, halike 7⟩

end Gateway

end Rota
