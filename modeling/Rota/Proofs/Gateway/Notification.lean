import Rota.Proofs.Gateway.Discretion
import Rota.Proofs.Relay.Balance

/-!
# Notifying somebody through the gateway

What becomes of a notice that a caller posts. It is accepted exactly if it is
proper, leads to somebody with a verified number, and finds room in the open
queue; then one event is added to the queue, which names that very person. In
every other case nothing is queued, and the first thing that is wrong decides the
answer. When the event is dispatched later, nobody is asked any more: the call is
to that person, whatever the directory and the cache say by then.

`Notified` says this of one answer, and `answer_notified` that it is so for every
notice, whatever state the gateway is in.
-/

namespace Rota

namespace Relay

/-! ## Accepted events stay where they are -/

/-- Events that were accepted stay accepted, in the same order. -/
theorem Ledger.Next.admitted_prefix {l l' : Ledger} (h : l.Next l') :
    admitted l.offers <+: admitted l'.offers := by
  cases h with
  | push x e _ _ | use x e _ _ =>
    rw [admitted_ok]
    exact List.prefix_append _ _
  | refuse x e failure queue _ _ => exact ⟨[], by rw [admitted_error, List.append_nil]⟩
  | _ => exact List.prefix_rfl

end Relay

namespace Gateway

open Relay (System)

/-- Events that were accepted stay accepted, whatever happens to the gateway. -/
theorem Course.admitted_prefix {g g' : Gateway} (h : Course g g') :
    Relay.admitted g.system.offers <+: Relay.admitted g'.system.offers := by
  induction h with
  | refl => exact List.prefix_rfl
  | tail _ hadv ih => exact ih.trans hadv.next.admitted_prefix

/-! ## What a notice asks for, and what stands against it -/

/-- **A proper notice** names an address and says something. -/
structure Notice.Proper (n : Notice) : Prop where
  address : '@' ∈ n.email.toList
  text : ∃ c ∈ n.message.toList, Text.isBlank c = false

section Notify

variable (g : Gateway) (ask : Key → Except Failure Identity) (n : Notice)

/-- **Whom a notice is for**: the person to whom its address leads. -/
def Concerns (person : Identity) : Prop :=
  g.system.resolver.LeadsTo g.system.clock (.email n.email) (ask (.email n.email)) person

/-- **What it takes for a notice to be accepted.** -/
structure Accepts (person : Identity) : Prop where
  proper : n.Proper
  concerns : g.Concerns ask n person
  verified : ∃ number, person.HasVerified number
  isOpen : g.system.queue.closed = false
  room : g.system.queue.pending < g.system.queue.capacity

/-- **What is wrong with a notice**, with the status and the code that say so. Each thing
is only looked at when all the former ones are right. -/
inductive Refuses : Nat → String → Prop
  | address (missing : '@' ∉ n.email.toList) : Refuses 400 "invalid-email"
  | text (address : '@' ∈ n.email.toList)
      (blank : ∀ c ∈ n.message.toList, Text.isBlank c = true) : Refuses 400 "empty-message-text"
  | unknown (proper : n.Proper) (nobody : ∀ person, ¬ g.Concerns ask n person) :
      Refuses 404 "user-not-found"
  | unverified {person : Identity} (proper : n.Proper) (concerns : g.Concerns ask n person)
      (unverified : ∀ number, ¬ person.HasVerified number) :
      Refuses 422 "phonenumber-not-verified"
  | closed {person : Identity} {number : String} (proper : n.Proper)
      (concerns : g.Concerns ask n person) (verified : person.HasVerified number)
      (closed : g.system.queue.closed = true) : Refuses 503 "shutting-down"
  | full {person : Identity} {number : String} (proper : n.Proper)
      (concerns : g.Concerns ask n person) (verified : person.HasVerified number)
      (isOpen : g.system.queue.closed = false)
      (full : g.system.queue.capacity ≤ g.system.queue.pending) : Refuses 503 "queue-full"

end Notify

/-- **The event of a notice** names the person and the channel, says what the notice says,
and has the id of the alert, if there is one. -/
structure Notice.Tells (n : Notice) (person : Identity) (channel : Channel) (e : Event) :
    Prop where
  delivery : e.delivery = .push (.resolved person) channel
  message : e.message = n.incident.decorate n.message
  id : ∀ id, n.alertId = some id → id ≠ "" → e.id = id

section Notify

variable {g : Gateway} {ask : Key → Except Failure Identity} {n : Notice} {channel : Channel}

/-- What is refused is not accepted. -/
theorem Refuses.not_accepts {status : Nat} {code : String}
    (h : g.Refuses ask n status code) (person : Identity) : ¬ g.Accepts ask n person := by
  rintro ⟨⟨haddress, c, hc, htext⟩, hconcerns, ⟨number, hverified⟩, hopen, hroom⟩
  cases h with
  | address missing => exact missing haddress
  | text _ blank =>
    rw [blank c hc] at htext
    cases htext
  | unknown _ nobody => exact nobody person hconcerns
  | unverified _ concerns unverified =>
    exact unverified number (concerns.unique hconcerns ▸ hverified)
  | closed _ _ _ closed =>
    rw [hopen] at closed
    cases closed
  | full _ _ _ _ full => exact absurd hroom (Nat.not_lt.2 full)

/-! ## What comes of a notice -/

/-- The check of a notice: it is proper, or what is wrong with it comes to light. -/
theorem validate_cases (n : Notice) :
    n.Proper ∧ n.validate = .ok ()
      ∨ '@' ∉ n.email.toList ∧ n.validate = .error (.invalidEmail n.email)
      ∨ '@' ∈ n.email.toList ∧ (∀ c ∈ n.message.toList, Text.isBlank c = true)
        ∧ n.validate = .error .emptyMessage := by
  by_cases ha : '@' ∈ n.email.toList
  · by_cases hb : ∀ c ∈ n.message.toList, Text.isBlank c = true
    · refine .inr (.inr ⟨ha, hb, ?_⟩)
      simp [Notice.validate, Text.allBlank, ha, List.all_eq_true.2 hb]
    · have htext : ∃ c ∈ n.message.toList, Text.isBlank c = false := by
        simpa using hb
      refine .inl ⟨⟨ha, htext⟩, ?_⟩
      have hall : n.message.toList.all Text.isBlank = false := by
        simpa using hb
      simp [Notice.validate, Text.allBlank, ha, hall]
  · refine .inr (.inl ⟨ha, ?_⟩)
    simp [Notice.validate, ha]

theorem tells_eventOf (time : Time.Timestamp) (freshId : String) (n : Notice)
    (person : Identity) (channel : Channel) :
    n.Tells person channel (eventOf time freshId n person channel) where
  delivery := rfl
  message := rfl
  id := fun id ha hne => by simp [eventOf, ha, hne]

/-- **What comes of a notice.** -/
inductive Outcome (g : Gateway) (ask : Key → Except Failure Identity) (channel : Channel)
    (n : Notice) : Except Failure Unit × Gateway → Prop
  /-- One event is queued. -/
  | accepted {person : Identity} {e : Event} {s : System} (accepts : g.Accepts ask n person)
      (tells : n.Tells person channel e) (queued : s.queue = g.system.queue.push e)
      (admitted : Relay.admitted s.offers = Relay.admitted g.system.offers ++ [e]) :
      Outcome g ask channel n (.ok (), { g with system := s })
  /-- Nothing is queued. -/
  | refused {failure : Failure} {s : System}
      (refuses : g.Refuses ask n (statusOf failure) failure.code)
      (untouched : s.queue = g.system.queue) :
      Outcome g ask channel n (.error failure, { g with system := s })

/-- An event that is offered to the service in the end. -/
theorem outcome_enqueue {person : Identity} {number : String} {e : Event} {s : System}
    (proper : n.Proper) (concerns : g.Concerns ask n person)
    (verified : person.HasVerified number) (tells : n.Tells person channel e)
    (hq : s.queue = g.system.queue) (ho : s.offers = g.system.offers) :
    Outcome g ask channel n ((s.enqueue e).1, { g with system := (s.enqueue e).2 }) := by
  have hoffers := System.offers_enqueue s e { actor := .client }
  unfold System.enqueue at hoffers ⊢
  rw [hq] at hoffers ⊢
  split
  · next hc => exact .refused (.closed proper concerns verified hc) hq
  · next hc =>
    simp only [if_neg hc] at hoffers
    have hopen : g.system.queue.closed = false := by simpa using hc
    split
    · next hr =>
      refine .accepted ⟨proper, concerns, ⟨number, verified⟩, hopen,
        (Relay.Queue.hasRoom_iff _).1 hr⟩ tells ?_ ?_
      · exact congrArg Relay.Ledger.queue (System.ledger_accepted _ _ _)
      · rw [if_pos hr] at hoffers
        rw [hoffers, Relay.admitted_ok, ho]
    · next hr =>
      refine .refused (.full proper concerns verified hopen ?_) hq
      exact Nat.not_lt.1 fun hlt => hr ((Relay.Queue.hasRoom_iff _).2 hlt)

/-- A notice that does not pass the check. -/
theorem notify_of_invalid {failure : Failure} (invalid : n.validate = .error failure) :
    g.notify ask channel n = (.error failure, g) := by
  simp only [notify, invalid]

/-- A proper notice for which nobody can be found. -/
theorem notify_of_error (proper : n.validate = .ok ()) {failure : Failure}
    {resolver : Directory.Resolver}
    (found : g.system.resolver.resolveFor g.system.clock (.email n.email) channel
      (ask (.email n.email)) = (.error failure, resolver)) :
    g.notify ask channel n
      = (.error failure, { g with system := { g.system with resolver } }) := by
  simp only [notify, proper, found]

/-- A proper notice whose event is offered to the service. -/
theorem notify_of_ok (proper : n.validate = .ok ()) {person : Identity}
    {resolver : Directory.Resolver}
    (found : g.system.resolver.resolveFor g.system.clock (.email n.email) channel
      (ask (.email n.email)) = (.ok person, resolver)) :
    let s : System := { g.system with resolver, ids := g.system.ids + 1 }
    let e := eventOf g.system.settings.time (Relay.freshId g.system.ids) n person channel
    g.notify ask channel n = ((s.enqueue e).1, { g with system := (s.enqueue e).2 }) := by
  simp only [notify, proper, found]
  rfl

/-- **Every notice for a phone is accepted or refused**, and for one of these reasons. -/
theorem notify_outcome (g : Gateway) (ask : Key → Except Failure Identity) {channel : Channel}
    (needs : channel.needsPhone = true) (n : Notice) :
    Outcome g ask channel n (g.notify ask channel n) := by
  rcases validate_cases n with ⟨proper, hv⟩ | ⟨missing, hv⟩ | ⟨address, blank, hv⟩
  · have hfound := g.system.resolver.resolveFor_found g.system.clock (.email n.email) channel
      (ask (.email n.email))
    rcases hr : g.system.resolver.resolveFor g.system.clock (.email n.email) channel
      (ask (.email n.email)) with ⟨result, resolver⟩
    rw [hr] at hfound
    cases hfound with
    | reached leads reachable =>
      rw [notify_of_ok hv hr]
      obtain ⟨number, verified, -⟩ := Identity.verified_of_reachable reachable needs
      exact outcome_enqueue proper leads verified (tells_eventOf ..) rfl rfl
    | unverified leads _ unverified =>
      rw [notify_of_error hv hr]
      exact .refused (.unverified proper leads
        ((Identity.verifiedPhone_eq_none_iff _).1 unverified)) rfl
    | unknown nobody =>
      rw [notify_of_error hv hr]
      exact .refused (.unknown proper nobody) rfl
  · rw [notify_of_invalid hv]
    exact .refused (.address missing) rfl
  · rw [notify_of_invalid hv]
    exact .refused (.text address blank) rfl

/-- Each of the two paths is that of a channel. -/
theorem exists_channel {path : String} (h : path = "/make_call" ∨ path = "/send_sms") :
    ∃ channel, path = "/make_call" ∧ channel = .phone
      ∨ path = "/send_sms" ∧ channel = Channel.sms := by
  rcases h with hp | hp
  · exact ⟨.phone, .inl ⟨hp, rfl⟩⟩
  · exact ⟨.sms, .inr ⟨hp, rfl⟩⟩

/-- A request to notify somebody is answered by its route, with nothing left out. -/
theorem answer_posted (g : Gateway) (ask : Key → Except Failure Identity) {r : Request}
    {channel : Channel} (posted : r.method = "POST")
    (path : r.path = "/make_call" ∧ channel = .phone ∨ r.path = "/send_sms" ∧ channel = .sms) :
    g.answer ask r
      = ({ (g.answerRoute ask r (.notify channel)).1 with isBodiless := false },
        (g.answerRoute ask r (.notify channel)).2) := by
  have hroute : routes.lookup r.path = some (.notify channel) := by
    rcases path with ⟨hp, rfl⟩ | ⟨hp, rfl⟩ <;> rw [hp] <;> decide
  have hpost : r.method ∈ (Route.notify channel).methods := by simp [posted, Route.methods]
  have hhead : decide (r.method = "HEAD") = false := by rw [posted]; decide
  unfold answer
  simp only [hroute, if_pos hpost, hhead]
  rw [if_neg (by rw [posted]; decide)]

/-- **How a notice is answered**: by what comes of it. -/
theorem answer_notice (g : Gateway) (ask : Key → Except Failure Identity) {r : Request}
    {channel : Channel} {n : Notice} (posted : r.method = "POST")
    (path : r.path = "/make_call" ∧ channel = .phone ∨ r.path = "/send_sms" ∧ channel = .sms)
    (decoded : Notice.ofRequest r = .ok n) :
    g.answer ask r = (noticeResponse (g.notify ask channel n).2.errorsAsOk
      (g.notify ask channel n).1, (g.notify ask channel n).2) := by
  have hbody : ∀ b result, ({ noticeResponse b result with isBodiless := false } : Response)
      = noticeResponse b result := by
    intro b result
    cases result with
    | ok _ => rfl
    | error f => cases b <;> rfl
  rw [answer_posted g ask posted path]
  simp only [answerRoute, decoded, hbody]

theorem status_noticeResponse (b : Bool) (failure : Failure) :
    (noticeResponse b (.error failure)).status = if b then 200 else statusOf failure := by
  cases b <;> rfl

theorem sent_noticeResponse (b : Bool) (failure : Failure) :
    (noticeResponse b (.error failure)).sent
      = .json (.record [("error", .text failure.code)]) := by
  cases b <;> rfl

end Notify

/-! ## What comes of the event -/

/-- **What comes of an accepted event**, the one with this number, in a service at one
moment: if its delivery has begun, the call that is made for it is to this person, and
no other call is. -/
structure Dispatches (s : System) (number : Nat) (e : Event) (person : Identity)
    (channel : Channel) : Prop where
  kept : (Relay.admitted s.offers)[number]? = some e
  begun : ∀ e', s.begun.reverse[number]? = some e' → e' = e
  calls : s.outbound.callsOf number = []
    ∨ s.outbound.callsOf number = [.push channel person e.id e.message]
  /-- The next move of a delivery that has made no call makes this one. -/
  next : ∀ f ∈ s.flights, f.number = number → s.outbound.callsOf number = [] →
    ∀ o, (s.moveFlight o number).attempts
      = { number, call := .push channel person e.id e.message } :: s.attempts
  /-- A delivery that has ended has made it, and its record says to whom. -/
  ended : ∀ l ∈ s.landings, l.number = number →
    s.outbound.callsOf number = [.push channel person e.id e.message]
      ∧ l.record.userId = person.id ∧ l.record.recipient = person.contact channel

theorem dispatches_of_sound {s : System} (hs : s.ledger.Sound) (ht : s.outbound.Traced)
    {number : Nat} {e : Event} {person : Identity} {channel : Channel}
    (kept : (Relay.admitted s.offers)[number]? = some e)
    (delivery : e.delivery = .push (.resolved person) channel)
    (reachable : person.reachable channel = .ok ()) :
    Dispatches s number e person channel := by
  have hadmitted : Relay.admitted s.offers
      = s.begun.reverse ++ s.worker.held ++ s.queue.items := hs.conserved.admitted_eq
  -- the events begun are the first ones accepted
  have hbegun : ∀ e', s.begun.reverse[number]? = some e' → e' = e := by
    intro e' he
    have hlt := (List.getElem?_eq_some_iff.1 he).1
    rw [hadmitted, List.append_assoc, List.getElem?_append_left hlt] at kept
    exact Option.some.inj (he.symm.trans kept)
  have hd := Relay.determines_of_reachable delivery reachable
  refine ⟨kept, hbegun, ?_, ?_, ?_⟩
  · cases hget : s.begun.reverse[number]? with
    | none =>
      -- its delivery has not begun
      refine .inl (Relay.Outbound.callsOf_eq_nil fun a ha hn => ?_)
      have hlt : a.number < s.begun.length := ht.launched_eq ▸ ht.attempted a ha
      rw [List.getElem?_eq_none_iff, List.length_reverse] at hget
      omega
    | some e' =>
      obtain rfl := hbegun e' hget
      exact ht.calls_of_determines hget hd
  · rintro f hf rfl hnil o
    obtain rfl := hbegun _ (ht.flight_begun f hf)
    exact System.attempts_moveFlight ht hf o hd hnil
  · rintro l hl rfl
    obtain rfl := hbegun _ (ht.landing_begun l hl)
    exact ht.landing_of_determines hl hd

/-! ## What a caller is told, and what happens then -/

/-- **What comes of a notice** that was answered like this, and left the gateway like
this. -/
structure Notified (g : Gateway) (ask : Key → Except Failure Identity) (channel : Channel)
    (n : Notice) (response : Response) (g' : Gateway) : Prop where
  /-- One event is queued and the caller is told so, exactly if the notice is accepted. -/
  accepted_iff : (∃ e, g'.system.queue.items = g.system.queue.items ++ [e])
      ∧ response.status = 200 ∧ response.sent = .json (.record [])
    ↔ ∃ person, g.Accepts ask n person
  /-- The event names the person, and it is this person who is called in the end, whatever
  happens to the gateway in between. -/
  queued : ∀ person, g.Accepts ask n person →
    ∃ e, g'.system.queue.items = g.system.queue.items ++ [e] ∧ n.Tells person channel e
      ∧ (g.Reachable → ∀ g'', Course g' g'' → Dispatches g''.system
          (Relay.admitted g.system.offers).length e person channel)
  /-- Otherwise nothing is queued, and the caller is told what is wrong first. -/
  refused : (¬ ∃ person, g.Accepts ask n person) → g'.system.queue = g.system.queue
    ∧ ∃ status code, g.Refuses ask n status code
      ∧ response.status = (if g.errorsAsOk then 200 else status)
      ∧ response.sent = .json (.record [("error", .text code)])

/-- **Every notice is accepted or refused as it should be**, in whatever state the gateway
is, and whatever the directory says. -/
theorem answer_notified (g : Gateway) (ask : Key → Except Failure Identity) {r : Request}
    {channel : Channel} {n : Notice} (posted : r.method = "POST")
    (path : r.path = "/make_call" ∧ channel = .phone ∨ r.path = "/send_sms" ∧ channel = .sms)
    (decoded : Notice.ofRequest r = .ok n) :
    g.Notified ask channel n (g.answer ask r).1 (g.answer ask r).2 := by
  have needs : channel.needsPhone = true := by
    rcases path with ⟨-, rfl⟩ | ⟨-, rfl⟩ <;> rfl
  have hreach : g.Reachable → ∀ g'', Course (g.answer ask r).2 g'' → g''.Reachable :=
    fun h g'' hc => h.course ((Relation.ReflTransGen.single (.answer ask r)).trans hc)
  have hanswer := answer_notice g ask posted path decoded
  have houtcome := notify_outcome g ask needs n
  rw [hanswer] at hreach ⊢
  generalize g.notify ask channel n = outcome at houtcome hreach
  cases houtcome with
  | @accepted person e s accepts tells queued admitted =>
    have hitems : s.queue.items = g.system.queue.items ++ [e] := by rw [queued]; rfl
    refine ⟨⟨fun _ => ⟨person, accepts⟩, fun _ => ⟨⟨e, hitems⟩, rfl, rfl⟩⟩, ?_, ?_⟩
    · intro other haccepts
      obtain rfl := accepts.concerns.unique haccepts.concerns
      refine ⟨e, hitems, tells, fun hg g'' hc => ?_⟩
      obtain ⟨hs, ht⟩ := (hreach hg g'' hc).sound
      obtain ⟨number, verified⟩ := accepts.verified
      refine dispatches_of_sound hs ht ?_ tells.delivery (verified.reachable channel)
      obtain ⟨later, hlater⟩ := hc.admitted_prefix
      rw [← hlater, show Relay.admitted _ = _ from admitted, List.append_assoc]
      exact List.getElem?_append_right (Nat.le_refl _) |>.trans (by simp)
    · intro hnone
      exact absurd ⟨person, accepts⟩ hnone
  | @refused failure s refuses untouched =>
    have hnone : ¬ ∃ person, g.Accepts ask n person := fun ⟨person, h⟩ =>
      refuses.not_accepts person h
    have hstatus := status_noticeResponse g.errorsAsOk failure
    have hsent := sent_noticeResponse g.errorsAsOk failure
    refine ⟨⟨fun h => ?_, fun h => absurd h hnone⟩, fun person h => absurd ⟨person, h⟩ hnone,
      fun _ => ⟨untouched, _, _, refuses, hstatus, hsent⟩⟩
    -- a caller who is told of a failure is not told of a success
    have hbody := hsent.symm.trans h.2.2
    simp at hbody

/-- A caller posts a form, and the person it is for is called later, although by then the
directory knows nobody any more. -/
theorem notified_then_forgotten :
    let ada : Identity :=
      { id := "1", email := "ada@x.org", phone := some "+491", phoneVerified := true }
    let ask := Directory.lookupIn [ada]
    let form : Request :=
      { method := "POST"
        target := "/make_call"
        contentType := some "application/x-www-form-urlencoded"
        body := Text.encode
          "email=ada%40x.org&message=fire&alert_id=alert-7&instance=db-1".toList }
    let n : Notice :=
      { email := "ada@x.org", message := "fire", alertId := some "alert-7", host := some "db-1" }
    let o : Relay.Outside :=
      { lookup := fun _ key => { answer := .error (.unknownPerson key.text) }
        call := fun _ _ => { answer := .ok () }
        append := fun _ _ => { answer := .ok () }
        fetch := fun _ schedule => { answer := .error (.fetch schedule.name) } }
    let fresh : Gateway := { system := .new {} 8 8 true 5000 {} }
    let asked := fresh.answer ask form
    let later := (asked.2.run (Directory.lookupIn []) o 50 .start).2
    (asked.1.status = 200 ∧ asked.2.system.queue.items.length = 1
      ∧ later.system.calls = [.push .phone ada "alert-7" "fire (instance: db-1)"])
      ∧ fresh.Notified ask .phone n asked.1 asked.2 := by
  intro ada ask form n o fresh asked later
  exact ⟨by decide +kernel,
    answer_notified fresh ask rfl (.inl ⟨by decide +kernel, rfl⟩) (by decide +kernel)⟩

end Gateway

end Rota
