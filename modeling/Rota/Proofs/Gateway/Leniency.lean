import Rota.Proofs.Gateway.Notification

/-!
# Rejections that are answered with 200

The gateway can be told to answer a rejected request to notify with status 200, so
that only the body says what is wrong. Which requests are rejected, and what becomes
of the gateway, does not depend on it; nor does the body of any answer.

The switch reaches every rejection of a request that can be read, whatever check it
fails (`Twin.rejected`). A request that cannot be read is turned down before the
switch is looked at: its answer is a line of text, with a status of its own, under
either setting (`Twin.unreadable`). So what the switch promises (`Lenient`) is kept
for a request exactly if the request can be read: `lenient_iff_readable`.
-/

namespace Rota.Gateway

/-- **The gateway with its switch set**: are rejections answered with 200? -/
def switchTo (g : Gateway) (errorsAsOk : Bool) : Gateway :=
  { g with errorsAsOk }

/-- **What the switch promises** of the answers to one request, the strict one and the
lenient one: the lenient one has status 200, and the same body, which is empty or
names a failure. -/
structure Lenient (strict lenient : Response) : Prop where
  status : lenient.status = 200
  body : lenient.sent = .json (.record [])
    ∨ ∃ failure : Failure, lenient.sent = .json (.record [("error", .text failure.code)])
  same : lenient.sent = strict.sent

/-- **The answers to one request** under either setting of the switch. -/
inductive Twin (r : Request) : Response → Response → Prop
  /-- The request is accepted. -/
  | accepted {n : Notice} (read : Notice.ofRequest r = .ok n) :
      Twin r (.ofJson 200 (.record [])) (.ofJson 200 (.record []))
  /-- The request is rejected for what it says, or for the state of the service. -/
  | rejected {n : Notice} (read : Notice.ofRequest r = .ok n) (failure : Failure) :
      Twin r (.ofJson (statusOf failure) (failureBody failure))
        (.ofJson 200 (failureBody failure))
  /-- The request cannot be read. -/
  | unreadable {rejection : Rejection} (read : Notice.ofRequest r = .error rejection) :
      Twin r rejection.response rejection.response

/-! ## What the switch leaves alone -/

section Notify

variable (g : Gateway) (ask : Key → Except Failure Identity)

/-- **A notice comes to the same** under either setting. -/
theorem notify_switchTo (b : Bool) (channel : Channel) (n : Notice) :
    (g.switchTo b).notify ask channel n
      = ((g.notify ask channel n).1, (g.notify ask channel n).2.switchTo b) := by
  unfold notify
  cases n.validate with
  | error failure => rfl
  | ok _ =>
    -- the service behind the gateway knows nothing of the switch
    simp only [show (g.switchTo b).system = g.system from rfl]
    rcases g.system.resolver.resolveFor g.system.clock (.email n.email) channel
      (ask (.email n.email)) with ⟨found, resolver⟩
    cases found with
    | error failure => rfl
    | ok person => rfl

end Notify

/-! ## The answers -/

section Answers

variable (g : Gateway) (ask : Key → Except Failure Identity) {r : Request} {channel : Channel}

/-- A request that cannot be read changes nothing. -/
theorem answer_unreadable {rejection : Rejection} (posted : r.method = "POST")
    (path : r.path = "/make_call" ∧ channel = .phone ∨ r.path = "/send_sms" ∧ channel = .sms)
    (unreadable : Notice.ofRequest r = .error rejection) :
    g.answer ask r = (rejection.response, g) := by
  rw [answer_posted g ask posted path]
  simp only [answerRoute, unreadable]
  rfl

/-- **The answers to a request**, and what they leave of the gateway. -/
theorem answer_switchTo (posted : r.method = "POST")
    (path : r.path = "/make_call" ∧ channel = .phone ∨ r.path = "/send_sms" ∧ channel = .sms) :
    Twin r ((g.switchTo false).answer ask r).1 ((g.switchTo true).answer ask r).1
      ∧ ((g.switchTo true).answer ask r).2 = ((g.switchTo false).answer ask r).2.switchTo true := by
  cases read : Notice.ofRequest r with
  | error rejection =>
    rw [answer_unreadable _ ask posted path read, answer_unreadable _ ask posted path read]
    exact ⟨.unreadable read, rfl⟩
  | ok n =>
    rw [answer_notice _ ask posted path read, answer_notice _ ask posted path read]
    simp only [notify_switchTo g ask]
    refine ⟨?_, rfl⟩
    show Twin r (noticeResponse false (g.notify ask channel n).1)
      (noticeResponse true (g.notify ask channel n).1)
    cases (g.notify ask channel n).1 with
    | ok _ => exact .accepted read
    | error failure => exact .rejected read failure

end Answers

theorem Rejection.status_ne_ok (rejection : Rejection) : rejection.status ≠ 200 := by
  cases rejection <;> decide

/-- **The promise is kept** exactly for the answers to a request that can be read. -/
theorem Twin.lenient_iff {r : Request} {strict lenient : Response} (h : Twin r strict lenient) :
    Lenient strict lenient ↔ ∃ n, Notice.ofRequest r = .ok n := by
  cases h with
  | accepted read => exact ⟨fun _ => ⟨_, read⟩, fun _ => ⟨rfl, .inl rfl, rfl⟩⟩
  | rejected read failure =>
    exact ⟨fun _ => ⟨_, read⟩, fun _ => ⟨rfl, .inr ⟨failure, rfl⟩, rfl⟩⟩
  | @unreadable rejection read =>
    refine ⟨fun hl => absurd hl.status rejection.status_ne_ok, fun ⟨n, hn⟩ => ?_⟩
    rw [read] at hn
    cases hn

/-- The switch changes no body. -/
theorem Twin.sent_eq {r : Request} {strict lenient : Response} (h : Twin r strict lenient) :
    lenient.sent = strict.sent := by
  cases h with
  | accepted _ => rfl
  | rejected _ _ => rfl
  | unreadable _ => rfl

/-- **Which rejections are answered with 200**: the switch keeps its promise for a request
to notify exactly if the request can be read. Under either setting the body is the same,
and the same becomes of the gateway. -/
theorem lenient_iff_readable (g : Gateway) (ask : Key → Except Failure Identity) {r : Request}
    (posted : r.method = "POST") (path : r.path = "/make_call" ∨ r.path = "/send_sms") :
    let strict := (g.switchTo false).answer ask r
    let lenient := (g.switchTo true).answer ask r
    (Lenient strict.1 lenient.1 ↔ ∃ n, Notice.ofRequest r = .ok n)
      ∧ Twin r strict.1 lenient.1
      ∧ lenient.1.sent = strict.1.sent
      ∧ lenient.2 = strict.2.switchTo true := by
  intro strict lenient
  obtain ⟨channel, path⟩ := exists_channel path
  obtain ⟨twin, state⟩ := answer_switchTo g ask posted path
  exact ⟨twin.lenient_iff, twin, twin.sent_eq, state⟩

/-- A form for somebody whom nobody knows can be read, and so its rejection is answered
with 404 or with 200, as the switch says. -/
theorem lenient_unknown_person :
    let g : Gateway := { system := .new {} 8 8 true 5000 {} }
    let form : Request :=
      { method := "POST"
        target := "/send_sms"
        contentType := some "application/x-www-form-urlencoded"
        body := Text.encode "email=ada%40x.org&message=fire".toList }
    let strict := (g.switchTo false).answer (Directory.lookupIn []) form
    let lenient := (g.switchTo true).answer (Directory.lookupIn []) form
    strict.1.status = 404 ∧ Lenient strict.1 lenient.1 := by
  intro g form strict lenient
  have readable : Notice.ofRequest form = .ok { email := "ada@x.org", message := "fire" } := by
    decide +kernel
  have h := lenient_iff_readable g (Directory.lookupIn []) (r := form) rfl
    (.inr (by decide +kernel))
  exact ⟨by decide +kernel, h.1.2 ⟨_, readable⟩⟩

/-- **Not every rejection is answered with 200**: a body in JSON that gives null for the
address is answered with 422 whatever the switch says, and its body is no JSON. -/
theorem exists_not_lenient :
    ¬ ∀ (g : Gateway) (ask : Key → Except Failure Identity) (r : Request),
      r.method = "POST" → (r.path = "/make_call" ∨ r.path = "/send_sms") →
        Lenient ((g.switchTo false).answer ask r).1 ((g.switchTo true).answer ask r).1 := by
  intro h
  let request : Request :=
    { method := "POST"
      target := "/make_call"
      contentType := some "application/json"
      body := Text.encode "\x7b\"email\":null,\"message\":\"m\"\x7d".toList }
  have hl := h { system := .new {} 8 8 true 5000 {} } (Directory.lookupIn []) request rfl
    (.inl (by decide +kernel))
  have hstatus := hl.status
  revert hstatus
  decide +kernel

end Rota.Gateway
