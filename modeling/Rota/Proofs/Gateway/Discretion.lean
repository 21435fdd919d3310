import Rota.Proofs.Gateway.Course

/-!
# Only verified numbers are called

A number is called, or sent a text, only if it was verified. It does not matter
where the event came from, whether its recipient was known from the start, was
found in the directory or stood in from the cache, and what happened in between.
Whoever has no such number is not called at all, and the delivery has failed.

`Discreet` says this of a service at one moment, and `Reachable.discreet` that it
is so in every state that a gateway can be in.
-/

namespace Rota

/-! ## Numbers -/

/-- **A person has a verified number**: it is there, is not empty, and was verified. -/
structure Identity.HasVerified (person : Identity) (number : String) : Prop where
  phone : person.phone = some number
  nonempty : number ≠ ""
  verified : person.phoneVerified = true

theorem Identity.verifiedPhone_eq_some_iff (person : Identity) (number : String) :
    person.verifiedPhone = some number ↔ person.HasVerified number := by
  unfold verifiedPhone
  constructor
  · intro h
    split at h
    · next n hn =>
      split at h
      · next hv =>
        cases h
        simp only [Bool.and_eq_true, Bool.not_eq_true', String.isEmpty_eq_false_iff] at hv
        exact ⟨hn, hv.2, hv.1⟩
      · cases h
    · cases h
  · rintro ⟨hn, hne, hv⟩
    simp [hn, hv, hne]

theorem Identity.verifiedPhone_eq_none_iff (person : Identity) :
    person.verifiedPhone = none ↔ ∀ number, ¬ person.HasVerified number := by
  rw [Option.eq_none_iff_forall_ne_some]
  simp only [ne_eq, verifiedPhone_eq_some_iff]

/-- **Who can be reached** by a call or a text has a verified number, and it is the number
that is called. -/
theorem Identity.verified_of_reachable {person : Identity} {channel : Channel}
    (h : person.reachable channel = .ok ()) (needs : channel.needsPhone = true) :
    ∃ number, person.HasVerified number ∧ person.contact channel = number := by
  obtain ⟨number, hn⟩ := (person.reachable_eq_ok_iff channel).1 h needs
  refine ⟨number, (person.verifiedPhone_eq_some_iff number).1 hn, ?_⟩
  cases channel with
  | phone | sms => simp [contact, hn]
  | slack => cases needs

/-- Who has a verified number can be reached over every channel. -/
theorem Identity.HasVerified.reachable {person : Identity} {number : String}
    (h : person.HasVerified number) (channel : Channel) : person.reachable channel = .ok () :=
  (person.reachable_eq_ok_iff channel).2 fun _ =>
    ⟨number, (person.verifiedPhone_eq_some_iff number).2 h⟩

namespace Relay.System

open Rota.Audit (Record)

/-! ## Who turns out to be the recipient -/

/-- **Whom a delivery meets** when it goes on: the person named in its event; or the one
whom the key of its event leads to, when the directory has answered or takes too long. -/
inductive Meets (s : System) (f : Flight) : Identity → Channel → Prop
  | named {person : Identity} {channel : Channel} (fresh : f.progress = .fresh)
      (delivery : f.event.delivery = .push (.resolved person) channel) : Meets s f person channel
  | found {key : Key} {person : Identity} {channel : Channel} {due : Nat}
      {answer : Option (Except Failure Identity)}
      (asking : f.progress = .asking key channel due answer) (due : due ≤ s.now)
      (leads : s.resolver.LeadsTo s.clock key (Directory.Resolver.heard key answer) person) :
      Meets s f person channel

/-- **A delivery ends without a call** in its next move. -/
def EndsUncalled (o : Outside) (s : System) (f : Flight) : Prop :=
  (s.moveFlight o f.number).attempts = s.attempts ∧ ∃ r,
    (s.moveFlight o f.number).landings
        = { number := f.number, event := f.event, record := r } :: s.landings
      ∧ r.success = false

theorem endsUncalled_of_land {o : Outside} {s t : System} {f : Flight} {r : Record}
    (h : s.moveFlight o f.number = t.land f r) (ha : t.attempts = s.attempts)
    (hl : t.landings = s.landings) (hr : r.success = false) : s.EndsUncalled o f := by
  have hland := congrArg Outbound.attempts (outbound_land t f r)
  have hlandings := congrArg Outbound.landings (outbound_land t f r)
  unfold EndsUncalled
  rw [h]
  refine ⟨hland.trans ha, r, hlandings.trans ?_, hr⟩
  show _ :: t.landings = _
  rw [hl]

/-- **Whoever has no verified number is not called**: the delivery ends in the move in
which it meets that person. -/
theorem Meets.endsUncalled {s : System} (h : s.outbound.Traced) {f : Flight}
    (hf : f ∈ s.flights) {person : Identity} {channel : Channel}
    (meets : s.Meets f person channel) (needs : channel.needsPhone = true)
    (unverified : ∀ number, ¬ person.HasVerified number) (o : Outside) : s.EndsUncalled o f := by
  have hnot : person.reachable channel ≠ .ok () := by
    intro hr
    obtain ⟨number, hv, -⟩ := Identity.verified_of_reachable hr needs
    exact unverified number hv
  cases meets with
  | named fresh delivery =>
    cases hr : person.reachable channel with
    | ok _ => exact absurd hr hnot
    | error failure =>
      have first : Beginning.of s.settings.time f.event
          = .known (.unreached s.settings.time f.event person.id failure) := by
        simp only [Beginning.of, delivery, hr]
      exact endsUncalled_of_land (moveFlight_known h hf o fresh first) rfl rfl rfl
  | @found key _ channel _ answer asking due leads =>
    have hmove := moveFlight_asking h hf o asking due
    have hfound := s.resolver.resolveFor_found s.clock key channel
      (Directory.Resolver.heard key answer)
    dsimp only at hmove
    generalize s.resolver.resolveFor s.clock key channel
      (Directory.Resolver.heard key answer) = found at hmove hfound
    obtain ⟨result, resolver⟩ := found
    cases result with
    | ok other =>
      -- nobody but that person could have been found
      cases hfound with
      | reached hl hr => exact absurd (hl.unique leads ▸ hr) hnot
    | error failure => exact endsUncalled_of_land hmove rfl rfl rfl

/-! ## Who is called, and who is not -/

/-- **Only verified numbers are called.** -/
structure Discreet (s : System) : Prop where
  /-- A call or a text goes to a verified number, and this number is in the record of its
  delivery. -/
  called : ∀ a ∈ s.attempts, ∀ channel person id text, a.call = .push channel person id text →
    channel.needsPhone = true → ∃ number, person.HasVerified number
      ∧ ∀ l ∈ s.landings, l.number = a.number → l.record.recipient = number
  /-- What was to be called or texted has ended with one such call, or uncalled and
  failed. -/
  ended : ∀ l ∈ s.landings, ∀ recipient channel, l.event.delivery = .push recipient channel →
    channel.needsPhone = true →
      (∃ person number, s.outbound.callsOf l.number
          = [.push channel person l.event.id l.event.message]
        ∧ person.HasVerified number ∧ l.record.recipient = number)
      ∨ s.outbound.callsOf l.number = [] ∧ l.record.success = false
  /-- A person named in an event who has no verified number is never called. -/
  unverified : ∀ number event person channel, s.begun.reverse[number]? = some event →
    event.delivery = .push (.resolved person) channel → channel.needsPhone = true →
    (∀ n, ¬ person.HasVerified n) → s.outbound.callsOf number = []
      ∧ ∀ l ∈ s.landings, l.number = number → l.record.success = false
  /-- Whoever a delivery meets without a verified number, it ends uncalled. -/
  spared : ∀ f ∈ s.flights, ∀ person channel, s.Meets f person channel →
    channel.needsPhone = true → (∀ n, ¬ person.HasVerified n) →
      s.outbound.callsOf f.number = [] ∧ ∀ o, s.EndsUncalled o f
  /-- The records of the deliveries are those offered to the audit log. -/
  recorded : s.pipeline.offered = s.landings.map Landing.record

/-- Whoever is called for an event that names somebody without a verified number – nobody
is. -/
theorem not_tells_of_unverified {call : Call} {event : Event} {whom : Addressee}
    {person : Identity} {channel : Channel}
    (delivery : event.delivery = .push (.resolved person) channel)
    (needs : channel.needsPhone = true) (unverified : ∀ n, ¬ person.HasVerified n) :
    ¬ call.Tells event whom := by
  intro h
  obtain ⟨other, -, -, hr, hnamed⟩ := h.of_push delivery
  obtain ⟨number, hv, -⟩ := Identity.verified_of_reachable (hnamed person rfl ▸ hr) needs
  exact unverified number hv

/-- The calls made so far for a delivery that meets somebody: none. -/
theorem Meets.callsOf_eq_nil {s : System} (h : s.outbound.Traced) {f : Flight}
    (hf : f ∈ s.flights) {person : Identity} {channel : Channel}
    (meets : s.Meets f person channel) : s.outbound.callsOf f.number = [] := by
  refine (h.flight f hf).eq_nil fun whom due answer hc => ?_
  cases meets with
  | named fresh _ => rw [fresh] at hc; cases hc
  | found asking _ _ => rw [asking] at hc; cases hc

theorem discreet_of_traced {s : System} (h : s.outbound.Traced)
    (hrecords : s.pipeline.offered = s.landings.map Landing.record) : s.Discreet where
  called := by
    intro a ha channel person id text hcall needs
    obtain ⟨event, whom, htells, hrecord⟩ := h.attempt ha
    rw [hcall] at htells
    obtain ⟨hr, rfl⟩ := htells.reachable
    obtain ⟨number, hv, hcontact⟩ := Identity.verified_of_reachable hr needs
    exact ⟨number, hv, fun l hl hn => (hrecord l hl hn).2.2.trans hcontact⟩
  ended := by
    intro l hl recipient channel delivery needs
    have ht := h.landing l hl
    generalize s.outbound.callsOf l.number = calls at ht
    cases ht with
    | missed missed => exact .inr ⟨rfl, missed.failed⟩
    | called tells _ hrecipient =>
      obtain ⟨person, rfl, rfl, hr, -⟩ := tells.of_push delivery
      obtain ⟨number, hv, hcontact⟩ := Identity.verified_of_reachable hr needs
      exact .inl ⟨person, number, rfl, hv, hrecipient.trans hcontact⟩
  unverified := by
    intro number event person channel begun delivery needs unverified
    have hnot : ∀ call whom, ¬ Call.Tells call event whom := fun _ _ =>
      not_tells_of_unverified delivery needs unverified
    refine ⟨(h.calls begun).resolve_right ?_, fun l hl hn => ?_⟩
    · rintro ⟨call, whom, -, htells⟩
      exact hnot call whom htells
    · have hbegun := h.landing_begun l hl
      rw [hn] at hbegun
      obtain rfl := Option.some.inj (begun.symm.trans hbegun)
      have ht := h.landing l hl
      generalize s.outbound.callsOf l.number = calls at ht
      cases ht with
      | missed missed => exact missed.failed
      | called tells _ _ => exact absurd tells (hnot _ _)
  spared := fun f hf person channel meets needs unverified =>
    ⟨meets.callsOf_eq_nil h hf, meets.endsUncalled h hf needs unverified⟩
  recorded := hrecords

end Relay.System

namespace Gateway

/-- **Only verified numbers are called**, in every state that a gateway can be in. -/
theorem Reachable.discreet {g : Gateway} (h : g.Reachable) : g.system.Discreet :=
  Relay.System.discreet_of_traced h.sound.2 h.sound.1.conserved.handed_eq

/-- A gateway that was asked to call somebody with a verified number, and whose service
was then given two events for somebody without one: an id to look up, and the person
themselves. One call is made, and three deliveries end. -/
theorem discreet_three_calls :
    let ada : Identity :=
      { id := "1", email := "ada@x.org", phone := some "+491", phoneVerified := true }
    let bob : Identity := { id := "2", email := "bob@x.org", phone := some "+492" }
    let ask := Directory.lookupIn [ada, bob]
    let o : Relay.Outside :=
      { lookup := fun _ key => { answer := ask key }
        call := fun _ _ => { answer := .ok () }
        append := fun _ _ => { answer := .ok () }
        fetch := fun _ schedule => { answer := .error (.fetch schedule.name) } }
    let form : Request :=
      { method := "POST"
        target := "/make_call"
        contentType := some "application/x-www-form-urlencoded"
        body := Text.encode "email=ada%40x.org&message=fire".toList }
    let event (recipient : Recipient) (channel : Channel) : Event :=
      { id := "a", delivery := .push recipient channel, title := "t", message := "m" }
    let fresh : Gateway := { system := .new {} 8 8 true 5000 {} }
    let called := (fresh.answer ask form).2
    let asked := (called.run ask o 50 (.enqueue (event (.lookup (.userId "2")) .phone))).2
    let named := (asked.run ask o 50 (.enqueue (event (.resolved bob) .sms))).2
    let g := (named.run ask o 50 .start).2
    (g.system.calls = [.push .phone ada "00000000-0000-4000-8000-000000000000" "fire"]
      ∧ g.system.landings.map (fun l => (l.number, l.record.recipient, l.record.success))
        = [(2, "", false), (1, "", false), (0, "+491", true)])
      ∧ g.system.Discreet := by
  intro ada bob ask o form event fresh called asked named g
  have hfresh : fresh.Reachable := ⟨fresh, _, _, _, _, _, _, rfl, .refl⟩
  have hcalled : Course fresh called := .single (.answer ask form)
  have hasked : Course called asked :=
    course_run called ask o 50 _ (by decide +kernel) (by decide +kernel) rfl
  have hnamed : Course asked named :=
    course_run asked ask o 50 _ (by decide +kernel) (by decide +kernel) rfl
  have hg : Course named g :=
    course_run named ask o 50 _ (by decide +kernel) (by decide +kernel) rfl
  exact ⟨by decide +kernel,
    Reachable.discreet (hfresh.course (((hcalled.trans hasked).trans hnamed).trans hg))⟩

end Gateway

end Rota
