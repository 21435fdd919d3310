import Rota.Proofs.Relay.Accounts
import Rota.Proofs.Relay.Outbound

/-!
# Which call was made for which event

Every delivery has a number. `Call.Tells` says which call tells whom of an
event, and `Traced` that it is the only one made under the number of a delivery:
there is none before the delivery has made its call, exactly one from then on,
and the record in the end names the person who was called. A delivery that ended
without a call has failed, and names nobody.

`Traced` is kept by every step on the way out (`Traced.step`), and so by
whatever happens.
-/

namespace Rota.Relay

open Rota.Audit (Record)

/-! ## Calls and events -/

/-- **Which call tells whom of an event.** A push is for somebody who can be reached. -/
inductive Call.Tells : Call → Event → Addressee → Prop
  | callback {event : Event} {url : String} (delivery : event.delivery = .callback url) :
      Tells (.post url event.payload) event ⟨event.origin.member, url⟩
  /-- The event says whom it is for. -/
  | known {event : Event} {person : Identity} {channel : Channel}
      (delivery : event.delivery = .push (.resolved person) channel)
      (reachable : person.reachable channel = .ok ()) :
      Tells (.push channel person event.id event.message) event
        ⟨person.id, person.contact channel⟩
  /-- Somebody was found under the key of the event. -/
  | found {event : Event} {key : Key} {person : Identity} {channel : Channel}
      (delivery : event.delivery = .push (.lookup key) channel)
      (reachable : person.reachable channel = .ok ()) :
      Tells (.push channel person event.id event.message) event
        ⟨person.id, person.contact channel⟩

/-- The call for an event that is a push reaches somebody over the channel of the event,
and says what the event says; it is the person named in the event, if there is one. -/
theorem Call.Tells.of_push {call : Call} {event : Event} {whom : Addressee}
    {recipient : Recipient} {channel : Channel} (h : call.Tells event whom)
    (delivery : event.delivery = .push recipient channel) :
    ∃ person, call = .push channel person event.id event.message
      ∧ whom = ⟨person.id, person.contact channel⟩ ∧ person.reachable channel = .ok ()
      ∧ ∀ named, recipient = .resolved named → person = named := by
  cases h with
  | callback hd => rw [hd] at delivery; cases delivery
  | known hd hr =>
    rw [hd] at delivery
    cases delivery
    exact ⟨_, rfl, rfl, hr, fun named hn => Recipient.resolved.inj hn⟩
  | found hd hr =>
    rw [hd] at delivery
    cases delivery
    exact ⟨_, rfl, rfl, hr, nofun⟩

/-- Who is called over a channel can be reached there. -/
theorem Call.Tells.reachable {channel : Channel} {person : Identity} {id text : String}
    {event : Event} {whom : Addressee} (h : (Call.push channel person id text).Tells event whom) :
    person.reachable channel = .ok () ∧ whom = ⟨person.id, person.contact channel⟩ := by
  cases h with
  | known _ hr | found _ hr => exact ⟨hr, rfl⟩

/-- **An event itself says** which call is to be made. -/
def Determines (e : Event) (call : Call) (whom : Addressee) : Prop :=
  ∃ time, Beginning.of time e = .known (.calling call whom)

namespace Determines

variable {e : Event} {call : Call} {whom : Addressee}

theorem tells (h : Determines e call whom) : call.Tells e whom := by
  obtain ⟨time, h⟩ := h
  unfold Beginning.of at h
  split at h
  · next hd =>
    cases h
    exact .callback hd
  · cases h
  · next person channel hd =>
    split at h
    · next hr =>
      cases h
      exact .known hd hr
    · cases h

/-- Then no other call tells of it. -/
theorem eq_of_tells (h : Determines e call whom) {call' : Call} {whom' : Addressee}
    (ht : call'.Tells e whom') : call' = call ∧ whom' = whom := by
  obtain ⟨time, h⟩ := h
  cases ht with
  | callback hd =>
    simp only [Beginning.of, hd] at h
    cases h
    exact ⟨rfl, rfl⟩
  | known hd hr =>
    simp only [Beginning.of, hd, hr, Next.reaching] at h
    cases h
    exact ⟨rfl, rfl⟩
  | found hd _ =>
    simp only [Beginning.of, hd] at h
    cases h

/-- It says so at any time. -/
theorem beginning (h : Determines e call whom) (time : Time.Timestamp) :
    Beginning.of time e = .known (.calling call whom) := by
  obtain ⟨time', h⟩ := h
  rw [← h]
  unfold Beginning.of at h ⊢
  split at h
  · rfl
  · rfl
  · split at h
    · rfl
    · cases h

end Determines

/-- An event for somebody who can be reached says so. -/
theorem determines_of_reachable {e : Event} {person : Identity} {channel : Channel}
    (delivery : e.delivery = .push (.resolved person) channel)
    (reachable : person.reachable channel = .ok ()) :
    Determines e (.push channel person e.id e.message) ⟨person.id, person.contact channel⟩ := by
  refine ⟨.epoch, ?_⟩
  simp only [Beginning.of, delivery, reachable]
  rfl

/-- **A delivery that ends without a call** has failed, and its record names no
recipient; the event itself did not say which call to make. -/
structure Missed (e : Event) (r : Record) : Prop where
  failed : r.success = false
  nobody : r.recipient = ""
  undetermined : ∀ call whom, ¬ Determines e call whom

theorem missed_of_beginning {time : Time.Timestamp} {e : Event} {r : Record}
    (h : Beginning.of time e = .known (.ended r)) : Missed e r := by
  have hundetermined : ∀ call whom, ¬ Determines e call whom := by
    intro call whom hd
    rw [hd.beginning time] at h
    cases h
  unfold Beginning.of at h
  split at h
  · cases h
  · cases h
  · split at h
    · cases h
    · cases h
      exact ⟨rfl, rfl, hundetermined⟩

namespace Flight

/-- **What was called for a delivery under way**, as far as it has got. -/
inductive Traces (f : Flight) : List Call → Prop
  | fresh (fresh : f.progress = .fresh) : Traces f []
  | asking {key : Key} {channel : Channel} {due : Nat} {answer : Option (Except Failure Identity)}
      (asking : f.progress = .asking key channel due answer)
      (delivery : f.event.delivery = .push (.lookup key) channel) : Traces f []
  | calling {call : Call} {whom : Addressee} {due : Nat} {answer : Option (Except Failure Unit)}
      (calling : f.progress = .calling whom due answer) (tells : call.Tells f.event whom) :
      Traces f [call]

variable {f : Flight} {calls : List Call}

/-- A delivery that has not made its call yet. -/
theorem Traces.eq_nil (h : f.Traces calls)
    (hp : ∀ whom due answer, f.progress ≠ .calling whom due answer) : calls = [] := by
  cases h with
  | fresh _ | asking _ _ => rfl
  | calling hc _ => exact absurd hc (hp _ _ _)

theorem Traces.delivery (h : f.Traces calls) {key : Key} {channel : Channel} {due : Nat}
    {answer : Option (Except Failure Identity)} (hp : f.progress = .asking key channel due answer) :
    f.event.delivery = .push (.lookup key) channel := by
  cases h with
  | fresh hf => rw [hf] at hp; cases hp
  | asking ha hd =>
    rw [ha] at hp
    cases hp
    exact hd
  | calling hc _ => rw [hc] at hp; cases hp

/-- A delivery that waits for the answer to its call has made it. -/
theorem Traces.called (h : f.Traces calls) {whom : Addressee} {due : Nat}
    {answer : Option (Except Failure Unit)} (hp : f.progress = .calling whom due answer) :
    ∃ call : Call, calls = [call] ∧ call.Tells f.event whom := by
  cases h with
  | fresh hf => rw [hf] at hp; cases hp
  | asking ha _ => rw [ha] at hp; cases hp
  | calling hc tells =>
    rw [hc] at hp
    cases hp
    exact ⟨_, rfl, tells⟩

/-- **The call that a delivery is ready for** is its first one, and tells of its event. -/
theorem Traces.ready_calling (h : f.Traces calls) {call : Call} {whom : Addressee}
    (ready : f.Ready (.calling call whom)) : calls = [] ∧ call.Tells f.event whom := by
  cases ready with
  | known fresh first =>
    exact ⟨h.eq_nil (by rw [fresh]; exact nofun), Determines.tells ⟨_, first⟩⟩
  | found asking reachable =>
    exact ⟨h.eq_nil (by rw [asking]; exact nofun), .found (h.delivery asking) reachable⟩

/-- **A delivery that is ready to end** has made no call. -/
theorem Traces.ready_ended (h : f.Traces calls) {r : Record} (ready : f.Ready (.ended r)) :
    calls = [] ∧ Missed f.event r := by
  cases ready with
  | known fresh first =>
    exact ⟨h.eq_nil (by rw [fresh]; exact nofun), missed_of_beginning first⟩
  | unfound failure asking =>
    refine ⟨h.eq_nil (by rw [asking]; exact nofun), rfl, rfl, ?_⟩
    rintro call whom ⟨time, hb⟩
    simp only [Beginning.of, h.delivery asking] at hb
    cases hb

end Flight

/-- **What was called for a delivery that has ended**: nothing, and it was missed; or one
call that tells of its event, and its record names the one who was called. -/
inductive Landing.Traces (l : Landing) : List Call → Prop
  | missed (missed : Missed l.event l.record) : Traces l []
  | called {call : Call} {whom : Addressee} (tells : call.Tells l.event whom)
      (userId : l.record.userId = whom.userId) (recipient : l.record.recipient = whom.recipient) :
      Traces l [call]

/-- A call that was answered, or not, leaves a record that names the one who was
called. -/
theorem recordOf_names (time : Time.Timestamp) (e : Event) (whom : Addressee)
    (heard : Except Failure Unit) :
    (recordOf time e whom heard).userId = whom.userId
      ∧ (recordOf time e whom heard).recipient = whom.recipient := by
  cases heard <;> exact ⟨rfl, rfl⟩

namespace Outbound

/-! ## Numbers -/

/-- The calls made under a number, the latest first. -/
def callsOf (b : Outbound) (number : Nat) : List Call :=
  (b.attempts.filter (·.number = number)).map Attempt.call

/-- The numbers of the deliveries under way and of those that have ended. -/
def numbers (b : Outbound) : List Nat :=
  b.flights.map Flight.number ++ b.landings.map Landing.number

@[simp] theorem numbers_setProgress (b : Outbound) (number : Nat) (p : Progress) :
    (b.setProgress number p).numbers = b.numbers := by
  unfold numbers setProgress
  rw [List.map_map]
  congr 1
  refine List.map_congr_left fun f _ => ?_
  by_cases hf : f.number = number <;> simp [hf]

/-- Whoever goes on after `setProgress` is that delivery, or another one as it was. -/
theorem mem_setProgress {b : Outbound} {f g : Flight} {p : Progress}
    (hn : (b.flights.map Flight.number).Nodup) (hf : f ∈ b.flights)
    (hg : g ∈ (b.setProgress f.number p).flights) :
    g ∈ b.flights ∧ g.number ≠ f.number ∨ g = { f with progress := p } := by
  obtain ⟨g', hg', rfl⟩ := List.mem_map.1 hg
  by_cases hne : g'.number = f.number
  · have he : g' = f := List.inj_on_of_nodup_map hn hg' hf hne
    subst he
    exact .inr (if_pos rfl)
  · rw [if_neg hne]
    exact .inl ⟨hg', hne⟩

/-- A delivery that ends keeps its number. -/
theorem numbers_land {b : Outbound} {f : Flight} (hn : (b.flights.map Flight.number).Nodup)
    (hf : f ∈ b.flights) (r : Record) : (b.land f r).numbers.Perm b.numbers := by
  let pair : Flight → Nat × Event := fun f => (f.number, f.event)
  have hfst : ∀ l : List Flight, (l.map pair).map Prod.fst = l.map Flight.number := by
    intro l
    rw [List.map_map]
    rfl
  have hperm := (Ledger.perm_land (by rw [hfst]; exact hn)
    (List.mem_map_of_mem (f := pair) hf)).map Prod.fst
  rw [List.filter_map, List.map_cons, hfst, hfst] at hperm
  exact List.perm_middle.trans (hperm.symm.append_right _)

/-- Nothing was called under a number that no call has. -/
theorem callsOf_eq_nil {b : Outbound} {number : Nat} (h : ∀ a ∈ b.attempts, a.number ≠ number) :
    b.callsOf number = [] := by
  rw [callsOf, List.map_eq_nil_iff, List.filter_eq_nil_iff]
  intro a ha
  simpa using h a ha

/-! ## Every delivery can be traced -/

/-- **Every delivery can be traced** by its number: to the event whose delivery was begun
as the one with this number, and to the call that was made for it, if one was. -/
structure Traced (b : Outbound) : Prop where
  launched_eq : b.launched = b.begun.length
  nodup : b.numbers.Nodup
  numbered : ∀ n, n ∈ b.numbers ↔ n < b.launched
  attempted : ∀ a ∈ b.attempts, a.number < b.launched
  flight_begun : ∀ f ∈ b.flights, b.begun.reverse[f.number]? = some f.event
  landing_begun : ∀ l ∈ b.landings, b.begun.reverse[l.number]? = some l.event
  flight : ∀ f ∈ b.flights, f.Traces (b.callsOf f.number)
  landing : ∀ l ∈ b.landings, l.Traces (b.callsOf l.number)

namespace Traced

variable {b c : Outbound} {f : Flight}

theorem nodup_flights (h : b.Traced) : (b.flights.map Flight.number).Nodup :=
  h.nodup.of_append_left

/-- No delivery that has ended has the number of one under way. -/
theorem number_ne (h : b.Traced) (hf : f ∈ b.flights) {l : Landing} (hl : l ∈ b.landings) :
    l.number ≠ f.number := by
  intro he
  exact (List.nodup_append.1 h.nodup).2.2 _ (List.mem_map_of_mem hf) _ (List.mem_map_of_mem hl)
    he.symm

theorem launch (h : b.Traced) (e : Event) :
    Traced { b with
      flights := b.flights ++ [{ number := b.launched, event := e }]
      launched := b.launched + 1
      begun := e :: b.begun } := by
  have hlt : ∀ n ∈ b.numbers, n < b.launched := fun n hn => (h.numbered n).1 hn
  -- the event is the last one begun, and the others are where they were
  have hold : ∀ {n : Nat} {e' : Event}, b.begun.reverse[n]? = some e' →
      (e :: b.begun).reverse[n]? = some e' := by
    intro n e' hn
    rw [List.reverse_cons, List.getElem?_append_left (List.getElem?_eq_some_iff.1 hn).1]
    exact hn
  have hperm : (b.flights.map Flight.number ++ [b.launched]
      ++ b.landings.map Landing.number).Perm (b.launched :: b.numbers) := by
    rw [List.append_assoc]
    exact List.perm_middle
  have hnumbers : ∀ n, n ∈ b.flights.map Flight.number ++ [b.launched]
      ++ b.landings.map Landing.number ↔ n = b.launched ∨ n ∈ b.numbers := by
    intro n
    rw [hperm.mem_iff, List.mem_cons]
  refine {
    launched_eq := by rw [h.launched_eq]; rfl
    nodup := ?_
    numbered := fun n => ?_
    attempted := fun a ha => Nat.lt_succ_of_lt (h.attempted a ha)
    flight_begun := fun g hg => ?_
    landing_begun := fun l hl => hold (h.landing_begun l hl)
    flight := fun g hg => ?_
    landing := h.landing }
  · show (List.map Flight.number (b.flights ++ [_]) ++ _).Nodup
    rw [List.map_append, List.map_singleton, hperm.nodup_iff, List.nodup_cons]
    exact ⟨fun hm => Nat.lt_irrefl _ (hlt _ hm), h.nodup⟩
  · show n ∈ List.map Flight.number (b.flights ++ [_]) ++ _ ↔ n < b.launched + 1
    rw [List.map_append, List.map_singleton, hnumbers, h.numbered]
    omega
  · rcases List.mem_append.1 hg with hg | hg
    · exact hold (h.flight_begun g hg)
    · rw [List.mem_singleton.1 hg, h.launched_eq, List.reverse_cons, ← List.length_reverse]
      exact List.getElem?_concat_length
  · rcases List.mem_append.1 hg with hg | hg
    · exact h.flight g hg
    · rw [List.mem_singleton.1 hg]
      have hnil : b.callsOf b.launched = [] :=
        callsOf_eq_nil fun a ha => Nat.ne_of_lt (h.attempted a ha)
      show Flight.Traces _ (b.callsOf b.launched)
      rw [hnil]
      exact .fresh rfl

/-- **A delivery goes on**, and perhaps a call was made for it. -/
theorem goOn (h : b.Traced) (hf : f ∈ b.flights) {p : Progress} (calls : List Call)
    (ht : ({ f with progress := p } : Flight).Traces (calls ++ b.callsOf f.number)) :
    (({ b with attempts := calls.map (⟨f.number, ·⟩) ++ b.attempts } :
      Outbound).setProgress f.number p).Traced := by
  let b' : Outbound := { b with attempts := calls.map (⟨f.number, ·⟩) ++ b.attempts }
  have hlt : f.number < b.launched :=
    (h.numbered _).1 (List.mem_append_left _ (List.mem_map_of_mem hf))
  -- what was called for the others is what it was
  have hother : ∀ n, n ≠ f.number → b'.callsOf n = b.callsOf n := by
    intro n hn
    have hnone : (calls.map (Attempt.mk f.number)).filter (·.number = n) = [] := by
      simp [Ne.symm hn]
    show ((_ ++ b.attempts).filter _).map _ = _
    rw [List.filter_append, hnone]
    rfl
  have hown : b'.callsOf f.number = calls ++ b.callsOf f.number := by
    have hall : (calls.map (Attempt.mk f.number)).filter (·.number = f.number)
        = calls.map (Attempt.mk f.number) := by
      simp
    show ((_ ++ b.attempts).filter _).map _ = _
    rw [List.filter_append, hall, List.map_append, List.map_map]
    exact congrArg (· ++ _) (List.map_id calls)
  refine {
    launched_eq := h.launched_eq
    nodup := by rw [numbers_setProgress]; exact h.nodup
    numbered := by rw [numbers_setProgress]; exact h.numbered
    attempted := fun a ha => ?_
    flight_begun := fun g hg => ?_
    landing_begun := h.landing_begun
    flight := fun g hg => ?_
    landing := fun l hl => ?_ }
  · rcases List.mem_append.1 ha with ha | ha
    · obtain ⟨call, -, rfl⟩ := List.mem_map.1 ha
      exact hlt
    · exact h.attempted a ha
  · rcases mem_setProgress (b := b') h.nodup_flights hf hg with ⟨hg, -⟩ | rfl
    · exact h.flight_begun g hg
    · exact h.flight_begun f hf
  · rcases mem_setProgress (b := b') h.nodup_flights hf hg with ⟨hg, hne⟩ | rfl
    · show g.Traces (b'.callsOf g.number)
      rw [hother _ hne]
      exact h.flight g hg
    · show Flight.Traces _ (b'.callsOf f.number)
      rw [hown]
      exact ht
  · show l.Traces (b'.callsOf l.number)
    rw [hother _ (h.number_ne hf hl)]
    exact h.landing l hl

/-- **A delivery ends**, and its record says what was called. -/
theorem land (h : b.Traced) (hf : f ∈ b.flights) {r : Record}
    (ht : ({ number := f.number, event := f.event, record := r } : Landing).Traces
      (b.callsOf f.number)) : (b.land f r).Traced := by
  have hperm := numbers_land h.nodup_flights hf r
  refine {
    launched_eq := h.launched_eq
    nodup := hperm.nodup_iff.2 h.nodup
    numbered := fun n => hperm.mem_iff.trans (h.numbered n)
    attempted := h.attempted
    flight_begun := fun g hg => h.flight_begun g (List.mem_of_mem_filter hg)
    landing_begun := fun l hl => ?_
    flight := fun g hg => h.flight g (List.mem_of_mem_filter hg)
    landing := fun l hl => ?_ }
  · rcases List.mem_cons.1 hl with rfl | hl
    · exact h.flight_begun f hf
    · exact h.landing_begun l hl
  · rcases List.mem_cons.1 hl with rfl | hl
    · exact ht
    · exact h.landing l hl

/-- **Every delivery can still be traced** after a step. -/
theorem step (h : b.Traced) (hs : b.Step c) : c.Traced := by
  cases hs with
  | same => exact h
  | write pipeline _ => exact { h with }
  | launch e => exact h.launch e
  | ask f hf fresh key channel delivery due answer =>
    have hnil := (h.flight f hf).eq_nil (by rw [fresh]; exact nofun)
    refine h.goOn hf [] ?_
    rw [hnil]
    exact .asking rfl delivery
  | call f hf call whom ready due answer =>
    obtain ⟨hnil, htells⟩ := (h.flight f hf).ready_calling ready
    refine h.goOn hf [call] ?_
    rw [hnil]
    exact .calling rfl htells
  | miss f hf r ready =>
    obtain ⟨hnil, hmissed⟩ := (h.flight f hf).ready_ended ready
    refine h.land hf ?_
    rw [hnil]
    exact .missed hmissed
  | hear f hf whom due answer calling time heard =>
    obtain ⟨made, hmade, htells⟩ := (h.flight f hf).called calling
    obtain ⟨huser, hrecipient⟩ := recordOf_names time f.event whom heard
    refine h.land hf ?_
    rw [hmade]
    exact .called htells huser hrecipient

end Traced

/-- A delivery that has begun is under way or has ended. -/
theorem Traced.of_begun {b : Outbound} (h : b.Traced) {number : Nat} {event : Event}
    (begun : b.begun.reverse[number]? = some event) :
    (∃ f ∈ b.flights, f.number = number ∧ f.event = event)
      ∨ ∃ l ∈ b.landings, l.number = number ∧ l.event = event := by
  have hlt : number < b.launched := by
    rw [h.launched_eq, ← List.length_reverse]
    exact (List.getElem?_eq_some_iff.1 begun).1
  rcases List.mem_append.1 ((h.numbered number).2 hlt) with hn | hn
  · obtain ⟨f, hf, rfl⟩ := List.mem_map.1 hn
    exact .inl ⟨f, hf, rfl, Option.some.inj ((h.flight_begun f hf).symm.trans begun)⟩
  · obtain ⟨l, hl, rfl⟩ := List.mem_map.1 hn
    exact .inr ⟨l, hl, rfl, Option.some.inj ((h.landing_begun l hl).symm.trans begun)⟩

/-- **At most one call** is made for the delivery of an event, and it tells of this
event. -/
theorem Traced.calls {b : Outbound} (h : b.Traced) {number : Nat} {event : Event}
    (begun : b.begun.reverse[number]? = some event) :
    b.callsOf number = []
      ∨ ∃ call whom, b.callsOf number = [call] ∧ Call.Tells call event whom := by
  rcases h.of_begun begun with ⟨f, hf, rfl, rfl⟩ | ⟨l, hl, rfl, rfl⟩
  · have ht := h.flight f hf
    generalize b.callsOf f.number = calls at ht
    cases ht with
    | fresh _ | asking _ _ => exact .inl rfl
    | calling _ tells => exact .inr ⟨_, _, rfl, tells⟩
  · have ht := h.landing l hl
    generalize b.callsOf l.number = calls at ht
    cases ht with
    | missed _ => exact .inl rfl
    | called tells _ _ => exact .inr ⟨_, _, rfl, tells⟩

/-- **The call that an event determines** is the only one made for its delivery. -/
theorem Traced.calls_of_determines {b : Outbound} (h : b.Traced) {number : Nat} {event : Event}
    (begun : b.begun.reverse[number]? = some event) {call : Call} {whom : Addressee}
    (hd : Determines event call whom) :
    b.callsOf number = [] ∨ b.callsOf number = [call] := by
  refine (h.calls begun).imp id ?_
  rintro ⟨call', whom', hcalls, htells⟩
  rw [hcalls, (hd.eq_of_tells htells).1]

/-- **A delivery whose event determines a call** ends with this call made. -/
theorem Traced.landing_of_determines {b : Outbound} (h : b.Traced) {l : Landing}
    (hl : l ∈ b.landings) {call : Call} {whom : Addressee} (hd : Determines l.event call whom) :
    b.callsOf l.number = [call] ∧ l.record.userId = whom.userId
      ∧ l.record.recipient = whom.recipient := by
  have ht := h.landing l hl
  generalize b.callsOf l.number = calls at ht
  cases ht with
  | missed missed => exact absurd hd (missed.undetermined _ _)
  | called tells huser hrecipient =>
    obtain ⟨rfl, rfl⟩ := hd.eq_of_tells tells
    exact ⟨rfl, huser, hrecipient⟩

/-- **Every call tells of an event**, and the record of its delivery, once it has ended,
names the one who was called. -/
theorem Traced.attempt {b : Outbound} (h : b.Traced) {a : Attempt} (ha : a ∈ b.attempts) :
    ∃ event whom, a.call.Tells event whom ∧ ∀ l ∈ b.landings, l.number = a.number →
      l.event = event ∧ l.record.userId = whom.userId
        ∧ l.record.recipient = whom.recipient := by
  have hcall : a.call ∈ b.callsOf a.number :=
    List.mem_map_of_mem (List.mem_filter.2 ⟨ha, by simp⟩)
  rcases List.mem_append.1 ((h.numbered _).2 (h.attempted a ha)) with hn | hn
  · obtain ⟨f, hf, hfn⟩ := List.mem_map.1 hn
    have ht := h.flight f hf
    rw [hfn] at ht
    generalize b.callsOf a.number = calls at ht hcall
    cases ht with
    | fresh _ | asking _ _ => cases hcall
    | calling _ tells =>
      rw [List.mem_singleton.1 hcall]
      exact ⟨_, _, tells, fun l hl hln => absurd (hln.trans hfn.symm) (h.number_ne hf hl)⟩
  · obtain ⟨l, hl, hln⟩ := List.mem_map.1 hn
    have ht := h.landing l hl
    rw [hln] at ht
    generalize b.callsOf a.number = calls at ht hcall
    cases ht with
    | missed _ => cases hcall
    | called tells huser hrecipient =>
      rw [List.mem_singleton.1 hcall]
      refine ⟨_, _, tells, fun l' hl' hln' => ?_⟩
      -- no other delivery has ended under this number
      have he : l' = l :=
        List.inj_on_of_nodup_map h.nodup.of_append_right hl' hl (hln'.trans hln.symm)
      rw [he]
      exact ⟨rfl, huser, hrecipient⟩

/-- At first nothing was begun. -/
theorem traced_new (settings : Settings) (capacity auditCapacity : Nat) (audited : Bool)
    (grace : Nat) (resolver : Directory.Resolver) :
    (System.new settings capacity auditCapacity audited grace resolver).outbound.Traced where
  launched_eq := rfl
  nodup := .nil
  numbered := fun n => ⟨nofun, fun h => absurd h (Nat.not_lt_zero n)⟩
  attempted := fun _ ha => absurd ha List.not_mem_nil
  flight_begun := fun _ hf => absurd hf List.not_mem_nil
  landing_begun := fun _ hl => absurd hl List.not_mem_nil
  flight := fun _ hf => absurd hf List.not_mem_nil
  landing := fun _ hl => absurd hl List.not_mem_nil

/-- **Whatever happens**, every delivery can be traced. -/
theorem Traced.course {b c : Outbound} (h : b.Traced) (hc : Relation.ReflTransGen Step b c) :
    c.Traced := by
  induction hc with
  | refl => exact h
  | tail _ hs ih => exact ih.step hs

end Outbound

namespace System

/-! ## The next move of a delivery -/

section Move

variable {s : System} {f : Flight}

/-- The delivery under way with a number is the one that moves under it. -/
theorem find?_flight (h : s.outbound.Traced) (hf : f ∈ s.flights) :
    s.flights.find? (·.number = f.number) = some f := by
  cases hfind : s.flights.find? (·.number = f.number) with
  | none => exact absurd (decide_eq_true rfl) (List.find?_eq_none.1 hfind f hf)
  | some g =>
    have hg := List.mem_of_find?_eq_some hfind
    have hn : g.number = f.number := by simpa using List.find?_some hfind
    rw [List.inj_on_of_nodup_map h.nodup_flights hg hf hn]

/-- A delivery whose event says what to do does it. -/
theorem moveFlight_known (h : s.outbound.Traced) (hf : f ∈ s.flights) (o : Outside)
    (fresh : f.progress = .fresh) {next : Next}
    (first : Beginning.of s.settings.time f.event = .known next) :
    s.moveFlight o f.number = s.pursue o f next := by
  simp only [moveFlight, find?_flight h hf, fresh, first]

/-- **A delivery that has made no call yet** makes the one that its event determines. -/
theorem attempts_moveFlight (h : s.outbound.Traced) (hf : f ∈ s.flights) (o : Outside)
    {call : Call} {whom : Addressee} (hd : Determines f.event call whom)
    (hnil : s.outbound.callsOf f.number = []) :
    (s.moveFlight o f.number).attempts = { number := f.number, call } :: s.attempts := by
  have ht := h.flight f hf
  rw [hnil] at ht
  cases ht with
  | fresh fresh =>
    rw [moveFlight_known h hf o fresh (hd.beginning _)]
    rfl
  | asking _ delivery =>
    -- who must be looked up is not determined by the event
    have hb := hd.beginning .epoch
    simp only [Beginning.of, delivery] at hb
    cases hb

/-- A delivery that has waited for the directory goes on with whom the resolver finds. -/
theorem moveFlight_asking (h : s.outbound.Traced) (hf : f ∈ s.flights) (o : Outside)
    {key : Key} {channel : Channel} {due : Nat} {answer : Option (Except Failure Identity)}
    (asking : f.progress = .asking key channel due answer) (hdue : due ≤ s.now) :
    let found := s.resolver.resolveFor s.clock key channel (Directory.Resolver.heard key answer)
    s.moveFlight o f.number = { s with resolver := found.2 }.pursue o f
      (.ofResolved s.settings.time f.event key channel found.1) := by
  simp only [moveFlight, find?_flight h hf, asking, if_pos hdue]

end Move

end System

end Rota.Relay
