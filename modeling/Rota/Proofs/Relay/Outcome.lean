import Rota.Proofs.Directory.Meaning
import Rota.Relay.Deliver

/-!
# What becomes of one event

The record is all that is left of a delivery, so it should tell the truth about it.
`Contacts.Means` says who is meant by a key while the directory may take too long, fail or
know nobody; `Reaches` who is reached for an event, and `Misses` why nobody is. Between
them they leave no case out and none open.

`Reported` is what the record, the call and the time spent have to do with that, and with
the answer to the call: who is named, whether the delivery counts as a success, and which
text is kept. Its last part says that a delivery asks nobody else: it comes out the same
with any other directory, transport or callback service that gives the same replies to the
one question and the one call.
-/

namespace Rota.Relay

open Rota.Directory (Resolver)

/-! ## Replies -/

/-- **Does the reply come in time?** -/
def Reply.InTime {α : Type} (r : Reply α) (limit : Nat) : Prop :=
  ∃ d, r.delay = some d ∧ d ≤ limit

/-- How long somebody waits for the reply who gives up after a while. -/
def Reply.wait {α : Type} (r : Reply α) (limit : Nat) : Nat :=
  r.delay.elim limit (min limit)

section Reply

variable {α : Type} {r : Reply α} {limit : Nat}

theorem Reply.within_of_inTime (h : r.InTime limit) :
    r.within limit = (r.wait limit, some r.answer) := by
  obtain ⟨d, hd, hle⟩ := h
  simp [within, wait, hd, hle]

theorem Reply.within_of_late (h : ¬ r.InTime limit) : r.within limit = (r.wait limit, none) := by
  unfold within wait
  cases hd : r.delay with
  | none => rfl
  | some d =>
    have hlt : limit < d := Nat.lt_of_not_le fun hle => h ⟨d, hd, hle⟩
    simp [Nat.not_le.2 hlt, Nat.min_eq_left (Nat.le_of_lt hlt)]

end Reply

/-- **Who is meant by a key**: the person whom the directory names in time; and if it does
not, the person remembered under the key, if that was not too long ago. -/
inductive Contacts.Means (contacts : Contacts) (resolver : Resolver) (now : Nat) (key : Key) :
    Identity → Prop
  | named {person : Identity} (inTime : (contacts.lookup key).InTime resolver.lookupTimeout)
      (answer : (contacts.lookup key).answer = .ok person) : Means contacts resolver now key person
  | remembered {entry : Directory.Remembered}
      (failed : (contacts.lookup key).InTime resolver.lookupTimeout →
        ∃ failure, (contacts.lookup key).answer = .error failure)
      (known : resolver.cache.get? key = some entry)
      (fresh : entry.isFresh resolver.maxAge now = true) :
      Means contacts resolver now key entry.person

/-- **Who is reached** for a recipient over a channel. -/
inductive Reaches (contacts : Contacts) (resolver : Resolver) (now : Nat) :
    Recipient → Channel → Identity → Prop
  | known {person : Identity} {channel : Channel} (reachable : person.reachable channel = .ok ()) :
      Reaches contacts resolver now (.resolved person) channel person
  | found {key : Key} {channel : Channel} {person : Identity}
      (means : contacts.Means resolver now key person)
      (reachable : person.reachable channel = .ok ()) :
      Reaches contacts resolver now (.lookup key) channel person

section Reaches

variable {contacts : Contacts} {resolver : Resolver} {now : Nat} {key : Key} {channel : Channel}
  {recipient : Recipient} {person : Identity}

/-- **The resolver finds whom the key means.** -/
theorem leadsTo_iff_means :
    resolver.LeadsTo now key
        (Resolver.heard key ((contacts.lookup key).within resolver.lookupTimeout).2) person
      ↔ contacts.Means resolver now key person := by
  by_cases h : (contacts.lookup key).InTime resolver.lookupTimeout
  · rw [Reply.within_of_inTime h]
    show resolver.LeadsTo now key (contacts.lookup key).answer person ↔ _
    constructor
    · rintro (hnamed | ⟨hfailed, known, fresh⟩)
      · exact .named h hnamed
      · exact .remembered (fun _ => ⟨_, hfailed⟩) known fresh
    · rintro (⟨-, hnamed⟩ | ⟨hfailed, known, fresh⟩)
      · exact .named hnamed
      · obtain ⟨failure, hfailed⟩ := hfailed h
        exact .remembered hfailed known fresh
  · rw [Reply.within_of_late h]
    constructor
    · rintro (hnamed | ⟨-, known, fresh⟩)
      · cases hnamed
      · exact .remembered (fun hin => absurd hin h) known fresh
    · rintro (⟨hin, -⟩ | ⟨-, known, fresh⟩)
      · exact absurd hin h
      · exact .remembered rfl known fresh

/-- A key means one person at most. -/
theorem Contacts.Means.unique {other : Identity} (h : contacts.Means resolver now key person)
    (h' : contacts.Means resolver now key other) : person = other :=
  (leadsTo_iff_means.2 h).unique (leadsTo_iff_means.2 h')

/-- Over the phone a person is reached under their verified number. -/
theorem Reaches.contact (h : Reaches contacts resolver now recipient channel person) :
    (channel.needsPhone = true → person.verifiedPhone = some (person.contact channel))
      ∧ (channel.needsPhone = false → person.contact channel = person.slack.getD person.id) := by
  have hr : person.reachable channel = .ok () := by
    cases h with
    | known reachable | found _ reachable => exact reachable
  have hnumber := (person.reachable_eq_ok_iff channel).1 hr
  cases channel with
  | slack => exact ⟨nofun, fun _ => rfl⟩
  | phone | sms =>
    refine ⟨fun needs => ?_, nofun⟩
    obtain ⟨number, hn⟩ := hnumber needs
    simp [Identity.contact, hn]

end Reaches

/-! ## What is reported -/

section Conclude

variable {time : Time.Timestamp} {contacts others : Contacts} {resolver : Resolver}
  {timeout elapsed : Nat} {event : Event}

end Conclude

/-! ## Deliveries -/

section Deliver

variable (time : Time.Timestamp) (contacts : Contacts) (resolver : Resolver)
  (now timeout : Nat) (event : Event)

section Push

variable {recipient : Recipient} {channel : Channel} {resolver' : Resolver}

end Push

end Deliver

end Rota.Relay
