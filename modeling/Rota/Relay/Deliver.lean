import Rota.Audit.Record
import Rota.Directory.Resolver
import Rota.Event
import Rota.Message

/-!
# Delivering an event

What becomes of one event. It may have to be found out whom it is for; then at
most one call is made to the outside; and whatever happens, the outcome is one
audit record.

The points at which a delivery waits are values of `Beginning` and `Next`, so
that many deliveries can be under way at once.
-/

namespace Rota.Relay

/-- **A call to the outside** that delivers an event. -/
inductive Call where
  /-- Reach a person over a channel. -/
  | push (channel : Channel) (person : Identity) (id text : String)
  /-- Post to a callback address. -/
  | post (url : String) (payload : Payload)
  deriving DecidableEq, Repr, Inhabited

/-- What the record of a delivery says about whom it was for. -/
structure Addressee where
  userId : String
  recipient : String
  deriving DecidableEq, Repr, Inhabited

/-- **What is to be done** about an event once it is known whom it is for: make
a call, or nothing more. -/
inductive Next where
  | calling (call : Call) (whom : Addressee)
  | ended (record : Audit.Record)
  deriving DecidableEq, Repr, Inhabited

/-- **How a delivery begins**: the directory may have to be asked first. -/
inductive Beginning where
  | asking (key : Key) (channel : Channel)
  | known (next : Next)
  deriving DecidableEq, Repr, Inhabited

/-- The end of an event that did not get as far as a call. -/
def Next.unreached (time : Time.Timestamp) (event : Event) (userId : String)
    (failure : Failure) : Next :=
  .ended (.of time userId "" event.delivery.label false failure.message)

/-- The call that tells a person of an event. -/
def Next.reaching (event : Event) (person : Identity) (channel : Channel) : Next :=
  .calling (.push channel person event.id event.message) ⟨person.id, person.contact channel⟩

/-- **The first thing to do** about an event. -/
def Beginning.of (time : Time.Timestamp) (event : Event) : Beginning :=
  match event.delivery with
  | .callback url => .known (.calling (.post url event.payload) ⟨event.origin.member, url⟩)
  | .push (.lookup key) channel => .asking key channel
  | .push (.resolved person) channel =>
    match person.reachable channel with
    | .ok () => .known (.reaching event person channel)
    | .error failure => .known (.unreached time event person.id failure)

/-- **What to do next** when a key has been resolved for a channel. -/
def Next.ofResolved (time : Time.Timestamp) (event : Event) (key : Key) (channel : Channel) :
    Except Failure Identity → Next
  | .ok person => .reaching event person channel
  | .error failure => .unreached time event key.text failure

/-- What a call is taken to answer when its reply does not come in time. -/
def heardCall (timeout : Nat) : Option (Except Failure Unit) → Except Failure Unit
  | some answer => answer
  | none => .error (.timeout ("delivery exceeded " ++ toString (timeout / 1000) ++ "s"))

/-- **How it ends** when the call has been answered. -/
def recordOf (time : Time.Timestamp) (event : Event) (whom : Addressee) :
    Except Failure Unit → Audit.Record
  | .ok () => .of time whom.userId whom.recipient event.delivery.label true event.message
  | .error failure => .of time whom.userId whom.recipient event.delivery.label false failure.message

/-! ## A delivery on its own -/

/-- **The people and services outside** that one delivery meets. -/
structure Contacts where
  /-- What the directory answers. -/
  lookup : Key → Reply (Except Failure Identity)
  /-- What comes of a call. -/
  call : Call → Reply (Except Failure Unit)

/-- **What came of a delivery**: its record, the call that was made, the time
it took, and what the resolver has learned. -/
structure Delivered where
  record : Audit.Record
  call : Option Call
  elapsed : Nat
  resolver : Directory.Resolver

/-- Do what is next, and conclude. -/
def conclude (time : Time.Timestamp) (contacts : Contacts) (timeout : Nat) (event : Event)
    (elapsed : Nat) (resolver : Directory.Resolver) : Next → Delivered
  | .ended record => { record, call := none, elapsed, resolver }
  | .calling call whom =>
    let (wait, answer) := (contacts.call call).within timeout
    { record := recordOf time event whom (heardCall timeout answer)
      call := some call
      elapsed := elapsed + wait
      resolver }

/-- **Deliver an event**, with nothing else going on. The ages of remembered
people are measured at the time `now`. -/
def deliver (time : Time.Timestamp) (contacts : Contacts) (resolver : Directory.Resolver)
    (now timeout : Nat) (event : Event) : Delivered :=
  match Beginning.of time event with
  | .known next => conclude time contacts timeout event 0 resolver next
  | .asking key channel =>
    let (wait, answer) := (contacts.lookup key).within resolver.lookupTimeout
    let (result, resolver) :=
      resolver.resolveFor now key channel (Directory.Resolver.heard key answer)
    conclude time contacts timeout event wait resolver (.ofResolved time event key channel result)

end Rota.Relay
