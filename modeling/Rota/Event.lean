import Rota.Identity
import Rota.Time.Timestamp

/-!
# Events

A notification on its way: what it says, whom it is for, and where it came
from.
-/

namespace Rota

/-- **Whom a message is for**: someone still to be looked up, or a person
already known. -/
inductive Recipient where
  | lookup (key : Key)
  | resolved (person : Identity)
  deriving DecidableEq, Repr, Inhabited

/-- **How an event reaches its target.** -/
inductive Delivery where
  | push (recipient : Recipient) (channel : Channel)
  | callback (url : String)
  deriving DecidableEq, Repr, Inhabited

/-- The label of a delivery in the audit log. -/
def Delivery.label : Delivery → String
  | push _ channel => channel.name
  | callback _ => Medium.callback.name

/-- **The two ways in which duty changes.** -/
inductive Change where
  | started
  | ended
  deriving DecidableEq, Repr, Inhabited

/-- The name of a change. -/
def Change.name : Change → String
  | started => "started"
  | ended => "ended"

/-- **Where an event came from.** -/
inductive Origin where
  /-- A duty change of a member of a schedule. -/
  | roster (schedule member : String) (change : Change)
  /-- A request to the gateway. -/
  | inbound
  deriving DecidableEq, Repr, Inhabited

/-- The member whose duty changed; an inbound event has none. -/
def Origin.member : Origin → String
  | roster _ member _ => member
  | inbound => ""

/-- **A notification** on its way. -/
structure Event where
  /-- The id by which the delivery can be followed. -/
  id : String
  delivery : Delivery
  title : String
  message : String
  origin : Origin := .inbound
  /-- When the event was made. -/
  created : Time.Timestamp := .epoch
  deriving DecidableEq, Repr, Inhabited

/-- **What is posted to a callback address.** -/
structure Payload where
  alertId : Option String
  title : String
  message : String
  state : String
  link : String
  deriving DecidableEq, Repr, Inhabited

/-- The payload that tells of an event. -/
def Event.payload (event : Event) : Payload where
  alertId := some event.id
  title := event.title
  message := event.message
  state := "alerting"
  link := ""

end Rota
