import Rota.Event
import Rota.Time.Reading
import Rota.Wire.Identity

/-!
# Events in JSON

How events and their parts are written and read. The origin of an event
carries its kind among its members, so that it can only be understood once all
of its members are read; what is not understood in it must at least be
readable.
-/

namespace Rota

/-- A timestamp is written as its text. -/
def Time.Timestamp.toJson (t : Timestamp) : Json :=
  .text t.text

/-- Read a timestamp. -/
def Time.Timestamp.read {τ : Type} [Tree τ] (value : τ) : Except Fault Timestamp := do
  let s ← Tree.text value
  (ofText? s).elim (.error .mismatch) .ok

/-- A recipient is written as a record of its kind. -/
def Recipient.toJson : Recipient → Json
  | lookup key => .record [("Lookup", key.toJson)]
  | resolved person => .record [("Resolved", person.toJson)]

/-- Read a recipient. -/
def Recipient.read : Document → Except Fault Recipient :=
  Document.asVariant []
    [("Lookup", fun d => (Key.read d).map lookup),
      ("Resolved", fun d => (Identity.read d).map resolved)]

/-- A delivery is written as a record of its kind. -/
def Delivery.toJson : Delivery → Json
  | push recipient channel =>
    .record [("Push", .record [("recipient", recipient.toJson), ("channel", channel.toJson)])]
  | callback url => .record [("Callback", .record [("url", .text url)])]

/-- The members of a delivery over a channel. -/
def Delivery.pushFields : Fields Document Delivery :=
  push <$> .required "recipient" Recipient.read <*> .required "channel" Channel.read

/-- The members of a delivery to a callback address. -/
def Delivery.callbackFields : Fields Document Delivery :=
  callback <$> .required "url" Tree.text

/-- Read a delivery. -/
def Delivery.read : Document → Except Fault Delivery :=
  Document.asVariant []
    [("Push", Tree.record pushFields), ("Callback", Tree.record callbackFields)]

/-- The names of the changes. -/
def Change.names : List (String × Change) :=
  [("started", started), ("ended", ended)]

/-- A change is written as its name. -/
def Change.toJson (c : Change) : Json :=
  .text c.name

/-- Read a change. -/
def Change.read : Document → Except Fault Change :=
  Tree.word names

/-- An origin is written as a record that names its kind. -/
def Origin.toJson : Origin → Json
  | roster schedule member change =>
    .record [("type", .text "roster"), ("schedule", .text schedule), ("member", .text member),
      ("transition", change.toJson)]
  | inbound => .record [("type", .text "inbound")]

/-- **An origin in the making**: its kind, once known, and its other members. -/
structure Origin.Draft where
  kind : Option String := none
  /-- The other members, last first. -/
  members : List (String × Document) := []

/-- The names of the kinds of origin. -/
def Origin.kinds : List String :=
  ["roster", "inbound"]

/-- Read the kind of an origin. -/
def Origin.readKind (value : Document) : Except Fault String := do
  let kind ← Tree.text value
  if kind ∈ kinds then return kind else throw .mismatch

/-- Go through the members of an origin. -/
def Origin.draft (d : Draft) : List (Option String × Document) → Except Fault Draft
  | [] => .ok d
  | (none, _) :: _ => .error .malformed
  | (some name, value) :: rest =>
    if name = "type" then
      if d.kind.isSome then .error .mismatch
      else do
        let kind ← readKind value
        draft { d with kind := some kind } rest
    else if value.isSound then draft { d with members := (name, value) :: d.members } rest
    else .error .malformed

/-- Read a change inside an origin: there an empty record does as well as
`null` to say that nothing more belongs to it. -/
def Origin.readChange : Document → Except Fault Change
  | .record [(name, .record [] true)] true => Change.read (.record [(name, .null)] true)
  | value => Change.read value

/-- The members of an origin that is a duty change. -/
def Origin.rosterFields : Fields Document Origin :=
  roster <$> .required "schedule" Tree.text
    <*> .required "member" Tree.text
    <*> .required "transition" readChange

/-- **Read an origin**: a record that names its kind, or a list that begins
with its kind. -/
def Origin.read : Document → Except Fault Origin
  | .record members closed => do
    let d ← draft {} members
    if !closed then throw .malformed
    match d.kind with
    | none => throw .mismatch
    | some "inbound" => return inbound
    | some _ =>
      let rest := d.members.reverse.map fun (name, value) => (some name, value)
      Tree.record rosterFields (Document.record rest true)
  | .list (first :: rest) closed => do
    let kind ← readKind first
    if !(Document.areSound rest && closed) then throw .malformed
    if kind = "inbound" then
      if rest.isEmpty then return inbound else throw .mismatch
    else
      if rest.length = 3 then Tree.record rosterFields (Document.list rest true)
      else throw .mismatch
  | .list [] closed => .error (if closed then .mismatch else .malformed)
  | .buried _ => .error .malformed
  | other => .error other.otherKind

/-- **An event in JSON.** -/
def Event.toJson (e : Event) : Json :=
  .record [("id", .text e.id), ("delivery", e.delivery.toJson), ("title", .text e.title),
    ("message", .text e.message), ("origin", e.origin.toJson), ("created_at", e.created.toJson)]

/-- The members of an event. -/
def Event.fields : Fields Document Event :=
  Event.mk <$> .required "id" Tree.text
    <*> .required "delivery" Delivery.read
    <*> .required "title" Tree.text
    <*> .required "message" Tree.text
    <*> .required "origin" Origin.read
    <*> .required "created_at" Time.Timestamp.read

/-- Read an event. -/
def Event.read : Document → Except Fault Event :=
  Tree.record Event.fields

/-- **A payload in JSON.** The id of the alert is left out if there is none. -/
def Payload.toJson (p : Payload) : Json :=
  .record <| Json.optionalMember "alert_uid" p.alertId
    ++ [("title", .text p.title), ("message", .text p.message), ("state", .text p.state),
      ("link_to_upstream_details", .text p.link)]

/-- The members of a payload. -/
def Payload.fields : Fields Document Payload :=
  Payload.mk <$> .optionalByName "alert_uid" (Tree.optional Tree.text)
    <*> .required "title" Tree.text
    <*> .required "message" Tree.text
    <*> .required "state" Tree.text
    <*> .required "link_to_upstream_details" Tree.text

/-- Read a payload. -/
def Payload.read : Document → Except Fault Payload :=
  Tree.record Payload.fields

end Rota
