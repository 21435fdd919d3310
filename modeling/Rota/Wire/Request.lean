import Rota.Directory.Table
import Rota.Gateway.Notice
import Rota.Wire.Identity

/-!
# Requests

How the requests of the gateway and the entries of a user list are read. What a
request says may be written in JSON or as a form.
-/

namespace Rota

/-- The members of a request to notify someone. -/
def Gateway.Notice.fields {τ : Type} [Tree τ] : Fields τ Notice :=
  Notice.mk <$> .withDefault "email" Tree.text ""
    <*> .withDefault "message" Tree.text ""
    <*> .withDefault "alert_id" (Tree.optional Tree.text) none
    <*> .withDefault "instance" (Tree.optional Tree.text) none

/-- Read a request to notify someone. -/
def Gateway.Notice.read {τ : Type} [Tree τ] : τ → Except Fault Notice :=
  Tree.record Notice.fields

/-- The members of a look at the latest records. -/
def Gateway.AuditQuery.fields {τ : Type} [Tree τ] : Fields τ AuditQuery :=
  AuditQuery.mk <$> .withDefault "limit" (Tree.natural UInt64.size) 50

/-- Read what is known of an incident. -/
def Message.Incident.fields : Fields Document Incident :=
  Incident.mk <$> .withDefault "alert_id" (Tree.optional Tree.text) none
    <*> .withDefault "instance" (Tree.optional Tree.text) none

/-- **Read the id of a user**: a text, or a number for the text of that number.
A value of any other kind is read in full before it is refused. -/
def Directory.Entry.readId (value : Document) : Except Fault String :=
  if !value.isSound then .error .malformed
  else match value with
    | .text (some s) => .ok s
    | .number n => n.text?.elim (.error .malformed) .ok
    | _ => .error .mismatch

/-- The members of an entry of a user list. -/
def Directory.Entry.fields : Fields Document Entry :=
  Entry.mk <$> .required "id" readId
    <*> .withDefault "name" Tree.text ""
    <*> .withDefault "login" Tree.text ""
    <*> .required "email" Tree.text
    <*> .withDefault "isAdmin" Tree.flag false
    <*> .withDefault "isDisabled" Tree.flag false

/-- Read an entry of a user list. -/
def Directory.Entry.read : Document → Except Fault Entry :=
  Tree.record Entry.fields

end Rota
