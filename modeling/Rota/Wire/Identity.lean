import Rota.Identity
import Rota.Json.Basic
import Rota.Json.Format

/-!
# People in JSON

How identities, keys, channels and media are written and read.
-/

namespace Rota

/-- The names of the channels. -/
def Channel.names : List (String × Channel) :=
  [("phone", phone), ("sms", sms), ("slack", slack)]

/-- The names of the media. -/
def Medium.names : List (String × Medium) :=
  [("sms", sms), ("phone", phone), ("slack", slack), ("callback", callback)]

/-- A channel is written as its name. -/
def Channel.toJson (c : Channel) : Json :=
  .text c.name

/-- Read a channel. -/
def Channel.read {τ : Type} [Tree τ] : τ → Except Fault Channel :=
  Tree.word names

/-- A medium is written as its name. -/
def Medium.toJson (m : Medium) : Json :=
  .text m.name

/-- Read a medium. -/
def Medium.read {τ : Type} [Tree τ] : τ → Except Fault Medium :=
  Tree.word names

/-- A key is written as a record of its kind. -/
def Key.toJson : Key → Json
  | userId id => .record [("user_id", .text id)]
  | email address => .record [("email", .text address)]

/-- Read a key. -/
def Key.read : Document → Except Fault Key :=
  Document.asVariant []
    [("user_id", fun d => (Tree.text d).map userId), ("email", fun d => (Tree.text d).map email)]

/-- **A person in JSON.** Phone number and chat handle are left out if there
are none. -/
def Identity.toJson (p : Identity) : Json :=
  .record <|
    [("id", .text p.id), ("email", .text p.email), ("username", .text p.username),
      ("role", .text p.role)]
    ++ Json.optionalMember "phone_number" p.phone
    ++ [("is_phone_number_verified", .flag p.phoneVerified)]
    ++ Json.optionalMember "slack_user_id" p.slack

/-- The members of a person. -/
def Identity.fields {τ : Type} [Tree τ] : Fields τ Identity :=
  Identity.mk <$> .required "id" Tree.text
    <*> .required "email" Tree.text
    <*> .withDefault "username" Tree.text ""
    <*> .withDefault "role" Tree.text "user"
    <*> .withDefault "phone_number" (Tree.optional Tree.text) none
    <*> .withDefault "is_phone_number_verified" Tree.flag false
    <*> .withDefault "slack_user_id" (Tree.optional Tree.text) none

/-- Read a person. -/
def Identity.read {τ : Type} [Tree τ] : τ → Except Fault Identity :=
  Tree.record Identity.fields

end Rota
