import Rota.Channel
import Rota.Failure

/-!
# Identities

The people who can be notified, the keys they are looked up by, and the rule
that decides over which channels a person can be reached.
-/

namespace Rota

/-- **A person** as the directory knows them. -/
structure Identity where
  /-- The person's id in the directory. -/
  id : String
  email : String
  username : String := ""
  role : String := "user"
  phone : Option String := none
  /-- Was the phone number verified? -/
  phoneVerified : Bool := false
  /-- The handle in the chat. -/
  slack : Option String := none
  deriving DecidableEq, Repr, Inhabited

/-- **A key** under which a person is looked up. -/
inductive Key where
  | userId (id : String)
  | email (address : String)
  deriving DecidableEq, Repr, Inhabited

namespace Key

/-- The text that is looked for. -/
def text : Key → String
  | userId id => id
  | email address => address

/-- The text together with the kind of the key. -/
def label : Key → String
  | userId id => "id:" ++ id
  | email address => "email:" ++ address

end Key

namespace Identity

/-- **The number to call**: present, not empty, and verified. -/
def verifiedPhone (person : Identity) : Option String :=
  match person.phone with
  | some number => if person.phoneVerified && !number.isEmpty then some number else none
  | none => none

/-- Does this key name this person? -/
def isNamedBy (person : Identity) : Key → Bool
  | .userId id => person.id == id
  | .email address => person.email == address

/-- **Who can be reached**: calls and texts need a verified number, the chat
needs nothing. -/
def reachable (person : Identity) (channel : Channel) : Except Failure Unit :=
  if channel.needsPhone && person.verifiedPhone.isNone then
    .error (.unverifiedPhone person.email)
  else .ok ()

/-- Where a message over this channel goes: the verified number, or the chat
handle with the id to fall back on. -/
def contact (person : Identity) : Channel → String
  | .phone | .sms => person.verifiedPhone.getD ""
  | .slack => person.slack.getD person.id

/-- A person can be called exactly if there is a verified number. -/
theorem reachable_eq_ok_iff (person : Identity) (channel : Channel) :
    person.reachable channel = .ok ()
      ↔ (channel.needsPhone = true → ∃ n, person.verifiedPhone = some n) := by
  unfold reachable
  cases channel.needsPhone <;> cases person.verifiedPhone <;> simp

end Identity

end Rota
