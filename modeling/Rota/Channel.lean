/-!
# Channels

The ways in which a person can be reached, and the wider choice that a
schedule has: its duty changes go to the person over a channel, or to a
callback address.
-/

namespace Rota

/-- **A channel** to a person. -/
inductive Channel where
  | phone
  | sms
  | slack
  deriving DecidableEq, Repr, Inhabited

namespace Channel

/-- The name of a channel. -/
def name : Channel → String
  | phone => "phone"
  | sms => "sms"
  | slack => "slack"

/-- Does the channel need a verified phone number? -/
def needsPhone : Channel → Bool
  | phone | sms => true
  | slack => false

end Channel

/-- **How a schedule tells its duty changes.** -/
inductive Medium where
  | sms
  | phone
  | slack
  | callback
  deriving DecidableEq, Repr, Inhabited

namespace Medium

/-- The name of a medium. -/
def name : Medium → String
  | sms => "sms"
  | phone => "phone"
  | slack => "slack"
  | callback => "callback"

/-- The channel of a medium; a callback address is no channel. -/
def channel? : Medium → Option Channel
  | sms => some .sms
  | phone => some .phone
  | slack => some .slack
  | callback => none

end Medium

end Rota
