import Rota.Time.Timestamp

/-!
# Audit records

What is kept of a delivery: whom it was for, over which channel, and how it
ended. Long messages are cut.
-/

namespace Rota.Audit

/-- The number of characters of a message that are kept. -/
def maxMessage : Nat := 500

/-- **A record of one delivery.** -/
structure Record where
  time : Time.Timestamp
  userId : String
  /-- Phone number, chat handle or callback address. -/
  recipient : String
  channel : String
  success : Bool
  message : String
  deriving DecidableEq, Repr, Inhabited

/-- The first characters of a message, as many as are kept. -/
def clip (message : String) : String :=
  String.ofList (message.toList.take maxMessage)

/-- **A new record**, with its message cut to length. -/
def Record.of (time : Time.Timestamp) (userId recipient channel : String) (success : Bool)
    (message : String) : Record :=
  { time, userId, recipient, channel, success, message := clip message }

end Rota.Audit
