import Rota.Failure
import Rota.Message
import Rota.Text.Characters

/-!
# Requests of the gateway

What a caller asks for: that someone be told something, or a look at the latest
audit records.
-/

namespace Rota.Gateway

/-- **A request to notify someone.** -/
structure Notice where
  email : String := ""
  message : String := ""
  alertId : Option String := none
  /-- The affected host or service. -/
  host : Option String := none
  deriving DecidableEq, Repr, Inhabited

/-- **Check a request**: the address first, then the text. -/
def Notice.validate (n : Notice) : Except Failure Unit :=
  if !n.email.toList.contains '@' then .error (.invalidEmail n.email)
  else if Text.allBlank n.message then .error .emptyMessage
  else .ok ()

/-- What the request tells of the incident. -/
def Notice.incident (n : Notice) : Message.Incident :=
  { alertId := n.alertId, host := n.host }

/-- **A look at the latest records**, at most so many. -/
structure AuditQuery where
  limit : Nat := 50
  deriving DecidableEq, Repr, Inhabited

end Rota.Gateway
