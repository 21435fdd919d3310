/-!
# Failures

Everything that can go wrong, by cause. A failure has a text for the log, and
a short code for callers of the gateway: causes that lie inside the service
share one code, so that no detail of them leaks.
-/

namespace Rota

/-- **A failure**, by its cause. -/
inductive Failure where
  /-- A schedule could not be read from its source. -/
  | fetch (detail : String)
  /-- A schedule that must not be empty has nobody on duty. -/
  | emptyRoster (schedule : String)
  /-- A duty history holds no roster. -/
  | emptyHistory (schedule : String)
  /-- Nobody is known under this key. -/
  | unknownPerson (key : String)
  /-- A person has no verified phone number. -/
  | unverifiedPhone (email : String)
  /-- The directory could not answer. -/
  | directory (detail : String)
  /-- A request names no proper email address. -/
  | invalidEmail (email : String)
  /-- A request has nothing to say. -/
  | emptyMessage
  /-- A delivery went wrong. -/
  | delivery (detail : String)
  /-- The queue has no room. -/
  | queueFull (capacity : Nat)
  /-- The queue takes nothing any more. -/
  | queueClosed
  /-- The audit log could not be written or read. -/
  | audit (detail : String)
  /-- The configuration cannot be used. -/
  | configuration (detail : String)
  /-- Input or output failed. -/
  | io (detail : String)
  /-- A text is not the JSON that was expected. -/
  | json (detail : String)
  /-- The HTTP client could not be set up. -/
  | http (detail : String)
  /-- Something took too long. -/
  | timeout (detail : String)
  /-- Anything else. -/
  | other (detail : String)
  deriving DecidableEq, Repr, Inhabited

namespace Failure

/-- **The text of a failure.** -/
def message : Failure → String
  | fetch d => "Schedule fetch failed: " ++ d
  | emptyRoster s => "Schedule roster is empty: " ++ s
  | emptyHistory s => "Duty state is empty: " ++ s
  | unknownPerson k => "User not found: " ++ k
  | unverifiedPhone e => "Phone number not verified for user: " ++ e
  | directory d => "Directory error: " ++ d
  | invalidEmail e => "Invalid email: " ++ e
  | emptyMessage => "Message text is empty"
  | delivery d => "Transport error: " ++ d
  | queueFull n => "Notification queue is full (" ++ toString n ++ " pending)"
  | queueClosed => "Notification queue is closed"
  | audit d => "Audit store error: " ++ d
  | configuration d => "Configuration error: " ++ d
  | io d => "IO error: " ++ d
  | json d => "JSON error: " ++ d
  | http d => "HTTP error: " ++ d
  | timeout d => "Timeout: " ++ d
  | other d => d

/-- **The code of a failure**, for callers: what they can mend has a code of
its own, and all the rest has one code together. -/
def code : Failure → String
  | unknownPerson _ => "user-not-found"
  | unverifiedPhone _ => "phonenumber-not-verified"
  | invalidEmail _ => "invalid-email"
  | emptyMessage => "empty-message-text"
  | queueFull _ => "queue-full"
  | queueClosed => "shutting-down"
  | delivery _ => "delivery-failed"
  | _ => "internal-error"

end Failure

end Rota
