import Rota.Config
import Rota.Http.Client
import Rota.Identity
import Rota.Wire.Event

/-!
# Transports

How people are reached. The dry run only writes a line to the log; the real
transport posts every message to a provider. Callbacks are posted to the
address that the schedule names.
-/

namespace Rota.Relay

open Http (Network)

/-- The path under which a provider takes messages for a channel. -/
def actionOf : Channel → String
  | .phone => "call"
  | .sms => "sms"
  | .slack => "slack"

/-- **A transport.** -/
inductive Transport where
  /-- Only the log is written. -/
  | dryRun
  /-- A provider at an address, which expects a token. -/
  | provider (base token : String)
  deriving DecidableEq, Repr, Inhabited

namespace Transport

/-- **The transport that is configured.** -/
def of (c : Config.Provider) : Except Failure Transport :=
  if c.kind = "log" then .ok dryRun
  else if c.kind = "rest" then
    if c.baseUrl.isEmpty then
      .error (.configuration "transport.base_url is required for the rest transport")
    else .ok (provider (Http.withoutSlashes c.baseUrl) c.token)
  else .error (.configuration ("unknown transport kind '" ++ c.kind ++ "'"))

/-- The name of a transport. -/
def name : Transport → String
  | dryRun => "log"
  | provider .. => "rest"

/-- **The line of a dry run.** -/
def line (channel : Channel) (person : Identity) (id text : String) : String :=
  let (mark, contact) := match channel with
    | .phone => ("📞", person.verifiedPhone.getD "-")
    | .sms => ("💬", person.verifiedPhone.getD "-")
    | .slack => ("💼", person.slack.getD person.id)
  mark ++ " [dry-run] " ++ actionOf channel ++ " " ++ person.email ++ " (" ++ contact ++ ") [" ++ id
    ++ "]: " ++ text

/-- What a provider is told. -/
def body (person : Identity) (id text : String) : Json :=
  .record <| [("user_id", .text person.id), ("email", .text person.email)]
    ++ Json.optionalMember "phone_number" person.verifiedPhone
    ++ Json.optionalMember "slack_user_id" person.slack
    ++ [("correlation_id", .text id), ("text", .text text)]

/-- The request to a provider. -/
def request (base token : String) (channel : Channel) (person : Identity) (id text : String) :
    Except Http.SendFault Http.Request :=
  Http.Request.of .post (base ++ "/" ++ actionOf channel)
    (if token.isEmpty then none else some ("Bearer " ++ token)) (some (body person id text))

/-- **Deliver a message.** A provider is never asked to call, or to send a text
to, a number that was not verified. -/
def deliver (t : Transport) (network : Network) (channel : Channel) (person : Identity)
    (id text : String) : Except Failure Unit :=
  match t with
  | dryRun => .ok ()
  | provider base token => do
    person.reachable channel
    match request base token channel person id text >>= Http.Request.send network with
    | .error fault =>
      throw (.delivery (actionOf channel ++ " to " ++ person.email ++ ": " ++ fault.message))
    | .ok answer =>
      if Http.Status.isSuccess answer.status then return ()
      else throw (.delivery (actionOf channel ++ " provider error "
        ++ Http.Status.text answer.status ++ ": " ++ answer.body))

end Transport

/-- **Post a callback.** -/
def postCallback (network : Network) (url : String) (payload : Payload) : Except Failure Unit :=
  match Http.Request.of .post url none (some payload.toJson) >>= Http.Request.send network with
  | .error fault => .error (.delivery ("callback " ++ url ++ ": " ++ fault.message))
  | .ok answer =>
    if Http.Status.isSuccess answer.status then .ok ()
    else .error (.delivery ("callback " ++ url ++ " returned " ++ Http.Status.text answer.status
      ++ ": " ++ answer.body))

end Rota.Relay
