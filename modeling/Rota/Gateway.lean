import Rota.Audit.Log
import Rota.Directory
import Rota.Gateway.Extract
import Rota.Relay.Client
import Rota.Wire.Audit
import Rota.Wire.Stats

/-!
# The gateway

Through the gateway, callers have people notified, send user lists, and look at
what the service has been doing. A request to notify is checked, the person is
looked up, and an event is put into the queue; the delivery comes later.
-/

namespace Rota

/-- **The gateway**, and the service behind it. -/
structure Gateway where
  system : Relay.System
  /-- The directory that user lists are taken over into. -/
  directory : Directory := {}
  /-- The log of the audit records, if they are kept. -/
  log : Option Audit.Log := some {}
  /-- Answer rejected notify requests with status 200. -/
  errorsAsOk : Bool := false
  /-- Are schedules polled? -/
  polls : Bool := false
  deriving Inhabited

namespace Gateway

/-- The name of the service. -/
def service : String := "dutyrelay"

/-- The version of the service. -/
def version : String := "0.3.0"

/-! ## Notifying -/

/-- The title of the events that callers cause. -/
def noticeTitle : String := "Incident alert"

/-- **The status that tells of a failure.** -/
def statusOf : Failure → Nat
  | .invalidEmail _ | .emptyMessage => 400
  | .unknownPerson _ => 404
  | .unverifiedPhone _ => 422
  | .queueFull _ | .queueClosed => 503
  | _ => 500

/-- What is said about a failure. -/
def failureBody (f : Failure) : Json :=
  .record [("error", .text f.code)]

/-- The answer to a request that failed. -/
def failureResponse (f : Failure) : Response :=
  .ofJson (statusOf f) (failureBody f)

/-- **The event of a notice** for a person. It has the id of the alert, if the
notice names one. -/
def eventOf (time : Time.Timestamp) (freshId : String) (n : Notice) (person : Identity)
    (channel : Channel) : Event where
  id := match n.alertId with
    | some id => if id.isEmpty then freshId else id
    | none => freshId
  delivery := .push (.resolved person) channel
  title := noticeTitle
  message := n.incident.decorate n.message
  origin := .inbound
  created := time

/-- **Notify someone**: check the notice, find the person, and put the event
into the queue. -/
def notify (g : Gateway) (ask : Key → Except Failure Identity) (channel : Channel) (n : Notice) :
    Except Failure Unit × Gateway :=
  match n.validate with
  | .error f => (.error f, g)
  | .ok () =>
    let s := g.system
    let (found, resolver) :=
      s.resolver.resolveFor s.clock (.email n.email) channel (ask (.email n.email))
    let s := { s with resolver }
    match found with
    | .error f => (.error f, { g with system := s })
    | .ok person =>
      let (id, s) := s.newId
      let (result, s) := s.enqueue (eventOf s.settings.time id n person channel)
      (result, { g with system := s })

/-- The answer to a notice. -/
def noticeResponse (errorsAsOk : Bool) : Except Failure Unit → Response
  | .ok () => .ofJson 200 (.record [])
  | .error f => if errorsAsOk then .ofJson 200 (failureBody f) else failureResponse f

/-! ## Looking -/

/-- **The counts of the whole service.** -/
def stats (g : Gateway) : Json :=
  let s := g.system
  .record
    [("uptime_secs", .number (s.clock / 1000)),
      ("poller", if g.polls then s.pollCounts.toJson else .null),
      ("schedules", .texts (if g.polls then s.registry.schedules else [])),
      ("dispatcher", s.queueStats),
      ("audit", s.pipeline.stats),
      ("identity_cache", .record
        [("size", .number s.resolver.cache.size),
          ("fallback_hits", .number s.resolver.fallbackHits)])]

/-- The number of records that are shown at most. -/
def maxShown : Nat := 500

/-- **The latest records.** -/
def recent (g : Gateway) (q : AuditQuery) : Response :=
  match g.log with
  | none => .ofJson 404 (.record [("error", .text "audit-disabled")])
  | some log =>
    let shown := do
      let total ← log.count
      let records ← log.recent (.ofNat (max 1 (min q.limit maxShown)))
      return (total, records)
    match shown with
    | .ok (total, records) =>
      .ofJson 200 (.record [("total", .number total),
        ("records", .list (records.map Audit.Record.toJson))])
    | .error f => failureResponse f

/-- The answer to the question whether the service is alive. -/
def health : Json :=
  .record [("status", .text "ok"), ("service", .text service), ("version", .text version)]

/-! ## Taking over user lists -/

/-- **Take over a user list.** -/
def sync (g : Gateway) (entries : List Directory.Entry) : Response × Gateway :=
  match g.directory.importAll entries with
  | .ok (directory, report) =>
    (.ofJson 200 (.record [("ok", .flag true), ("report", report.toJson)]), { g with directory })
  | .error f => (failureResponse f, g)

/-! ## Routes -/

/-- **What can be asked for.** -/
inductive Route where
  | notify (channel : Channel)
  | sync
  | health
  | stats
  | audit
  deriving DecidableEq, Repr, Inhabited

/-- The paths of the routes. -/
def routes : List (String × Route) :=
  [("/make_call", .notify .phone), ("/send_sms", .notify .sms), ("/api/v1/users/sync", .sync),
    ("/health", .health), ("/api/v1/stats", .stats), ("/api/v1/audit", .audit)]

/-- The methods that a route takes. Where something can be looked at, the head
of the answer alone can be asked for too. -/
def Route.methods : Route → List String
  | notify _ | sync => ["POST"]
  | health | stats | audit => ["GET", "HEAD"]

/-- The header that names the methods. -/
def Route.allow (r : Route) : String :=
  ",".intercalate r.methods

/-- **Answer a request** for a route. -/
def answerRoute (g : Gateway) (ask : Key → Except Failure Identity) (r : Request) :
    Route → Response × Gateway
  | .notify channel =>
    match Notice.ofRequest r with
    | .error rejection => (rejection.response, g)
    | .ok n =>
      let (result, g) := g.notify ask channel n
      (noticeResponse g.errorsAsOk result, g)
  | .sync =>
    match r.json (Tree.list Directory.Entry.read) with
    | .error rejection => (rejection.response, g)
    | .ok entries => g.sync entries
  | .health => (.ofJson 200 health, g)
  | .stats => (.ofJson 200 g.stats, g)
  | .audit =>
    match r.fields (Tree.record AuditQuery.fields) with
    | .error rejection => (rejection.response, g)
    | .ok q => (g.recent q, g)

/-- **Answer a request.** The people are looked up by asking `ask`. -/
def answer (g : Gateway) (ask : Key → Except Failure Identity) (r : Request) :
    Response × Gateway :=
  let route? := routes.lookup r.path
  if r.method = "OPTIONS" then
    ({ status := 200, allow := route?.map Route.allow, isPreflight := true }, g)
  else match route? with
    | none => ({ status := 404 }, g)
    | some route =>
      if r.method ∈ route.methods then
        let (response, g) := g.answerRoute ask r route
        ({ response with isBodiless := r.method = "HEAD" }, g)
      else ({ status := 405, allow := some route.allow }, g)

/-! ## Running -/

/-- The world outside of the service, with the log of the gateway in it. -/
def outside (g : Gateway) (ask : Key → Except Failure Identity) (o : Relay.Outside) :
    Relay.Outside :=
  { o with
    lookup := fun _ key => { answer := ask key }
    append := fun _ r =>
      { answer := g.log.elim (.ok ()) fun log => (log.append r).map fun _ => () } }

/-- **Let the service run** for a request of its client; the records it writes
go to the log. -/
def run (g : Gateway) (ask : Key → Except Failure Identity) (o : Relay.Outside) (fuel : Nat)
    (r : Relay.Request) : Nat × Gateway :=
  let (elapsed, system) := g.system.serve (g.outside ask o) fuel r
  let fresh := system.pipeline.stored.drop g.system.pipeline.written
  let log := g.log.map fun log =>
    fresh.foldl (fun log r => (log.append r).toOption.getD log) log
  (elapsed, { g with system, log })

end Gateway

end Rota
