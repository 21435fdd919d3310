import Rota.Channel
import Rota.Failure
import Rota.Roster.Snapshot

/-!
# Configuration

The settings of the service, their defaults, and the check that refuses
settings with which the service could not run. Durations are whole seconds.
-/

namespace Rota

/-- The address the gateway listens on. -/
structure Config.Server where
  host : String := "127.0.0.1"
  port : UInt16 := 8880
  /-- Answer rejected notify requests with status 200, and the error in the
  body alone. -/
  errorsAsOk : Bool := false
  deriving DecidableEq, Repr, Inhabited

/-- How schedules are polled. -/
structure Config.Poller where
  enabled : Bool := true
  /-- From one poll cycle to the next. -/
  interval : UInt64 := 120
  /-- The longest wait for a roster, and for room in the queue. -/
  fetchTimeout : UInt64 := 10
  deriving DecidableEq, Repr, Inhabited

/-- How notifications are delivered. -/
structure Config.Dispatcher where
  queueCapacity : UInt64 := 1024
  /-- The number of deliveries that may run at once. -/
  workers : UInt64 := 8
  deliveryTimeout : UInt64 := 15
  deriving DecidableEq, Repr, Inhabited

/-- How outcomes are recorded. -/
structure Config.Audit where
  enabled : Bool := true
  path : String := "~/.dutyrelay/events.db"
  /-- The number of records that may wait to be written. -/
  bufferCapacity : UInt64 := 10000
  /-- The time that the last flush may take. -/
  flushGrace : UInt64 := 5
  deriving DecidableEq, Repr, Inhabited

/-- How people are looked up. -/
structure Config.Directory where
  path : String := "~/.dutyrelay/users.db"
  lookupTimeout : UInt64 := 5
  /-- The age up to which a remembered identity may stand in for the
  directory; without one it may do so forever. -/
  cacheMaxAge : Option UInt64 := none
  deriving DecidableEq, Repr, Inhabited

/-- The source of the schedules. -/
structure Config.Source where
  url : String := ""
  token : String := ""
  deriving DecidableEq, Repr, Inhabited

/-- The texts that tell of duty changes. -/
structure Config.Templates where
  startTitle : String := "Duty started"
  start : String := "Duty rotation: you are now on call for \x7bschedule\x7d"
  endTitle : String := "Duty ended"
  end_ : String := "Your duty on \x7bschedule\x7d has ended"
  deriving DecidableEq, Repr, Inhabited

/-- The service through which people are reached. -/
structure Config.Provider where
  /-- Either `log`, which only writes deliveries to the log, or `rest`. -/
  kind : String := "log"
  baseUrl : String := ""
  token : String := ""
  deriving DecidableEq, Repr, Inhabited

/-- **A tracked schedule.** -/
structure Config.Schedule where
  name : String
  /-- The id at the source, if it is not the name. -/
  id : Option String := none
  medium : Medium := .sms
  callbackUrl : Option String := none
  /-- Treat an empty roster as a failure of the source. -/
  expectMembers : Bool := true
  deriving DecidableEq, Repr, Inhabited

/-- **The settings of the service.** -/
structure Config where
  server : Config.Server := {}
  poller : Config.Poller := {}
  dispatcher : Config.Dispatcher := {}
  audit : Config.Audit := {}
  directory : Config.Directory := {}
  source : Config.Source := {}
  templates : Config.Templates := {}
  provider : Config.Provider := {}
  schedules : List Config.Schedule := []
  deriving DecidableEq, Repr, Inhabited

namespace Config

/-- The name by which the source is asked for a schedule. -/
def Schedule.sourceId (s : Schedule) : String :=
  s.id.getD s.name

/-- Where the duty changes of a schedule go. -/
def Schedule.target (s : Schedule) : Roster.Target :=
  { medium := s.medium, callbackUrl := s.callbackUrl }

/-- The schedule with its changes going to a callback address. -/
def Schedule.withCallback (s : Schedule) (url : String) : Schedule :=
  { s with medium := .callback, callbackUrl := some url }

/-- Is a text missing or empty? -/
def isBlankOption (text : Option String) : Bool :=
  text.all String.isEmpty

/-- What is wrong with a schedule, given the names of those before it. -/
def scheduleFault? (seen : List String) (s : Schedule) : Option String :=
  if s.name.isEmpty then some "schedule name must not be empty"
  else if s.name ∈ seen then some ("duplicate schedule '" ++ s.name ++ "'")
  else if s.medium = .callback ∧ isBlankOption s.callbackUrl then
    some ("schedule '" ++ s.name ++ "' uses callback transport but has no callback_url")
  else none

/-- The first fault in a list of schedules. -/
def schedulesFault? (seen : List String) : List Schedule → Option String
  | [] => none
  | s :: rest => (scheduleFault? seen s).orElse fun _ => schedulesFault? (s.name :: seen) rest

/-- **The first fault of a configuration**: numbers that must not be zero
first, then the provider, then the schedules in their order. -/
def fault? (c : Config) : Option String :=
  if c.dispatcher.queueCapacity = 0 then some "dispatcher.queue_capacity must be > 0"
  else if c.dispatcher.workers = 0 then some "dispatcher.workers must be > 0"
  else if c.audit.bufferCapacity = 0 then some "audit.buffer_capacity must be > 0"
  else if c.poller.interval = 0 then some "poller.interval_secs must be > 0"
  else if c.poller.fetchTimeout = 0 then some "poller.fetch_timeout_secs must be > 0"
  else if c.dispatcher.deliveryTimeout = 0 then
    some "dispatcher.delivery_timeout_secs must be > 0"
  else if c.directory.lookupTimeout = 0 then some "identity.lookup_timeout_secs must be > 0"
  else if c.provider.kind = "rest" ∧ c.provider.baseUrl.isEmpty then
    some "transport.base_url is required for kind = \"rest\""
  else schedulesFault? [] c.schedules

/-- **Check a configuration.** -/
def validate (c : Config) : Except Failure Unit :=
  match c.fault? with
  | some fault => .error (.configuration fault)
  | none => .ok ()

/-! ## Paths -/

/-- **A path with its tilde spelled out**: a tilde alone, or before a slash,
stands for the home directory. -/
def expandPath (home path : String) : String :=
  match path.toList with
  | ['~'] => home
  | '~' :: '/' :: rest => home ++ "/" ++ String.ofList rest
  | _ => path

/-- Where the configuration is looked for. -/
def defaultPath (home : String) : String :=
  home ++ "/.dutyrelay/config.toml"

end Config

end Rota
