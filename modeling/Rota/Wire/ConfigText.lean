import Rota.Config
import Rota.Toml.Format
import Rota.Wire.Identity

/-!
# Configurations in text

How a configuration is written and read. Every setting may be left out, but
for the name of a schedule.
-/

namespace Rota

namespace Config

variable {τ : Type} [Tree τ]

/-- A number of seconds, or a size. -/
def number (n : UInt64) : Json :=
  .number n.toNat

/-- The section on the server. -/
def Server.toJson (s : Server) : Json :=
  .record [("host", .text s.host), ("port", .number s.port.toNat),
    ("errors_as_ok", .flag s.errorsAsOk)]

@[inherit_doc Server.toJson]
def Server.fields : Fields τ Server :=
  Server.mk <$> .withDefault "host" Tree.text ({} : Server).host
    <*> .withDefault "port" Tree.uint16 ({} : Server).port
    <*> .withDefault "errors_as_ok" Tree.flag ({} : Server).errorsAsOk

/-- The section on polling. -/
def Poller.toJson (p : Poller) : Json :=
  .record [("enabled", .flag p.enabled), ("interval_secs", number p.interval),
    ("fetch_timeout_secs", number p.fetchTimeout)]

@[inherit_doc Poller.toJson]
def Poller.fields : Fields τ Poller :=
  Poller.mk <$> .withDefault "enabled" Tree.flag ({} : Poller).enabled
    <*> .withDefault "interval_secs" Tree.uint64 ({} : Poller).interval
    <*> .withDefault "fetch_timeout_secs" Tree.uint64 ({} : Poller).fetchTimeout

/-- The section on deliveries. -/
def Dispatcher.toJson (d : Dispatcher) : Json :=
  .record [("queue_capacity", number d.queueCapacity), ("workers", number d.workers),
    ("delivery_timeout_secs", number d.deliveryTimeout)]

@[inherit_doc Dispatcher.toJson]
def Dispatcher.fields : Fields τ Dispatcher :=
  Dispatcher.mk <$> .withDefault "queue_capacity" Tree.uint64 ({} : Dispatcher).queueCapacity
    <*> .withDefault "workers" Tree.uint64 ({} : Dispatcher).workers
    <*> .withDefault "delivery_timeout_secs" Tree.uint64 ({} : Dispatcher).deliveryTimeout

/-- The section on the audit log. -/
def Audit.toJson (a : Audit) : Json :=
  .record [("enabled", .flag a.enabled), ("db_path", .text a.path),
    ("buffer_capacity", number a.bufferCapacity), ("flush_grace_secs", number a.flushGrace)]

@[inherit_doc Audit.toJson]
def Audit.fields : Fields τ Audit :=
  Audit.mk <$> .withDefault "enabled" Tree.flag ({} : Audit).enabled
    <*> .withDefault "db_path" Tree.text ({} : Audit).path
    <*> .withDefault "buffer_capacity" Tree.uint64 ({} : Audit).bufferCapacity
    <*> .withDefault "flush_grace_secs" Tree.uint64 ({} : Audit).flushGrace

/-- The section on the directory. -/
def Directory.toJson (d : Directory) : Json :=
  .record [("directory_db_path", .text d.path), ("lookup_timeout_secs", number d.lookupTimeout),
    ("cache_max_age_secs", d.cacheMaxAge.elim .null number)]

@[inherit_doc Directory.toJson]
def Directory.fields : Fields τ Directory :=
  Directory.mk <$> .withDefault "directory_db_path" Tree.text ({} : Directory).path
    <*> .withDefault "lookup_timeout_secs" Tree.uint64 ({} : Directory).lookupTimeout
    <*> .withDefault "cache_max_age_secs" (Tree.optional Tree.uint64) none

/-- The section on the source of the schedules. -/
def Source.toJson (s : Source) : Json :=
  .record [("url", .text s.url), ("token", .text s.token)]

@[inherit_doc Source.toJson]
def Source.fields : Fields τ Source :=
  Source.mk <$> .withDefault "url" Tree.text "" <*> .withDefault "token" Tree.text ""

/-- The section on message texts. -/
def Templates.toJson (t : Templates) : Json :=
  .record [("start_title", .text t.startTitle), ("start", .text t.start),
    ("end_title", .text t.endTitle), ("end", .text t.end_)]

@[inherit_doc Templates.toJson]
def Templates.fields : Fields τ Templates :=
  Templates.mk <$> .withDefault "start_title" Tree.text ({} : Templates).startTitle
    <*> .withDefault "start" Tree.text ({} : Templates).start
    <*> .withDefault "end_title" Tree.text ({} : Templates).endTitle
    <*> .withDefault "end" Tree.text ({} : Templates).end_

/-- The section on the provider. -/
def Provider.toJson (p : Provider) : Json :=
  .record [("kind", .text p.kind), ("base_url", .text p.baseUrl), ("token", .text p.token)]

@[inherit_doc Provider.toJson]
def Provider.fields : Fields τ Provider :=
  Provider.mk <$> .withDefault "kind" Tree.text ({} : Provider).kind
    <*> .withDefault "base_url" Tree.text ""
    <*> .withDefault "token" Tree.text ""

/-- A tracked schedule. -/
def Schedule.toJson (s : Schedule) : Json :=
  .record [("name", .text s.name), ("id", .ofOption s.id), ("transport", s.medium.toJson),
    ("callback_url", .ofOption s.callbackUrl), ("expect_members", .flag s.expectMembers)]

@[inherit_doc Schedule.toJson]
def Schedule.fields : Fields τ Schedule :=
  Schedule.mk <$> .required "name" Tree.text
    <*> .withDefault "id" (Tree.optional Tree.text) none
    <*> .withDefault "transport" Medium.read .sms
    <*> .withDefault "callback_url" (Tree.optional Tree.text) none
    <*> .withDefault "expect_members" Tree.flag true

/-- **The whole configuration.** -/
def toJson (c : Config) : Json :=
  .record [("server", c.server.toJson), ("poller", c.poller.toJson),
    ("dispatcher", c.dispatcher.toJson), ("audit", c.audit.toJson),
    ("identity", c.directory.toJson), ("oncall", c.source.toJson),
    ("templates", c.templates.toJson), ("transport", c.provider.toJson),
    ("schedules", .list (c.schedules.map Schedule.toJson))]

@[inherit_doc toJson]
def fields : Fields τ Config :=
  Config.mk <$> .withDefault "server" (Tree.record Server.fields) {}
    <*> .withDefault "poller" (Tree.record Poller.fields) {}
    <*> .withDefault "dispatcher" (Tree.record Dispatcher.fields) {}
    <*> .withDefault "audit" (Tree.record Audit.fields) {}
    <*> .withDefault "identity" (Tree.record Directory.fields) {}
    <*> .withDefault "oncall" (Tree.record Source.fields) {}
    <*> .withDefault "templates" (Tree.record Templates.fields) {}
    <*> .withDefault "transport" (Tree.record Provider.fields) {}
    <*> .withDefault "schedules" (Tree.list (Tree.record Schedule.fields)) []

/-- Read a configuration. -/
def read : τ → Except Fault Config :=
  Tree.record fields

end Config

/-- What is told of a fault in a text. -/
def Fault.message : Fault → String
  | malformed => "the text breaks the rules of its language"
  | mismatch => "a value is missing or not of the expected kind"

/-- **Read a configuration** from a TOML text. -/
def Config.parse (source : String) : Except Failure Config :=
  match Toml.parse Config.read source with
  | .ok c => .ok c
  | .error fault => .error (.configuration ("Failed to parse config: " ++ fault.message))

end Rota
