import Rota.Cli.Host
import Rota.Cli.Invocation
import Rota.Directory
import Rota.Relay.Transport
import Rota.Wire.ConfigText
import Rota.Wire.Database

/-!
# Running the program

What the program does for an invocation, on whatever machine it runs. It
prints, and ends with a code: zero if all went well, one if something failed,
and two if the arguments make no sense.
-/

namespace Rota.Cli

/-- **What the program leaves behind**: its code, and what it printed. -/
structure Outcome where
  code : Nat := 0
  out : String := ""
  err : String := ""
  deriving DecidableEq, Repr, Inhabited

/-! ## Telling of failures -/

/-- A cause, with its lines indented. -/
def causeText (cause : String) : String :=
  "\n\nCaused by:\n    " ++ "\n    ".intercalate (cause.splitOn "\n")

/-- What lies behind a failure. -/
def causeOf? : Failure → Option String
  | .io detail | .json detail => some detail
  | _ => none

/-- **The end of a program that failed.** -/
def Outcome.failed (message : String) (cause : Option String) : Outcome :=
  { code := 1, err := "Error: " ++ message ++ cause.elim "" causeText ++ "\n" }

/-- The end of a program that met a failure. -/
def Outcome.ofFailure (f : Failure) : Outcome :=
  .failed f.message (causeOf? f)

variable {m : Type → Type} [Monad m]

/-! ## The configuration -/

/-- Read the configuration at a path. -/
def readConfig (h : Host m) (path : String) : m (Except Failure Config) := do
  match ← h.read path with
  | .ok text => return Config.parse text
  | .error fault =>
    return .error (.configuration ("Failed to read config " ++ path ++ ": " ++ fault.message))

/-- **Load the configuration**: from the path that is given, or from the usual
place, where it may be missing. -/
def loadConfig (h : Host m) (i : Invocation) : m (Except Failure Config) := do
  let loaded ← match i.config with
    | some path => readConfig h path
    | none =>
      let path := Config.defaultPath h.home
      if ← h.isThere path then readConfig h path else pure (.ok {})
  return do
    let c ← loaded
    let c := i.port.elim c fun port => { c with server := { c.server with port } }
    c.validate
    return c

/-- **What is printed about a configuration** that can be used. -/
def summary (c : Config) : String :=
  let line (s : Config.Schedule) : String :=
    "      - " ++ s.name ++ " → " ++ s.medium.name ++ s.callbackUrl.elim "" (" " ++ ·) ++ "\n"
  "✅ Configuration OK\n"
    ++ "   🌐 Gateway:   " ++ c.server.host ++ ":" ++ toString c.server.port.toNat ++ "\n"
    ++ "   ⏱️  Poller:    " ++ (if c.poller.enabled then "enabled" else "disabled")
    ++ " (every " ++ toString c.poller.interval.toNat ++ "s)\n"
    ++ "   📮 Transport: " ++ c.provider.kind ++ "\n"
    ++ "   📋 Schedules: " ++ toString c.schedules.length ++ "\n"
    ++ String.join (c.schedules.map line)

/-! ## Databases -/

/-- Is this the name of a database that is kept nowhere? -/
def isUnkept (path : String) : Bool :=
  path.isEmpty || path = ":memory:"

/-- **Open a database**, and make the folders above it; `fail` makes a failure
of what goes wrong with the database itself. -/
def openDatabase (h : Host m) (fail : String → Failure) (path : String) :
    m (Except Failure Database) := do
  let made ← match parentOf path with
    | none => pure (.ok ())
    | some folder => if folder.isEmpty then pure (.ok ()) else h.makeFolder folder
  match made with
  | .error fault => return .error (.io fault.message)
  | .ok () =>
    if isUnkept path then return .ok {}
    match ← h.read path with
    | .ok text =>
      return (Database.ofText? text).elim (.error (fail "migrate: file is not a database")) .ok
    | .error .missing => return .ok {}
    | .error _ => return .error (fail ("open: unable to open database file: " ++ path))

/-- Keep a database at its path. -/
def keepDatabase (h : Host m) (path : String) (d : Database) : m Unit := do
  if !isUnkept path then discard (h.write path d.text)

/-- **Open the directory**, and create its table if it is missing. -/
def openDirectory (h : Host m) (path : String) : m (Except Failure Database) := do
  match ← openDatabase h .directory path with
  | .error f => return .error f
  | .ok d =>
    let d := { d with users := some (d.users.getD {}) }
    keepDatabase h path d
    return .ok d

/-- **Open the audit log**, and create its table if it is missing. -/
def openLog (h : Host m) (path : String) : m (Except Failure Database) := do
  match ← openDatabase h .audit path with
  | .error f => return .error f
  | .ok d =>
    let d := { d with events := some (d.events.getD []) }
    keepDatabase h path d
    return .ok d

/-- The directory in a database. -/
def directoryOf (d : Database) : Directory :=
  { users := d.users }

/-! ## Actions -/

/-- The person whom the arguments describe. A number that is not given is not
verified either. -/
def personOf (u : NewUser) : Identity :=
  { id := u.id
    email := u.email
    username := u.username
    phone := u.phone
    phoneVerified := u.phone.isSome && u.verified
    slack := u.slack }

/-- **Add a user.** -/
def addUser (h : Host m) (c : Config) (u : NewUser) : m Outcome := do
  let path := Config.expandPath h.home c.directory.path
  match ← openDirectory h path with
  | .error f => return .ofFailure f
  | .ok d =>
    match (directoryOf d).upsert (personOf u) with
    | .error f => return .ofFailure f
    | .ok directory =>
      keepDatabase h path { d with users := directory.users }
      return { out := "✅ User " ++ u.id ++ " <" ++ u.email ++ "> saved\n" }

/-- **Serve**: open the audit log and the directory, look at the transport, and
listen. The program ends well when it is told to stop, and also when it cannot
listen. -/
def serve (h : Host m) (c : Config) : m Outcome := do
  let log ← if c.audit.enabled then
      openLog h (Config.expandPath h.home c.audit.path)
    else pure (.ok {})
  match log with
  | .error f => return .ofFailure f
  | .ok _ =>
    match ← openDirectory h (Config.expandPath h.home c.directory.path) with
    | .error f => return .ofFailure f
    | .ok _ =>
      match Relay.Transport.of c.provider with
      | .error f => return .ofFailure f
      | .ok _ =>
        match ← h.listen c.server.host c.server.port with
        | .ok () => return {}
        | .error fault => return { out := "🌐 Gateway failed: " ++ fault ++ "\n" }

/-- **Do what an invocation asks for.** -/
def perform (h : Host m) (i : Invocation) : m Outcome := do
  match ← loadConfig h i with
  | .error f => return .failed "invalid configuration" (some f.message)
  | .ok c =>
    match i.action with
    | .serve => serve h c
    | .checkConfig => return { out := summary c }
    | .addUser u => addUser h c u

/-- **Run the program.** -/
def run (h : Host m) (arguments : List String) : m Outcome :=
  match Request.ofArguments arguments with
  | .print text => pure { out := text }
  | .misuse => pure { code := 2, err := "error: the arguments make no sense; try '--help'\n" }
  | .run i => perform h i

end Rota.Cli
