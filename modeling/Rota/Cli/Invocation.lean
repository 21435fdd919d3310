import Rota.Cli.Scan

/-!
# Invocations

The commands of this program, and what it is asked to do by its arguments.
-/

namespace Rota.Cli

/-- **A user to be added.** -/
structure NewUser where
  id : String
  email : String
  username : String := ""
  phone : Option String := none
  verified : Bool := false
  slack : Option String := none
  deriving DecidableEq, Repr, Inhabited

/-- **What is to be done.** -/
inductive Action where
  | serve
  | checkConfig
  | addUser (user : NewUser)
  deriving DecidableEq, Repr, Inhabited

/-- **An invocation**: what is to be done, with which configuration. -/
structure Invocation where
  /-- Where the configuration is. -/
  config : Option String := none
  /-- The port to listen on, in place of the configured one. -/
  port : Option UInt16 := none
  action : Action := .serve
  deriving DecidableEq, Repr, Inhabited

/-- **What the arguments ask for.** -/
inductive Request where
  | run (i : Invocation)
  /-- Print a text. -/
  | print (text : String)
  | misuse
  deriving DecidableEq, Repr, Inhabited

/-! ## The commands -/

/-- What is said of the command that prints help. -/
def helpAbout : String :=
  "Print this message or the help of the given subcommand(s)"

/-- The program itself. -/
def program : Command where
  path := "dutyrelay"
  about := "📟 DutyRelay: on-call rotation tracker and notification relay"
  flags :=
    [{ name := "config", letter := some 'c', valueName := some "CONFIG"
       about := "Config file (default: ~/.dutyrelay/config.toml)" },
      { name := "port", letter := some 'p', valueName := some "PORT"
        about := "Override the HTTP port" },
      { name := "verbose", letter := some 'v', about := "Verbose logging" },
      { name := "json-logs", about := "Emit logs as JSON lines" },
      .help, .version]
  commands :=
    [("serve", "Run the poller, dispatcher and HTTP gateway (default)"),
      ("check-config", "Load and validate the configuration, then exit"),
      ("user", "Manage the user directory"),
      ("help", helpAbout)]

/-- The command that runs the service. -/
def serveCommand : Command where
  path := "dutyrelay serve"
  about := "Run the poller, dispatcher and HTTP gateway (default)"
  flags := [.help]

/-- The command that checks the configuration. -/
def checkCommand : Command where
  path := "dutyrelay check-config"
  about := "Load and validate the configuration, then exit"
  flags := [.help]

/-- The command that manages the directory. -/
def userCommand : Command where
  path := "dutyrelay user"
  about := "Manage the user directory"
  flags := [.help]
  commands := [("add", "Add or replace a user"), ("help", helpAbout)]
  isComplete := false

/-- The command that adds a user. -/
def addCommand : Command where
  path := "dutyrelay user add"
  about := "Add or replace a user"
  flags :=
    [{ name := "username", valueName := some "USERNAME", default := some "" },
      { name := "phone", valueName := some "PHONE" },
      { name := "verified", about := "Mark the phone number as verified" },
      { name := "slack", valueName := some "SLACK" },
      .help]
  operands := [("<ID>", ""), ("<EMAIL>", "")]

/-- The command that prints help, under another one. -/
def helpCommand (above : String) : Command where
  path := above ++ " help"
  about := helpAbout
  operands := [("[COMMAND]...", "Print help for the subcommand(s)")]

/-- **The command that a path of names leads to**, from the program itself. -/
def findCommand : List String → Option Command
  | [] => some program
  | ["serve"] => some serveCommand
  | ["check-config"] => some checkCommand
  | ["user"] => some userCommand
  | ["user", "add"] => some addCommand
  | ["user", "help"] => some (helpCommand userCommand.path)
  | ["help"] => some (helpCommand program.path)
  | _ => none

/-- Print help on the command that a path leads to. -/
def printHelp (path : List String) : Request :=
  (findCommand path).elim .misuse fun c => .print c.helpText

/-! ## Reading the arguments -/

/-- Read a port: a number of 16 bits, perhaps with a plus sign before it. -/
def port? (text : String) : Option UInt16 :=
  let digits := match text.toList with
    | '+' :: digits => digits
    | digits => digits
  let n := digits.foldl (fun n c => n * 10 + (c.toNat - '0'.toNat)) 0
  if !digits.isEmpty && digits.all Char.isDigit && decide (n < UInt16.size) then
    some (.ofNat n)
  else none

/-- Is the value of an option of the program a proper one? -/
def isProperValue (name value : String) : Bool :=
  if name = "config" then !value.isEmpty
  else if name = "port" then (port? value).isSome
  else true

/-- What follows when reading has stopped early. -/
def halted (c : Command) : Halt → Request
  | .help => .print c.helpText
  | .version => .print "dutyrelay 0.3.0\n"
  | .misuse => .misuse

/-- Read the arguments of a command with options and operands alone. -/
def readPlain (c : Command) (arguments : List String) (then_ : Given → Request) : Request :=
  let rules : Rules := { flags := c.flags, operands := some c.operands.length }
  let read : Except Halt Given := do
    let (g, _) ← scan rules {} arguments
    let g ← g.settle rules
    if g.operands.length = c.operands.length then return g else throw .misuse
  match read with
  | .error halt => halted c halt
  | .ok g => then_ g

/-- The user whom the arguments describe. -/
def newUser (g : Given) : Option NewUser :=
  match g.operands with
  | [id, email] => some
    { id
      email
      username := (g.value? "username").getD ""
      phone := g.value? "phone"
      verified := g.has "verified"
      slack := g.value? "slack" }
  | _ => none

/-- Read the arguments of the command that manages the directory. -/
def readUser (i : Invocation) (arguments : List String) : Request :=
  match scan { flags := userCommand.flags, operands := none } {} arguments with
  | .error halt => halted userCommand halt
  | .ok (_, none) => .misuse
  | .ok (_, some (name, rest)) =>
    if name = "add" then
      readPlain addCommand rest fun g =>
        (newUser g).elim .misuse fun user => .run { i with action := .addUser user }
    else if name = "help" then printHelp ("user" :: rest)
    else .misuse

/-- Read the arguments behind the name of a command. -/
def readCommand (i : Invocation) (name : String) (rest : List String) : Request :=
  if name = "serve" then readPlain serveCommand rest fun _ => .run { i with action := .serve }
  else if name = "check-config" then
    readPlain checkCommand rest fun _ => .run { i with action := .checkConfig }
  else if name = "user" then readUser i rest
  else if name = "help" then printHelp rest
  else .misuse

/-- What the options of the program say. -/
def invocationOf (g : Given) : Invocation :=
  { config := g.value? "config", port := (g.value? "port").bind port? }

/-- **Read the arguments.** -/
def Request.ofArguments (arguments : List String) : Request :=
  let rules : Rules := { flags := program.flags, isProper := isProperValue, operands := none }
  match scan rules {} arguments with
  | .error halt => halted program halt
  | .ok (g, command) =>
    let settled := g.settle rules
    let i := settled.toOption.elim {} invocationOf
    match command, settled with
    | none, .error _ => .misuse
    | none, .ok _ => .run i
    | some (name, rest), settled =>
      match readCommand i name rest, settled with
      | .run _, .error _ => .misuse
      | request, _ => request

end Rota.Cli
