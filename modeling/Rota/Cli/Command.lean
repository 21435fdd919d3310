/-!
# Commands and their help

A command is described once: its options, its operands and the commands under
it. The help text is written from that description, in columns that are as wide
as they need to be; and the arguments are read by it.
-/

namespace Rota.Cli

/-- **An option**: its long name, perhaps a letter for short, and the name of
its value if it takes one. -/
structure Flag where
  name : String
  letter : Option Char := none
  valueName : Option String := none
  about : String := ""
  /-- What is taken for the value if the option is not given. -/
  default : Option String := none
  deriving DecidableEq, Repr, Inhabited

namespace Flag

/-- Does the option take a value? -/
def takesValue (f : Flag) : Bool :=
  f.valueName.isSome

/-- The option as it is written. -/
def written (f : Flag) : String :=
  "--" ++ f.name ++ f.valueName.elim "" (" <" ++ · ++ ">")

/-- The column in front of the explanation. -/
def column (f : Flag) : String :=
  f.letter.elim "    " (fun c => String.ofList ['-', c, ',', ' ']) ++ f.written

/-- The explanation, with the default behind it. -/
def explanation (f : Flag) : String :=
  let default := f.default.elim "" fun value => "[default: " ++ value ++ "]"
  if f.about.isEmpty ∨ default.isEmpty then f.about ++ default else f.about ++ " " ++ default

end Flag

/-- The option that asks for help. -/
def Flag.help : Flag :=
  { name := "help", letter := some 'h', about := "Print help" }

/-- The option that asks for the version. -/
def Flag.version : Flag :=
  { name := "version", letter := some 'V', about := "Print version" }

/-- **A command.** -/
structure Command where
  /-- The name, with the names of the commands above it. -/
  path : String
  about : String
  flags : List Flag := []
  /-- The operands, with their explanations; all of them are needed. -/
  operands : List (String × String) := []
  /-- The commands under it, with their explanations. -/
  commands : List (String × String) := []
  /-- Can it be used without one of these? -/
  isComplete : Bool := true
  deriving Repr, Inhabited

namespace Command

/-- **How a command is used.** -/
def usage (c : Command) : String :=
  c.path
    ++ (if c.flags.any fun f => f ≠ .help ∧ f ≠ .version then " [OPTIONS]" else "")
    ++ String.join (c.operands.map fun (name, _) => " " ++ name)
    ++ (if c.commands.isEmpty then "" else if c.isComplete then " [COMMAND]" else " <COMMAND>")

/-- **A section of a help text**: a title, and lines in two columns. -/
def sectionText (title : String) (lines : List (String × String)) : String :=
  if lines.isEmpty then ""
  else
    let width := (lines.map (·.1.length)).foldl max 0
    "\n" ++ title ++ ":\n" ++ String.join (lines.map fun (left, right) =>
      "  " ++ left ++ String.ofList (List.replicate (width - left.length + 2) ' ') ++ right ++ "\n")

/-- **The help text of a command.** -/
def helpText (c : Command) : String :=
  c.about ++ "\n\nUsage: " ++ c.usage ++ "\n"
    ++ sectionText "Commands" c.commands
    ++ sectionText "Arguments" c.operands
    ++ sectionText "Options" (c.flags.map fun f => (f.column, f.explanation))

end Command

end Rota.Cli
