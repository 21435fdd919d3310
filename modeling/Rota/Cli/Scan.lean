import Rota.Cli.Command

/-!
# Reading arguments

Arguments are read from the left. A long option begins with two dashes, and its
value follows an equals sign or is the next argument. Letters stand behind one
dash, several of them together if they like; the value of the last one may
follow at once. Behind two dashes alone everything is an operand. No option is
given twice.

A value that is an argument of its own is looked at only when the next option
or the end is reached; so what stands between may still ask for help.
-/

namespace Rota.Cli

/-- **Why reading stops.** -/
inductive Halt where
  /-- Help was asked for. -/
  | help
  /-- The version was asked for. -/
  | version
  /-- The arguments make no sense. -/
  | misuse
  deriving DecidableEq, Repr, Inhabited

/-- **What has been read.** -/
structure Given where
  /-- The options with their values; those without a value have an empty one. -/
  values : List (String × String) := []
  /-- An option whose value has not been looked at. -/
  pending : Option (String × String) := none
  /-- The operands, in order. -/
  operands : List String := []
  deriving DecidableEq, Repr, Inhabited

/-- **The rules of a command**: its options, the check on their values, and the
number of operands it takes. Without a number, reading stops at the first
operand. -/
structure Rules where
  flags : List Flag
  isProper : String → String → Bool := fun _ _ => true
  operands : Option Nat := some 0

namespace Given

/-- The value of an option. -/
def value? (g : Given) (name : String) : Option String :=
  g.values.lookup name

/-- Was an option given? -/
def has (g : Given) (name : String) : Bool :=
  (g.value? name).isSome

/-- Take note of an option. -/
def note (g : Given) (rules : Rules) (name value : String) : Except Halt Given :=
  if g.has name || !rules.isProper name value then .error .misuse
  else .ok { g with values := (name, value) :: g.values }

/-- **Look at the value** that has not been looked at. -/
def settle (g : Given) (rules : Rules) : Except Halt Given :=
  match g.pending with
  | some (name, value) => { g with pending := none }.note rules name value
  | none => .ok g

/-- Take note of an option without a value; two of them end the reading. -/
def noteFlag (g : Given) (rules : Rules) (f : Flag) : Except Halt Given :=
  if f = .help then .error .help
  else if f = .version then .error .version
  else g.note rules f.name ""

end Given

/-- Read letters behind a dash. The answer also tells of an option whose value
is the next argument. -/
def readLetters (rules : Rules) (g : Given) : List Char → Except Halt (Given × Option Flag)
  | [] => .ok (g, none)
  | c :: rest =>
    match rules.flags.find? (·.letter = some c) with
    | none => .error .misuse
    | some f =>
      if f.takesValue then
        if rest.isEmpty then .ok (g, some f)
        else
          let value := if rest.head? = some '=' then rest.drop 1 else rest
          (g.note rules f.name (String.ofList value)).map (·, none)
      else do readLetters rules (← g.noteFlag rules f) rest

/-- Read what stands behind two dashes. -/
def readLong (rules : Rules) (g : Given) (text : List Char) :
    Except Halt (Given × Option Flag) :=
  let name := text.takeWhile (· ≠ '=')
  match rules.flags.find? (·.name = String.ofList name), text.drop name.length with
  | none, _ => .error .misuse
  | some f, [] => if f.takesValue then .ok (g, some f) else (g.noteFlag rules f).map (·, none)
  | some f, _ :: value =>
    if f.takesValue then (g.note rules f.name (String.ofList value)).map (·, none)
    else .error .misuse

/-- Take operands, if so many are taken. -/
def takeOperands (rules : Rules) (g : Given) (more : List String) : Except Halt Given :=
  let operands := g.operands ++ more
  if operands.length ≤ rules.operands.getD 0 then .ok { g with operands } else .error .misuse

/-- Does an argument look like an option? -/
def looksLikeOption (argument : String) : Bool :=
  match argument.toList with
  | '-' :: _ :: _ => true
  | _ => false

/-- **Read arguments.** If reading stops at an operand, the answer holds it and
the arguments behind it. -/
def scan (rules : Rules) (g : Given) : List String →
    Except Halt (Given × Option (String × List String))
  | [] => .ok (g, none)
  | argument :: rest =>
    match argument.toList with
    | ['-', '-'] => do
      let g ← g.settle rules
      return (← takeOperands rules g rest, none)
    | '-' :: c :: letters => do
      let g ← g.settle rules
      let (g, wanting) ←
        if c = '-' then readLong rules g letters else readLetters rules g (c :: letters)
      match wanting, rest with
      | none, rest => scan rules g rest
      | some _, [] => throw .misuse
      | some f, value :: rest =>
        if looksLikeOption value then throw .misuse
        else scan rules { g with pending := some (f.name, value) } rest
    | _ =>
      match rules.operands with
      | none => .ok (g, some (argument, rest))
      | some _ => do scan rules (← takeOperands rules g [argument]) rest

end Rota.Cli
