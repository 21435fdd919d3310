import Rota.Cli.Run

/-!
# The program

The command line on a real machine. There is no network here, so nobody can be
listened to.
-/

namespace Rota.Cli

/-- What is wrong with a file, by what the system says. -/
def DiskFault.ofError : IO.Error → DiskFault
  | .noFileOrDirectory .. => .missing
  | .alreadyExists .. => .taken
  | .inappropriateType _ _ details => .other details
  | e => .other (toString e)

/-- Catch what goes wrong with a file. -/
def attempt {α : Type} (action : IO α) : IO (Except DiskFault α) := do
  try return .ok (← action)
  catch e => return .error (.ofError e)

/-- The machine the program runs on. -/
def machine (home : String) : Host IO where
  home := home
  isThere path := do return (← attempt (IO.FS.Handle.mk path .read)).toBool
  read path := attempt (IO.FS.readFile path)
  write path text := attempt (IO.FS.writeFile path text)
  makeFolder path := attempt (IO.FS.createDirAll path)
  listen _ _ := return .error "there is no network"

end Rota.Cli

/-- **The program.** -/
def main (arguments : List String) : IO UInt32 := do
  let home := (← IO.getEnv "HOME").getD "."
  let outcome ← Rota.Cli.run (Rota.Cli.machine home) arguments
  (← IO.getStdout).putStr outcome.out
  (← IO.getStderr).putStr outcome.err
  return .ofNat outcome.code
