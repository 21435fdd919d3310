import Rota.Keyed
import Rota.Text.Search

/-!
# The host of the program

What the program may ask of the machine it runs on: it reads and writes files,
makes folders, and listens for callers. `Disk` is such a machine in memory.
-/

namespace Rota.Cli

/-- **Why a file or folder cannot be used.** -/
inductive DiskFault where
  | missing
  | taken
  | notFolder
  | isFolder
  | other (text : String)
  deriving DecidableEq, Repr, Inhabited

/-- The text of a fault. -/
def DiskFault.message : DiskFault → String
  | missing => "No such file or directory (os error 2)"
  | taken => "File exists (os error 17)"
  | notFolder => "Not a directory (os error 20)"
  | isFolder => "Is a directory (os error 21)"
  | other text => text

/-- **A machine.** -/
structure Host (m : Type → Type) where
  /-- The folder of the user. -/
  home : String
  /-- Is there something at a path? -/
  isThere : String → m Bool
  /-- Read a file. -/
  read : String → m (Except DiskFault String)
  /-- Write a file. -/
  write : String → String → m (Except DiskFault Unit)
  /-- Make a folder, and the folders above it. -/
  makeFolder : String → m (Except DiskFault Unit)
  /-- Listen for callers until they are told to stop; the answer tells what is
  wrong with the address if nobody can be heard. -/
  listen : String → UInt16 → m (Except String Unit)

/-! ## Paths -/

/-- **The folder that a path lies in**; there is none for the empty path and
for the root. -/
def parentOf (path : String) : Option String :=
  match path.toList.reverse.dropWhile (· = '/') with
  | [] => none
  | rest =>
    let above := rest.dropWhile (· ≠ '/')
    match above.dropWhile (· = '/') with
    | [] => some (if above.isEmpty then "" else "/")
    | folder => some (String.ofList folder.reverse)

/-- Go along the names of a path, from a place that is given by the names
below it, last first. -/
def walk : List String → List String → List String
  | place, [] => place
  | place, name :: rest =>
    if name = "" ∨ name = "." then walk place rest
    else if name = ".." then walk (place.drop 1) rest
    else walk (name :: place) rest

/-- The names that lead to a path from the root, if relative paths begin in the
folder `start`. -/
def namesOf (start path : String) : List String :=
  let full := if path.toList.head? = some '/' then path else start ++ "/" ++ path
  (walk [] ((full.toList.splitOn '/').map String.ofList)).reverse

/-! ## A machine in memory -/

inductive Entry where
  | folder
  | file (text : String)
  deriving DecidableEq, Repr, Inhabited

/-- **A disk**: the entries, by their paths from the root. Nobody can be heard
there. -/
structure Disk where
  entries : Keyed Entry := ∅
  deriving Inhabited

namespace Disk

/-- The key of a path. -/
def key (names : List String) : String :=
  "/" ++ "/".intercalate names

/-- The entry at a path. The root is a folder. -/
def entry? (d : Disk) (names : List String) : Option Entry :=
  if names.isEmpty then some .folder else d.entries.get? (key names)

/-- Put an entry at a path. -/
def put (d : Disk) (names : List String) (e : Entry) : Disk :=
  { entries := d.entries.put (key names) e }

/-- **Follow a path**: everything above its end has to be a folder. -/
def follow (d : Disk) (done : List String) : List String → Except DiskFault Entry
  | [] => (d.entry? done).elim (.error .missing) .ok
  | name :: rest =>
    match d.entry? done with
    | none => .error .missing
    | some (.file _) => .error .notFolder
    | some .folder => d.follow (done ++ [name]) rest

/-- Make the folders along a path, where they are missing. -/
def makeFolders (d : Disk) (done : List String) : List String → Except DiskFault Disk
  | [] => .ok d
  | name :: rest =>
    let next := done ++ [name]
    match d.entry? next with
    | some .folder => d.makeFolders next rest
    | some (.file _) => .error (if rest.isEmpty then .taken else .notFolder)
    | none => (d.put next .folder).makeFolders next rest

/-- Read a file. -/
def read (d : Disk) (names : List String) : Except DiskFault String := do
  match ← d.follow [] names with
  | .file text => return text
  | .folder => throw .isFolder

/-- Write a file. -/
def write (d : Disk) (names : List String) (text : String) : Except DiskFault Disk :=
  match d.follow [] names with
  | .ok .folder => .error .isFolder
  | .ok (.file _) => .ok (d.put names (.file text))
  | .error .missing =>
    match d.follow [] names.dropLast with
    | .ok .folder => .ok (d.put names (.file text))
    | .ok (.file _) => .error .notFolder
    | .error fault => .error fault
  | .error fault => .error fault

/-- **The disk as a machine** whose user works in the folder `home`. -/
def host (home : String) : Host (StateM Disk) where
  home := home
  isThere path := do return ((← get).follow [] (namesOf home path)).toBool
  read path := do return (← get).read (namesOf home path)
  write path text := do
    match (← get).write (namesOf home path) text with
    | .ok d => set d; return .ok ()
    | .error fault => return .error fault
  makeFolder path := do
    match (← get).makeFolders [] (namesOf home path) with
    | .ok d => set d; return .ok ()
    | .error fault => return .error fault
  listen _ _ := return .error "Cannot assign requested address (os error 99)"

end Disk

end Rota.Cli
