/-!
# TOML values, and tables in the making

The values that a TOML text can hold are told apart as far as the configuration
does: fractions and dates are values too, but never the ones that are wanted.

A TOML text builds its tables piece by piece: by headers, by dotted names, and
by lists of tables. Each piece may add to what is there, but a table is opened
by a header once at most, and dotted names add only to tables that dotted names
have made.
-/

namespace Rota

/-- **A TOML value.** -/
inductive Toml where
  | text (s : String)
  | integer (n : Int)
  | fraction
  | flag (b : Bool)
  | moment
  | list (items : List Toml)
  | table (entries : List (String × Toml))
  deriving Repr, Inhabited

namespace Toml

/-- **How a table came about.** -/
inductive TableKind where
  /-- It was opened by its own header. -/
  | opened
  /-- It is on the way to a table with a header. -/
  | passed
  /-- It is on the way of a dotted name. -/
  | dotted
  deriving DecidableEq, Repr

/-- **A place in the tree of tables.** -/
inductive Node where
  | value (v : Toml)
  | table (kind : TableKind) (entries : List (String × Node))
  /-- A list of tables, each with its entries, the latest one first. -/
  | tables (latest : List (String × Node)) (earlier : List Node)

/-- The entries of a table. -/
abbrev Entries := List (String × Node)

/-- Give a name a new place, or replace the one it has. -/
def Entries.set (entries : Entries) (name : String) (node : Node) : Entries :=
  if entries.any (fun e => e.1 == name) then
    entries.map fun e => if e.1 = name then (name, node) else e
  else entries ++ [(name, node)]

/-- **Change the table at the end of a path**, with the tables on the way made
as they are needed. The change is told how that table came about. A path of
dotted names does not lead into tables that were opened by a header. -/
def descend (byDots : Bool) (change : TableKind → Entries → Option Entries) :
    List String → TableKind → Entries → Option Entries
  | [], kind, entries => change kind entries
  | name :: path, _, entries =>
    match entries.lookup name with
    | none => do
      let kind := if byDots then .dotted else .passed
      let inner ← descend byDots change path kind []
      return entries.set name (.table kind inner)
    | some (.value _) => none
    | some (.table kind inner) =>
      if byDots ∧ kind = .opened then none
      else do
        let inner ← descend byDots change path kind inner
        return entries.set name (.table kind inner)
    | some (.tables latest earlier) => do
      let latest ← descend byDots change path .opened latest
      return entries.set name (.tables latest earlier)

/-- **Add a value** under a dotted name to a table. -/
def addValue (path : List String) (name : String) (v : Toml) (kind : TableKind)
    (entries : Entries) : Option Entries :=
  descend true
    (fun kind entries =>
      -- a name without dots goes into any table but one made by dots, and the
      -- other way round
      if (kind = .dotted) = (path = []) then none
      else if entries.any fun e => e.1 == name then none
      else some (entries ++ [(name, .value v)]))
    path kind entries

/-- **Open a table** by its header. -/
def openTable (path : List String) (name : String) (root : Entries) : Option Entries :=
  descend false
    (fun _ entries =>
      match entries.lookup name with
      | none => some (entries ++ [(name, .table .opened [])])
      | some (.table .passed inner) => some (entries.set name (.table .opened inner))
      | some _ => none)
    path .opened root

/-- **Open the next table of a list** by its header. -/
def openNext (path : List String) (name : String) (root : Entries) : Option Entries :=
  descend false
    (fun _ entries =>
      match entries.lookup name with
      | none => some (entries ++ [(name, .tables [] [])])
      | some (.tables latest earlier) =>
        some (entries.set name (.tables [] (.table .opened latest :: earlier)))
      | some _ => none)
    path .opened root

mutual

/-- **The value of a finished place.** -/
def Node.finish : Node → Toml
  | .value v => v
  | .table _ entries => .table (finishEntries entries)
  | .tables latest earlier =>
    .list ((Toml.table (finishEntries latest) :: finishAll earlier).reverse)

/-- The values of finished places. -/
def Node.finishAll : List Node → List Toml
  | [] => []
  | n :: rest => n.finish :: finishAll rest

/-- The values of the finished entries of a table. -/
def Node.finishEntries : List (String × Node) → List (String × Toml)
  | [] => []
  | (name, n) :: rest => (name, n.finish) :: finishEntries rest

end

end Toml

end Rota
