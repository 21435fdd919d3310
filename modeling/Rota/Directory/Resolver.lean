import Rota.Directory.Cache
import Rota.Relay.Reply

/-!
# Resolving people

Who is meant by a key is for the directory to say. When the directory fails –
in whatever way, be it that it knows nobody – the person it last named under
that key stands in, unless that was too long ago.
-/

namespace Rota.Directory

/-- **A resolver**: the cache, and the number of answers taken from it. -/
structure Resolver where
  cache : Cache := {}
  fallbackHits : Nat := 0
  /-- The age up to which an entry may stand in, in milliseconds. -/
  maxAge : Option Nat := none
  /-- How long to wait for the directory, in milliseconds. -/
  lookupTimeout : Nat := 5000
  deriving Inhabited

namespace Resolver

/-- What the directory is taken to say when its reply does not come in time. -/
def heard (key : Key) : Option (Except Failure Identity) → Except Failure Identity
  | some answer => answer
  | none => .error (.timeout ("directory lookup for " ++ key.label))

/-- **Remember a person** whom the directory named. Nobody can be found again
without an id and an address. -/
def remember (r : Resolver) (now : Nat) (person : Identity) : Resolver :=
  if person.id.isEmpty || person.email.isEmpty then r
  else { r with cache := r.cache.insert now person }

/-- The person who may stand in under a key. -/
def cached (r : Resolver) (now : Nat) (key : Key) : Option Identity :=
  match r.cache.get? key with
  | none => none
  | some entry =>
    if r.maxAge.any (fun most => most < now - entry.since) then none else some entry.person

/-- **Resolve a key**, given what the directory says. -/
def resolve (r : Resolver) (now : Nat) (key : Key) (answer : Except Failure Identity) :
    Except Failure Identity × Resolver :=
  match answer with
  | .ok person => (.ok person, r.remember now person)
  | .error _ =>
    match r.cached now key with
    | some person => (.ok person, { r with fallbackHits := r.fallbackHits + 1 })
    | none => (.error (.unknownPerson key.text), r)

/-- **Resolve a key for a channel**: the person must also be reachable there. -/
def resolveFor (r : Resolver) (now : Nat) (key : Key) (channel : Channel)
    (answer : Except Failure Identity) : Except Failure Identity × Resolver :=
  let (result, r) := r.resolve now key answer
  (result.bind fun person => (person.reachable channel).map fun _ => person, r)

end Resolver

/-- **What a list of people answers** to a key: the first one whom the key
names. -/
def lookupIn (people : List Identity) (key : Key) : Except Failure Identity :=
  match people.find? (·.isNamedBy key) with
  | some person => .ok person
  | none => .error (.unknownPerson key.text)

end Rota.Directory
