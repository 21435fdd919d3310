import Rota.Format
import Rota.Http.Percent
import Rota.Text.Utf8

/-!
# Forms

The fields of a form, or of the query behind an address: names and values,
joined by equals signs and ampersands, with a plus for a blank and percent
escapes. All values are texts; a field that is absent has no value at all.
-/

namespace Rota.Http

/-- **A value in a form**: a text, or the fields of the whole form. -/
inductive Form where
  | value (text : String)
  | fields (pairs : List (String × String))
  deriving DecidableEq, Repr, Inhabited

namespace Form

/-- Read a name or a value. -/
def decode (bytes : List UInt8) : String :=
  let blanked := bytes.map fun b => if b = 0x2B then 0x20 else b
  String.ofList (Text.decodeLossy (unescape blanked))

/-- Read a field: up to the first equals sign it is the name. -/
def pair (bytes : List UInt8) : String × String :=
  let name := bytes.takeWhile (· ≠ 0x3D)
  (decode name, decode ((bytes.drop name.length).drop 1))

/-- **Read a form.** -/
def ofBytes (bytes : List UInt8) : Form :=
  .fields (((bytes.splitOn 0x26).filter (!·.isEmpty)).map pair)

variable {α : Type}

/-- Read a text. -/
def asText : Form → Except Fault String
  | value text => .ok text
  | fields _ => .error .mismatch

/-- Read a flag. -/
def asFlag : Form → Except Fault Bool
  | value "true" => .ok true
  | value "false" => .ok false
  | _ => .error .mismatch

/-- Read a natural number below a bound; there may be a plus sign before it. -/
def asNatural (bound : Nat) (f : Form) : Except Fault Nat := do
  let digits := match (← f.asText).toList with
    | '+' :: digits => digits
    | digits => digits
  if digits.isEmpty || !digits.all Text.isDigit then throw .mismatch
  let n := Text.ofDigits 10 digits
  if n < bound then return n else throw .mismatch

/-- Go through the fields of a form. No known field may be given twice. -/
def collect (known : List (Field Form)) (met : List (String × Form)) :
    List (String × String) → Except Fault (List (String × Form))
  | [] => .ok met
  | (name, text) :: rest =>
    match known.find? (fun f => f.name == name) with
    | none => collect known met rest
    | some f =>
      if (met.lookup name).isSome then .error .mismatch
      else do
        f.check (value text)
        collect known ((name, value text) :: met) rest

/-- Read a form as a record. -/
def asRecord (known : Fields Form α) : Form → Except Fault α
  | fields pairs => do
    let met ← collect known.known [] pairs
    known.build fun name => met.lookup name
  | value _ => .error .mismatch

instance : Tree Form where
  text := asText
  flag := asFlag
  natural := asNatural
  optional read f := (read f).map some
  list _ _ := .error .mismatch
  word names f := do
    match names.lookup (← f.asText) with
    | some a => return a
    | none => throw .mismatch
  record := asRecord

end Form

end Rota.Http
