/-!
# Finding and replacing a fixed text

Message texts are filled in and decorated by searching for a fixed pattern.
Both operations walk the text once from the left: `breakOn` cuts it at the
*first* occurrence of the pattern, and `replaceAll` replaces every occurrence
met on the way and never looks at what it has just inserted.

Both are written with an accumulator, so that the depth of the recursion does
not grow with the length of the text. What the accumulator does is stated by
`breakOnFrom_seen`.
-/

namespace Rota.Text

/-- Walk through `text` looking for `pattern`; `seen` holds what was passed,
last character first. -/
def breakOnFrom (pattern seen : List Char) : List Char → Option (List Char × List Char)
  | [] => if pattern = [] then some (seen.reverse, []) else none
  | c :: rest =>
    if pattern.isPrefixOf (c :: rest) then some (seen.reverse, c :: rest)
    else breakOnFrom pattern (c :: seen) rest

/-- **Cut at the first occurrence**: the part before it, and the part that
begins with it. -/
def breakOn (pattern text : List Char) : Option (List Char × List Char) :=
  breakOnFrom pattern [] text

theorem breakOnFrom_seen (pattern : List Char) (text seen : List Char) :
    breakOnFrom pattern seen text
      = (breakOnFrom pattern [] text).map (fun p => (seen.reverse ++ p.1, p.2)) := by
  induction text generalizing seen with
  | nil => by_cases h : pattern = [] <;> simp [breakOnFrom, h]
  | cons c rest ih =>
    by_cases h : pattern.isPrefixOf (c :: rest)
    · simp [breakOnFrom, h]
    · rw [breakOnFrom, breakOnFrom, if_neg h, if_neg h, ih (c :: seen), ih [c]]
      cases breakOnFrom pattern [] rest <;> simp

/-- Walk through `text`, replacing `pattern`. The first argument counts the
characters of an occurrence that are still to be passed over; `done` holds the
result so far, last character first. -/
def replaceAllFrom (pattern replacement : List Char) :
    Nat → List Char → List Char → List Char
  | _, done, [] => done.reverse
  | skip + 1, done, _ :: rest => replaceAllFrom pattern replacement skip done rest
  | 0, done, c :: rest =>
    if pattern.isPrefixOf (c :: rest) then
      replaceAllFrom pattern replacement (pattern.length - 1) (replacement.reverse ++ done) rest
    else
      replaceAllFrom pattern replacement 0 (c :: done) rest

/-- **Replace every occurrence** of a (non-empty) pattern, from the left and
without overlaps. -/
def replaceAll (pattern replacement text : List Char) : List Char :=
  replaceAllFrom pattern replacement 0 [] text

/-- Does the pattern occur in the text? -/
def occurs (pattern text : List Char) : Bool :=
  (breakOn pattern text).isSome

end Rota.Text
