import Packager.Text.Pattern.Escape
/-!
# Text.Pattern.Bracket — sets of characters between brackets

A set is a row of characters, ranges of characters, sets with a name and sets between brackets of their own, and two
signs may join what is on their sides.  A set that is not wide holds ASCII characters only, so it can neither be
negated nor name others.
-/
namespace Packager
namespace Pattern

/-- The names of sets of ASCII characters. -/
def setNames : List String :=
  ["alnum", "alpha", "ascii", "blank", "cntrl", "digit", "graph", "lower", "print", "punct", "space", "upper", "word",
    "xdigit"]

/-- A set with a name; the answer is whether it is negated. -/
def namedSet : Reader Bool := do
  Reader.exactly "[:"
  let negation ← Reader.optional (Reader.exactly "^")
  let _ ← Reader.check (Reader.run (· != ':')) fun name => setNames.contains (String.ofList name)
  Reader.exactly ":]"
  return negation.isSome

/-- An opening bracket; the answer is the number of dashes or closing brackets that stand for themselves behind it. -/
def openBracket (mode : Mode) : Reader Nat := do
  Reader.exactly "["
  gap mode
  let negation ← Reader.optional (Reader.exactly "^")
  if negation.isSome && !mode.isWide then failure
  gap mode
  let dashes ← Reader.many (do Reader.exactly "-"; gap mode)
  if dashes.isEmpty then
    return if (← Reader.optional (Reader.exactly "]")).isSome then 1 else 0
  else return dashes.length

/-- Whether an atom may be in a set. -/
def Atom.fits (mode : Mode) : Atom → Bool
  | char c => mode.isWide || c.toNat < 0x80
  | set => true
  | place _ => false

/-- One atom of a set. -/
def setAtom (mode : Mode) : Reader Atom :=
  Reader.check (fun cs => if cs.head? = some '\\' then escape mode cs else (.char <$> Reader.char fun _ => true) cs)
    (·.fits mode)

/-- What stands behind a dash: the next character that is no blank, or the first such one of a comment. -/
def behindDash (mode : Mode) (rest : List Char) : Option Char :=
  if !mode.isSpaced then rest.head?
  else
    match rest.dropWhile Char.isBlank with
    | '#' :: comment => (comment.dropWhile Char.isBlank).head?
    | rest => rest.head?

/-- The dash of a range.  Before a closing bracket or another dash, it is none. -/
def rangeDash (mode : Mode) : Reader Unit := do
  Reader.exactly "-"
  fun rest => if [some ']', some '-'].contains (behindDash mode rest) then none else gap mode rest

/-- An atom of a set, or a range of characters. -/
def range (mode : Mode) : Reader Unit := do
  let first ← setAtom mode
  gap mode
  if (← Reader.optional (rangeDash mode)).isSome then
    match first, ← setAtom mode with
    | .char low, .char high => if high < low then failure
    | _, _ => failure

/-- What stands between brackets. -/
inductive BracketItem where
  /-- An atom, a range or a set with a name. -/
  | member
  | operator
  /-- A bracket with a number of members behind it. -/
  | opening (members : Nat)
  | closing

/-- The next item between brackets. -/
def bracketItem (mode : Mode) : Reader BracketItem
  | ']' :: rest => some (.closing, rest)
  | '&' :: '&' :: rest => some (.operator, rest)
  | '-' :: '-' :: rest => some (.operator, rest)
  | '~' :: '~' :: rest => some (.operator, rest)
  | '[' :: rest =>
    match namedSet ('[' :: rest) with
    | some (isNegated, rest) => if isNegated && !mode.isWide then none else some (.member, rest)
    | none => (BracketItem.opening <$> openBracket mode) ('[' :: rest)
  | cs => (do range mode; return .member : Reader BracketItem) cs

end Pattern
end Packager
