/-!
# Text.Reader — reading text from the front

A reader takes characters from the front of a text and leaves the rest, or fails.  Of two alternatives `r <|> s` the
second starts where the first one started.  `many` reads as often as it can; since every round takes at least one
character, the length of the text bounds the rounds.
-/
namespace Packager

/-- Takes a value from the front of a text. -/
abbrev Reader (α : Type) := StateT (List Char) Option α

namespace Reader

variable {α β : Type}

/-- One character of a class. -/
def char (isWanted : Char → Bool) : Reader Char := fun
  | [] => none
  | c :: cs => if isWanted c then some (c, cs) else none

/-- Exactly the given text. -/
def exactly (text : String) : Reader Unit := fun cs =>
  let wanted := text.toList
  if wanted.isPrefixOf cs then some ((), cs.drop wanted.length) else none

/-- The longest run of characters of a class. -/
def run (isWanted : Char → Bool) : Reader (List Char) := fun cs => some (cs.span isWanted)

/-- The longest run of characters of a class, which must not be empty. -/
def run1 (isWanted : Char → Bool) : Reader (List Char) := do
  let c ← char isWanted
  return c :: (← run isWanted)

/-- Nothing, at the end of the text. -/
def atEnd : Reader Unit := fun cs => if cs.isEmpty then some ((), cs) else none

/-- What a reader takes, or nothing when it fails. -/
def optional (r : Reader α) : Reader (Option α) := fun cs =>
  match r cs with
  | some (a, rest) => some (some a, rest)
  | none => some (none, cs)

/-- Reads as often as possible, at most `limit` times. -/
def upTo (r : Reader α) : Nat → Reader (List α)
  | 0 => pure []
  | limit + 1 => fun cs =>
    match r cs with
    | none => some ([], cs)
    | some (a, rest) => (upTo r limit rest).map fun (as, rest) => (a :: as, rest)

/-- Reads as often as possible. -/
def many (r : Reader α) : Reader (List α) := fun cs => upTo r cs.length cs

/-- At least one, with separators between them. -/
def separated (r : Reader α) (separator : Reader β) : Reader (List α) := do
  let first ← r
  return first :: (← many (do let _ ← separator; r))

/-- A reader whose value has to pass a test. -/
def check (r : Reader α) (accepts : α → Bool) : Reader α := do
  let a ← r
  if accepts a then return a else failure

/-- What a reader makes of a whole text. -/
def whole (r : Reader α) (text : List Char) : Option α :=
  match r text with
  | some (a, []) => some a
  | _ => none

end Reader
end Packager
