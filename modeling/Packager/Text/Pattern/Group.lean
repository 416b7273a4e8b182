import Packager.Text.Letter
import Packager.Text.Pattern.Escape
/-!
# Text.Pattern.Group — what an opening parenthesis starts

A group may have a name, or flags that change the mode within it.  Flags alone between parentheses change the mode for
the rest of the group around them.  Flags behind a dash are taken away.
-/
namespace Packager
namespace Pattern

/-- What an opening parenthesis starts. -/
inductive Opening where
  | group (name : Option (List Char)) (mode : Mode)
  /-- No group, but another mode. -/
  | change (mode : Mode)

/-- Whether a text can be the name of a group. -/
def isName : List Char → Bool
  | [] => false
  | c :: cs =>
    (c == '_' || Char.isAlphabetic c) && cs.all fun c => "_.[]".toList.contains c || Char.isAlphanumeric c

/-- The name of a group. -/
def name : Reader (List Char) := do
  Reader.exactly "?P<" <|> Reader.exactly "?<"
  let name ← Reader.check (Reader.run (· != '>')) isName
  Reader.exactly ">"
  return name

/-- Flags, of which each stands there once, with a dash before those that are taken away. -/
def isFlags (flags : List Char) : Bool :=
  flags.all "imsUuRx-".toList.contains && flags.eraseDups.length == flags.length && flags.getLast? != some '-'

/-- Whether a flag is set behind flags, if it was set or not before them. -/
def flagged (flags : List Char) (flag : Char) (before : Bool) : Bool :=
  if flags.contains flag then (flags.takeWhile (· != '-')).contains flag else before

/-- The mode behind flags. -/
def Mode.change (mode : Mode) (flags : List Char) : Mode :=
  ⟨flagged flags 'x' mode.isSpaced, flagged flags 'u' mode.isWide⟩

/-- Flags and what they are for. -/
def flags (mode : Mode) : Reader Opening := do
  Reader.exactly "?"
  let flags ← Reader.check (Reader.run fun c => c != ':' && c != ')') isFlags
  let stop ← Reader.char fun _ => true
  if stop == ':' then return .group none (mode.change flags)
  else if flags.isEmpty then failure
  else return .change (mode.change flags)

/-- An opening parenthesis with what belongs to it.  A question mark that belongs to nothing is left to be refused
where a repetition has nothing to repeat. -/
def opening (mode : Mode) : Reader Opening := do
  Reader.exactly "("
  gap mode
  (do return .group (some (← name)) mode) <|> flags mode <|> pure (.group none mode)

end Pattern
end Packager
