import Packager.Number.Literal
import Packager.Text.Blank
/-!
# Text.Pattern.Escape — what a backslash does in a pattern

Some characters have a meaning of their own in a pattern.  A backslash takes the meaning from a sign, and gives one to
a letter.  The letter of an escape may stand for a character, for a set of characters, or for a place between two
characters.
-/
namespace Packager
namespace Pattern

/-- How a part of a pattern is read. -/
structure Mode where
  /-- Blanks do not count, and a number sign starts a comment that ends with its line. -/
  isSpaced : Bool := false
  /-- Sets hold characters of all scripts, and not only those of ASCII. -/
  isWide : Bool := true

/-- The text behind blanks and comments. -/
def afterGap : (inComment : Bool) → List Char → List Char
  | _, [] => []
  | true, c :: cs => afterGap (c != '\n') cs
  | false, c :: cs =>
    if Char.isBlank c then afterGap false cs else if c == '#' then afterGap true cs else c :: cs

/-- The blanks and comments of a spaced pattern. -/
def gap (mode : Mode) : Reader Unit := fun cs => some ((), if mode.isSpaced then afterGap false cs else cs)

/-- What can stand in a pattern and in its sets. -/
inductive Atom where
  | char (c : Char)
  | set
  /-- A place; it may be the edge of a word that has letters of all scripts. -/
  | place (isWideEdge : Bool)

/-- Hexadecimal digits. -/
def hexDigits (mode : Mode) : (count : Nat) → Reader (List Char)
  | 0 => pure []
  | count + 1 => do
    gap mode
    let digit ← Reader.char Literal.isHexDigit
    return digit :: (← hexDigits mode count)

/-- A character by its number. -/
def numbered (mode : Mode) (width : Nat) : Reader Char := do
  let n := Literal.digitsValue 16 (← hexDigits mode width)
  if n.isValidChar then return .ofNat n else failure

/-- The letters that stand for a control character. -/
def controlLetters : List (Char × Char) :=
  [('a', '\x07'), ('f', '\x0c'), ('n', '\n'), ('r', '\r'), ('t', '\t'), ('v', '\x0b')]

/-- The general categories that have one letter. -/
def categories : List Char := "CLMNPSZ".toList

/-- What a sign or letter stands for behind a backslash.  In a narrow mode nothing may stand for what is beyond ASCII:
neither two digits that number a byte, nor a category, nor a set that leaves out a part of ASCII. -/
def escaped (mode : Mode) (c : Char) : Reader Atom := do
  if c == 'x' then .char <$> Reader.check (numbered mode 2) fun c => mode.isWide || c.toNat < 0x80
  else if c == 'u' then .char <$> numbered mode 4
  else if c == 'U' then .char <$> numbered mode 8
  else if c == 'p' || c == 'P' then do
    gap mode
    let _ ← Reader.char fun letter => mode.isWide && categories.contains letter.toUpper
    return .set
  else if "dsw".toList.contains c then return .set
  else if "DSW".toList.contains c then if mode.isWide then return .set else failure
  else if "Az".toList.contains c then return .place false
  else if "bB<>".toList.contains c then return .place mode.isWide
  else
    match controlLetters.lookup c with
    | some control => return .char control
    | none => if c.toNat < 0x80 && !c.isAlphanum then return .char c else failure

/-- An escape. -/
def escape (mode : Mode) : Reader Atom := do
  Reader.exactly "\\"
  escaped mode (← Reader.char fun _ => true)

end Pattern
end Packager
