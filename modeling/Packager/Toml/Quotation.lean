import Packager.Number.Literal
import Packager.Toml.Space
/-!
# Toml.Quotation — the four kinds of quoted text

A basic text stands between double quotes and has escapes, a literal one between single quotes and has none.  Three
quotes on each side make a text that runs over lines: a line end right after the opening quotes is dropped, every
other one counts as a line feed, and up to two quotes may stand before the closing ones.
-/
namespace Packager
namespace Toml

/-- Whether a character may stand for itself in a text with this quote; escapes start with `escape`. -/
def isPlain (quote : Char) (escape : Bool) (c : Char) : Bool :=
  isPrintable c && c != quote && !(escape && c == '\\')

/-- A character by its number, which has exactly `width` hexadecimal digits. -/
def numbered (width : Nat) : Reader Char := fun cs =>
  let digits := cs.take width
  let n := Literal.digitsValue 16 digits
  if digits.length = width ∧ digits.all Literal.isHexDigit ∧ n.isValidChar then some (.ofNat n, cs.drop width) else none

/-- The characters of the short escapes. -/
def shortEscapes : List (Char × Char) :=
  [('b', '\x08'), ('f', '\x0c'), ('n', '\n'), ('r', '\r'), ('t', '\t'), ('\\', '\\'), ('"', '"')]

/-- An escape. -/
def escaped : Reader Char := do
  Reader.exactly "\\"
  let c ← Reader.char fun _ => true
  if c == 'u' then numbered 4
  else if c == 'U' then numbered 8
  else
    match shortEscapes.lookup c with
    | some meaning => return meaning
    | none => failure

/-- A backslash at the end of a line, with all blanks and line ends that follow. -/
def lineJoin : Reader (List Char) := do
  Reader.exactly "\\"
  blanks
  newline
  let _ ← Reader.many (newline <|> (do let _ ← Reader.run1 isBlank))
  return []

/-- A text on one line between double quotes. -/
def basicText : Reader String := do
  Reader.exactly "\""
  let parts ← Reader.many (Reader.run1 (isPlain '"' true) <|> List.singleton <$> escaped)
  Reader.exactly "\""
  return String.ofList parts.flatten

/-- A text on one line between single quotes. -/
def literalText : Reader String := do
  Reader.exactly "'"
  let chars ← Reader.run (isPlain '\'' false)
  Reader.exactly "'"
  return String.ofList chars

/-- One or two quotes that do not belong to three of them. -/
def innerQuotes (quote : Char) : Reader (List Char) := do
  let quotes ← Reader.run1 (· == quote)
  if quotes.length ≤ 2 then return quotes else failure

/-- The closing quotes; the answer is the quotes before them that belong to the text. -/
def closingQuotes (quote : Char) : Reader (List Char) := fun cs =>
  let quotes := cs.takeWhile (· == quote)
  let inner := min (quotes.length - 3) 2
  if 3 ≤ quotes.length then some (quotes.take inner, cs.drop (inner + 3)) else none

/-- A text over lines between triple quotes, made of the given parts, plain characters, line ends and quotes. -/
def linesText (quote : Char) (isPlain : Char → Bool) (other : Reader (List Char)) : Reader String := do
  Reader.exactly (String.ofList [quote, quote, quote])
  let _ ← Reader.optional newline
  let parts ← Reader.many
    (Reader.run1 isPlain <|> other <|> (do newline; return ['\n']) <|> innerQuotes quote)
  let last ← closingQuotes quote
  return String.ofList (parts.flatten ++ last)

/-- A quoted text of any kind. -/
def quotation : Reader String :=
  linesText '"' (isPlain '"' true) (lineJoin <|> List.singleton <$> escaped) <|>
  basicText <|>
  linesText '\'' (isPlain '\'' false) failure <|>
  literalText

/-- A quoted text on one line. -/
def lineQuotation : Reader String := basicText <|> literalText

end Toml
end Packager
