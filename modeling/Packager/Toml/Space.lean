import Packager.Text.Reader
/-!
# Toml.Space — blanks, comments and line ends

Blanks are spaces and tabs, a line ends in a line feed with or without a carriage return before it, and a comment runs
from a number sign to the end of its line.  Other control characters are nowhere allowed.
-/
namespace Packager
namespace Toml

/-- Whether a character may stand in a comment. -/
def isPrintable (c : Char) : Bool := c == '\t' || (c.toNat != 0x7f && 0x20 ≤ c.toNat)

def isBlank (c : Char) : Bool := c == ' ' || c == '\t'

def blanks : Reader Unit := do let _ ← Reader.run isBlank

def newline : Reader Unit := Reader.exactly "\n" <|> Reader.exactly "\r\n"

def comment : Reader Unit := do
  Reader.exactly "#"
  let _ ← Reader.run isPrintable

/-- The end of a line that holds nothing more, or a comment. -/
def lineEnd : Reader Unit := do
  blanks
  let _ ← Reader.optional comment
  newline <|> Reader.atEnd

/-- Blanks, comments and line ends between the items of an array. -/
def gap : Reader Unit := do
  let _ ← Reader.many (do blanks; let _ ← Reader.optional comment; newline)
  blanks

end Toml
end Packager
