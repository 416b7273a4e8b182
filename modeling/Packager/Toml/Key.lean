import Packager.Toml.Quotation
/-!
# Toml.Key — names of members, simple and dotted

A simple key is bare or quoted on one line; a dotted key is simple keys with points between them, fewer than eighty,
and is the path to a member of an inner table.
-/
namespace Packager
namespace Toml

/-- Keys and brackets nest less deep than this. -/
def depthLimit : Nat := 80

/-- Whether a character may stand in a key without quotes. -/
def isBare (c : Char) : Bool := c.isAlphanum || c == '-' || c == '_'

def simpleKey : Reader String :=
  lineQuotation <|> String.ofList <$> Reader.run1 isBare

/-- A dotted key as the path of its parts, with the blanks around it. -/
def key : Reader (List String) :=
  (Reader.separated (do blanks; let k ← simpleKey; blanks; return k) (Reader.exactly ".")).check (·.length < depthLimit)

end Toml
end Packager
