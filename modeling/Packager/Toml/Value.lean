import Packager.Toml.Key
import Packager.Toml.Moment
import Packager.Toml.Numeral
import Packager.Toml.Tree
/-!
# Toml.Value — what stands after an equals sign

A value is a quoted text, a number, a moment, a truth value, an array or an inline table.  Arrays and inline tables hold
values that may nest one level less deep.
-/
namespace Packager
namespace Toml

/-- A moment as data: a map whose only member no settings have. -/
def momentData : Data := .map [("moment", .null)]

/-- A value without brackets. -/
def scalar : Reader Data :=
  Data.text <$> quotation <|>
  (do moment; return momentData) <|>
  Data.float <$> float <|>
  Data.int <$> integer <|>
  (do Reader.exactly "true"; return .bool true) <|>
  (do Reader.exactly "false"; return .bool false)

/-- An array: commas between the items and at will one after them. -/
def array (item : Reader Data) : Reader Data := do
  Reader.exactly "["
  let items ← Reader.optional do
    let items ← Reader.separated (do gap; let d ← item; gap; return d) (Reader.exactly ",")
    let _ ← Reader.optional (Reader.exactly ",")
    return items
  gap
  Reader.exactly "]"
  return .list (items.getD [])

/-- A member: a dotted key and its value. -/
def pair (item : Reader Data) : Reader (List String × String × Data) := do
  let path ← key
  Reader.exactly "="
  blanks
  let d ← item
  blanks
  match path.getLast? with
  | some last => return (path.dropLast, last, d)
  | none => failure

/-- An inline table, on one line. -/
def inlineTable (item : Reader Data) : Reader Data := do
  Reader.exactly "\x7b"
  let pairs ← Reader.optional (Reader.separated (pair item) (Reader.exactly ","))
  blanks
  Reader.exactly "\x7d"
  match (pairs.getD []).foldlM (fun ms (path, key, d) => Members.addPair path key d ms) [] with
  | some members => return .map (Members.data members)
  | none => failure

/-- A value in which brackets nest at most `depth` deep. -/
def value : Nat → Reader Data
  | 0 => scalar
  | depth + 1 => array (value depth) <|> inlineTable (value depth) <|> scalar

end Toml
end Packager
