import Packager.Toml.Value
/-!
# Toml.Document — reading a whole document

A document is a list of lines: headers that open a table or add one to a list of tables, and members of the table opened
last.  `Toml.read` gives its members in the order in which they were added, or nothing when the text is no document.
-/
namespace Packager
namespace Toml

/-- A line of a document that says something. -/
inductive Statement where
  | openTable (path : List String)
  | openItem (path : List String)
  | pair (path : List String) (key : String) (data : Data)

/-- A header between the given brackets. -/
def header (opening closing : String) : Reader (List String) := do
  Reader.exactly opening
  let path ← key
  Reader.exactly closing
  return path

def statement : Reader Statement :=
  Statement.openItem <$> header "[[" "]]" <|>
  Statement.openTable <$> header "[" "]" <|>
  (fun (path, key, d) => Statement.pair path key d) <$> pair (value (depthLimit - 1))

/-- A line; blank lines say nothing. -/
def line : Reader (Option Statement) := do
  blanks
  (do newline; return none) <|>
    (do comment; newline <|> Reader.atEnd; return none) <|>
    (do let s ← statement; lineEnd; return some s)

/-- A document as its lines, after the byte order mark if there is one. -/
def lines : Reader (List Statement) := do
  let _ ← Reader.optional (Reader.exactly "\ufeff")
  let lines ← Reader.many line
  blanks
  return lines.filterMap id

/-- A document in the making. -/
structure Draft where
  root : Members
  /-- The path of the table opened last. -/
  current : List String

/-- Opens the table at a path by what `opener` does to its parent. -/
def Draft.goTo (opener : String → Members → Option Members) (path : List String) (d : Draft) : Option Draft := do
  let root ← Members.alter false (fun _ ms => opener (path.getLast?.getD "") ms) path.dropLast .opened d.root
  return ⟨root, path⟩

/-- Carries out one line. -/
def Draft.add (d : Draft) : Statement → Option Draft
  | .openTable path => d.goTo Members.openTable path
  | .openItem path => d.goTo Members.openItem path
  | .pair path key data => do
    let root ← Members.alter false (fun _ ms => ms.addPair path key data) d.current .opened d.root
    return { d with root }

/-- Reads a document. -/
def read (text : String) : Option Data := do
  let statements ← lines.whole text.toList
  let draft ← statements.foldlM Draft.add ⟨[], []⟩
  return .map (Members.data draft.root)

end Toml
end Packager
