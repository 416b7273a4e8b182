/-!
# Path — names of files and folders

A path is text with `/` between its parts.  An absolute part that is joined replaces the path, and all else is put after
one separator.
-/
namespace Packager

/-- The name of a file or a folder. -/
structure Path where
  text : String
  deriving DecidableEq, Repr, Inhabited

namespace Path

def isAbsolute (p : Path) : Bool := p.text.toList.head? == some '/'

/-- Whether the path ends in a separator. -/
def endsInSeparator (p : Path) : Bool := p.text.toList.getLast? == some '/'

/-- The path `base` with `name` below it. -/
def join (base : Path) (name : String) : Path :=
  if (Path.mk name).isAbsolute then ⟨name⟩
  else if base.text.isEmpty || base.endsInSeparator then ⟨base.text ++ name⟩
  else ⟨base.text ++ "/" ++ name⟩

/-- Splits text at separators. -/
def splitParts (current : List Char) : List Char → List String
  | [] => [String.ofList current.reverse]
  | c :: cs => if c = '/' then String.ofList current.reverse :: splitParts [] cs else splitParts (c :: current) cs

/-- The parts to walk through, one after the other. -/
def steps (p : Path) : List String := (splitParts [] p.text.toList).filter (· != "")

/-- The parts that lead somewhere else: a single point stays where it is. -/
def parts (p : Path) : List String := p.steps.filter (· != ".")

/-- A name as its stem and its extension, which stands after the last dot.  A dot that opens the name starts no
extension, and the name of the folder above has none. -/
def splitExtension (name : List Char) : List Char × List Char :=
  let tail := name.reverse.takeWhile (· != '.')
  let front := name.take (name.length - tail.length - 1)
  if tail.length < name.length ∧ front ≠ [] ∧ name ≠ ['.', '.'] then (front, tail.reverse) else (name, [])

/-- Text, last character first, without the separators and the single points at its end. -/
def trimEnd : List Char → List Char
  | '/' :: cs => trimEnd cs
  | '.' :: '/' :: cs => trimEnd cs
  | cs => cs

/-- The text up to the last name, and that name. -/
def splitName (p : Path) : List Char × List Char :=
  let trimmed := trimEnd p.text.toList.reverse
  ((trimmed.dropWhile (· != '/')).reverse, (trimmed.takeWhile (· != '/')).reverse)

/-- The path less as many characters as the extension of its last name has. -/
def cutExtension (p : Path) : Path :=
  let extension := (splitExtension p.splitName.2).2
  ⟨String.ofList (p.text.toList.take (p.text.toList.length - extension.length))⟩

/-- The path with the extension of its last name replaced.  The old one is cut off first, so of `..b` the folder above
is left, and a path that then has no last name takes no extension. -/
def withExtension (p : Path) (extension : String) : Path :=
  let cut := p.cutExtension
  let (front, name) := cut.splitName
  if name = [] ∨ name = ['.'] ∨ name = ['.', '.'] then cut
  else ⟨String.ofList (front ++ (splitExtension name).1) ++ "." ++ extension⟩

/-- The path as its parts, absolute or not. -/
def ofParts (absolute : Bool) (names : List String) : Path :=
  ⟨(if absolute then "/" else "") ++ "/".intercalate names⟩

/-- The folders that parts lead to, last part first: all of them, all but the last one, and so on. -/
def folders (absolute : Bool) : List String → List Path
  | [] => []
  | name :: above => ofParts absolute (name :: above).reverse :: folders absolute above

/-- The path and the folders that it lies in, inmost first; none when it leads nowhere else. -/
def ancestors (p : Path) : List Path :=
  match p.parts.reverse with
  | [] => []
  | _ :: above => p :: folders p.isAbsolute above

/-- Whether the path ends in the name of an entry: not in the folder itself, nor in the folder above. -/
def endsInName (p : Path) : Bool :=
  match p.steps.getLast? with
  | none => false
  | some step => step != "." && step != ".."

/-- The folder that a path lies in; none for the root and the empty path. -/
def parent? (p : Path) : Option Path :=
  match p.parts with
  | [] => none
  | names => some (ofParts p.isAbsolute names.dropLast)

end Path
end Packager
