import Packager.Text.Cut
import Packager.Text.Letter
import Packager.Text.Pattern
/-!
# CommandLine.LogFilter — what is to be logged

A log level is set for each part of the program by a directive, and a level text with commas makes more of them.  A
directive names a part, a span of time with one of its fields, and a level, `name[span{field=value}]=level`, each at
will.  One that cannot be read is passed over with a warning.

Blanks around a directive do not matter to its shape.  The names, values and levels, however, are cut from the
directive with its blanks, by the number of bytes that stand before them without the blanks.  So blanks in front shift
all that is cut out, and a cut may fall within a character.
-/
namespace Packager
namespace LogFilter

/-- Why a directive is passed over. -/
inductive Fault where
  /-- Something stands where it may not. -/
  | shape
  /-- What is to be a level is none. -/
  | level
  /-- The value of a field cannot be compared with texts. -/
  | value (fault : Pattern.Fault)
  deriving DecidableEq, Repr

def Fault.message : Fault → String
  | shape => "invalid filter directive"
  | level =>
    "error parsing level filter: expected one of \"off\", \"error\", \"warn\", \"info\", \"debug\", \"trace\", " ++
      "or a number 0-5"
  | value fault => "invalid field filter: " ++ fault.message

/-- What is read from a directive, or its fault; nothing at all when a cut falls within a character. -/
abbrev Reading (α : Type) := ExceptT Fault Option α

/-- The names of the levels. -/
def levelNames : List String := ["off", "error", "warn", "info", "debug", "trace"]

/-- The number of the finest level. -/
def finestLevel : Nat := 5

/-- Whether a text is a number from 0 to 5, with a plus sign at will. -/
def isLevelNumber (text : List Char) : Bool :=
  let digits := match text with
    | '+' :: cs => cs
    | cs => cs
  !digits.isEmpty && digits.all Char.isDigit && Literal.digitsValue 10 digits ≤ finestLevel

/-- Whether a text is a level: its name in letters of either case, its number, or nothing. -/
def isLevel (text : List Char) : Bool :=
  text.isEmpty || isLevelNumber text || levelNames.contains (String.ofList (text.map Char.toLower))

/-- What is wrong with the value of a field.  A number is compared as a number, and all else is a pattern. -/
def valueFault? (value : List Char) : Option Fault :=
  if (Literal.float.whole value).isSome then none else (Pattern.fault? value).map .value

/-- The value that a field has to have, which stands between the first two equals signs. -/
def value? (field : List Char) : Option (List Char) :=
  match field.dropWhile (· != '=') with
  | [] => none
  | _ :: rest => some (rest.takeWhile (· != '='))

/-- What is wrong with a field. -/
def fieldFault? (field : List Char) : Option Fault :=
  if field.isEmpty then some .shape else (value? field).bind valueFault?

/-- Whether a name may start with a character. -/
def opensName (c : Char) : Bool := "-:_".toList.contains c || Char.isAlphanumeric c

/-- Where the reading of a directive stands.  What is cut out later starts at a number of bytes. -/
inductive Place where
  | start
  | name
  | span (first : Nat)
  | field (first : Nat)
  | afterField
  | afterSpan
  | level (first : Nat)
  deriving DecidableEq, Repr

/-- The part of a directive between two numbers of bytes. -/
def part (directive : List Char) (first last : Nat) : Reading (List Char) := ExceptT.lift (slice? directive first last)

/-- The place behind a character with a number of bytes before it. -/
def Place.next (directive : List Char) (before : Nat) (place : Place) (c : Char) : Reading Place := do
  match place with
  | start => if c == '[' then return span (before + 1) else if opensName c then return name else throw .shape
  | name =>
    if c == '=' || c == '[' then
      let _ ← part directive 0 before
      return if c == '=' then level (before + 1) else span (before + 1)
    else return name
  | span first =>
    if c == ']' || c == '\x7b' then
      let _ ← part directive first before
      return if c == ']' then afterSpan else field (before + 1)
    else return span first
  | field first =>
    if c == '\x7d' then
      match fieldFault? (← part directive first before) with
      | some fault => throw fault
      | none => return afterField
    else return field first
  | afterField => if c == ']' then return afterSpan else throw .shape
  | afterSpan => if c == '=' then return level (before + 1) else throw .shape
  | level first => return level first

/-- The place behind a text with a number of bytes before it. -/
def Place.walk (directive : List Char) : Nat → Place → List Char → Reading Place
  | _, place, [] => return place
  | before, place, c :: cs => do walk directive (before + c.utf8Size) (← place.next directive before c) cs

/-- A directive may end behind a name, behind a span, and behind a level. -/
def Place.close (directive : List Char) : Place → Reading Unit
  | name | afterSpan => return
  | level first => do
    unless isLevel (← part directive first (byteLength directive)) do throw .level
  | _ => throw .shape

/-- A text without the blanks around it. -/
def trim (text : List Char) : List Char :=
  ((text.dropWhile Char.isBlank).reverse.dropWhile Char.isBlank).reverse

/-- Reads a directive. -/
def read (directive : List Char) : Reading Unit := do
  (← Place.start.walk directive 0 (trim directive)).close directive

/-- The parts of the program that a log level is set for. -/
def parts : List String := ["dash_segmenter", "dasher"]

/-- The directives that a log level makes. -/
def directives (level : String) : List String :=
  ((",".intercalate (parts.map (· ++ "=" ++ level))).splitOn ",").filter (· != "")

/-- The warning about a directive, if there is one. -/
def warning? (directive : String) : Option (Option String) :=
  (read directive.toList).run.map fun
    | .ok _ => none
    | .error fault => some ("ignoring `" ++ directive ++ "`: " ++ fault.message)

/-- The warnings about a log level.  There are none to give when a cut falls within a character. -/
def warnings (level : String) : Option (List String) :=
  ((directives level).mapM warning?).map (·.filterMap id)

end LogFilter
end Packager
