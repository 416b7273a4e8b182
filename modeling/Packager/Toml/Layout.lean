/-!
# Toml.Layout — writing a settings document

A sheet has entries of its own and named sections of entries.  Its text has the own entries first and then every section
under its header, with an empty line before each but the first line of the document.  A text value is written in the
plainest kind of quotes that can hold it without escapes, and with escapes when none can.
-/
namespace Packager
namespace Toml

inductive Scalar where
  | int (n : Nat)
  | text (s : String)
  deriving DecidableEq, Repr

/-- Entries under a header. -/
structure Section where
  name : String
  entries : List (String × Scalar)
  deriving DecidableEq, Repr

/-- A document of entries and sections. -/
structure Sheet where
  entries : List (String × Scalar)
  sections : List Section
  deriving DecidableEq, Repr

/-- The longest run of a character. -/
def longestRun (c : Char) (run best : Nat) : List Char → Nat
  | [] => max run best
  | d :: ds => if d = c then longestRun c (run + 1) best ds else longestRun c 0 (max run best) ds

/-- Whether a character can only be written as an escape. -/
def isControl (c : Char) : Bool := (c.toNat < 0x20 && c != '\t' && c != '\n') || c.toNat == 0x7f

/-- Four upper-case hexadecimal digits. -/
def hex4 (n : Nat) : List Char :=
  let digits := (Nat.toDigits 16 n).map Char.toUpper
  List.replicate (4 - digits.length) '0' ++ digits

/-- A character as a basic text holds it. -/
def escape (c : Char) : List Char :=
  match c with
  | '\x08' => ['\\', 'b']
  | '\t' => ['\\', 't']
  | '\n' => ['\\', 'n']
  | '\x0c' => ['\\', 'f']
  | '\r' => ['\\', 'r']
  | '\\' => ['\\', '\\']
  | '"' => ['\\', '"']
  | c => if c.toNat < 0x20 || c.toNat == 0x7f then '\\' :: 'u' :: hex4 c.toNat else [c]

/-- The inside of a basic text.  Up to `limit` double quotes in a row stand for themselves, and so do line feeds when
`overLines`. -/
def basicBody (limit : Nat) (overLines : Bool) (quotes : Nat) : List Char → List Char
  | [] => []
  | c :: cs =>
    if c = '"' then
      if quotes < limit then c :: basicBody limit overLines (quotes + 1) cs
      else escape c ++ basicBody limit overLines 0 cs
    else if c = '\n' ∧ overLines then c :: basicBody limit overLines 0 cs
    else escape c ++ basicBody limit overLines 0 cs

/-- A text value with its quotes. -/
def quoted (s : String) : String :=
  let cs := s.toList
  let needsEscapes := cs.any isControl
  let hasBackslash := cs.contains '\\'
  let hasNewline := cs.contains '\n'
  let singles := longestRun '\'' 0 0 cs
  let doubles := longestRun '"' 0 0 cs
  let basic := "\"" ++ String.ofList (basicBody 0 false 0 cs) ++ "\""
  let opening := if hasNewline then "\n" else ""
  let basicLines := "\"\"\"" ++ opening ++ String.ofList (basicBody 2 true 0 cs) ++ "\"\"\""
  if !needsEscapes && !hasBackslash && doubles = 0 && !hasNewline then basic
  else if !needsEscapes && singles = 0 && !hasNewline then "'" ++ s ++ "'"
  else if !needsEscapes && !hasBackslash && doubles ≤ 2 then basicLines
  else if !needsEscapes && singles ≤ 2 then "'''" ++ opening ++ s ++ "'''"
  else if hasNewline then basicLines
  else basic

/-- A value; an integer has to be below `2 ^ 63`. -/
def Scalar.render : Scalar → Option String
  | int n => if n < UInt64.size / 2 then some (toString n) else none
  | text s => some (quoted s)

def renderEntry (entry : String × Scalar) : Option String := do
  return entry.1 ++ " = " ++ (← entry.2.render) ++ "\n"

def renderEntries (entries : List (String × Scalar)) : Option String :=
  String.join <$> entries.mapM renderEntry

def Section.render (s : Section) : Option String := do
  return "[" ++ s.name ++ "]\n" ++ (← renderEntries s.entries)

/-- The text of a sheet; none when an integer is too large. -/
def Sheet.render (s : Sheet) : Option String := do
  let own ← renderEntries s.entries
  let sections ← s.sections.mapM Section.render
  return own ++ (if own.isEmpty then "" else if sections.isEmpty then "" else "\n") ++ "\n".intercalate sections

end Toml
end Packager
