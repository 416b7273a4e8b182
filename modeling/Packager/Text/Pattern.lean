import Packager.Text.Pattern.Bracket
import Packager.Text.Pattern.Group
import Packager.Text.Pattern.Nesting
/-!
# Text.Pattern — patterns that texts are compared with

A pattern is a regular expression.  Here it is read to see whether a machine that looks at each byte once can compare
texts with it: its parts have to be well formed, and such a machine does not see the edges of words in all scripts.
An opening brace outside brackets is refused, for the patterns of this program end before a closing one.
-/
namespace Packager
namespace Pattern

/-- Why there is no machine for a pattern. -/
inductive Fault where
  | malformed
  /-- The edge of a word that has letters of all scripts. -/
  | wordEdge
  deriving DecidableEq, Repr

def Fault.message : Fault → String
  | malformed => "error building NFA"
  | wordEdge =>
    "unsupported regex feature for DFAs: cannot build DFAs for regexes with Unicode word boundaries; switch to " ++
      "ASCII word boundaries, or heuristically enable Unicode word boundaries or use a different regex engine"

/-- The signs of a repetition: at most once, any number of times, and at least once. -/
def repetitionSigns : List Char := ['?', '*', '+']

/-- How deep a pattern may be nested. -/
def nestingLimit : Nat := 250

/-- Where the reading of a pattern stands. -/
structure Scan where
  mode : Mode := {}
  branches : Branches := {}
  /-- The modes and alternatives around the open groups, the innermost group first. -/
  outer : List (Mode × Branches) := []
  /-- The names of groups so far. -/
  names : List (List Char) := []
  /-- The open brackets, the innermost first. -/
  sets : List Members := []
  /-- Whether there is something to repeat. -/
  isRepeatable : Bool := false
  hasWideEdge : Bool := false

namespace Scan

/-- The scan behind an item that can be repeated. -/
def past (s : Scan) (depth : Nat) : Scan := { s with branches := s.branches.add depth, isRepeatable := true }

/-- The scan behind an opening parenthesis. -/
def opened (s : Scan) : Opening → Option Scan
  | .change mode => some { s with mode, branches := s.branches.add 0, isRepeatable := false }
  | .group name mode =>
    if name.any s.names.contains then none
    else
      some { s with
        mode, branches := {}, outer := (s.mode, s.branches) :: s.outer, names := name.toList ++ s.names,
        isRepeatable := false }

/-- The scan behind a closing parenthesis. -/
def closed (s : Scan) : Option Scan :=
  match s.outer with
  | [] => none
  | (mode, branches) :: outer => some ({ s with mode, branches, outer }.past (s.branches.depth + 1))

/-- The scan behind an item between brackets; `inner` and `around` are the open ones. -/
def behindBracketItem (s : Scan) (inner : Members) (around : List Members) : BracketItem → Scan
  | .member => { s with sets := inner.add 0 :: around }
  | .operator => { s with sets := inner.split :: around }
  | .opening members => { s with sets := ⟨List.replicate members 0, none⟩ :: inner :: around }
  | .closing =>
    match around with
    | [] => { s with sets := [] }.past (inner.depth + 1)
    | next :: around => { s with sets := next.add (inner.depth + 1) :: around }

/-- The scan behind an escape. -/
def behindEscape (s : Scan) : Atom → Scan
  | .place isWideEdge => { s.past 0 with hasWideEdge := s.hasWideEdge || isWideEdge }
  | _ => s.past 0

/-- The scan behind a character that starts no longer item, if the character may stand there. -/
def behindSign (s : Scan) (c : Char) : Option Scan :=
  if c == ')' then s.closed
  else if c == '|' then some { s with branches := s.branches.split, isRepeatable := false }
  else if c == '\x7b' || (c == '.' && !s.mode.isWide) then none
  else some (s.past 0)

/-- A repetition of the last item.  A question mark right behind its sign belongs to it, and asks for few rounds. -/
def repetition (s : Scan) : Reader Scan := do
  let _ ← Reader.char repetitionSigns.contains
  let _ ← Reader.optional (Reader.exactly "?")
  if s.isRepeatable then return { s with branches := s.branches.repeatLast } else failure

/-- Reads the next item. -/
def item (s : Scan) : Reader Scan := fun cs =>
  match s.sets, cs with
  | _, [] => some (s, [])
  | inner :: around, cs => do
    let (item, rest) ← bracketItem s.mode cs
    return (s.behindBracketItem inner around item, rest)
  | [], c :: rest =>
    if c == '[' then do
      let (members, rest) ← openBracket s.mode cs
      return ({ s with sets := [⟨List.replicate members 0, none⟩] }, rest)
    else if c == '(' then do
      let (opening, rest) ← opening s.mode cs
      return (← s.opened opening, rest)
    else if c == '\\' then do
      let (atom, rest) ← escape s.mode cs
      return (s.behindEscape atom, rest)
    else if repetitionSigns.contains c then s.repetition cs
    else do return (← s.behindSign c, rest)

/-- Reads up to a number of items. -/
def items : (count : Nat) → Scan → Reader Scan
  | 0, s => pure s
  | count + 1, s => do
    gap s.mode
    items count (← s.item)

/-- Whether a pattern may end here. -/
def isComplete (s : Scan) : Bool := s.outer.isEmpty && s.sets.isEmpty && s.branches.depth ≤ nestingLimit

end Scan

/-- What is wrong with a pattern.  Each item takes a character, so there are no more items than characters. -/
def fault? (pattern : List Char) : Option Fault :=
  match Scan.items pattern.length {} pattern with
  | some (s, []) => if s.isComplete then (if s.hasWideEdge then some .wordEdge else none) else some .malformed
  | _ => some .malformed

end Pattern
end Packager
