/-!
# Text.Pattern.Nesting — how deep a pattern is nested

A single character is not nested.  Groups, repetitions and brackets are one deeper than what they hold, and so are
several things in a row and several alternatives.  Depths are added up while the parts of a pattern are read.
-/
namespace Packager
namespace Pattern

/-- The depth of things side by side, which counts only if there are several. -/
def sideBySide : List Nat → Nat
  | [] => 0
  | [depth] => depth
  | depths => depths.foldl max 0 + 1

/-- Alternatives that are being read. -/
structure Branches where
  /-- The depths in the last alternative, the last item first. -/
  items : List Nat := []
  /-- The depths of the alternatives before it. -/
  others : List Nat := []

namespace Branches

def depth (b : Branches) : Nat := sideBySide (sideBySide b.items :: b.others)

/-- Another item of a depth. -/
def add (b : Branches) (depth : Nat) : Branches := { b with items := depth :: b.items }

/-- The last item is repeated. -/
def repeatLast (b : Branches) : Branches :=
  match b.items with
  | [] => b
  | depth :: items => { b with items := (depth + 1) :: items }

/-- Another alternative. -/
def split (b : Branches) : Branches := ⟨[], sideBySide b.items :: b.others⟩

end Branches

/-- A set between brackets that is being read. -/
structure Members where
  /-- The depths of the members behind the last operator. -/
  items : List Nat := []
  /-- The depth of what stands before it. -/
  left : Option Nat := none

namespace Members

def depth (m : Members) : Nat :=
  match m.left with
  | none => sideBySide m.items
  | some left => max left (sideBySide m.items) + 1

/-- Another member of a depth. -/
def add (m : Members) (depth : Nat) : Members := { m with items := depth :: m.items }

/-- An operator. -/
def split (m : Members) : Members := ⟨[], some m.depth⟩

end Members

end Pattern
end Packager
