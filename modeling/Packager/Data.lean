import Packager.Number.Shortest
import Packager.Text.Quoted
/-!
# Data — self-describing values and how they fail to fit

Control events and settings files are read in two steps: a reader turns the text into `Data`, and decoders pick typed
fields from it.  A `Mismatch` is why a value does not fit, and `Mismatch.message` is its wording.
-/
namespace Packager

/-- A value that carries its own type.  The members of a map stand in the order in which they are read. -/
inductive Data where
  | null
  | bool (b : Bool)
  | int (n : Int)
  | float (x : Binary64)
  | text (s : String)
  | list (items : List Data)
  | map (members : List (String × Data))
  deriving Inhabited

/-- Why a value does not fit what a decoder expects. -/
inductive Mismatch where
  | missingField (name : String)
  | wrongType (found : Data) (expected : String)
  | wrongValue (found : Data) (expected : String)
  | wrongLength (length : Nat) (expected : String)
  | unknownVariant (name : String) (known : List String)

namespace Data

/-- The value in a message; `style` lays out its floating-point numbers. -/
def describe (style : FloatStyle) : Data → String
  | null => "null"
  | bool b => if b then "boolean `true`" else "boolean `false`"
  | int n => s!"integer `{n}`"
  | float x => "floating point `" ++ x.render style ++ "`"
  | text s => "string " ++ Quoted.quote s
  | list _ => "sequence"
  | map _ => "map"

/-- A natural number below `limit`; `expected` names its type. -/
def natBelow (limit : Nat) (expected : String) : Data → Except Mismatch Nat
  | int n => if 0 ≤ n ∧ n < limit then .ok n.toNat else .error (.wrongValue (int n) expected)
  | d => .error (.wrongType d expected)

def uint32 : Data → Except Mismatch Nat := natBelow UInt32.size "u32"
def uint64 : Data → Except Mismatch Nat := natBelow UInt64.size "u64"
def size : Data → Except Mismatch Nat := natBelow UInt64.size "usize"

/-- A text; `expected` says what kind. -/
def textAs (expected : String) : Data → Except Mismatch String
  | text s => .ok s
  | d => .error (.wrongType d expected)

def string : Data → Except Mismatch String := textAs "a string"
def pathText : Data → Except Mismatch String := textAs "path string"

/-- A count with its noun in the right number. -/
def counted (n : Nat) : String := if n = 1 then "1 element" else s!"{n} elements"

/-- The members of a record as they come: by name from a map, by position from a list.  A list that is too short makes a
mismatch only after its members were read; extra items are left aside. -/
def record (expected : String) (fields : List String) :
    Data → Except Mismatch (List (String × Data) × Option Mismatch)
  | map members => .ok (members, none)
  | list items =>
    .ok (fields.zip items,
      if items.length < fields.length then
        some (.wrongLength items.length (expected ++ " with " ++ counted fields.length))
      else none)
  | d => .error (.wrongType d expected)

/-- Reads a record: each member in turn by `set`, then `finish` asks for what is missing. -/
def decodeRecord {ρ α : Type} (expected : String) (fields : List String) (empty : ρ)
    (set : ρ → String → Data → Except Mismatch ρ) (finish : ρ → Except Mismatch α) (d : Data) :
    Except Mismatch α := do
  let (members, shortage) ← record expected fields d
  let filled ← members.foldlM (fun acc member => set acc member.1 member.2) empty
  match shortage with
  | some mismatch => .error mismatch
  | none => finish filled

/-- A field that has to be there. -/
def required {α : Type} (name : String) : Option α → Except Mismatch α
  | some a => .ok a
  | none => .error (.missingField name)

end Data

namespace Mismatch

/-- Names of variants in backquotes, as a list of choices. -/
def choices : List String → String
  | [] => "there are no variants"
  | [a] => s!"expected `{a}`"
  | [a, b] => s!"expected `{a}` or `{b}`"
  | names => "expected one of " ++ ", ".intercalate (names.map fun name => s!"`{name}`")

/-- The wording of a mismatch. -/
def message (style : FloatStyle) : Mismatch → String
  | missingField name => s!"missing field `{name}`"
  | wrongType found expected => "invalid type: " ++ found.describe style ++ ", expected " ++ expected
  | wrongValue found expected => "invalid value: " ++ found.describe style ++ ", expected " ++ expected
  | wrongLength length expected => s!"invalid length {length}, expected {expected}"
  | unknownVariant name known => s!"unknown variant `{name}`, " ++ choices known

end Mismatch
end Packager
