/-!
# SortedMap — finite maps in the order of their keys

A map is the list of its entries, kept in strictly increasing order of the keys.  `find?` is the view of a map: what it
holds under each key.
-/
namespace Packager

/-- A finite map, listed in the order of its keys. -/
structure SortedMap (κ : Type) (α : Type) where
  entries : List (κ × α)
  deriving Repr

namespace SortedMap

variable {κ α : Type}

def empty : SortedMap κ α := ⟨[]⟩

def isEmpty (m : SortedMap κ α) : Bool := m.entries.isEmpty

def size (m : SortedMap κ α) : Nat := m.entries.length

def keys (m : SortedMap κ α) : List κ := m.entries.map Prod.fst

def values (m : SortedMap κ α) : List α := m.entries.map Prod.snd

section
variable [DecidableEq κ]

/-- The value under a key. -/
def find? (m : SortedMap κ α) (k : κ) : Option α := (m.entries.find? (·.1 = k)).map Prod.snd

def contains (m : SortedMap κ α) (k : κ) : Bool := (m.find? k).isSome

def erase (m : SortedMap κ α) (k : κ) : SortedMap κ α := ⟨m.entries.filter (·.1 ≠ k)⟩

/-- Applies a function to the value under a key, when there is one. -/
def modify (m : SortedMap κ α) (k : κ) (f : α → α) : SortedMap κ α :=
  ⟨m.entries.map fun e => if e.1 = k then (e.1, f e.2) else e⟩

variable [LT κ] [DecidableLT κ]

/-- Puts an entry in its place, over one with the same key. -/
def insertEntry (k : κ) (a : α) : List (κ × α) → List (κ × α)
  | [] => [(k, a)]
  | e :: es =>
    if k = e.1 then (k, a) :: es
    else if k < e.1 then (k, a) :: e :: es
    else e :: insertEntry k a es

/-- Sets the value under a key. -/
def insert (m : SortedMap κ α) (k : κ) (a : α) : SortedMap κ α := ⟨insertEntry k a m.entries⟩

def ofList (entries : List (κ × α)) : SortedMap κ α := entries.foldl (fun m e => m.insert e.1 e.2) empty

end

/-- Applies a function to every value. -/
def mapValues (m : SortedMap κ α) (f : α → α) : SortedMap κ α := ⟨m.entries.map fun e => (e.1, f e.2)⟩

end SortedMap
end Packager
