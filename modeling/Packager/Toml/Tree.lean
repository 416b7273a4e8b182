import Packager.Data
/-!
# Toml.Tree — tables and how they came about

A document grows one table tree.  Where a table came from decides who may add to it: a table that a header opened is
closed to dotted keys, one that a header only passed through may be opened once, and one that a dotted key made takes
members by dotted keys alone.
-/
namespace Packager
namespace Toml

/-- How a table came about. -/
inductive Origin where
  /-- A header names it, or it is the document. -/
  | opened
  /-- A header names a table below it. -/
  | implied
  /-- A dotted key goes through it. -/
  | dotted
  deriving DecidableEq, Repr

/-- A member of a table. -/
inductive Node where
  | value (data : Data)
  | table (origin : Origin) (members : List (String × Node))
  /-- A list of tables: the closed ones and the last one, which still grows. -/
  | tables (closed : List (List (String × Node))) (last : List (String × Node))

abbrev Members := List (String × Node)

namespace Members

/-- Puts a node under a key, over the one that is there. -/
def set (ms : Members) (key : String) (node : Node) : Members :=
  if (ms.lookup key).isSome then ms.map fun m => if m.1 == key then (key, node) else m else ms ++ [(key, node)]

/-- Changes the table at the end of a path and makes the tables on the way that are missing.  A dotted key may not pass
through an opened table; through a list of tables the way leads into its last one. -/
def alter (dotted : Bool) (change : Origin → Members → Option Members) :
    List String → Origin → Members → Option Members
  | [], origin, ms => change origin ms
  | key :: path, _, ms =>
    match ms.lookup key with
    | none => do
      let origin := if dotted then .dotted else .implied
      return ms.set key (.table origin (← alter dotted change path origin []))
    | some (.table origin inner) =>
      if dotted && origin == .opened then none
      else do return ms.set key (.table origin (← alter dotted change path origin inner))
    | some (.tables closed last) => do
      return ms.set key (.tables closed (← alter dotted change path .opened last))
    | some (.value _) => none

/-- Adds a member by its dotted key, the last part of which is `key`. -/
def addPair (path : List String) (key : String) (data : Data) (ms : Members) : Option Members :=
  alter true (fun origin ms =>
    if (ms.lookup key).isSome || (!path.isEmpty && origin != .dotted) then none
    else some (ms ++ [(key, .value data)])) path .opened ms

/-- Opens the table `key`; one that was implied moves to the end of its parent. -/
def openTable (key : String) (ms : Members) : Option Members :=
  match ms.lookup key with
  | none => some (ms ++ [(key, .table .opened [])])
  | some (.table .implied inner) => some (ms.filter (·.1 != key) ++ [(key, .table .opened inner)])
  | some _ => none

/-- Adds a table to the list of tables `key`. -/
def openItem (key : String) (ms : Members) : Option Members :=
  match ms.lookup key with
  | none => some (ms ++ [(key, .tables [] [])])
  | some (.tables closed last) => some (ms.set key (.tables (closed ++ [last]) []))
  | some _ => none

end Members

mutual

/-- A member as data. -/
def Node.data : Node → Data
  | .value data => data
  | .table _ members => .map (Members.data members)
  | .tables closed last => .list (Members.dataAll closed ++ [.map (Members.data last)])

/-- Members as data, in the order in which they were added. -/
def Members.data : List (String × Node) → List (String × Data)
  | [] => []
  | (key, node) :: rest => (key, Node.data node) :: Members.data rest

/-- Tables as data. -/
def Members.dataAll : List (List (String × Node)) → List Data
  | [] => []
  | members :: rest => .map (Members.data members) :: Members.dataAll rest

end

end Toml
end Packager
