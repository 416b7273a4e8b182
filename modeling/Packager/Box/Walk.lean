import Packager.Box
/-!
# Box.Walk — reading boxes back from bytes

`next?` cuts the first box off a byte string, when a complete one is there.  `walk` lists the boxes of a byte string in
pre-order, entering those of the given container types and stopping a level at the first incomplete box; `find?` looks a
box up by type, also inside sample entries, which the walk takes as plain bytes.
-/
namespace Packager
namespace Box

/-- A box that was read: its type and its payload. -/
structure Found where
  type : FourCC
  payload : Bytes
  deriving DecidableEq, Repr

/-- The box types whose payload is a sequence of boxes. -/
def containers : List FourCC :=
  [.ofChars 'm' 'o' 'o' 'v', .ofChars 't' 'r' 'a' 'k', .ofChars 'm' 'd' 'i' 'a', .ofChars 'm' 'i' 'n' 'f',
   .ofChars 's' 't' 'b' 'l', .ofChars 'd' 'i' 'n' 'f', .ofChars 'm' 'v' 'e' 'x', .ofChars 'm' 'o' 'o' 'f',
   .ofChars 't' 'r' 'a' 'f']

/-- The first box of a byte string and what follows it, when its size is at least 8 and all its bytes are there. -/
def next? (data : Bytes) : Option (Found × Bytes) :=
  match data with
  | s0 :: s1 :: s2 :: s3 :: a :: b :: c :: d :: body =>
    let size := Bytes.toNat [s0, s1, s2, s3]
    let payload := body.take (size - 8)
    if 8 ≤ size ∧ payload.length = size - 8 then some (⟨⟨a, b, c, d⟩, payload⟩, body.drop (size - 8)) else none
  | _ => none

theorem next?_lt {data rest : Bytes} {found : Found} (h : next? data = some (found, rest)) :
    found.payload.length < data.length ∧ rest.length < data.length := by
  unfold next? at h
  split at h
  · simp only at h
    split at h
    · injection h with h
      injection h with hf hr
      subst hf hr
      simp only [List.length_take, List.length_drop, List.length_cons]
      omega
    · cases h
  · cases h

/-- All boxes of `data` in pre-order, entering the boxes of the types `inside`. -/
def walk (inside : List FourCC) (data : Bytes) : List Found :=
  match h : next? data with
  | none => []
  | some (found, rest) =>
    have := next?_lt h
    found :: ((if found.type ∈ inside then walk inside found.payload else []) ++ walk inside rest)
termination_by data.length

/-- The types of the outermost boxes, in order. -/
def topLevelTypes (data : Bytes) : List FourCC := (walk [] data).map Found.type

/-- The payload of the box whose four-letter type is the first occurrence of `wanted` in `data`, `before` holding the
bytes already passed, latest first. -/
def scanFrom (wanted : FourCC) (before : Bytes) (data : Bytes) : Option Bytes :=
  match data with
  | [] => none
  | x :: rest =>
    if wanted.bytes.isPrefixOf (x :: rest) then
      match before with
      | s3 :: s2 :: s1 :: s0 :: _ =>
        let size := Bytes.toNat [s0, s1, s2, s3]
        let payload := (rest.drop 3).take (size - 8)
        if 8 ≤ size ∧ payload.length = size - 8 then some payload else none
      | _ => none
    else scanFrom wanted (x :: before) rest

/-- Looks for a box by its type letters in bytes that are not a plain sequence of boxes. -/
def scan? (wanted : FourCC) (data : Bytes) : Option Bytes := scanFrom wanted [] data

/-- The payload of the first box of the wanted type; failing that, of the one that the letters of the type point out
inside the last sample description. -/
def find? (inside : List FourCC) (wanted : FourCC) (data : Bytes) : Option Bytes :=
  let found := walk inside data
  match found.find? (·.type = wanted) with
  | some box => some box.payload
  | none =>
    match (found.filter (·.type = FourCC.ofChars 's' 't' 's' 'd')).getLast? with
    | some box => scan? wanted box.payload
    | none => none

end Box
end Packager
