import Packager.Bytes
/-!
# Box — the nested records of an MP4 file

A box is a four-character type with a payload that is either plain bytes or a sequence of boxes.  Its written form opens
with its total size, counted bottom-up from the tree, so no size is ever filled in afterwards.
-/
namespace Packager

/-- A four-character box type. -/
structure FourCC where
  a : UInt8
  b : UInt8
  c : UInt8
  d : UInt8
  deriving DecidableEq, Repr, Inhabited

namespace FourCC

def ofChars (a b c d : Char) : FourCC := ⟨a.toUInt8, b.toUInt8, c.toUInt8, d.toUInt8⟩

def bytes (t : FourCC) : Bytes := [t.a, t.b, t.c, t.d]

end FourCC

/-- A box: a type over plain bytes, or over further boxes. -/
inductive Box where
  | leaf (type : FourCC) (payload : Bytes)
  | node (type : FourCC) (children : List Box)

namespace Box

/-- The size and type that open a box with a payload of `length` bytes. -/
def header (type : FourCC) (length : Nat) : Bytes :=
  Bytes.bigEndian 4 (8 + length) ++ type.bytes

mutual
/-- The written form of a box. -/
def encode : Box → Bytes
  | leaf type payload => header type payload.length ++ payload
  | node type children =>
    let body := encodeAll children
    header type body.length ++ body

/-- The written forms of boxes, one after the other. -/
def encodeAll : List Box → Bytes
  | [] => []
  | box :: boxes => encode box ++ encodeAll boxes
end

mutual
/-- The number of bytes in the written form of a box. -/
def size : Box → Nat
  | leaf _ payload => 8 + payload.length
  | node _ children => 8 + sizeAll children

/-- The number of bytes in the written forms of boxes. -/
def sizeAll : List Box → Nat
  | [] => 0
  | box :: boxes => size box + sizeAll boxes
end

/-- A leaf whose payload opens with a version byte and three bytes of flags. -/
def full (type : FourCC) (version flags : Nat) (body : Bytes) : Box :=
  leaf type (Bytes.bigEndian 1 version ++ Bytes.bigEndian 3 flags ++ body)

@[simp] theorem length_header (type : FourCC) (length : Nat) : (header type length).length = 8 := by
  simp [header, FourCC.bytes]

mutual
theorem length_encode : ∀ b : Box, (encode b).length = size b
  | leaf _ _ => by simp [encode, size]
  | node _ cs => by simp [encode, size, length_encodeAll cs]

theorem length_encodeAll : ∀ bs : List Box, (encodeAll bs).length = sizeAll bs
  | [] => rfl
  | b :: bs => by simp [encodeAll, sizeAll, length_encode b, length_encodeAll bs]
end

end Box
end Packager
