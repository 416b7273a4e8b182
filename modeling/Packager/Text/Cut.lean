/-!
# Text.Cut — parts of a text between two bytes

A place in a text may be given by the number of UTF-8 bytes before it.  There is no part between two places of which
one lies within a character.
-/
namespace Packager

/-- The number of bytes of a text. -/
def byteLength (text : List Char) : Nat := text.foldl (fun n c => n + c.utf8Size) 0

/-- A text without its first bytes. -/
def dropBytes? : Nat → List Char → Option (List Char)
  | 0, text => some text
  | _ + 1, [] => none
  | n + 1, c :: cs => if c.utf8Size ≤ n + 1 then dropBytes? (n + 1 - c.utf8Size) cs else none

/-- The first bytes of a text. -/
def takeBytes? : Nat → List Char → Option (List Char)
  | 0, _ => some []
  | _ + 1, [] => none
  | n + 1, c :: cs => if c.utf8Size ≤ n + 1 then (takeBytes? (n + 1 - c.utf8Size) cs).map (c :: ·) else none

/-- The part of a text from one byte to another. -/
def slice? (text : List Char) (first last : Nat) : Option (List Char) := do
  takeBytes? (last - first) (← dropBytes? first text)

end Packager
