import Packager.Text.Hidden
/-!
# Text.Quoted — a text in double quotes

Quotes and backslashes are escaped, and so are characters that do not show: the common controls by a letter, all others
by their code point in hexadecimal.
-/
namespace Packager
namespace Quoted

/-- How one character stands inside the quotes. -/
def escape (c : Char) : List Char :=
  if c = '\x00' then ['\\', '0']
  else if c = '\t' then ['\\', 't']
  else if c = '\n' then ['\\', 'n']
  else if c = '\r' then ['\\', 'r']
  else if c = '"' then ['\\', '"']
  else if c = '\\' then ['\\', '\\']
  else if Char.isHidden c then '\\' :: 'u' :: '\x7b' :: (Nat.toDigits 16 c.toNat ++ ['\x7d'])
  else [c]

/-- The text in quotes. -/
def quote (text : String) : String :=
  String.ofList ('"' :: (text.toList.flatMap escape ++ ['"']))

end Quoted
end Packager
