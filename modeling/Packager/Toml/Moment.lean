import Packager.Toml.Quotation
/-!
# Toml.Moment — dates and times of day

A moment is a date, a time of day, or both with an offset from universal time; nothing in the settings is one, so a
moment is checked and kept as text.
-/
namespace Packager
namespace Toml

/-- A number of exactly `width` digits in a range. -/
def field (width low high : Nat) : Reader Nat := fun cs =>
  let digits := cs.take width
  let n := Literal.digitsValue 10 digits
  if digits.length = width ∧ digits.all Char.isDigit ∧ low ≤ n ∧ n ≤ high then some (n, cs.drop width) else none

def isLeapYear (year : Nat) : Bool := year % 4 == 0 && (year % 100 != 0 || year % 400 == 0)

def daysInMonth (year month : Nat) : Nat :=
  if month = 2 then (if isLeapYear year then 29 else 28)
  else if month ∈ [4, 6, 9, 11] then 30
  else 31

def date : Reader Unit := do
  let year ← field 4 0 9999
  Reader.exactly "-"
  let month ← field 2 1 12
  Reader.exactly "-"
  let _ ← field 2 1 (daysInMonth year month)

def timeOfDay : Reader Unit := do
  let _ ← field 2 0 23
  Reader.exactly ":"
  let _ ← field 2 0 59
  Reader.exactly ":"
  let _ ← field 2 0 60
  let _ ← Reader.optional (do Reader.exactly "."; Reader.run1 Char.isDigit)

def offset : Reader Unit :=
  (do let _ ← Reader.char fun c => c == 'Z' || c == 'z') <|> do
    let _ ← Reader.char fun c => c == '+' || c == '-'
    let _ ← field 2 0 23
    Reader.exactly ":"
    let _ ← field 2 0 59

def moment : Reader Unit :=
  (do
    date
    let _ ← Reader.optional do
      let _ ← Reader.char fun c => c == 'T' || c == 't' || c == ' '
      timeOfDay
      Reader.optional offset) <|>
  timeOfDay

end Toml
end Packager
