import Packager.Disk
import Packager.Toml.Document
import Packager.Toml.Layout
/-!
# Settings.Storage — settings documents on a disk

A document is loaded by reading its text, its structure and its fields in this order, and saved by laying it out as a
sheet.
-/
namespace Packager

/-- Why a settings document could not be loaded. -/
inductive LoadFailure where
  | io (error : IoError)
  /-- The text is no document. -/
  | malformed
  /-- The document does not have the fields that it should have. -/
  | mismatch (reason : Mismatch)

/-- Why a settings document could not be saved. -/
inductive SaveFailure where
  /-- A number is too large to be written. -/
  | numberTooLarge
  | io (error : IoError)

namespace Toml

variable {m : Type → Type} [Monad m] {α : Type}

/-- Reads settings from a text. -/
def decode (decoder : Data → Except Mismatch α) (text : String) : Except LoadFailure α :=
  match read text with
  | none => .error .malformed
  | some data => (decoder data).mapError .mismatch

/-- Loads settings from a file. -/
def load (decoder : Data → Except Mismatch α) (disk : Disk m) (path : Path) : m (Except LoadFailure α) := do
  match ← disk.readText path with
  | .error e => return .error (.io e)
  | .ok text => return decode decoder text

/-- Saves a sheet to a file. -/
def save (disk : Disk m) (path : Path) (sheet : Sheet) : m (Except SaveFailure Unit) := do
  match sheet.render with
  | none => return .error .numberTooLarge
  | some text => return (← disk.writeText path text).mapError .io

end Toml
end Packager
