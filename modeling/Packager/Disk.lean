import Packager.Bytes
import Packager.Path
/-!
# Disk — what the packager asks of a file system

A `Disk` is a file system seen through the four operations that the packager needs, in a monad of the caller's choice.
Each reports its failure as an `IoError`.
-/
namespace Packager

/-- A failed file operation. -/
inductive IoError where
  /-- An error of the operating system: its number and its wording. -/
  | system (code : Nat) (wording : String)
  /-- The bytes of a text file are not UTF-8. -/
  | notUtf8
  /-- A name holds a zero character, which no file system takes. -/
  | zeroInName
  deriving DecidableEq, Repr

namespace IoError

def notFound : IoError := system 2 "No such file or directory"
def alreadyExists : IoError := system 17 "File exists"
def busy : IoError := system 16 "Device or resource busy"
def notAFolder : IoError := system 20 "Not a directory"
def isAFolder : IoError := system 21 "Is a directory"
def nameTooLong : IoError := system 36 "File name too long"

def message : IoError → String
  | system code wording => s!"{wording} (os error {code})"
  | notUtf8 => "stream did not contain valid UTF-8"
  | zeroInName => "file name contained an unexpected NUL byte"

end IoError

/-- File operations in a monad `m`. -/
structure Disk (m : Type → Type) where
  /-- Creates a folder and the folders that it lies in; one that is there already is no failure. -/
  createFolders : Path → m (Except IoError Unit)
  /-- Replaces the contents of a file. -/
  writeFile : Path → Bytes → m (Except IoError Unit)
  /-- Moves a file over another name. -/
  rename : Path → Path → m (Except IoError Unit)
  readFile : Path → m (Except IoError Bytes)

namespace Disk

/-- The same disk in a monad above `m`. -/
def lift {m n : Type → Type} (disk : Disk m) (up : {α : Type} → m α → n α) : Disk n where
  createFolders path := up (disk.createFolders path)
  writeFile path content := up (disk.writeFile path content)
  rename source target := up (disk.rename source target)
  readFile path := up (disk.readFile path)

/-- Creates the first of the folders by means of `create`, which creates one folder and fails with `notFound` when the
folder it lies in is missing; that one, next in the list, is then created before it.  A folder that is there already is
no failure. -/
def createMissing {m : Type → Type} [Monad m] (create : Path → m (Except IoError Unit)) (isFolder : Path → m Bool) :
    List Path → m (Except IoError Unit)
  | [] => return .ok ()
  | path :: above => do
    match ← create path with
    | .ok () => return .ok ()
    | .error e =>
      if e = .notFound then
        match ← createMissing create isFolder above with
        | .error e => return .error e
        | .ok () =>
          match ← create path with
          | .ok () => return .ok ()
          | .error e => return if ← isFolder path then .ok () else .error e
      else return if ← isFolder path then .ok () else .error e

/-- The contents of a text file. -/
def readText {m : Type → Type} [Monad m] (disk : Disk m) (path : Path) : m (Except IoError String) := do
  match ← disk.readFile path with
  | .error e => return .error e
  | .ok bytes =>
    match String.fromUTF8? (ByteArray.mk bytes.toArray) with
    | some text => return .ok text
    | none => return .error .notUtf8

/-- Writes a text as UTF-8. -/
def writeText {m : Type → Type} (disk : Disk m) (path : Path) (text : String) : m (Except IoError Unit) :=
  disk.writeFile path text.toUTF8.data.toList

end Disk
end Packager
