import Packager.Disk
/-!
# Disk.Volume — a file system in memory

A volume lists its folders and files by their full names, each a list of parts from the root, and resolves paths from a
working folder.  A name that runs through a file, or through nothing, is refused as an operating system refuses it.
-/
namespace Packager

/-- What a name on a volume stands for. -/
inductive Entry where
  | folder
  | file (content : Bytes)
  deriving DecidableEq, Repr

/-- A file system in memory. -/
structure Volume where
  /-- The folders and files below the root, by name. -/
  entries : List (List String × Entry)
  /-- The folder that relative paths start from. -/
  working : List String

namespace Volume

/-- A volume with nothing but its working folder. -/
def empty (working : String) : Volume := ⟨[([working], .folder)], [working]⟩

/-- What a full name stands for; the root is always a folder. -/
def lookup (v : Volume) (name : List String) : Option Entry :=
  if name.isEmpty then some .folder else (v.entries.find? (·.1 == name)).map Prod.snd

def set (v : Volume) (name : List String) (entry : Entry) : Volume :=
  if v.entries.any (·.1 == name) then
    { v with entries := v.entries.map fun e => if e.1 == name then (name, entry) else e }
  else { v with entries := v.entries ++ [(name, entry)] }

/-- Removes a name with all that lies below it. -/
def remove (v : Volume) (name : List String) : Volume :=
  { v with entries := v.entries.filter fun e => !name.isPrefixOf e.1 }

def isFolder (v : Volume) (name : List String) : Bool := v.lookup name == some .folder

/-- The most bytes that a name may have. -/
def longestName : Nat := 255

/-- The most bytes that a path may have. -/
def longestPath : Nat := 4095

/-- Walks from a name through the parts of a path: every name that is left must be a folder. -/
def walkParts (v : Volume) (name : List String) : List String → Except IoError (List String)
  | [] => .ok name
  | part :: rest =>
    match v.lookup name with
    | none => .error .notFound
    | some (.file _) => .error .notAFolder
    | some .folder =>
      if part == "." then walkParts v name rest
      else if part == ".." then walkParts v name.dropLast rest
      else if longestName < part.utf8ByteSize then .error .nameTooLong
      else walkParts v (name ++ [part]) rest

/-- The full name that a path leads to; its last part need not be there. -/
def resolve (v : Volume) (path : Path) : Except IoError (List String) :=
  if path.text.toList.contains '\x00' then .error .zeroInName
  else if path.text.isEmpty then .error .notFound
  else if longestPath < path.text.utf8ByteSize then .error .nameTooLong
  else walkParts v (if path.isAbsolute then [] else v.working) path.steps

def createFolder (path : Path) (v : Volume) : Except IoError Unit × Volume :=
  match v.resolve path with
  | .error e => (.error e, v)
  | .ok name =>
    match v.lookup name with
    | some _ => (.error .alreadyExists, v)
    | none => (.ok (), v.set name .folder)

/-- Whether a path leads to a folder. -/
def leadsToFolder (v : Volume) (path : Path) : Bool :=
  match v.resolve path with
  | .error _ => false
  | .ok name => v.isFolder name

def createFolders (path : Path) (v : Volume) : Except IoError Unit × Volume :=
  Disk.createMissing (m := StateM Volume) createFolder (fun path v => (v.leadsToFolder path, v))
    path.ancestors v

def writeFile (path : Path) (content : Bytes) (v : Volume) : Except IoError Unit × Volume :=
  match v.resolve path with
  | .error e => (.error e, v)
  | .ok name =>
    if path.endsInSeparator || v.isFolder name then (.error .isAFolder, v)
    else (.ok (), v.set name (.file content))

def readFile (path : Path) (v : Volume) : Except IoError Bytes :=
  match v.resolve path with
  | .error e => .error e
  | .ok name =>
    match v.lookup name with
    | none => .error .notFound
    | some .folder => .error .isAFolder
    | some (.file content) => if path.endsInSeparator then .error .notAFolder else .ok content

def rename (source target : Path) (v : Volume) : Except IoError Unit × Volume :=
  match v.resolve source with
  | .error e => (.error e, v)
  | .ok old =>
    match v.resolve target with
    | .error e => (.error e, v)
    | .ok new =>
      if !(source.endsInName && target.endsInName) then (.error .busy, v)
      else
        match v.lookup old with
        | none => (.error .notFound, v)
        | some entry =>
          if target.endsInSeparator then (.error .notAFolder, v)
          else if v.isFolder new then (.error .isAFolder, v)
          else (.ok (), if old = new then v else (v.remove old).set new entry)

/-- Removes a file, or a folder with all that lies in it. -/
def removeAll (path : Path) (v : Volume) : Volume :=
  match v.resolve path with
  | .error _ => v
  | .ok name => v.remove name

/-- The names below the working folder, as paths relative to it; a folder's path ends in a separator. -/
def listing (v : Volume) : List (String × Entry) :=
  let below := v.entries.filterMap fun e =>
    if v.working.isPrefixOf e.1 ∧ e.1 ≠ v.working then
      let path := "/".intercalate (e.1.drop v.working.length)
      some (match e.2 with
        | .folder => (path ++ "/", e.2)
        | .file _ => (path, e.2))
    else none
  below.mergeSort fun a b => decide (a.1 ≤ b.1)

end Volume

/-- A volume as a disk. -/
def Disk.ofVolume : Disk (StateM Volume) where
  createFolders path := fun v => v.createFolders path
  writeFile path content := fun v => v.writeFile path content
  rename source target := fun v => v.rename source target
  readFile path := fun v => (v.readFile path, v)

end Packager
