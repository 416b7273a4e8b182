import Packager.Number.Literal
import Packager.Path
/-!
# CommandLine.Arguments — what the command line asks for

Every option has a long name, most have a letter, and all take one value: in the next argument, after an equals sign, or
right after the letter.  Arguments are taken from left to right, and the first that does not fit, or that asks for help,
ends the reading.
-/
namespace Packager
namespace CommandLine

/-- What the command line asks for. -/
structure Arguments where
  settingsFile : Option Path
  /-- Where to write a settings file with the default settings. -/
  writeDefault : Option Path
  audio : Option Path
  video : Option Path
  frameRate : Binary64
  width : Nat
  height : Nat
  folder : Option Path
  baseName : Option String
  seconds : Option Nat

/-- A command line without arguments: video has 25 frames a second of 1280 by 720. -/
def Arguments.default : Arguments where
  settingsFile := none
  writeDefault := none
  audio := none
  video := none
  frameRate := .nearest false 25 1
  width := 1280
  height := 720
  folder := none
  baseName := none
  seconds := none

/-- Why the arguments do not lead to a run. -/
inductive Halt where
  /-- They do not fit. -/
  | misuse
  /-- They ask for help or for the version. -/
  | answered
  deriving DecidableEq, Repr

/-- The options that take a value. -/
inductive Setting where
  | settingsFile
  | writeDefault
  | audio
  | video
  | frameRate
  | width
  | height
  | folder
  | baseName
  | seconds
  deriving DecidableEq, Repr

namespace Setting

def all : List Setting :=
  [settingsFile, writeDefault, audio, video, frameRate, width, height, folder, baseName, seconds]

def long : Setting → String
  | settingsFile => "config"
  | writeDefault => "write-default-config"
  | audio => "audio"
  | video => "video"
  | frameRate => "fps"
  | width => "width"
  | height => "height"
  | folder => "folder"
  | baseName => "base-name"
  | seconds => "segment-duration"

def letter? : Setting → Option Char
  | settingsFile => some 'c'
  | audio => some 'a'
  | video => some 'v'
  | folder => some 'f'
  | baseName => some 'b'
  | seconds => some 's'
  | _ => none

end Setting

/-- An option by name. -/
inductive Flag where
  | setting (setting : Setting)
  /-- Help or version. -/
  | inquiry
  deriving DecidableEq, Repr

def Flag.named? (name : String) : Option Flag :=
  if name == "help" || name == "version" then some .inquiry
  else (Setting.all.find? (·.long == name)).map .setting

def Flag.lettered? (letter : Char) : Option Flag :=
  if letter == 'h' || letter == 'V' then some .inquiry
  else (Setting.all.find? (·.letter? == some letter)).map .setting

/-- A path, which must not be empty. -/
def path? (value : String) : Option Path := if value.isEmpty then none else some ⟨value⟩

/-- A 32-bit natural number, read as a 64-bit integer. -/
def size? (value : String) : Option Nat := do
  let n ← Literal.integer.whole value.toList
  if 0 ≤ n ∧ n < UInt32.size then some n.toNat else none

/-- A 64-bit natural number. -/
def count? (value : String) : Option Nat := do
  let n ← Literal.natural.whole value.toList
  if n < UInt64.size then some n else none

/-- The arguments with one option set. -/
def Arguments.set (a : Arguments) (setting : Setting) (value : String) : Option Arguments :=
  match setting with
  | .settingsFile => do return { a with settingsFile := some (← path? value) }
  | .writeDefault => do return { a with writeDefault := some (← path? value) }
  | .audio => do return { a with audio := some (← path? value) }
  | .video => do return { a with video := some (← path? value) }
  | .frameRate => do return { a with frameRate := ← Binary64.ofText? value }
  | .width => do return { a with width := ← size? value }
  | .height => do return { a with height := ← size? value }
  | .folder => do return { a with folder := some (← path? value) }
  | .baseName => some { a with baseName := some value }
  | .seconds => do return { a with seconds := some (← count? value) }

/-- The arguments read so far. -/
structure Progress where
  arguments : Arguments
  /-- The options that were given; none may be given twice. -/
  given : List Setting
  /-- The option whose value is in the next argument. -/
  pending : Option Setting

namespace Progress

def start : Progress := ⟨.default, [], none⟩

/-- Sets an option. -/
def set (p : Progress) (setting : Setting) (value : String) : Except Halt Progress :=
  if p.given.contains setting then .error .misuse
  else
    match p.arguments.set setting value with
    | some arguments => .ok ⟨arguments, setting :: p.given, none⟩
    | none => .error .misuse

/-- Takes an option with the value that is attached to it. -/
def take (p : Progress) (flag : Flag) (attached : Option String) : Except Halt Progress :=
  match p.pending, flag, attached with
  | some _, _, _ => .error .misuse
  | none, .setting setting, some value => p.set setting value
  | none, .setting setting, none => .ok { p with pending := some setting }
  | none, .inquiry, _ => .error .answered

/-- Takes an argument that starts with two hyphens. -/
def long (p : Progress) (text : List Char) : Except Halt Progress :=
  let name := text.takeWhile (· != '=')
  let attached := if name.length < text.length then some (String.ofList (text.drop (name.length + 1))) else none
  match Flag.named? (String.ofList name), attached with
  | some .inquiry, some _ => .error .misuse
  | some flag, attached => p.take flag attached
  | none, _ => .error .misuse

/-- Takes an argument that starts with one hyphen: a letter, and at will a value. -/
def short (p : Progress) : List Char → Except Halt Progress
  | [] => .error .misuse
  | letter :: rest =>
    match Flag.lettered? letter with
    | none => .error .misuse
    | some flag =>
      let value := if rest.head? == some '=' then rest.drop 1 else rest
      p.take flag (if rest.isEmpty then none else some (String.ofList value))

/-- Takes one argument.  There are none without a name, so any other text has to be the value of an option. -/
def argument (p : Progress) (text : String) : Except Halt Progress :=
  match text.toList with
  | '-' :: '-' :: rest => p.long rest
  | '-' :: c :: rest => p.short (c :: rest)
  | _ =>
    match p.pending with
    | some setting => p.set setting text
    | none => .error .misuse

/-- Takes all arguments.  Two hyphens alone end the options, and nothing may come after them. -/
def readAll (p : Progress) : List String → Except Halt Arguments
  | [] => if p.pending.isSome then .error .misuse else .ok p.arguments
  | text :: rest =>
    if text == "--" then
      if p.pending.isSome || !rest.isEmpty then .error .misuse else .ok p.arguments
    else do (← p.argument text).readAll rest

end Progress

/-- Reads the arguments of the program. -/
def Arguments.read (arguments : List String) : Except Halt Arguments := Progress.start.readAll arguments

end CommandLine
end Packager
