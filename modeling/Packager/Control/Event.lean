import Packager.Failure
/-!
# Control.Event — what the control plane asks for

A control event is a map tagged by `action`, or a list of the action and its arguments.  Members are read in the order
of their names and unknown ones are passed over; what is missing is told after what does not fit, in the order of the
event's own fields.
-/
namespace Packager

/-- A request of the control plane. -/
inductive ControlEvent where
  | configure (folder : Path) (baseName : String) (seconds : Nat)
  | addSegmenter (track : TrackId) (kind : Kind)
  | removeSegmenter (track : TrackId)
  /-- Sets the declared bitrate of a track, in thousand bits per second. -/
  | setBitrate (track : TrackId) (kilobits : Nat)
  deriving DecidableEq, Repr

namespace ControlEvent

/-- The actions by name. -/
inductive Action where
  | configure
  | addSegmenter
  | removeSegmenter
  | setBitrate
  deriving DecidableEq, Repr

namespace Action

def name : Action → String
  | configure => "configure"
  | addSegmenter => "addSegmenter"
  | removeSegmenter => "removeSegmenter"
  | setBitrate => "setBitrate"

def all : List Action := [configure, addSegmenter, removeSegmenter, setBitrate]

/-- The names of an action's fields, in order. -/
def fields : Action → List String
  | configure => ["folder", "baseName", "segDurInSec"]
  | addSegmenter => ["id", "kind"]
  | removeSegmenter => ["id"]
  | setBitrate => ["id", "bitrate"]

/-- What the record of an action is called in messages. -/
def expected : Action → String
  | configure => "struct variant ControlEvent::Configure"
  | addSegmenter => "struct variant ControlEvent::AddSegmenter"
  | removeSegmenter => "struct variant ControlEvent::RemoveSegmenter"
  | setBitrate => "struct variant ControlEvent::SetBitrate"

/-- Reads the tag of an event. -/
def decode : Data → Except Mismatch Action
  | .text name =>
    match all.find? (·.name == name) with
    | some action => .ok action
    | none => .error (.unknownVariant name (all.map Action.name))
  | d => .error (.wrongType d "variant identifier")

end Action

/-- Reads the name of a media kind. -/
def kindNamed (name : String) : Except Mismatch Kind :=
  if name == Kind.audio.name then .ok .audio
  else if name == Kind.video.name then .ok .video
  else .error (.unknownVariant name [Kind.audio.name, Kind.video.name])

/-- Reads nothing: null, or a map without members. -/
def unit : Data → Except Mismatch Unit
  | .null => .ok ()
  | .map [] => .ok ()
  | d => .error (.wrongType d "unit")

/-- Reads a media kind: its name, or a map from its name to nothing. -/
def kind : Data → Except Mismatch Kind
  | .text name => kindNamed name
  | .map [(name, value)] => do
    let kind ← kindNamed name
    unit value
    return kind
  | .map members => .error (.wrongValue (.map members) "map with a single key")
  | d => .error (.wrongType d "string or map")

/-- The fields of an event as far as they were read. -/
structure Draft where
  folder : Option Path
  baseName : Option String
  seconds : Option Nat
  track : Option TrackId
  kind : Option Kind
  kilobits : Option Nat

def Draft.empty : Draft := ⟨none, none, none, none, none, none⟩

/-- Reads one member into a draft, when it is a field of the action. -/
def Draft.set (action : Action) (draft : Draft) (name : String) (value : Data) : Except Mismatch Draft :=
  if !action.fields.contains name then .ok draft
  else if name == "folder" then do return { draft with folder := some ⟨← value.pathText⟩ }
  else if name == "baseName" then do return { draft with baseName := some (← value.string) }
  else if name == "segDurInSec" then do return { draft with seconds := some (← value.uint64) }
  else if name == "id" then do return { draft with track := some (← value.uint32) }
  else if name == "kind" then do return { draft with kind := some (← ControlEvent.kind value) }
  else do return { draft with kilobits := some (← value.uint32) }

/-- The event of a draft, or the first field that is missing. -/
def Draft.finish (action : Action) (draft : Draft) : Except Mismatch ControlEvent :=
  match action with
  | .configure => do
    let folder ← Data.required "folder" draft.folder
    let baseName ← Data.required "baseName" draft.baseName
    let seconds ← Data.required "segDurInSec" draft.seconds
    return .configure folder baseName seconds
  | .addSegmenter => do
    let track ← Data.required "id" draft.track
    let kind ← Data.required "kind" draft.kind
    return .addSegmenter track kind
  | .removeSegmenter => do
    let track ← Data.required "id" draft.track
    return .removeSegmenter track
  | .setBitrate => do
    let track ← Data.required "id" draft.track
    let kilobits ← Data.required "bitrate" draft.kilobits
    return .setBitrate track kilobits

/-- Reads the arguments of an action. -/
def decodeFields (action : Action) (d : Data) : Except Mismatch ControlEvent :=
  Data.decodeRecord action.expected action.fields .empty (Draft.set action) (Draft.finish action) d

/-- Members in the order of their names. -/
def sortMembers (members : List (String × Data)) : List (String × Data) :=
  members.mergeSort fun a b => decide (a.1 ≤ b.1)

/-- Reads an event. -/
def decode : Data → Except Mismatch ControlEvent
  | .map members =>
    match members.find? (·.1 == "action") with
    | none => .error (.missingField "action")
    | some (_, tag) => do
      let action ← Action.decode tag
      decodeFields action (.map (sortMembers (members.filter (·.1 != "action"))))
  | .list [] => .error (.missingField "action")
  | .list (tag :: arguments) => do
    let action ← Action.decode tag
    let event ← decodeFields action (.list arguments)
    let count := action.fields.length
    if count < arguments.length then throw (.wrongLength arguments.length (Data.counted count ++ " in sequence"))
    return event
  | d => .error (.wrongType d "internally tagged enum ControlEvent")

/-- Reads an event for the publisher. -/
def parse (d : Data) : Except Failure ControlEvent := (decode d).mapError .event

def action : ControlEvent → Action
  | configure .. => .configure
  | addSegmenter .. => .addSegmenter
  | removeSegmenter _ => .removeSegmenter
  | setBitrate .. => .setBitrate

/-- The event as a tagged map. -/
def encode (e : ControlEvent) : Data :=
  .map (("action", .text e.action.name) :: match e with
    | configure folder baseName seconds =>
      [("folder", .text folder.text), ("baseName", .text baseName), ("segDurInSec", .int seconds)]
    | addSegmenter track kind => [("id", .int track), ("kind", .text kind.name)]
    | removeSegmenter track => [("id", .int track)]
    | setBitrate track kilobits => [("id", .int track), ("bitrate", .int kilobits)])

end ControlEvent

/-- The answer to a control event: the wording of the failure, or null. -/
def controlReply (result : Except Failure Unit) : Data :=
  .map [("error", match result with
    | .ok () => .null
    | .error failure => .text failure.message)]

end Packager
