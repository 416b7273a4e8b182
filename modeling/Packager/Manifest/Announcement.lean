import Packager.Failure
/-!
# Manifest.Announcement — what a manifest is told

The publisher tells its manifest which representations there are and which segments were published; an `Outlet` is
everything that the publisher acts on, the disk and the manifest, in a monad of the caller's choice.
-/
namespace Packager

/-- One encoded variant of a track as the manifest lists it. -/
structure Representation where
  adaptationSet : String
  id : String
  kind : Kind
  codec : String
  /-- Bits per second. -/
  bitrate : Nat
  /-- Ticks per second of the segment times. -/
  timeBase : Nat
  segmentTemplate : String
  headerTemplate : String
  deriving DecidableEq, Repr

/-- News for the manifest.  All but the last concern the representation with an id in an adaptation set. -/
inductive Announcement where
  | added (representation : Representation)
  | removed (set id : String)
  | bitrate (set id : String) (bitrate : Nat)
  | codec (set id codec : String)
  | segment (set id : String) (timestamp duration : Nat)
  | relocated (path : Path) (seconds : Nat)
  deriving DecidableEq, Repr

/-- What the publisher acts on. -/
structure Outlet (m : Type → Type) where
  disk : Disk m
  announce : Announcement → m Unit
  /-- Writes the manifest as it stands. -/
  writeManifest : m (Except Failure Unit)

/-- The same outlet in a monad above `m`. -/
def Outlet.lift {m n : Type → Type} (outlet : Outlet m) (up : {α : Type} → m α → n α) : Outlet n where
  disk := outlet.disk.lift up
  announce news := up (outlet.announce news)
  writeManifest := up outlet.writeManifest

end Packager
