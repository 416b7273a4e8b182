import Packager.Proofs.FileNames
import Packager.Publisher.Cycle
/-!
# Proofs.Journal — runs of a publisher in an arbitrary world

A world answers every file operation and every manifest write as it likes, and may change its mind with all that
happened before.  The journal lists what the publisher did, the latest first.  `Operation.run` carries out one operation;
`Presentation.run` a list of them.  The lifetime of a track is the part of the journal since the track was last added.
-/
namespace Packager

/-- What a publisher did, with the answer of the world. -/
inductive Effect where
  | folder (path : Path) (result : Except IoError Unit)
  | wrote (path : Path) (content : Bytes) (result : Except IoError Unit)
  | renamed (source target : Path) (result : Except IoError Unit)
  | read (path : Path) (result : Except IoError Bytes)
  | announced (news : Announcement)
  | manifest (result : Except Failure Unit)

/-- All that a publisher did, the latest first. -/
abbrev Journal := List Effect

/-- The answers of the world to a publisher with a journal. -/
structure World where
  createFolders : Journal → Path → Except IoError Unit
  writeFile : Journal → Path → Bytes → Except IoError Unit
  rename : Journal → Path → Path → Except IoError Unit
  readFile : Journal → Path → Except IoError Bytes
  writeManifest : Journal → Except Failure Unit

namespace World

def answer {α : Type} (reply : Journal → α) (effect : α → Effect) : StateM Journal α :=
  modifyGet fun j => (reply j, effect (reply j) :: j)

/-- The outlet into a world that keeps the journal. -/
def outlet (w : World) : Outlet (StateM Journal) where
  disk :=
    { createFolders := fun path => answer (w.createFolders · path) (.folder path)
      writeFile := fun path content => answer (w.writeFile · path content) (.wrote path content)
      rename := fun source target => answer (w.rename · source target) (.renamed source target)
      readFile := fun path => answer (w.readFile · path) (.read path) }
  announce news := modify (.announced news :: ·)
  writeManifest := answer w.writeManifest .manifest

/-- A world in which nothing fails. -/
def obliging : World := ⟨fun _ _ => .ok (), fun _ _ _ => .ok (), fun _ _ _ => .ok (), fun _ _ => .ok [], fun _ => .ok ()⟩

end World

/-! ## Running -/

@[simp] theorem StateM.pure_apply {σ α : Type} (a : α) (s : σ) : (pure a : StateM σ α) s = (a, s) := rfl

@[simp] theorem StateM.bind_apply {σ α β : Type} (x : StateM σ α) (f : α → StateM σ β) (s : σ) :
    (x >>= f) s = f (x s).1 (x s).2 := rfl

@[simp] theorem StateM.map_apply {σ α β : Type} (f : α → β) (x : StateM σ α) (s : σ) :
    (f <$> x) s = (f (x s).1, (x s).2) := rfl

/-- **What each step of a loop keeps holds after the loop.** -/
theorem StateM.foldlM_invariant {σ α β : Type} {f : β → α → StateM σ β} (inv : List α → β → σ → Prop)
    (step : ∀ a rest b s, inv (a :: rest) b s → inv rest (f b a s).1 (f b a s).2) :
    ∀ (l : List α) (b : β) (s : σ), inv l b s → inv [] (l.foldlM f b s).1 (l.foldlM f b s).2
  | [], _, _, h => h
  | a :: l, b, s, h => by
    rw [List.foldlM_cons]
    exact foldlM_invariant inv step l _ _ (step a l b s h)

namespace World

@[simp] theorem writeFile_apply (w : World) (path : Path) (content : Bytes) (j : Journal) :
    w.outlet.disk.writeFile path content j =
      (w.writeFile j path content, .wrote path content (w.writeFile j path content) :: j) := rfl

@[simp] theorem createFolders_apply (w : World) (path : Path) (j : Journal) :
    w.outlet.disk.createFolders path j = (w.createFolders j path, .folder path (w.createFolders j path) :: j) := rfl

@[simp] theorem announce_apply (w : World) (news : Announcement) (j : Journal) :
    w.outlet.announce news j = ((), .announced news :: j) := rfl

@[simp] theorem writeManifest_apply (w : World) (j : Journal) :
    w.outlet.writeManifest j = (w.writeManifest j, .manifest (w.writeManifest j) :: j) := rfl

end World

inductive Operation where
  | addTrack (id : TrackId) (kind : Kind)
  | removeTrack (id : TrackId)
  | cycle (frames : List (TrackId × Frame))
  | setBitrate (id : TrackId) (kilobits : Nat)
  | drainAudio
  | configure (folder : Path) (baseName : String) (seconds : Nat)
  | shutdown

namespace Operation

def run {m : Type → Type} [Monad m] (outlet : Outlet m) (p : Publisher) : Operation → m Publisher
  | addTrack id kind => Prod.snd <$> p.addTrack outlet id kind
  | removeTrack id => Prod.snd <$> p.removeTrack outlet id
  | cycle frames => Prod.snd <$> p.cycle outlet frames
  | setBitrate id kilobits => Prod.snd <$> p.setBitrate outlet id kilobits
  | drainAudio => Prod.snd <$> p.drainAudio outlet
  | configure folder baseName seconds => Prod.snd <$> p.configure outlet folder baseName seconds
  | shutdown => Prod.snd <$> p.shutdown outlet

/-- Whether an operation closes what tracks still have. -/
def tearsDown : Operation → Bool
  | removeTrack _ | drainAudio | shutdown => true
  | _ => false

end Operation

structure Presentation where
  publisher : Publisher
  journal : Journal

namespace Presentation

def start (settings : Settings) : Presentation := ⟨⟨settings, .empty, .empty, none⟩, []⟩

def apply (w : World) (s : Presentation) (op : Operation) : Presentation :=
  let out := op.run w.outlet s.publisher s.journal
  ⟨out.1, out.2⟩

def run (w : World) (s : Presentation) (ops : List Operation) : Presentation := ops.foldl (apply w) s

/-- **What every operation keeps holds after every run.** -/
theorem run_invariant {w : World} (inv : Presentation → Prop) (step : ∀ s op, inv s → inv (s.apply w op)) :
    ∀ (ops : List Operation) (s : Presentation), inv s → inv (s.run w ops)
  | [], _, h => h
  | op :: ops, s, h => run_invariant inv step ops (s.apply w op) (step s op h)

end Presentation

/-! ## The lifetime of a track -/

namespace Effect

def adds (id : TrackId) : Effect → Bool
  | announced (.added rep) => rep.id == toString id
  | _ => false

end Effect

/-- What was done since a track was last added. -/
def Journal.lifetime (id : TrackId) (j : Journal) : Journal := j.takeWhile (!·.adds id)

/-- Whether the initialization segment of a track was written in the lifetime of the track. -/
def HeaderWritten (settings : Settings) (id : TrackId) (kind : Kind) (j : Journal) : Prop :=
  ∃ content, Effect.wrote (Naming.headerPath settings.folder settings.baseName id (Naming.fileExtension kind)) content
    (.ok ()) ∈ j.lifetime id

/-- Whether an effect can start a lifetime of a track or write its initialization segment. -/
def Effect.Concerns (settings : Settings) (id : TrackId) : Effect → Prop
  | announced (.added rep) => rep.id = toString id
  | wrote path _ (.ok ()) =>
    ∃ kind, path = Naming.headerPath settings.folder settings.baseName id (Naming.fileExtension kind)
  | _ => False

theorem headerWritten_cons {settings : Settings} {id : TrackId} {kind : Kind} {e : Effect} {j : Journal}
    (h : ¬e.Concerns settings id) : HeaderWritten settings id kind (e :: j) ↔ HeaderWritten settings id kind j := by
  have ha : e.adds id = false := by
    unfold Effect.Concerns at h
    unfold Effect.adds
    split
    · simpa using h
    · rfl
  unfold HeaderWritten Journal.lifetime
  rw [List.takeWhile_cons, if_pos (by rw [ha]; rfl)]
  constructor
  · rintro ⟨content, hm⟩
    rcases List.mem_cons.1 hm with rfl | hm
    · exact absurd ⟨kind, rfl⟩ h
    · exact ⟨content, hm⟩
  · rintro ⟨content, hm⟩
    exact ⟨content, List.mem_cons_of_mem e hm⟩

theorem headerWritten_wrote (settings : Settings) (id : TrackId) (kind : Kind) (content : Bytes) (j : Journal) :
    HeaderWritten settings id kind
      (.wrote (Naming.headerPath settings.folder settings.baseName id (Naming.fileExtension kind)) content (.ok ()) :: j) :=
  ⟨content, List.mem_cons_self⟩

theorem not_headerWritten_added {settings : Settings} {id : TrackId} {kind : Kind} {rep : Representation} {j : Journal}
    (h : rep.id = toString id) : ¬HeaderWritten settings id kind (.announced (.added rep) :: j) := by
  rintro ⟨content, hm⟩
  unfold Journal.lifetime at hm
  rw [List.takeWhile_cons, if_neg (by simp [Effect.adds, h])] at hm
  cases hm

/-- Whether an effect puts out a media segment of a track: it writes the file, with whatever result, or announces it. -/
inductive Effect.PutsOut (settings : Settings) (id : TrackId) (kind : Kind) : Effect → Prop where
  | wrote (timestamp : Nat) (content : Bytes) (result : Except IoError Unit) :
    PutsOut settings id kind (.wrote (Naming.segmentPath settings.folder settings.baseName id timestamp
      (Naming.fileExtension kind)) content result)
  | announced (timestamp duration : Nat) :
    PutsOut settings id kind (.announced (.segment (Naming.adaptationSet kind) (toString id) timestamp duration))

/-- **An effect puts out segments of one track.** -/
theorem Effect.PutsOut.inj {settings : Settings} {id id' : TrackId} {kind kind' : Kind} {e : Effect}
    (h : e.PutsOut settings id kind) (h' : e.PutsOut settings id' kind') : id = id' ∧ kind = kind' := by
  cases h with
  | wrote timestamp content result =>
    generalize hp : Naming.segmentPath settings.folder settings.baseName id timestamp _ = path at h'
    cases h' with
    | wrote timestamp' =>
      obtain ⟨hi, he⟩ := Naming.segmentPath_inj hp
      exact ⟨hi, Naming.fileExtension_inj he⟩
  | announced timestamp duration =>
    generalize hs : Naming.adaptationSet kind = set at h'
    generalize hr : toString id = rep at h'
    cases h' with
    | announced => exact ⟨toString_inj hr, Naming.adaptationSet_inj hs⟩

theorem not_putsOut_header (settings : Settings) (id id' : TrackId) (kind : Kind) (extension : String) (content : Bytes)
    (result : Except IoError Unit) :
    ¬(Effect.wrote (Naming.headerPath settings.folder settings.baseName id' extension) content result).PutsOut
      settings id kind := by
  generalize hp : Naming.headerPath settings.folder settings.baseName id' extension = path
  rintro ⟨⟩
  exact Naming.headerPath_ne_segmentPath _ _ _ _ _ _ _ hp

theorem not_concerns_segment (settings : Settings) (id id' : TrackId) (timestamp : Nat) (extension : String)
    (content : Bytes) (result : Except IoError Unit) :
    ¬(Effect.wrote (Naming.segmentPath settings.folder settings.baseName id' timestamp extension) content
      result).Concerns settings id := by
  unfold Effect.Concerns
  rcases result with e | ⟨⟩
  · exact fun h => h
  · rintro ⟨kind, h⟩
    exact Naming.headerPath_ne_segmentPath _ _ _ _ _ _ _ h.symm

theorem not_concerns_header {settings : Settings} {id id' : TrackId} (hne : id' ≠ id) (extension : String)
    (content : Bytes) (result : Except IoError Unit) :
    ¬(Effect.wrote (Naming.headerPath settings.folder settings.baseName id' extension) content result).Concerns
      settings id := by
  unfold Effect.Concerns
  rcases result with e | ⟨⟩
  · exact fun h => h
  · rintro ⟨kind, h⟩
    exact hne (Naming.headerPath_inj h)

end Packager
