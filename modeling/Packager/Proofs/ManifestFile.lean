import Packager.Proofs.VolumeFiles
/-!
# Proofs.ManifestFile — the manifest is replaced as a whole

The manifest is written beside the old one and then renamed over it.  The temporary file has another last name
(`Path.withExtension_apart`), so no step before the last touches the manifest, and the last one replaces it or fails
(`Mpd.replaced_whole`).  This needs nothing of the disk but what `Disk.Files` says, which is that of one without links.
-/
namespace Packager

section
variable {σ : Type} {disk : Disk (StateM σ)} (files : disk.Files) {s t : σ} {p q : Path} {x : files.Place}

/-- Where two paths with different last names both lead, there is no file. -/
theorem Disk.Files.contents?_of_shared (hs : files.Sound s) (hapart : p.parts.getLast? ≠ q.parts.getLast?)
    (hp : files.place? s p = some x) (hq : files.place? s q = some x) : files.contents? s x = none := by
  cases hpn : p.endsInName with
  | false => exact files.unnamed hs hpn hp
  | true =>
    cases hqn : q.endsInName with
    | false => exact files.unnamed hs hqn hq
    | true => exact absurd (files.named hs hpn hqn hp hq) hapart

/-- A file is not touched by writing one with another last name. -/
theorem Disk.Files.contents?_writeFile (hs : files.Sound s) (hapart : p.parts.getLast? ≠ q.parts.getLast?)
    (hp : files.place? s p = some x) (content : Bytes) :
    files.contents? (disk.writeFile q content s).2 x = files.contents? s x := by
  obtain ⟨hsound, hplace, hothers, -⟩ := files.writeFile hs q content
  by_cases hq : files.place? s q = some x
  · rw [files.contents?_of_shared hs hapart hp hq]
    exact files.contents?_of_shared hsound hapart ((hplace p).trans hp) ((hplace q).trans hq)
  · exact hothers x hq

end

namespace Mpd

theorem temporaryPath_apart {m : Mpd} (h : m.path.HasFileName) :
    m.path.parts.getLast? ≠ m.temporaryPath.parts.getLast? :=
  (Path.withExtension_apart h (by decide) (by decide)).symm

variable {σ : Type} {disk : Disk (StateM σ)} {s : σ}

/-- Whether a disk is in a state in which the temporary file is written: the folder was created, if there is one. -/
def Readied (disk : Disk (StateM σ)) (s t : σ) : Prop := t = s ∨ ∃ folder, t = (disk.createFolders folder s).2

/-- How the manifest file is replaced: the folder is created, if there is one, the temporary file is written and then
renamed.  The first failure is the answer. -/
inductive Course (disk : Disk (StateM σ)) (m : Mpd) (text : String) (s : σ) : Except IoError Unit × σ → Prop where
  | uncreated {folder : Path} {e : IoError} {t : σ} (hc : disk.createFolders folder s = (.error e, t)) :
      Course disk m text s (.error e, t)
  | unwritten {t u : σ} {e : IoError} (hc : Readied disk s t)
      (hw : disk.writeText m.temporaryPath text t = (.error e, u)) : Course disk m text s (.error e, u)
  | written {t u : σ} (hc : Readied disk s t) (hw : disk.writeText m.temporaryPath text t = (.ok (), u)) :
      Course disk m text s (disk.rename m.temporaryPath m.path u)

theorem replaceFile_course (disk : Disk (StateM σ)) (m : Mpd) (text : String) (s : σ) :
    Course disk m text s (m.replaceFile disk text s) := by
  -- once the folder is there, all depends on the writing
  have hwrite : ∀ {t out}, Readied disk s t →
      (∀ e u, disk.writeText m.temporaryPath text t = (.error e, u) → out = (.error e, u)) →
      (∀ u, disk.writeText m.temporaryPath text t = (.ok (), u) → out = disk.rename m.temporaryPath m.path u) →
        Course disk m text s out := by
    intro t out hc herror hok
    cases hw : disk.writeText m.temporaryPath text t with
    | mk result u =>
      cases result with
      | error e => exact herror e u hw ▸ .unwritten hc hw
      | ok => exact hok u hw ▸ .written hc hw
  unfold replaceFile
  cases m.path.parent? with
  | none =>
    refine hwrite (.inl rfl) (fun e u hw => ?_) fun u hw => ?_ <;> simp [hw]
  | some folder =>
    dsimp only
    split
    · refine hwrite (.inl rfl) (fun e u hw => ?_) fun u hw => ?_ <;> simp [hw]
    · cases hc : disk.createFolders folder s with
      | mk result t =>
        cases result with
        | error e =>
          simp only [StateM.bind_apply, hc]
          exact .uncreated hc
        | ok =>
          refine hwrite (t := t) (.inr ⟨folder, by rw [hc]⟩) (fun e u hw => ?_) fun u hw => ?_ <;> simp [hc, hw]

/-- Creating the folder touches no file. -/
theorem Readied.keeps (files : disk.Files) (hs : files.Sound s) {t : σ} (h : Readied disk s t) : files.Sound t ∧
    (∀ x, files.contents? t x = files.contents? s x) ∧ ∀ q x, files.place? s q = some x → files.place? t q = some x := by
  rcases h with rfl | ⟨folder, rfl⟩
  · exact ⟨hs, fun _ => rfl, fun _ _ h => h⟩
  · exact files.createFolders hs folder

/-- Nor does writing the temporary file touch the manifest. -/
theorem Readied.writeText (files : disk.Files) (hs : files.Sound s) {m : Mpd} (hname : m.path.HasFileName) {t : σ}
    (h : Readied disk s t) (text : String) : let u := (disk.writeText m.temporaryPath text t).2
    (∀ x, files.place? s m.path = some x → files.place? u m.path = some x) ∧
      ∀ x, files.place? u m.path = some x → files.contents? u x = files.contents? s x := by
  intro u
  obtain ⟨ht, hcontents, hplaces⟩ := h.keeps files hs
  have hsame := (files.writeFile ht m.temporaryPath text.toUTF8.data.toList).2.1
  refine ⟨fun x hx => (hsame m.path).trans (hplaces _ x hx), fun x hx => ?_⟩
  have hx : files.place? t m.path = some x := (hsame m.path).symm.trans hx
  exact (files.contents?_writeFile ht (temporaryPath_apart hname) hx _).trans (hcontents x)

/-- What replacing the file does: all of it, or nothing to the file. -/
theorem replaceFile_whole (files : disk.Files) (hs : files.Sound s) {m : Mpd} (hname : m.path.HasFileName)
    (text : String) : let out := m.replaceFile disk text s
    (out.1 ≠ .ok () → (∀ x, files.place? s m.path = some x → files.place? out.2 m.path = some x) ∧
      ∀ x, files.place? out.2 m.path = some x → files.contents? out.2 x = files.contents? s x) ∧
    (out.1 = .ok () →
      (∃ x, files.place? out.2 m.path = some x ∧ files.contents? out.2 x = some text.toUTF8.data.toList) ∧
      ∀ x, files.place? out.2 m.temporaryPath = some x → files.contents? out.2 x = none) := by
  have hcourse := replaceFile_course disk m text s
  generalize m.replaceFile disk text s = out at hcourse
  cases hcourse with
  | @uncreated folder e t hc =>
    obtain ⟨-, hcontents, hplaces⟩ := Readied.keeps files hs (t := t) (.inr ⟨folder, by rw [hc]⟩)
    exact ⟨fun _ => ⟨hplaces m.path, fun x _ => hcontents x⟩, nofun⟩
  | unwritten hc hw =>
    have hkept := hc.writeText files hs hname text
    rw [hw] at hkept
    exact ⟨fun _ => hkept, nofun⟩
  | @written t u hc hw =>
    have hkept := hc.writeText files hs hname text
    obtain ⟨hu, hsame, -, hnew⟩ := files.writeFile (hc.keeps files hs).1 m.temporaryPath text.toUTF8.data.toList
    unfold Disk.writeText at hw hkept
    rw [hw] at hu hsame hnew hkept
    obtain ⟨x, hx, hcontent⟩ := hnew rfl
    have hx : files.place? u m.temporaryPath = some x := (hsame _).trans hx
    obtain ⟨-, hplaces, hfailed, hdone⟩ := files.rename hu hx hcontent m.path
    refine ⟨fun hne => ⟨fun y hy => (hplaces _).trans (hkept.1 y hy), fun y hy => ?_⟩, fun hok => ?_⟩
    · exact (hfailed hne y).trans (hkept.2 y ((hplaces _).symm.trans hy))
    · obtain ⟨y, hy, hmoved, hgone⟩ := hdone hok
      refine ⟨⟨y, (hplaces _).trans hy, hmoved⟩, fun z hz => ?_⟩
      obtain rfl : x = z := Option.some.inj (hx.symm.trans ((hplaces _).symm.trans hz))
      refine hgone fun he => ?_
      rw [files.contents?_of_shared hu (temporaryPath_apart hname) (he ▸ hy) hx] at hcontent
      cases hcontent

/-- **The manifest is replaced as a whole**, whatever lies on a disk without links: where the temporary path is a link to
the manifest, which `Disk.Files` leaves out, writing the one changes the other.  When the text cannot be written, the failure
says so, the path still leads where it did, and there is what was there before.  When it is written, the path leads to the
whole text, and the temporary file is gone.  That is never the manifest itself.  The path of a publisher's manifest always
has a file name. -/
theorem replaced_whole (files : disk.Files) (hs : files.Sound s) {m : Mpd} (hname : m.path.HasFileName) (now : Instant) :
    let out := m.save disk now s
    m.temporaryPath ≠ m.path ∧
    (∀ failure, out.1 = .error failure → (∃ e, failure = .manifest (.cannotWrite m.path e)) ∧
      (∀ x, files.place? s m.path = some x → files.place? out.2 m.path = some x) ∧
      ∀ x, files.place? out.2 m.path = some x → files.contents? out.2 x = files.contents? s x) ∧
    (out.1 = .ok () →
      (∃ x, files.place? out.2 m.path = some x ∧ files.contents? out.2 x = some (m.render now).toUTF8.data.toList) ∧
      ∀ x, files.place? out.2 m.temporaryPath = some x → files.contents? out.2 x = none) ∧
    ∀ settings : Settings, settings.manifestPath.HasFileName := by
  have hne : m.temporaryPath ≠ m.path := fun he => temporaryPath_apart hname (by rw [he])
  obtain ⟨hfailed, hdone⟩ := replaceFile_whole files hs hname (m.render now)
  unfold save
  simp only [StateM.bind_apply]
  generalize m.replaceFile disk (m.render now) s = out at hfailed hdone
  obtain ⟨result, t⟩ := out
  cases result with
  | error e =>
    refine ⟨hne, fun failure hf => ?_, nofun, Settings.hasFileName_manifestPath⟩
    cases hf
    exact ⟨⟨e, rfl⟩, hfailed nofun⟩
  | ok => exact ⟨hne, nofun, fun _ => hdone rfl, Settings.hasFileName_manifestPath⟩

/-- A manifest in the working folder. -/
def plainManifest : Mpd := { Mpd.start .default ⟨0, 0⟩ with path := ⟨"live.mpd"⟩ }

/-- A volume with an old manifest.  The name of the temporary file may be taken by a folder. -/
def volumeWithManifest (blocked : Bool) : Volume where
  entries := [(["work"], .folder), (["work", "live.mpd"], .file [0x3C])] ++
    if blocked then [(["work", "live.mpd.tmp"], .folder)] else []
  working := ["work"]

/-- A manifest beside nothing else is replaced; beside a folder with the name of the temporary file it stays. -/
theorem replaced_whole_blocked :
    let free := plainManifest.save Disk.ofVolume ⟨0, 0⟩ (volumeWithManifest false)
    let blocked := plainManifest.save Disk.ofVolume ⟨0, 0⟩ (volumeWithManifest true)
    plainManifest.path.HasFileName ∧ (volumeWithManifest false).Rooted ∧ (volumeWithManifest true).Rooted ∧
      (free.1 = .ok () ∧
        free.2.contents? ["work", "live.mpd"] = some (plainManifest.render ⟨0, 0⟩).toUTF8.data.toList ∧
        free.2.contents? ["work", "live.mpd.tmp"] = none) ∧
      blocked.1 = .error (.manifest (.cannotWrite ⟨"live.mpd"⟩ .isAFolder)) ∧
        blocked.2.contents? ["work", "live.mpd"] = some [0x3C] := by
  intro free blocked
  have hname : plainManifest.path.HasFileName := by decide
  have hfree : (volumeWithManifest false).Rooted := Volume.rooted_of_entries (by decide) (by decide)
  have hblocked : (volumeWithManifest true).Rooted := Volume.rooted_of_entries (by decide) (by decide)
  have hok : free.1 = .ok () := rfl
  have herror : blocked.1 = .error (.manifest (.cannotWrite ⟨"live.mpd"⟩ .isAFolder)) := rfl
  obtain ⟨-, -, hdone, -⟩ := replaced_whole Disk.volumeFiles hfree hname ⟨0, 0⟩
  obtain ⟨-, hfailed, -, -⟩ := replaced_whole Disk.volumeFiles hblocked hname ⟨0, 0⟩
  obtain ⟨⟨x, hx, hcontents⟩, hgone⟩ := hdone hok
  obtain rfl : x = ["work", "live.mpd"] := Option.some.inj (hx.symm.trans rfl)
  exact ⟨hname, hfree, hblocked, ⟨hok, hcontents, hgone _ rfl⟩, herror, (hfailed _ herror).2.2 _ rfl⟩

end Mpd
end Packager
