import Mathlib.Data.List.Induction
import Packager.Disk.Volume
import Packager.Proofs.Journal
import Packager.Proofs.LastNames
/-!
# Proofs.VolumeFiles — what file operations promise

`Disk.Files` says what a program may rely on when it writes and renames files: an operation that fails leaves all files
as they were but for the one that it writes, and a file that is renamed goes over another as a whole.  A place is the name
of an entry in a folder, so paths that end in different names lead to different places.  A volume keeps these promises as
long as all that it lists lies in folders (`Volume.Rooted`).
-/
namespace Packager

/-- The files behind a disk, and what its operations do to them.  There are no links: a file has one place, so that writing
it changes nothing elsewhere. -/
structure Disk.Files {σ : Type} (disk : Disk (StateM σ)) where
  /-- The states that the files can be in. -/
  Sound : σ → Prop
  /-- The name of an entry in a folder. -/
  Place : Type
  /-- Where a path leads.  Nothing need be there. -/
  place? : σ → Path → Option Place
  /-- What the file in a place holds, if there is a file. -/
  contents? : σ → Place → Option Bytes
  /-- Paths that end in different names lead to different places. -/
  named : ∀ {s p q x}, Sound s → p.endsInName = true → q.endsInName = true → place? s p = some x →
    place? s q = some x → p.parts.getLast? = q.parts.getLast?
  /-- A path that does not end in a name leads to no file. -/
  unnamed : ∀ {s p x}, Sound s → p.endsInName = false → place? s p = some x → contents? s x = none
  /-- Creating folders touches no file, and paths that led somewhere still lead there. -/
  createFolders : ∀ {s}, Sound s → ∀ path, let t := (disk.createFolders path s).2
    Sound t ∧ (∀ x, contents? t x = contents? s x) ∧ ∀ q x, place? s q = some x → place? t q = some x
  /-- Writing a file touches no other one, and the file that was written holds what was asked for. -/
  writeFile : ∀ {s}, Sound s → ∀ path content, let out := disk.writeFile path content s
    Sound out.2 ∧ (∀ q, place? out.2 q = place? s q) ∧
    (∀ x, place? s path ≠ some x → contents? out.2 x = contents? s x) ∧
    (out.1 = .ok () → ∃ x, place? s path = some x ∧ contents? out.2 x = some content)
  /-- Renaming a file replaces the target by it, or changes nothing. -/
  rename : ∀ {s source x content}, Sound s → place? s source = some x → contents? s x = some content →
    ∀ target, let out := disk.rename source target s
    Sound out.2 ∧ (∀ q, place? out.2 q = place? s q) ∧
    (out.1 ≠ .ok () → ∀ y, contents? out.2 y = contents? s y) ∧
    (out.1 = .ok () → ∃ y, place? s target = some y ∧ contents? out.2 y = some content ∧
      (x ≠ y → contents? out.2 x = none))

namespace Volume

variable {v u : Volume} {name n : List String}

/-! ## Entries -/

theorem lookup_nil (v : Volume) : v.lookup [] = some .folder := rfl

theorem lookup_of_ne_nil (h : n ≠ []) : v.lookup n = (v.entries.find? (·.1 == n)).map Prod.snd := by
  unfold lookup
  rw [if_neg (by simpa using h)]

theorem lookup_set (hname : name ≠ []) (entry : Entry) (n : List String) :
    (v.set name entry).lookup n = if n = name then some entry else v.lookup n := by
  by_cases hn : n = []
  · rw [hn, if_neg hname.symm, lookup_nil, lookup_nil]
  rw [lookup_of_ne_nil hn, lookup_of_ne_nil hn]
  unfold set
  by_cases hany : v.entries.any (·.1 == name) = true
  · -- entries are replaced where they are, so the same one is found
    let put (e : List String × Entry) : List String × Entry := if e.1 == name then (name, entry) else e
    have hput : (fun e : List String × Entry => e.1 == n) ∘ put = fun e => e.1 == n := by
      funext e
      show ((put e).1 == n) = (e.1 == n)
      by_cases he : e.1 = name <;> simp [put, he]
    rw [if_pos hany]
    show ((v.entries.map put).find? _).map Prod.snd = _
    rw [List.find?_map, hput]
    cases hfound : v.entries.find? (·.1 == n) with
    | none =>
      have hne : n ≠ name := fun he => by
        obtain ⟨e, hm, he'⟩ := List.any_eq_true.1 hany
        exact List.find?_eq_none.1 hfound e hm (by rwa [he])
      rw [if_neg hne]
      rfl
    | some e =>
      have he : e.1 = n := by simpa using List.find?_some hfound
      by_cases hname : n = name <;> simp [put, he, hname]
  · rw [if_neg hany]
    dsimp only
    rw [List.find?_append]
    by_cases he : n = name
    · have hnone : v.entries.find? (·.1 == n) = none := List.find?_eq_none.2 fun e hm hf =>
        hany (List.any_eq_true.2 ⟨e, hm, he ▸ hf⟩)
      rw [hnone, if_pos he, he]
      simp
    · have hne : name ≠ n := fun h => he h.symm
      simp [he, hne]

theorem lookup_remove (hname : name ≠ []) (n : List String) :
    (v.remove name).lookup n = if name <+: n then none else v.lookup n := by
  by_cases hn : n = []
  · rw [hn, if_neg (by simpa using hname), lookup_nil, lookup_nil]
  rw [lookup_of_ne_nil hn, lookup_of_ne_nil hn]
  unfold remove
  rw [List.find?_filter]
  by_cases hbelow : name <+: n
  · have hnone : v.entries.find? (fun e => decide ((!name.isPrefixOf e.1) = true ∧ (e.1 == n) = true)) = none := by
      refine List.find?_eq_none.2 fun e _ hf => ?_
      obtain ⟨hapart, he⟩ : name.isPrefixOf e.1 = false ∧ e.1 = n := by simpa using hf
      rw [he, List.isPrefixOf_iff_prefix.2 hbelow] at hapart
      cases hapart
    rw [if_pos hbelow, hnone]
    rfl
  · have hsame : (fun e : List String × Entry => decide ((!name.isPrefixOf e.1) = true ∧ (e.1 == n) = true)) =
        fun e => e.1 == n := by
      have hapart : name.isPrefixOf n = false := Bool.eq_false_iff.2 fun h => hbelow (List.isPrefixOf_iff_prefix.1 h)
      funext e
      by_cases he : e.1 = n <;> simp [he, hapart]
    rw [if_neg hbelow, hsame]

theorem isFolder_iff : v.isFolder n = true ↔ v.lookup n = some .folder := beq_iff_eq

/-! ## Paths -/

/-- Where a part of a path leads from a folder. -/
inductive Step (n : List String) : String → List String → Prop where
  | stay : Step n "." n
  | up : Step n ".." n.dropLast
  | down {part : String} (hdot : part ≠ ".") (hdots : part ≠ "..") (hshort : part.utf8ByteSize ≤ longestName) :
      Step n part (n ++ [part])

/-- **Walking on from a name** needs a folder there. -/
theorem walkParts_cons {part : String} {rest x : List String} : v.walkParts n (part :: rest) = .ok x ↔
    v.isFolder n = true ∧ ∃ y, Step n part y ∧ v.walkParts y rest = .ok x := by
  constructor
  · intro hx
    unfold walkParts at hx
    cases hentry : v.lookup n with
    | none =>
      rw [hentry] at hx
      cases hx
    | some entry =>
      rw [hentry] at hx
      cases entry with
      | file content => cases hx
      | folder =>
        refine ⟨isFolder_iff.2 hentry, ?_⟩
        dsimp only at hx
        split at hx
        · rename_i hdot
          exact ⟨n, beq_iff_eq.1 hdot ▸ .stay, hx⟩
        · rename_i hdot
          split at hx
          · rename_i hdots
            exact ⟨n.dropLast, beq_iff_eq.1 hdots ▸ .up, hx⟩
          · rename_i hdots
            split at hx
            · cases hx
            · rename_i hshort
              exact ⟨n ++ [part], .down (by simpa using hdot) (by simpa using hdots) (Nat.le_of_not_lt hshort), hx⟩
  · rintro ⟨hfolder, y, hstep, hx⟩
    unfold walkParts
    rw [isFolder_iff.1 hfolder]
    cases hstep with
    | stay => exact hx
    | up => exact hx
    | down hdot hdots hshort =>
      dsimp only
      rw [if_neg (by simpa using hdot), if_neg (by simpa using hdots), if_neg (Nat.not_lt_of_le hshort)]
      exact hx

/-- A path that can be walked can still be walked when there are more folders. -/
theorem walkParts_mono (h : ∀ n, v.isFolder n = true → u.isFolder n = true) : ∀ {parts : List String}
    {n x : List String}, v.walkParts n parts = .ok x → u.walkParts n parts = .ok x
  | [], _, _, hx => hx
  | _ :: _, n, _, hx => by
    obtain ⟨hfolder, y, hstep, hx⟩ := walkParts_cons.1 hx
    exact walkParts_cons.2 ⟨h n hfolder, y, hstep, walkParts_mono h hx⟩

/-- **The last part of a path** leads on from a folder. -/
theorem walkParts_concat {last : String} : ∀ {above : List String} {n x : List String},
    v.walkParts n (above ++ [last]) = .ok x → ∃ y, v.isFolder y = true ∧ Step y last x
  | [], n, x, hx => by
    obtain ⟨hfolder, y, hstep, hx⟩ := walkParts_cons.1 hx
    cases hx
    exact ⟨n, hfolder, hstep⟩
  | _ :: _, _, _, hx => by
    obtain ⟨-, y, -, hx⟩ := walkParts_cons.1 hx
    exact walkParts_concat hx

theorem resolve_eq_ok {p : Path} {x : List String} : v.resolve p = .ok x ↔
    p.text.toList.contains '\x00' = false ∧ p.text.isEmpty = false ∧ p.text.utf8ByteSize ≤ longestPath ∧
      v.walkParts (if p.isAbsolute then [] else v.working) p.steps = .ok x := by
  unfold resolve
  cases p.text.toList.contains '\x00' with
  | true => simp
  | false =>
    cases p.text.isEmpty with
    | true => simp
    | false =>
      by_cases hlong : longestPath < p.text.utf8ByteSize
      · simp [hlong, Nat.not_le_of_lt hlong]
      · simp [hlong, Nat.le_of_not_lt hlong]

theorem resolve_mono (hworking : u.working = v.working) (h : ∀ n, v.isFolder n = true → u.isFolder n = true) {p : Path}
    {x : List String} (hx : v.resolve p = .ok x) : u.resolve p = .ok x := by
  obtain ⟨hzero, hempty, hshort, hx⟩ := resolve_eq_ok.1 hx
  rw [← hworking] at hx
  exact resolve_eq_ok.2 ⟨hzero, hempty, hshort, walkParts_mono h hx⟩

/-- The name that a path leads to. -/
def place? (v : Volume) (p : Path) : Option (List String) := (v.resolve p).toOption

theorem place?_eq_some {p : Path} {x : List String} : v.place? p = some x ↔ v.resolve p = .ok x := by
  unfold place?
  cases v.resolve p with
  | error e => exact ⟨nofun, nofun⟩
  | ok y => exact ⟨fun h => congrArg _ (Option.some.inj h), fun h => by cases h; rfl⟩

/-! ## Volumes in order -/

/-- Whether all that a volume lists lies in folders, and the working folder is one. -/
structure Rooted (v : Volume) : Prop where
  working : v.isFolder v.working = true
  parents : ∀ n entry, v.lookup n = some entry → v.isFolder n.dropLast = true

theorem rooted_of_entries (hworking : v.isFolder v.working = true)
    (hentries : ∀ e ∈ v.entries, v.isFolder e.1.dropLast = true) : v.Rooted := by
  refine ⟨hworking, fun n entry hentry => ?_⟩
  by_cases hn : n = []
  · rw [hn]
    rfl
  · rw [lookup_of_ne_nil hn, Option.map_eq_some_iff] at hentry
    obtain ⟨e, he, -⟩ := hentry
    have hname : e.1 = n := by simpa using List.find?_some he
    exact hname ▸ hentries e (List.mem_of_find?_eq_some he)

theorem Rooted.step (h : v.Rooted) {y x : List String} {last : String} (hy : v.isFolder y = true)
    (hstep : Step y last x) : v.isFolder x.dropLast = true := by
  cases hstep with
  | stay => exact h.parents y _ (isFolder_iff.1 hy)
  | up => exact h.parents _ _ (isFolder_iff.1 (h.parents y _ (isFolder_iff.1 hy)))
  | down => rwa [List.dropLast_concat]

/-- **Where a path leads**: to where it starts, or a step from a folder. -/
theorem resolve_cases {p : Path} {x : List String} (hx : v.resolve p = .ok x) (h : v.Rooted) :
    (p.steps = [] ∧ v.isFolder x = true) ∨
      ∃ above last y, p.steps = above ++ [last] ∧ v.isFolder y = true ∧ Step y last x := by
  obtain ⟨-, -, -, hx⟩ := resolve_eq_ok.1 hx
  rcases List.eq_nil_or_concat p.steps with hsteps | ⟨above, last, hsteps⟩
  · rw [hsteps] at hx
    cases hx
    refine .inl ⟨hsteps, ?_⟩
    split
    · rfl
    · exact h.working
  · rw [List.concat_eq_append] at hsteps
    rw [hsteps] at hx
    obtain ⟨y, hy, hstep⟩ := walkParts_concat hx
    exact .inr ⟨above, last, y, hsteps, hy, hstep⟩

/-- What a path leads to lies in a folder. -/
theorem Rooted.parent (h : v.Rooted) {p : Path} {x : List String} (hx : v.resolve p = .ok x) :
    v.isFolder x.dropLast = true := by
  rcases resolve_cases hx h with ⟨-, hfolder⟩ | ⟨above, last, y, -, hy, hstep⟩
  · exact h.parents x _ (isFolder_iff.1 hfolder)
  · exact h.step hy hstep

/-- A path that ends in a name leads to that name. -/
theorem Rooted.named (h : v.Rooted) {p : Path} (hends : p.endsInName = true) {x : List String}
    (hx : v.resolve p = .ok x) : x.getLast? = p.parts.getLast? := by
  obtain ⟨above, name, hsteps, hdot, hdots, hpart⟩ := Path.exists_name hends
  rcases resolve_cases hx h with ⟨hnil, -⟩ | ⟨above', last, y, hsteps', hy, hstep⟩
  · simp [hsteps] at hnil
  · obtain ⟨-, rfl⟩ : above = above' ∧ name = last := by simpa [hsteps] using hsteps'
    rw [hpart]
    cases hstep with
    | stay => exact absurd rfl hdot
    | up => exact absurd rfl hdots
    | down => exact List.getLast?_concat

/-- A path that does not end in a name leads to a folder. -/
theorem Rooted.unnamed (h : v.Rooted) {p : Path} (hends : p.endsInName = false) {x : List String}
    (hx : v.resolve p = .ok x) : v.isFolder x = true := by
  rcases resolve_cases hx h with ⟨-, hfolder⟩ | ⟨above, last, y, hsteps, hy, hstep⟩
  · exact hfolder
  · unfold Path.endsInName at hends
    rw [hsteps, List.getLast?_concat] at hends
    cases hstep with
    | stay => exact hy
    | up => exact h.parents y _ (isFolder_iff.1 hy)
    | down hdot hdots => simp [hdot, hdots] at hends

/-- Nothing lies below a file. -/
theorem Rooted.lookup_below (h : v.Rooted) {content : Bytes} (hfile : v.lookup name = some (.file content)) :
    ∀ {n : List String}, name <+: n → n ≠ name → v.lookup n = none := by
  intro n
  induction n using List.reverseRecOn with
  | nil => exact fun hbelow hne => absurd (List.prefix_nil.1 hbelow).symm hne
  | append_singleton above part ih =>
    intro hbelow hne
    have habove : name <+: above := (List.prefix_concat_iff.1 hbelow).resolve_left fun he => hne he.symm
    refine Option.eq_none_iff_forall_ne_some.2 fun entry hentry => ?_
    have hfolder := h.parents _ entry hentry
    rw [List.dropLast_concat, isFolder_iff] at hfolder
    by_cases he : above = name
    · rw [he, hfile] at hfolder
      cases hfolder
    · rw [ih habove he] at hfolder
      cases hfolder

/-! ## What the operations do -/

/-- What the file of a name holds, if there is one. -/
def contents? (v : Volume) (name : List String) : Option Bytes :=
  match v.lookup name with
  | some (.file content) => some content
  | _ => none

theorem contents?_eq_some {content : Bytes} : v.contents? n = some content ↔ v.lookup n = some (.file content) := by
  unfold contents?
  split
  · rename_i h
    simp [h]
  · rename_i h
    exact ⟨nofun, fun hf => absurd hf (h content)⟩

theorem contents?_of_isFolder (h : v.isFolder n = true) : v.contents? n = none := by
  unfold contents?
  rw [isFolder_iff.1 h]

theorem ne_nil_of_not_isFolder (h : v.isFolder n = false) : n ≠ [] := by
  rintro rfl
  cases h

/-- Whether a volume has the folders and the files of another, and maybe more folders. -/
structure Grows (v u : Volume) : Prop where
  rooted : u.Rooted
  working : u.working = v.working
  contents : ∀ n, u.contents? n = v.contents? n
  folders : ∀ n, v.isFolder n = true → u.isFolder n = true

theorem Rooted.grows_refl (h : v.Rooted) : v.Grows v := ⟨h, rfl, fun _ => rfl, fun _ h => h⟩

theorem Grows.trans {t : Volume} (h : v.Grows u) (h' : u.Grows t) : v.Grows t :=
  ⟨h'.rooted, h'.working.trans h.working, fun n => (h'.contents n).trans (h.contents n),
    fun n hn => h'.folders n (h.folders n hn)⟩

theorem working_set (v : Volume) (name : List String) (entry : Entry) : (v.set name entry).working = v.working := by
  unfold set
  split <;> rfl

/-- A new folder in a folder. -/
theorem Rooted.grows_folder (h : v.Rooted) (hparent : v.isFolder name.dropLast = true) (hfree : v.lookup name = none) :
    v.Grows (v.set name .folder) := by
  have hname : name ≠ [] := fun he => by
    rw [he] at hfree
    cases hfree
  have hfolders : ∀ n, v.isFolder n = true → (v.set name .folder).isFolder n = true := by
    intro n hn
    rw [isFolder_iff, lookup_set hname]
    split
    · rfl
    · exact isFolder_iff.1 hn
  refine ⟨⟨?_, fun n entry hentry => ?_⟩, working_set v name _, fun n => ?_, hfolders⟩
  · rw [working_set]
    exact hfolders _ h.working
  · rw [lookup_set hname] at hentry
    split at hentry
    · rename_i he
      exact he ▸ hfolders _ hparent
    · exact hfolders _ (h.parents n entry hentry)
  · unfold contents?
    rw [lookup_set hname]
    by_cases he : n = name
    · rw [if_pos he, he, hfree]
    · rw [if_neg he]

theorem createFolder_grows (h : v.Rooted) (path : Path) : v.Grows (v.createFolder path).2 := by
  unfold createFolder
  cases hx : v.resolve path with
  | error e => exact h.grows_refl
  | ok name =>
    dsimp only
    cases hfree : v.lookup name with
    | some entry => exact h.grows_refl
    | none => exact h.grows_folder (h.parent hx) hfree

theorem createMissing_grows : ∀ (paths : List Path) {v : Volume}, v.Rooted →
    v.Grows (Disk.createMissing (m := StateM Volume) createFolder (fun path v => (v.leadsToFolder path, v)) paths v).2
  | [], _, h => h.grows_refl
  | path :: above, v, h => by
    have hfirst := createFolder_grows h path
    unfold Disk.createMissing
    simp only [StateM.bind_apply]
    cases (createFolder path v).1 with
    | ok => exact hfirst
    | error e =>
      dsimp only
      split
      · have habove := hfirst.trans (createMissing_grows above hfirst.rooted)
        simp only [StateM.bind_apply]
        generalize Disk.createMissing (m := StateM Volume) createFolder (fun path v => (v.leadsToFolder path, v)) above
          (createFolder path v).2 = out at habove ⊢
        cases out.1 with
        | error e => exact habove
        | ok =>
          have hagain := habove.trans (createFolder_grows habove.rooted path)
          simp only [StateM.bind_apply]
          cases (createFolder path out.2).1 with
          | ok => exact hagain
          | error e => exact hagain
      · exact hfirst

theorem createFolders_grows (h : v.Rooted) (path : Path) : v.Grows (v.createFolders path).2 :=
  createMissing_grows path.ancestors h

/-- Whether a volume has the folders of another. -/
structure SameFolders (v u : Volume) : Prop where
  rooted : u.Rooted
  working : u.working = v.working
  folders : ∀ n, u.isFolder n = v.isFolder n

theorem SameFolders.place? (h : v.SameFolders u) (p : Path) : u.place? p = v.place? p := by
  have hto : ∀ {x}, v.resolve p = .ok x → u.resolve p = .ok x := resolve_mono h.working fun n hn => (h.folders n).trans hn
  have hback : ∀ {x}, u.resolve p = .ok x → v.resolve p = .ok x :=
    resolve_mono h.working.symm fun n hn => (h.folders n).symm.trans hn
  refine Option.ext fun x => ?_
  rw [place?_eq_some, place?_eq_some]
  exact ⟨hback, hto⟩

/-- A file in a folder, in place of a file or of nothing. -/
theorem Rooted.sameFolders_file (h : v.Rooted) (hparent : v.isFolder name.dropLast = true)
    (hfree : v.isFolder name = false) (content : Bytes) : v.SameFolders (v.set name (.file content)) := by
  have hname := ne_nil_of_not_isFolder hfree
  have hfolders : ∀ n, (v.set name (.file content)).isFolder n = v.isFolder n := by
    intro n
    unfold isFolder
    rw [lookup_set hname]
    by_cases he : n = name
    · rw [if_pos he, he]
      exact hfree.symm
    · rw [if_neg he]
  refine ⟨⟨?_, fun n entry hentry => ?_⟩, working_set v name _, hfolders⟩
  · rw [working_set, hfolders]
    exact h.working
  · rw [hfolders]
    rw [lookup_set hname] at hentry
    split at hentry
    · rename_i he
      rwa [he]
    · exact h.parents n entry hentry

theorem contents?_set (hname : name ≠ []) (content : Bytes) (n : List String) :
    (v.set name (.file content)).contents? n = if n = name then some content else v.contents? n := by
  unfold contents?
  rw [lookup_set hname]
  by_cases he : n = name
  · rw [if_pos he, if_pos he]
  · rw [if_neg he, if_neg he]

theorem writeFile_cases (path : Path) (content : Bytes) (v : Volume) :
    (∃ e, v.writeFile path content = (.error e, v)) ∨
      ∃ name, v.resolve path = .ok name ∧ v.isFolder name = false ∧
        v.writeFile path content = (.ok (), v.set name (.file content)) := by
  unfold writeFile
  cases v.resolve path with
  | error e => exact .inl ⟨e, rfl⟩
  | ok name =>
    dsimp only
    split
    · exact .inl ⟨_, rfl⟩
    · rename_i hfree
      rw [Bool.or_eq_true, not_or] at hfree
      exact .inr ⟨name, rfl, Bool.eq_false_iff.2 hfree.2, rfl⟩

/-- A file that is renamed goes over a file, or over nothing. -/
theorem rename_cases (source target : Path) (v : Volume) :
    (∃ e, v.rename source target = (.error e, v)) ∨
      ∃ old new entry, v.resolve source = .ok old ∧ v.resolve target = .ok new ∧ v.lookup old = some entry ∧
        v.isFolder new = false ∧
        v.rename source target = (.ok (), if old = new then v else (v.remove old).set new entry) := by
  unfold rename
  cases v.resolve source with
  | error e => exact .inl ⟨e, rfl⟩
  | ok old =>
    cases v.resolve target with
    | error e => exact .inl ⟨e, rfl⟩
    | ok new =>
      dsimp only
      split
      · exact .inl ⟨_, rfl⟩
      · cases hentry : v.lookup old with
        | none => exact .inl ⟨_, rfl⟩
        | some entry =>
          dsimp only
          split
          · exact .inl ⟨_, rfl⟩
          · split
            · exact .inl ⟨_, rfl⟩
            · rename_i hfree
              exact .inr ⟨old, new, entry, rfl, rfl, hentry, Bool.eq_false_iff.2 hfree, rfl⟩

/-- Removing a file removes nothing else. -/
theorem Rooted.lookup_remove_file (h : v.Rooted) {content : Bytes} (hfile : v.lookup name = some (.file content))
    (n : List String) : (v.remove name).lookup n = if n = name then none else v.lookup n := by
  have hname : name ≠ [] := fun he => by
    rw [he, lookup_nil] at hfile
    cases hfile
  rw [lookup_remove hname]
  by_cases he : n = name
  · rw [if_pos (he ▸ List.prefix_refl _), if_pos he]
  · rw [if_neg he]
    split
    · exact (h.lookup_below hfile ‹_› he).symm
    · rfl

theorem Rooted.sameFolders_remove (h : v.Rooted) {content : Bytes} (hfile : v.lookup name = some (.file content)) :
    v.SameFolders (v.remove name) := by
  have hfolders : ∀ n, (v.remove name).isFolder n = v.isFolder n := by
    intro n
    unfold isFolder
    rw [h.lookup_remove_file hfile]
    by_cases he : n = name
    · rw [if_pos he, he, hfile]
      rfl
    · rw [if_neg he]
  refine ⟨⟨(hfolders _).trans h.working, fun n entry hentry => ?_⟩, rfl, hfolders⟩
  rw [h.lookup_remove_file hfile] at hentry
  split at hentry
  · cases hentry
  · rw [hfolders]
    exact h.parents n entry hentry

theorem Rooted.contents?_remove (h : v.Rooted) {content : Bytes} (hfile : v.lookup name = some (.file content))
    (n : List String) : (v.remove name).contents? n = if n = name then none else v.contents? n := by
  unfold contents?
  rw [h.lookup_remove_file hfile]
  by_cases he : n = name
  · rw [if_pos he, if_pos he]
  · rw [if_neg he, if_neg he]

theorem SameFolders.trans {t : Volume} (h : v.SameFolders u) (h' : u.SameFolders t) : v.SameFolders t :=
  ⟨h'.rooted, h'.working.trans h.working, fun n => (h'.folders n).trans (h.folders n)⟩

/-- **Writing a file** touches no other one. -/
theorem Rooted.writeFile_keeps (h : v.Rooted) (path : Path) (content : Bytes) :
    let out := v.writeFile path content
    out.2.Rooted ∧ (∀ q, out.2.place? q = v.place? q) ∧
      (∀ x, v.place? path ≠ some x → out.2.contents? x = v.contents? x) ∧
      (out.1 = .ok () → ∃ x, v.place? path = some x ∧ out.2.contents? x = some content) := by
  rcases v.writeFile_cases path content with ⟨e, he⟩ | ⟨name, hx, hfree, he⟩
  · rw [he]
    exact ⟨h, fun _ => rfl, fun _ _ => rfl, nofun⟩
  · have hname := ne_nil_of_not_isFolder hfree
    have hsame := h.sameFolders_file (h.parent hx) hfree content
    have hplace : v.place? path = some name := place?_eq_some.2 hx
    rw [he]
    refine ⟨hsame.rooted, hsame.place?, fun x hother => ?_, fun _ => ⟨name, hplace, ?_⟩⟩
    · have hne : x ≠ name := fun hxe => hother (hxe ▸ hplace)
      rw [contents?_set hname, if_neg hne]
    · rw [contents?_set hname, if_pos rfl]

/-- **Renaming a file** puts it in place of the target, or changes nothing. -/
theorem Rooted.rename_keeps (h : v.Rooted) {source : Path} {x : List String} {content : Bytes} (hx : v.place? source = some x)
    (hcontent : v.contents? x = some content) (target : Path) :
    let out := v.rename source target
    out.2.Rooted ∧ (∀ q, out.2.place? q = v.place? q) ∧
      (out.1 ≠ .ok () → ∀ y, out.2.contents? y = v.contents? y) ∧
      (out.1 = .ok () → ∃ y, v.place? target = some y ∧ out.2.contents? y = some content ∧
        (x ≠ y → out.2.contents? x = none)) := by
  rcases v.rename_cases source target with ⟨e, he⟩ | ⟨old, new, entry, hsource, htarget, hentry, hfree, he⟩
  · rw [he]
    exact ⟨h, fun _ => rfl, fun _ _ => rfl, nofun⟩
  · obtain rfl : old = x := by simpa [place?_eq_some.2 hsource] using hx
    have hfile := contents?_eq_some.1 hcontent
    obtain rfl : Entry.file content = entry := Option.some.inj (hfile.symm.trans hentry)
    have hplace : v.place? target = some new := place?_eq_some.2 htarget
    rw [he]
    by_cases hstays : old = new
    · rw [if_pos hstays]
      exact ⟨h, fun _ => rfl, fun _ _ => rfl, fun _ => ⟨new, hplace, hstays ▸ hcontent, fun hne => absurd hstays hne⟩⟩
    · have hremoved := h.sameFolders_remove hfile
      have hname := ne_nil_of_not_isFolder hfree
      have hmoved := hremoved.trans (hremoved.rooted.sameFolders_file
        ((hremoved.folders _).trans (h.parent htarget)) ((hremoved.folders _).trans hfree) content)
      rw [if_neg hstays]
      refine ⟨hmoved.rooted, hmoved.place?, fun hne => absurd rfl hne, fun _ => ⟨new, hplace, ?_, fun _ => ?_⟩⟩
      · rw [contents?_set hname, if_pos rfl]
      · rw [contents?_set hname, if_neg hstays, h.contents?_remove hfile, if_pos rfl]

end Volume

/-- **A volume keeps the promises** as long as it is in order. -/
def Disk.volumeFiles : Disk.ofVolume.Files where
  Sound := Volume.Rooted
  Place := List String
  place? := Volume.place?
  contents? := Volume.contents?
  named h hp hq hx hy := by
    rw [← h.named hp (Volume.place?_eq_some.1 hx), ← h.named hq (Volume.place?_eq_some.1 hy)]
  unnamed h hp hx := Volume.contents?_of_isFolder (h.unnamed hp (Volume.place?_eq_some.1 hx))
  createFolders h path :=
    have hgrows := Volume.createFolders_grows h path
    ⟨hgrows.rooted, hgrows.contents, fun _ _ hx =>
      Volume.place?_eq_some.2 (Volume.resolve_mono hgrows.working hgrows.folders (Volume.place?_eq_some.1 hx))⟩
  writeFile h := h.writeFile_keeps
  rename h := h.rename_keeps

end Packager
