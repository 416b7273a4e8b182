import Packager.Proofs.FileNames
import Packager.Publisher.Live
/-!
# Proofs.OutputFiles — where the files of a publisher lie

A name without separators that is joined to a folder is one part of the path below it (`Path.parts_join`).  A publisher's
files have such names, and each of these can be read from its end: the extension, then the numbers and the word up to the
base name, which may hold anything a base name can (`OutputFile.name_inj`).  So no two of the files lie in one place,
whatever the base names are (`files_apart`).  The temporary file of the manifest is named after the manifest with one more
extension, except under the base name of a single point: there the old extension is cut off first, and what is left leads
to the folder above.
-/
namespace Packager

/-! ## One name below a folder -/

/-- Where the items of a kind end, reading stops. -/
theorem span_of_stop {α : Type} {q : α → Bool} {x y : List α} (hx : ∀ a ∈ x, q a = true)
    (hy : ∀ a ∈ y.head?, q a = false) : (x ++ y).takeWhile q = x ∧ (x ++ y).dropWhile q = y := by
  rw [List.takeWhile_append_of_pos hx, List.dropWhile_append_of_pos hx]
  cases y with
  | nil => simp
  | cons a y => simp [hy a rfl]

/-- Two texts are cut alike at the last separator. -/
theorem cons_append_cancel {a : Char} {x y u v : List Char} (hu : a ∉ u) (hv : a ∉ v) (h : x ++ a :: u = y ++ a :: v) :
    x = y ∧ u = v := by
  have hreverse := congrArg List.reverse h
  simp only [List.reverse_append, List.reverse_cons, List.append_assoc, List.singleton_append] at hreverse
  obtain ⟨hlast, hfront⟩ := append_cons_cancel (by simpa using hu) (by simpa using hv) hreverse
  exact ⟨List.reverse_inj.1 hfront, List.reverse_inj.1 hlast⟩

namespace Path

/-- The text that stands before a name that is joined to a folder. -/
def lead (folder : Path) : List Char :=
  if folder.text.isEmpty || folder.endsInSeparator then folder.text.toList else folder.text.toList ++ ['/']

theorem lead_cases (folder : Path) :
    (folder.lead = [] ∧ folder.text.toList = []) ∨
    ∃ above, folder.lead = above ++ ['/'] ∧
      (folder.text.toList = above ++ ['/'] ∨ folder.text.toList = above ∧ above ≠ []) := by
  unfold lead
  cases hempty : folder.text.isEmpty with
  | true =>
    have htext : folder.text.toList = [] := by simpa using hempty
    exact .inl ⟨htext, htext⟩
  | false =>
    cases hend : folder.endsInSeparator with
    | true =>
      obtain ⟨above, htext⟩ := List.getLast?_eq_some_iff.1 (show folder.text.toList.getLast? = some '/' by
        simpa [endsInSeparator] using hend)
      exact .inr ⟨above, htext, .inl htext⟩
    | false => exact .inr ⟨folder.text.toList, rfl, .inr ⟨rfl, by simpa using hempty⟩⟩

theorem eq_of_toList {p q : Path} (h : p.text.toList = q.text.toList) : p = q := by
  cases p
  cases q
  exact congrArg Path.mk (String.toList_inj.1 h)

theorem not_isAbsolute {name : String} (h : '/' ∉ name.toList) : (Path.mk name).isAbsolute = false := by
  unfold isAbsolute
  rw [beq_eq_false_iff_ne]
  exact fun hh => h (List.mem_of_head? hh)

theorem toList_join (folder : Path) {name : String} (h : '/' ∉ name.toList) :
    (folder.join name).text.toList = folder.lead ++ name.toList := by
  unfold join lead
  rw [not_isAbsolute h, if_neg Bool.false_ne_true]
  split
  · exact String.toList_append
  · simp [String.toList_append]

theorem splitParts_of_not_mem : ∀ {l : List Char} (current : List Char), '/' ∉ l →
    splitParts current l = [String.ofList (current.reverse ++ l)]
  | [], current, _ => by rw [splitParts, List.append_nil]
  | c :: l, current, h => by
    have hc : ¬c = '/' := fun hc => h (hc ▸ List.mem_cons_self)
    rw [splitParts, if_neg hc, splitParts_of_not_mem (c :: current) fun hm => h (List.mem_cons_of_mem c hm)]
    simp

theorem splitParts_append (r : List Char) : ∀ (l current : List Char),
    splitParts current (l ++ '/' :: r) = splitParts current l ++ splitParts [] r
  | [], _ => rfl
  | c :: l, current => by
    rw [List.cons_append, splitParts, splitParts]
    split
    · rw [splitParts_append r l [], List.cons_append]
    · exact splitParts_append r l (c :: current)

theorem steps_join (folder : Path) {name : String} (h : '/' ∉ name.toList) (hne : name ≠ "") :
    (folder.join name).steps = folder.steps ++ [name] := by
  have hname : splitParts [] name.toList = [name] := by
    rw [splitParts_of_not_mem [] h]
    simp
  unfold steps
  rw [toList_join folder h]
  rcases folder.lead_cases with ⟨hlead, htext⟩ | ⟨above, hlead, htext⟩
  · rw [hlead, htext, List.nil_append, hname]
    simp [splitParts, hne]
  · rw [hlead, List.append_assoc, List.singleton_append, splitParts_append, hname, List.filter_append]
    rcases htext with htext | ⟨htext, -⟩
    · rw [htext, splitParts_append]
      simp [splitParts, hne]
    · simp [htext, hne]

/-- **A name without separators is one part below the folder.** -/
theorem parts_join (folder : Path) {name : String} (h : '/' ∉ name.toList) (hne : name ≠ "") (hdot : name ≠ ".") :
    (folder.join name).parts = folder.parts ++ [name] := by
  unfold parts
  rw [steps_join folder h hne, List.filter_append]
  simp [hdot]

theorem isAbsolute_join (folder : Path) {name : String} (h : '/' ∉ name.toList) :
    (folder.join name).isAbsolute = folder.isAbsolute := by
  unfold isAbsolute
  rw [toList_join folder h]
  rcases folder.lead_cases with ⟨hlead, htext⟩ | ⟨above, hlead, htext⟩
  · have hhead : name.toList.head? ≠ some '/' := fun hh => h (List.mem_of_head? hh)
    rw [hlead, htext]
    simpa using hhead
  · rw [hlead]
    rcases htext with htext | ⟨htext, hne⟩ <;> rw [htext] <;> cases above with
    | nil => first | rfl | exact absurd rfl hne
    | cons c above => rfl

/-- Whether a path is that of an entry of a folder: it leads one part further, and not to the folder above. -/
structure EntryOf (folder : Path) (name : String) (p : Path) : Prop where
  parts : p.parts = folder.parts ++ [name]
  absolute : p.isAbsolute = folder.isAbsolute
  named : name ≠ ".."

/-! ### The extension of a name -/

/-- Text that ends neither in a separator nor in a single point has nothing to trim. -/
theorem trimEnd_eq_self {c : Char} {cs : List Char} (hc : c ≠ '/') (hdot : c = '.' → cs.head? ≠ some '/') :
    trimEnd (c :: cs) = c :: cs := by
  unfold trimEnd
  split
  · rename_i h
    cases h
    exact absurd rfl hc
  · rename_i h
    cases h
    exact absurd rfl (hdot rfl)
  · rfl

/-- The last name of a path is what follows the folder. -/
theorem splitName_eq {p folder : Path} {name : List Char} {c : Char} (hp : p.text.toList = folder.lead ++ (name ++ [c]))
    (hname : '/' ∉ name) (hc : c ≠ '/') (hdot : c = '.' → name ≠ []) : p.splitName = (folder.lead, name ++ [c]) := by
  have hreverse : p.text.toList.reverse = (c :: name.reverse) ++ folder.lead.reverse := by
    rw [hp]
    simp
  have hall : ∀ d ∈ c :: name.reverse, (d != '/') = true := by
    intro d hd
    rcases List.mem_cons.1 hd with rfl | hd
    · simpa using hc
    · have hne : d ≠ '/' := fun he => hname (he ▸ List.mem_reverse.1 hd)
      simpa using hne
  have htrim : trimEnd p.text.toList.reverse = (c :: name.reverse) ++ folder.lead.reverse := by
    rw [hreverse, List.cons_append]
    refine trimEnd_eq_self hc fun hd => ?_
    obtain ⟨d, rest, hrest⟩ := List.exists_cons_of_ne_nil (List.reverse_ne_nil_iff.2 (hdot hd))
    have hne := hall d (List.mem_cons_of_mem c (by rw [hrest]; exact List.mem_cons_self))
    rw [hrest]
    simpa using hne
  have hstop : ∀ d ∈ folder.lead.reverse.head?, (d != '/') = false := by
    rcases folder.lead_cases with ⟨hlead, -⟩ | ⟨above, hlead, -⟩ <;> rw [hlead] <;> simp
  obtain ⟨htake, hdrop⟩ := span_of_stop hall hstop
  unfold splitName
  simp only [htrim, htake, hdrop]
  simp

theorem splitExtension_eq {stem extension : List Char} (hstem : stem ≠ []) (hdot : '.' ∉ extension)
    (hname : stem ++ '.' :: extension ≠ ['.', '.']) : splitExtension (stem ++ '.' :: extension) = (stem, extension) := by
  have hall : ∀ c ∈ extension.reverse, (c != '.') = true := fun c hc => by
    have hne : c ≠ '.' := fun he => hdot (he ▸ List.mem_reverse.1 hc)
    simpa using hne
  have hreverse : (stem ++ '.' :: extension).reverse = extension.reverse ++ '.' :: stem.reverse := by simp
  have htail : (stem ++ '.' :: extension).reverse.takeWhile (· != '.') = extension.reverse := by
    rw [hreverse]
    exact (span_of_stop hall (by simp)).1
  have hfront : (stem ++ '.' :: extension).take ((stem ++ '.' :: extension).length - extension.reverse.length - 1) =
      stem := by
    refine List.take_left' ?_
    simp only [List.length_append, List.length_cons, List.length_reverse]
    omega
  have hlt : extension.reverse.length < (stem ++ '.' :: extension).length := by
    simp only [List.length_append, List.length_cons, List.length_reverse]
    omega
  unfold splitExtension
  simp only [htail, hfront]
  rw [if_pos ⟨hlt, hstem, hname⟩, List.reverse_reverse]

/-- **A last extension is replaced**, unless the name before it is a single point: then nothing but the folder above is
left. -/
theorem withExtension_join (folder : Path) {name : String} (h : '/' ∉ name.toList) (hne : name ≠ "")
    {extension : String} (hextension : '/' ∉ extension.toList) : (folder.join (name ++ ".mpd")).withExtension extension =
    if name = "." then folder.join ".." else folder.join (name ++ "." ++ extension) := by
  have hnil : name.toList ≠ [] := by simpa using hne
  have htext : (folder.join (name ++ ".mpd")).text.toList = folder.lead ++ (name.toList ++ ".mp".toList ++ ['d']) := by
    rw [toList_join folder (by simp [h])]
    simp
  have hcut : (folder.join (name ++ ".mpd")).cutExtension = ⟨String.ofList (folder.lead ++ (name.toList ++ ['.']))⟩ := by
    have hsplit := splitName_eq htext (by simp [h]) (by decide) fun hd => absurd hd (by decide)
    have hextension : splitExtension (name.toList ++ ".mp".toList ++ ['d']) = (name.toList, "mpd".toList) := by
      have he : name.toList ++ ".mp".toList ++ ['d'] = name.toList ++ '.' :: "mpd".toList := by simp
      rw [he]
      refine splitExtension_eq hnil (by decide) fun h => ?_
      have hlen := congrArg List.length h
      simp at hlen
    have he : folder.lead ++ (name.toList ++ ".mp".toList ++ ['d']) =
        (folder.lead ++ (name.toList ++ ['.'])) ++ "mpd".toList := by simp
    unfold cutExtension
    simp only [hsplit, hextension, htext]
    rw [he, List.length_append, Nat.add_sub_cancel, List.take_left]
  have hpointed : (⟨String.ofList (folder.lead ++ (name.toList ++ ['.']))⟩ : Path).text.toList =
      folder.lead ++ (name.toList ++ ['.']) := String.toList_ofList ..
  have hsplit := splitName_eq hpointed h (by decide) fun _ => hnil
  unfold withExtension
  simp only [hcut, hsplit]
  by_cases hpoint : name = "."
  · rw [if_pos hpoint, if_pos (by rw [hpoint]; decide)]
    refine eq_of_toList ?_
    rw [toList_join folder (by decide), hpoint]
    simp
  · have hstem : name.toList ++ '.' :: [] ≠ ['.', '.'] := fun hdots => by
      have hdots : name.toList ++ ['.'] = ".".toList ++ ['.'] := hdots
      exact hpoint (String.toList_inj.1 (List.append_cancel_right hdots))
    rw [if_neg hpoint, if_neg (by simpa [hnil] using hstem), splitExtension_eq hnil List.not_mem_nil hstem]
    refine eq_of_toList ?_
    rw [toList_join folder (by simp [h, hextension])]
    simp

end Path

/-! ## The names of the files -/

namespace Settings

/-- **A base name is any text of ASCII letters, digits, underscores, points and hyphens**, but for the empty one. -/
theorem checkBaseName_eq_ok (name : String) : checkBaseName name = .ok () ↔
    name ≠ "" ∧ ∀ c ∈ name.toList, 'A' ≤ c ∧ c ≤ 'Z' ∨ 'a' ≤ c ∧ c ≤ 'z' ∨ '0' ≤ c ∧ c ≤ '9' ∨ c = '_' ∨ c = '.' ∨
      c = '-' := by
  have hchar (c : Char) : isNameChar c = true ↔ 'A' ≤ c ∧ c ≤ 'Z' ∨ 'a' ≤ c ∧ c ≤ 'z' ∨ '0' ≤ c ∧ c ≤ '9' ∨ c = '_' ∨
      c = '.' ∨ c = '-' := by
    show (decide ('A' ≤ c ∧ c ≤ 'Z') || decide ('a' ≤ c) && decide (c ≤ 'z') ||
      decide ('0' ≤ c) && decide (c ≤ '9') || c == '_' || c == '.' || c == '-') = true ↔ _
    simp only [Bool.or_eq_true, Bool.and_eq_true, decide_eq_true_eq, beq_iff_eq, or_assoc]
  unfold checkBaseName
  split
  · rename_i h
    have h := h
    rw [isBaseName, Bool.and_eq_true, List.all_eq_true] at h
    exact ⟨fun _ => ⟨by simpa using h.1, fun c hc => (hchar c).1 (h.2 c hc)⟩, fun _ => rfl⟩
  · rename_i h
    refine ⟨nofun, fun ⟨hne, hall⟩ => absurd ?_ h⟩
    rw [isBaseName, Bool.and_eq_true, List.all_eq_true]
    exact ⟨by simpa using hne, fun c hc => (hchar c).2 (hall c hc)⟩

theorem slash_not_mem_of_checkBaseName {name : String} (h : checkBaseName name = .ok ()) : '/' ∉ name.toList :=
  fun hm => absurd (((checkBaseName_eq_ok name).1 h).2 '/' hm) (by decide)

end Settings

/-- A file that a publisher writes: a media segment or an initialization segment of a track, the manifest, or what the
manifest is written to before it takes its place. -/
inductive OutputFile where
  | segment (track : TrackId) (timestamp : Nat) (kind : Kind)
  | header (track : TrackId) (kind : Kind)
  | manifest
  | temporary
  deriving DecidableEq

namespace OutputFile

/-- The name under a base name. -/
def name (base : String) : OutputFile → String
  | segment track timestamp kind =>
    Naming.segmentName base (toString track) (toString timestamp) (Naming.fileExtension kind)
  | header track kind => Naming.headerName base (toString track) (Naming.fileExtension kind)
  | manifest => base ++ ".mpd"
  | temporary => base ++ ".mpd.tmp"

/-- Where the file of a publisher lies. -/
def path (s : Settings) : OutputFile → Path
  | segment track timestamp kind =>
    Naming.segmentPath s.folder s.baseName track timestamp (Naming.fileExtension kind)
  | header track kind => Naming.headerPath s.folder s.baseName track (Naming.fileExtension kind)
  | manifest => s.manifestPath
  | temporary => s.manifestPath.withExtension "mpd.tmp"

/-- What stands behind the last point of a name. -/
def ending : OutputFile → List Char
  | segment _ _ kind | header _ kind => (Naming.fileExtension kind).toList
  | manifest => "mpd".toList
  | temporary => "tmp".toList

/-- What stands before the last point. -/
def stem (base : String) : OutputFile → List Char
  | segment track timestamp _ => base.toList ++ '_' :: ((toString track).toList ++ '_' :: (toString timestamp).toList)
  | header track _ => base.toList ++ '_' :: ((toString track).toList ++ '_' :: "init".toList)
  | manifest => base.toList
  | temporary => base.toList ++ ".mpd".toList

theorem toList_name (base : String) (f : OutputFile) : (f.name base).toList = f.stem base ++ '.' :: f.ending := by
  cases f with
  | segment track timestamp kind => simp [name, stem, ending, Naming.toList_segmentName]
  | header track kind => simp [name, stem, ending, Naming.toList_headerName]
  | manifest => simp [name, stem, ending]
  | temporary => simp [name, stem, ending]

theorem dot_not_mem_ending (f : OutputFile) : '.' ∉ f.ending := by
  cases f with
  | segment _ _ kind => exact fun h => Naming.dot_not_mem_fileExtension kind (List.mem_reverse.2 h)
  | header _ kind => exact fun h => Naming.dot_not_mem_fileExtension kind (List.mem_reverse.2 h)
  | manifest => decide
  | temporary => decide

theorem ending_of_track (kind : Kind) :
    (Naming.fileExtension kind).toList ≠ "mpd".toList ∧ (Naming.fileExtension kind).toList ≠ "tmp".toList := by
  cases kind <;> decide

/-- The base name is what stands before the last two underscores. -/
theorem fields_cancel {base base' track track' last last' : List Char} (ht : '_' ∉ track) (ht' : '_' ∉ track')
    (hl : '_' ∉ last) (hl' : '_' ∉ last')
    (h : base ++ '_' :: (track ++ '_' :: last) = base' ++ '_' :: (track' ++ '_' :: last')) :
    base = base' ∧ track = track' ∧ last = last' := by
  have h : (base ++ '_' :: track) ++ '_' :: last = (base' ++ '_' :: track') ++ '_' :: last' := by simpa using h
  obtain ⟨hfront, hlast⟩ := cons_append_cancel hl hl' h
  obtain ⟨hbase, htrack⟩ := cons_append_cancel ht ht' hfront
  exact ⟨hbase, htrack, hlast⟩

/-- **A name tells its base name and its file**, whatever the base names hold. -/
theorem name_inj {base base' : String} {f f' : OutputFile} (h : f.name base = f'.name base') : base = base' ∧ f = f' := by
  have hdigits (n : Nat) : '_' ∉ (toString n).toList := not_mem_toString (by decide)
  have hinit : '_' ∉ "init".toList := by decide
  have hlist := congrArg String.toList h
  rw [toList_name, toList_name] at hlist
  -- the last point first: the ending tells the sort of file, but for the two files of a track
  obtain ⟨hstem, hending⟩ := cons_append_cancel (dot_not_mem_ending f) (dot_not_mem_ending f') hlist
  cases f <;> cases f'
  case segment.segment track timestamp kind track' timestamp' kind' =>
    obtain ⟨hbase, htrack, htime⟩ := fields_cancel (hdigits _) (hdigits _) (hdigits _) (hdigits _) hstem
    rw [String.toList_inj.1 hbase, toString_inj (String.toList_inj.1 htrack), toString_inj (String.toList_inj.1 htime),
      Naming.fileExtension_inj (String.toList_inj.1 hending)]
    exact ⟨rfl, rfl⟩
  case header.header track kind track' kind' =>
    obtain ⟨hbase, htrack, -⟩ := fields_cancel (hdigits _) (hdigits _) hinit hinit hstem
    rw [String.toList_inj.1 hbase, toString_inj (String.toList_inj.1 htrack),
      Naming.fileExtension_inj (String.toList_inj.1 hending)]
    exact ⟨rfl, rfl⟩
  case segment.header track timestamp kind track' kind' =>
    obtain ⟨-, -, htime⟩ := fields_cancel (hdigits _) (hdigits _) (hdigits _) hinit hstem
    exact absurd (htime ▸ by decide : 'i' ∈ (toString timestamp).toList) (not_mem_toString (by decide))
  case header.segment track kind track' timestamp kind' =>
    obtain ⟨-, -, htime⟩ := fields_cancel (hdigits _) (hdigits _) hinit (hdigits _) hstem
    exact absurd (htime ▸ by decide : 'i' ∈ (toString timestamp).toList) (not_mem_toString (by decide))
  case manifest.manifest => exact ⟨String.toList_inj.1 hstem, rfl⟩
  case temporary.temporary => exact ⟨String.toList_inj.1 (List.append_cancel_right hstem), rfl⟩
  case segment.manifest | header.manifest => exact absurd hending (ending_of_track _).1
  case segment.temporary | header.temporary => exact absurd hending (ending_of_track _).2
  case manifest.segment | manifest.header => exact absurd hending.symm (ending_of_track _).1
  case temporary.segment | temporary.header => exact absurd hending.symm (ending_of_track _).2
  case manifest.temporary | temporary.manifest => exact absurd hending (by decide)

/-! ## The places of the files -/

theorem slash_not_mem_name {base : String} (h : '/' ∉ base.toList) (f : OutputFile) : '/' ∉ (f.name base).toList := by
  have hdigits (n : Nat) : '/' ∉ Nat.toDigits 10 n := toList_toString n ▸ not_mem_toString (by decide)
  have hkind (kind : Kind) : '/' ∉ (Naming.fileExtension kind).toList := by cases kind <;> decide
  rw [toList_name]
  cases f <;> simp [stem, ending, h, hdigits, hkind]

theorem length_ending (f : OutputFile) : f.ending.length = 3 := by
  cases f with
  | segment _ _ kind => cases kind <;> rfl
  | header _ kind => cases kind <;> rfl
  | manifest => rfl
  | temporary => rfl

/-- A name is longer than the ways to say where one is. -/
theorem name_ne (base : String) (f : OutputFile) : f.name base ≠ "" ∧ f.name base ≠ "." ∧ f.name base ≠ ".." := by
  have hlength : 4 ≤ (f.name base).toList.length := by
    rw [toList_name, List.length_append, List.length_cons, length_ending]
    omega
  refine ⟨?_, ?_, ?_⟩ <;> intro h <;> rw [h] at hlength <;> exact absurd hlength (by decide)

/-- The entry of the folder that a file is written to: the one of its name, but for the temporary file under the base
name of a single point. -/
def entry (base : String) (f : OutputFile) : String := if f = temporary ∧ base = "." then ".." else f.name base

theorem slash_not_mem_entry {base : String} (h : '/' ∉ base.toList) (f : OutputFile) : '/' ∉ (f.entry base).toList := by
  unfold entry
  split
  · decide
  · exact slash_not_mem_name h f

theorem entry_ne (base : String) (f : OutputFile) : f.entry base ≠ "" ∧ f.entry base ≠ "." := by
  unfold entry
  split
  · decide
  · exact ⟨(name_ne base f).1, (name_ne base f).2.1⟩

theorem entry_inj {base base' : String} {f f' : OutputFile} (h : f.entry base = f'.entry base') :
    base = base' ∧ f = f' := by
  unfold entry at h
  split at h <;> split at h
  · rename_i hpoint hpoint'
    exact ⟨hpoint.2.trans hpoint'.2.symm, hpoint.1.trans hpoint'.1.symm⟩
  · exact absurd h.symm (name_ne base' f').2.2
  · exact absurd h (name_ne base f).2.2
  · exact name_inj h

theorem path_eq {s : Settings} (h : Settings.checkBaseName s.baseName = .ok ()) (f : OutputFile) :
    f.path s = s.folder.join (f.entry s.baseName) := by
  have hslash := Settings.slash_not_mem_of_checkBaseName h
  have hne := ((Settings.checkBaseName_eq_ok _).1 h).1
  cases f with
  | segment track timestamp kind => simp [path, entry, name, Naming.segmentPath]
  | header track kind => simp [path, entry, name, Naming.headerPath]
  | manifest => simp [path, entry, name, Settings.manifestPath]
  | temporary =>
    have he : s.baseName ++ "." ++ "mpd.tmp" = s.baseName ++ ".mpd.tmp" := String.append_assoc
    unfold path Settings.manifestPath
    rw [Path.withExtension_join s.folder hslash hne (by decide), he, ← apply_ite s.folder.join]
    simp [entry, name]

theorem parts_path {s : Settings} (h : Settings.checkBaseName s.baseName = .ok ()) (f : OutputFile) :
    (f.path s).parts = s.folder.parts ++ [f.entry s.baseName] := by
  rw [path_eq h]
  exact s.folder.parts_join (slash_not_mem_entry (Settings.slash_not_mem_of_checkBaseName h) f) (entry_ne _ f).1
    (entry_ne _ f).2

/-- **No two files of publishers lie in one place.**  Whatever base names are accepted, a file's name tells the base name
and the file, and so does its path.  Each file is the entry of that name in the folder, and no other file; only the
temporary file under the base name of a single point is looked for in the place of the folder above. -/
theorem files_apart {s s' : Settings} (h : Settings.checkBaseName s.baseName = .ok ())
    (h' : Settings.checkBaseName s'.baseName = .ok ()) (f f' : OutputFile) :
    (∀ base, Settings.checkBaseName base = .ok () ↔
      base ≠ "" ∧ ∀ c ∈ base.toList, 'A' ≤ c ∧ c ≤ 'Z' ∨ 'a' ≤ c ∧ c ≤ 'z' ∨ '0' ≤ c ∧ c ≤ '9' ∨ c = '_' ∨ c = '.' ∨
        c = '-') ∧
    (f.name s.baseName = f'.name s'.baseName → s.baseName = s'.baseName ∧ f = f') ∧
    ((f.path s).parts = (f'.path s').parts → s.baseName = s'.baseName ∧ f = f') ∧
    (∀ m : Mpd, m.path = s.manifestPath → m.temporaryPath = temporary.path s) ∧
    ((f = temporary → s.baseName ≠ ".") →
      f.path s = s.folder.join (f.name s.baseName) ∧ s.folder.EntryOf (f.name s.baseName) (f.path s)) ∧
    (s.baseName = "." → temporary.path s = s.folder.join "..") := by
  refine ⟨Settings.checkBaseName_eq_ok, name_inj, fun hparts => ?_, fun m hm => congrArg (·.withExtension "mpd.tmp") hm,
    fun hpoint => ?_, fun hpoint => ?_⟩
  · rw [parts_path h, parts_path h'] at hparts
    exact entry_inj (List.cons.inj (List.append_inj_right' hparts rfl)).1
  · have hentry : f.entry s.baseName = f.name s.baseName := if_neg fun ⟨hf, hbase⟩ => hpoint hf hbase
    have hpath := path_eq h f
    have hparts := parts_path h f
    rw [hentry] at hpath hparts
    refine ⟨hpath, hparts, ?_, (name_ne _ f).2.2⟩
    rw [hpath]
    exact s.folder.isAbsolute_join (slash_not_mem_name (Settings.slash_not_mem_of_checkBaseName h) f)
  · rw [path_eq h, entry, if_pos ⟨rfl, hpoint⟩]

/-- Settings for a folder and a base name, with all else as it is by default. -/
def settingsOf (folder base : String) : Settings := { Settings.default with folder := ⟨folder⟩, baseName := base }

/-- A segment of track 2 under `a_1`, and one of track 1 under `a` that starts at the tick 2. -/
theorem files_apart_underscores :
    Settings.checkBaseName "a_1" = .ok () ∧ Settings.checkBaseName "a" = .ok () ∧
    ((segment 2 3 .video).path (settingsOf "out" "a_1")).parts ≠ ((segment 1 2 .video).path (settingsOf "out" "a")).parts ∧
    (segment 2 3 .video).path (settingsOf "out" "a_1") = ⟨"out/a_1_2_3.m4v"⟩ := by
  have hlong : Settings.checkBaseName (settingsOf "out" "a_1").baseName = .ok () := rfl
  have hshort : Settings.checkBaseName (settingsOf "out" "a").baseName = .ok () := rfl
  have happart := files_apart hlong hshort (segment 2 3 .video) (segment 1 2 .video)
  refine ⟨hlong, hshort, fun h => ?_, ?_⟩
  · exact absurd (happart.2.2.1 h).1 (by decide)
  · rw [(happart.2.2.2.2.1 nofun).1]
    decide

/-- Under the base name of a single point, what the manifest is written to first is not an entry of the folder. -/
theorem temporary_of_point :
    Settings.checkBaseName "." = .ok () ∧ temporary.name "." = "..mpd.tmp" ∧
    temporary.path (settingsOf "out" ".") = ⟨"out/.."⟩ ∧
    ¬(settingsOf "out" ".").folder.EntryOf (temporary.name ".") (temporary.path (settingsOf "out" ".")) := by
  have hpath : temporary.path (settingsOf "out" ".") = ⟨"out/.."⟩ := by
    rw [path_eq rfl]
    decide
  refine ⟨rfl, by decide, hpath, fun hentry => ?_⟩
  have hparts := hentry.parts
  rw [hpath] at hparts
  exact absurd hparts (by decide)

end OutputFile
end Packager
