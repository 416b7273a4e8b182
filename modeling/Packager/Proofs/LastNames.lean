import Packager.Proofs.OutputFiles
/-!
# Proofs.LastNames — the last name of a path and its extension

A path with a file name is a front, that name, and separators and single points behind it (`Path.parts_of_hasFileName`).
Replacing the extension keeps the front and the stem of the name, whatever stood behind it, but for one shape: of two
points and an extension the stem is a single point, and cutting the extension off leaves the folder above
(`Path.withExtension_cases`).  So a path whose extension is replaced by two of them never leads where the path did
(`Path.withExtension_apart`).
-/
namespace Packager
namespace Path

/-- Whether the last name of a path, behind which separators and single points may stand, can be that of a file. -/
def HasFileName (p : Path) : Prop := p.splitName.2 ∉ [[], ['.'], ['.', '.']]

instance (p : Path) : Decidable p.HasFileName := inferInstanceAs (Decidable (_ ∉ _))

/-! ## Parts of a text -/

/-- The parts of a text that is read as a path. -/
def partsOf (text : List Char) : List String := ((splitParts [] text).filter (· != "")).filter (· != ".")

theorem partsOf_append (l r : List Char) : partsOf (l ++ '/' :: r) = partsOf l ++ partsOf r := by
  unfold partsOf
  rw [splitParts_append, List.filter_append, List.filter_append]

/-- A text that nothing can be read before, or a separator. -/
def IsFront (front : List Char) : Prop := front = [] ∨ ∃ above, front = above ++ ['/']

theorem IsFront.partsOf_append {front : List Char} (h : IsFront front) (name : List Char) :
    partsOf (front ++ name) = partsOf front ++ partsOf name := by
  rcases h with rfl | ⟨above, rfl⟩
  · rfl
  · rw [List.append_assoc, List.singleton_append, Path.partsOf_append, Path.partsOf_append]
    simp [partsOf, splitParts]

theorem partsOf_name {name : List Char} (h : '/' ∉ name) (hne : name ≠ []) (hdot : name ≠ ['.']) :
    partsOf name = [String.ofList name] := by
  have hempty : String.ofList name ≠ "" := by simpa using hne
  have hpoint : String.ofList name ≠ "." := fun he => hdot (by simpa using congrArg String.toList he)
  unfold partsOf
  rw [splitParts_of_not_mem [] h]
  simp [hempty, hpoint]

/-- What is trimmed adds no part. -/
theorem partsOf_trimEnd (l : List Char) : partsOf (trimEnd l).reverse = partsOf l.reverse := by
  fun_induction trimEnd l with
  | case1 cs ih =>
    rw [ih, List.reverse_cons, partsOf_append]
    simp [partsOf, splitParts]
  | case2 cs ih =>
    rw [ih, List.reverse_cons, List.reverse_cons, List.append_assoc, List.singleton_append, partsOf_append]
    simp [partsOf, splitParts]
  | case3 => rfl

/-- Less of what is trimmed leaves the same. -/
theorem trimEnd_drop (l : List Char) (k : Nat) (h : k + (trimEnd l).length ≤ l.length) :
    trimEnd (l.drop k) = trimEnd l := by
  fun_induction trimEnd l generalizing k with
  | case1 cs ih =>
    cases k with
    | zero => rw [List.drop_zero, trimEnd]
    | succ k =>
      rw [List.drop_succ_cons]
      refine ih k ?_
      rw [List.length_cons] at h
      omega
  | case2 cs ih =>
    match k with
    | 0 => rw [List.drop_zero, trimEnd]
    | 1 => rw [List.drop_succ_cons, List.drop_zero, trimEnd]
    | k + 2 =>
      rw [List.drop_succ_cons, List.drop_succ_cons]
      refine ih k ?_
      simp only [List.length_cons] at h
      omega
  | case3 l h1 h2 =>
    obtain rfl : k = 0 := by omega
    rw [List.drop_zero, trimEnd]
    · exact h1
    · exact h2

theorem trimEnd_suffix (l : List Char) : trimEnd l <:+ l := by
  fun_induction trimEnd l with
  | case1 cs ih => exact ih.trans (List.suffix_cons _ cs)
  | case2 cs ih => exact ih.trans ((List.suffix_cons _ cs).trans (List.suffix_cons _ _))
  | case3 => exact List.suffix_refl _

/-! ## The last name -/

/-- **The last name is what follows the last separator** of the trimmed text. -/
theorem splitName_spec (p : Path) : (trimEnd p.text.toList.reverse).reverse = p.splitName.1 ++ p.splitName.2 ∧
    IsFront p.splitName.1 ∧ '/' ∉ p.splitName.2 := by
  unfold splitName
  generalize trimEnd p.text.toList.reverse = l
  dsimp only
  refine ⟨?_, ?_, ?_⟩
  · rw [← List.reverse_append, List.takeWhile_append_dropWhile]
  · cases hd : l.dropWhile (· != '/') with
    | nil => exact .inl rfl
    | cons c cs =>
      have hc := List.head?_dropWhile_not (· != '/') l
      rw [hd] at hc
      obtain rfl : c = '/' := by simpa using hc
      exact .inr ⟨cs.reverse, List.reverse_cons ..⟩
  · intro hm
    have hslash := List.all_eq_true.1 List.all_takeWhile '/' (List.mem_reverse.1 hm)
    simp at hslash

theorem splitName_of_text {p : Path} {front name : List Char} (hp : p.text.toList = front ++ name) (hfront : IsFront front)
    (hname : '/' ∉ name) (hne : name ≠ []) (hdot : name ≠ ['.']) : p.splitName = (front, name) := by
  have hall : ∀ c ∈ name.reverse, (c != '/') = true := fun c hc => by
    have hne : c ≠ '/' := fun he => hname (he ▸ List.mem_reverse.1 hc)
    simpa using hne
  have hstop : ∀ c ∈ front.reverse.head?, (c != '/') = false := by
    rcases hfront with rfl | ⟨above, rfl⟩ <;> simp
  have htrim : trimEnd p.text.toList.reverse = name.reverse ++ front.reverse := by
    rw [hp, List.reverse_append]
    obtain ⟨c, rest, hrest⟩ := List.exists_cons_of_ne_nil (List.reverse_ne_nil_iff.2 hne)
    rw [hrest] at hall ⊢
    refine trimEnd_eq_self (by simpa using hall c List.mem_cons_self) fun hc => ?_
    cases rest with
    | nil => exact absurd (by simpa [hc] using congrArg List.reverse hrest) hdot
    | cons d rest =>
      have hd := hall d (List.mem_cons_of_mem c List.mem_cons_self)
      simpa using hd
  obtain ⟨htake, hdrop⟩ := span_of_stop hall hstop
  unfold splitName
  simp only [htrim, htake, hdrop, List.reverse_reverse]

/-- **The last part of a path with a file name is that name.** -/
theorem parts_of_hasFileName {p : Path} (h : p.HasFileName) :
    p.parts = partsOf p.splitName.1 ++ [String.ofList p.splitName.2] := by
  obtain ⟨htext, hfront, hslash⟩ := p.splitName_spec
  simp only [HasFileName, List.mem_cons, not_or] at h
  have htrimmed := partsOf_trimEnd p.text.toList.reverse
  rw [htext, List.reverse_reverse, hfront.partsOf_append, partsOf_name hslash h.1 h.2.1] at htrimmed
  exact htrimmed.symm

/-! ## Another extension -/

/-- A name has no extension, or one after its last point. -/
theorem splitExtension_cases (name : List Char) : splitExtension name = (name, []) ∨
    ∃ stem old, name = stem ++ '.' :: old ∧ stem ≠ [] ∧ '.' ∉ old ∧ splitExtension name = (stem, old) := by
  by_cases hpoint : '.' ∈ name.reverse
  · obtain ⟨old, stem, hname, hold⟩ := List.eq_append_cons_of_mem hpoint
    obtain rfl : name = stem.reverse ++ '.' :: old.reverse := by
      rw [← List.reverse_inj, hname]
      simp
    by_cases hdots : stem.reverse ++ '.' :: old.reverse = ['.', '.']
    · rw [hdots]
      exact .inl rfl
    by_cases hstem : stem.reverse = []
    · -- the only point opens the name
      rw [hstem, List.nil_append] at hname ⊢
      have htail : ('.' :: old.reverse).reverse.takeWhile (· != '.') = old := by
        rw [hname]
        refine (span_of_stop (fun c hc => ?_) (by simp)).1
        have hne : c ≠ '.' := fun he => hold (he ▸ hc)
        simpa using hne
      left
      unfold splitExtension
      simp only [htail]
      rw [if_neg]
      simp
    · have hold' : '.' ∉ old.reverse := fun hm => hold (List.mem_reverse.1 hm)
      exact .inr ⟨_, _, rfl, hstem, hold', splitExtension_eq hstem hold' hdots⟩
  · have htail : (name.reverse ++ []).takeWhile (· != '.') = name.reverse := by
      refine (span_of_stop (fun c hc => ?_) nofun).1
      have hne : c ≠ '.' := fun he => hpoint (he ▸ hc)
      simpa using hne
    rw [List.append_nil] at htail
    left
    unfold splitExtension
    simp only [htail]
    rw [if_neg]
    simp

theorem toList_withExtension {p : Path} (h : p.cutExtension.HasFileName) (extension : String) :
    (p.withExtension extension).text.toList = p.cutExtension.splitName.1 ++
      ((splitExtension p.cutExtension.splitName.2).1 ++ '.' :: extension.toList) := by
  unfold withExtension
  dsimp only
  rw [if_neg (by simpa [HasFileName] using h)]
  simp

theorem withExtension_eq_cutExtension {p : Path} (h : ¬p.cutExtension.HasFileName) (extension : String) :
    p.withExtension extension = p.cutExtension := by
  unfold withExtension
  dsimp only
  have hname : p.cutExtension.splitName.2 ∈ [[], ['.'], ['.', '.']] := Decidable.not_not.1 h
  rw [if_pos (by simpa using hname)]

theorem toList_cutExtension (p : Path) : p.cutExtension.text.toList =
    p.text.toList.take (p.text.toList.length - (splitExtension p.splitName.2).2.length) := by
  unfold cutExtension
  rw [String.toList_ofList]

/-- When no more is cut off than what stands behind the last name, that name stays. -/
theorem splitName_cutExtension {p : Path} (h : (splitExtension p.splitName.2).2.length +
    (trimEnd p.text.toList.reverse).length ≤ p.text.toList.length) : p.cutExtension.splitName = p.splitName := by
  have htrim : trimEnd p.cutExtension.text.toList.reverse = trimEnd p.text.toList.reverse := by
    rw [toList_cutExtension, List.reverse_take, Nat.sub_sub_self (by omega)]
    exact trimEnd_drop _ _ (by rwa [List.length_reverse])
  unfold splitName
  rw [htrim]

/-- When more is cut off, the end of the extension is. -/
theorem exists_cutExtension {p : Path} {stem old : List Char} (hname : p.splitName.2 = stem ++ '.' :: old)
    (hold : splitExtension p.splitName.2 = (stem, old))
    (h : p.text.toList.length < old.length + (trimEnd p.text.toList.reverse).length) :
    ∃ k, p.cutExtension.text.toList = p.splitName.1 ++ (stem ++ '.' :: old.take k) := by
  obtain ⟨htext, -, -⟩ := p.splitName_spec
  obtain ⟨junk, hjunk⟩ := trimEnd_suffix p.text.toList.reverse
  have hlength : junk.length < old.length := by
    have hsum := congrArg List.length hjunk
    rw [List.length_append, List.length_reverse] at hsum
    omega
  have hcut : p.text.toList =
      (p.splitName.1 ++ (stem ++ '.' :: old.take junk.length)) ++ (old.drop junk.length ++ junk.reverse) := by
    have hparts : p.text.toList = p.splitName.1 ++ p.splitName.2 ++ junk.reverse := by
      rw [← htext, ← List.reverse_append, hjunk, List.reverse_reverse]
    rw [hparts, hname]
    simp only [List.append_assoc, List.cons_append]
    rw [← List.append_assoc (old.take junk.length), List.take_append_drop]
  refine ⟨junk.length, ?_⟩
  rw [toList_cutExtension, hold, hcut]
  refine List.take_left' ?_
  simp only [List.length_append, List.length_drop, List.length_reverse]
  omega

/-- **Another extension** is put after the stem of the last name; only of two points and an extension the folder above is
left. -/
theorem withExtension_cases {p : Path} (h : p.HasFileName) (extension : String) :
    ∃ stem, (p.splitName.2 = stem ∨ ∃ old, '.' ∉ old ∧ p.splitName.2 = stem ++ '.' :: old) ∧
      ((p.withExtension extension).text.toList = p.splitName.1 ++ (stem ++ '.' :: extension.toList) ∨
        (p.withExtension extension).text.toList = p.splitName.1 ++ ['.', '.']) := by
  have htrimmed : (trimEnd p.text.toList.reverse).length ≤ p.text.toList.length := by
    simpa using (trimEnd_suffix p.text.toList.reverse).length_le
  -- the name stays when the cut does not reach it
  have hwhole : ∀ {stem old : List Char}, splitExtension p.splitName.2 = (stem, old) →
      old.length + (trimEnd p.text.toList.reverse).length ≤ p.text.toList.length →
        (p.withExtension extension).text.toList = p.splitName.1 ++ (stem ++ '.' :: extension.toList) := by
    intro stem old he hle
    have hkept : p.cutExtension.splitName = p.splitName := splitName_cutExtension (by rwa [he])
    rw [toList_withExtension (by rwa [HasFileName, hkept]), hkept, he]
  rcases splitExtension_cases p.splitName.2 with he | ⟨stem, old, hname, hstem, hpoint, he⟩
  · exact ⟨p.splitName.2, .inl rfl, .inl (hwhole he (by simpa using htrimmed))⟩
  · refine ⟨stem, .inr ⟨old, hpoint, hname⟩, ?_⟩
    by_cases hle : old.length + (trimEnd p.text.toList.reverse).length ≤ p.text.toList.length
    · exact .inl (hwhole he hle)
    · obtain ⟨k, hcut⟩ := exists_cutExtension hname he (Nat.lt_of_not_le hle)
      obtain ⟨-, hfront, hslash⟩ := p.splitName_spec
      rw [hname] at hslash
      have hslash' : '/' ∉ stem ++ '.' :: old.take k := fun hm => hslash (by
        simp only [List.mem_append, List.mem_cons] at hm ⊢
        exact hm.imp_right (Or.imp_right List.mem_of_mem_take))
      have hlong : stem ++ '.' :: old.take k ≠ ['.'] := fun hd => by
        have hsum := congrArg List.length hd
        have hpos := List.length_pos_iff.2 hstem
        simp only [List.length_append, List.length_cons, List.length_nil] at hsum
        omega
      have hsplit := splitName_of_text hcut hfront hslash' (by simp) hlong
      by_cases hdots : stem ++ '.' :: old.take k = ['.', '.']
      · right
        rw [withExtension_eq_cutExtension (by simp [HasFileName, hsplit, hdots]), hcut, hdots]
      · left
        rw [toList_withExtension (by simp [HasFileName, hsplit, hdots, hlong]), hsplit]
        dsimp only
        rw [splitExtension_eq hstem (fun hm => hpoint (List.mem_of_mem_take hm)) hdots]

/-- **A path that ends in a name** has that name as its last step and its last part. -/
theorem exists_name {p : Path} (h : p.endsInName = true) : ∃ above name, p.steps = above ++ [name] ∧
    name ≠ "." ∧ name ≠ ".." ∧ p.parts.getLast? = some name := by
  unfold endsInName at h
  cases hlast : p.steps.getLast? with
  | none =>
    rw [hlast] at h
    cases h
  | some name =>
    rw [hlast] at h
    obtain ⟨hdot, hdots⟩ : name ≠ "." ∧ name ≠ ".." := by simpa using h
    obtain ⟨above, habove⟩ := List.getLast?_eq_some_iff.1 hlast
    refine ⟨above, name, habove, hdot, hdots, ?_⟩
    unfold parts
    rw [habove, List.filter_append]
    simp [hdot]

/-- **Two extensions in place of one lead elsewhere**: the last part is another one. -/
theorem withExtension_apart {p : Path} (h : p.HasFileName) {extension : String} (hslash : '/' ∉ extension.toList)
    (hpoint : '.' ∈ extension.toList) : (p.withExtension extension).parts.getLast? ≠ p.parts.getLast? := by
  obtain ⟨-, hfront, hname⟩ := p.splitName_spec
  obtain ⟨stem, hstem, htext⟩ := withExtension_cases h extension
  -- whatever stands behind the front is the last part
  have hapart : ∀ {last : List Char}, (p.withExtension extension).text.toList = p.splitName.1 ++ last →
      '/' ∉ last → 2 ≤ last.length → last ≠ p.splitName.2 →
        (p.withExtension extension).parts.getLast? ≠ p.parts.getLast? := by
    intro last htext hslash hlength hother he
    have hlast : (p.withExtension extension).parts = partsOf p.splitName.1 ++ [String.ofList last] := by
      show partsOf (p.withExtension extension).text.toList = _
      rw [htext, hfront.partsOf_append, partsOf_name hslash]
      · rintro rfl
        cases hlength
      · rintro rfl
        exact absurd hlength (by decide)
    rw [hlast, parts_of_hasFileName h, List.getLast?_concat, List.getLast?_concat] at he
    exact hother (String.ofList_injective (Option.some.inj he))
  rcases htext with htext | htext
  · refine hapart htext ?_ ?_ ?_
    · have hstem : '/' ∉ stem := by
        rcases hstem with rfl | ⟨old, -, he⟩
        · exact hname
        · exact fun hm => hname (he ▸ List.mem_append_left _ hm)
      simpa [hstem] using hslash
    · have hpos := List.length_pos_of_mem hpoint
      simp only [List.length_append, List.length_cons]
      omega
    · rcases hstem with he | ⟨old, hold, he⟩ <;> rw [he]
      · intro hsame
        have hsum := congrArg List.length hsame
        simp only [List.length_append, List.length_cons] at hsum
        omega
      · intro hsame
        rw [List.append_cancel_left_eq, List.cons.injEq] at hsame
        exact hold (hsame.2 ▸ hpoint)
  · exact hapart htext (by decide) (by decide) fun he => h (by rw [← he]; decide)

/-- A text that ends in an extension has a file name. -/
theorem hasFileName_of_extension {p : Path} {front : List Char} (h : p.text.toList = front ++ ".mpd".toList) :
    p.HasFileName := by
  have hreverse : p.text.toList.reverse = 'd' :: 'p' :: 'm' :: '.' :: front.reverse := by
    rw [h, List.reverse_append]
    rfl
  have htrim : trimEnd p.text.toList.reverse = 'd' :: 'p' :: 'm' :: '.' :: front.reverse := by
    rw [hreverse]
    exact trimEnd_eq_self (by decide) fun hd => absurd hd (by decide)
  have hname : p.splitName.2 = (front.reverse.takeWhile (· != '/')).reverse ++ ['.', 'm', 'p', 'd'] := by
    unfold splitName
    simp [htrim]
  intro hm
  have hlength : p.splitName.2.length ≤ 2 := (by decide : ∀ l ∈ [[], ['.'], ['.', '.']], l.length ≤ 2) _ hm
  rw [hname, List.length_append] at hlength
  simp at hlength

end Path

/-- **The manifest of a publisher has a file name**, whatever the folder and the base name are. -/
theorem Settings.hasFileName_manifestPath (s : Settings) : s.manifestPath.HasFileName := by
  have hjoin : ∀ (folder : Path) (name : String), ∃ front, (folder.join name).text.toList = front ++ name.toList := by
    intro folder name
    unfold Path.join
    split
    · exact ⟨[], rfl⟩
    · split
      · exact ⟨_, String.toList_append⟩
      · exact ⟨_, String.toList_append⟩
  obtain ⟨front, hfront⟩ := hjoin s.folder (s.baseName ++ ".mpd")
  rw [String.toList_append, ← List.append_assoc] at hfront
  exact Path.hasFileName_of_extension hfront

end Packager
