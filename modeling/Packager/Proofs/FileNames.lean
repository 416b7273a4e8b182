import Packager.Naming
/-!
# Proofs.FileNames — no two files of a presentation share a name

Under one folder and base name the initialization segments of two tracks have different names (`headerPath_inj`), and
none has the name of a media segment (`headerPath_ne_segmentPath`): after the underscore that ends the track number, a
media segment has the digits of its start, an initialization segment the word `init`.  The name of a media segment tells
its track and kind (`segmentPath_inj`).  Of two folders and base names this much is left: the path of an initialization
segment tells its track (`headerPath_track`) and is not that of a media segment (`headerPath_apart`).
-/
namespace Packager

theorem toString_inj {m n : Nat} (h : toString m = toString n) : m = n := by
  rw [Nat.toString_eq_ofList_toDigits, Nat.toString_eq_ofList_toDigits, String.ofList_inj] at h
  rw [← Nat.ofDigitChars_ten_toDigits (n := m), h, Nat.ofDigitChars_ten_toDigits]

theorem toList_toString (n : Nat) : (toString n).toList = Nat.toDigits 10 n := Nat.toList_repr

theorem isDigit_of_mem_toString {n : Nat} {c : Char} (h : c ∈ (toString n).toList) : c.isDigit = true := by
  rw [toList_toString] at h
  exact Nat.isDigit_of_mem_toDigits (by decide) (by decide) h

theorem not_mem_toString {n : Nat} {c : Char} (h : c.isDigit = false) : c ∉ (toString n).toList := by
  intro hm
  rw [isDigit_of_mem_toString hm] at h
  cases h

theorem exists_toString_eq_cons (n : Nat) : ∃ c rest, (toString n).toList = c :: rest ∧ c.isDigit = true := by
  have hne : (toString n).toList ≠ [] := by
    rw [toList_toString]
    exact Nat.toDigits_ne_nil
  obtain ⟨c, rest, he⟩ := List.exists_cons_of_ne_nil hne
  exact ⟨c, rest, he, isDigit_of_mem_toString (by rw [he]; exact List.mem_cons_self)⟩

/-- Two texts are cut alike at the first separator. -/
theorem append_cons_cancel {α : Type} {a : α} : ∀ {x y u v : List α}, a ∉ x → a ∉ y → x ++ a :: u = y ++ a :: v →
    x = y ∧ u = v
  | [], [], _, _, _, _, h => ⟨rfl, (List.cons.inj h).2⟩
  | [], c :: y, _, _, _, hy, h => absurd (List.cons.inj h).1 fun hc => hy (hc ▸ List.mem_cons_self)
  | c :: x, [], _, _, hx, _, h => absurd (List.cons.inj h).1 fun hc => hx (hc ▸ List.mem_cons_self)
  | c :: x, d :: y, u, v, hx, hy, h => by
    obtain ⟨hc, ht⟩ := List.cons.inj h
    obtain ⟨he, hu⟩ := append_cons_cancel (fun hm => hx (List.mem_cons_of_mem c hm))
      (fun hm => hy (List.mem_cons_of_mem d hm)) ht
    exact ⟨by rw [hc, he], hu⟩

/-- Names that start alike below one folder are told apart by their paths. -/
theorem Path.join_inj {base : Path} {x y : String} (hh : x.toList.head? = y.toList.head?)
    (h : base.join x = base.join y) : x = y := by
  unfold join isAbsolute at h
  simp only [hh] at h
  split at h
  · exact congrArg Path.text h
  · split at h
    · have := congrArg (fun p => p.text.toList) h
      simp only [String.toList_append] at this
      exact String.toList_inj.1 (List.append_cancel_left this)
    · have := congrArg (fun p => p.text.toList) h
      simp only [String.toList_append] at this
      exact String.toList_inj.1 (List.append_cancel_left this)

/-- A path ends in the name that was joined. -/
theorem Path.exists_join (base : Path) (name : String) : ∃ front, (base.join name).text.toList = front ++ name.toList := by
  unfold join
  split
  · exact ⟨[], rfl⟩
  · split
    · exact ⟨base.text.toList, String.toList_append⟩
    · exact ⟨(base.text ++ "/").toList, String.toList_append⟩

namespace Naming

theorem toList_segmentName (b r t e : String) :
    (segmentName b r t e).toList = b.toList ++ '_' :: (r.toList ++ '_' :: (t.toList ++ '.' :: e.toList)) := by
  unfold segmentName
  simp [String.toList_append]

theorem toList_headerName (b r e : String) :
    (headerName b r e).toList = b.toList ++ '_' :: (r.toList ++ '_' :: ("init.".toList ++ e.toList)) := by
  unfold headerName
  simp [String.toList_append]

/-- The first character of a name is that of the base name, or the underscore after an empty one. -/
theorem head?_append_cons (b : List Char) (c : Char) (x y : List Char) :
    (b ++ c :: x).head? = (b ++ c :: y).head? := by
  cases b <;> rfl

/-- **Initialization segments of two tracks have different names.** -/
theorem headerPath_inj {folder : Path} {b e e' : String} {id id' : TrackId}
    (h : headerPath folder b id e = headerPath folder b id' e') : id = id' := by
  have hn := Path.join_inj (by rw [toList_headerName, toList_headerName]; exact head?_append_cons ..) h
  have hl := congrArg String.toList hn
  rw [toList_headerName, toList_headerName] at hl
  have hr := (List.cons_inj_right _).1 (List.append_cancel_left hl)
  obtain ⟨hi, -⟩ := append_cons_cancel (not_mem_toString (by decide)) (not_mem_toString (by decide)) hr
  exact toString_inj (String.toList_inj.1 hi)

theorem fileExtension_inj {kind kind' : Kind} (h : fileExtension kind = fileExtension kind') : kind = kind' := by
  revert h
  cases kind <;> cases kind' <;> decide

theorem adaptationSet_inj {kind kind' : Kind} (h : adaptationSet kind = adaptationSet kind') : kind = kind' := by
  revert h
  cases kind <;> cases kind' <;> decide

/-- **The name of a media segment tells which track it is of.** -/
theorem segmentPath_inj {folder : Path} {b e e' : String} {id id' : TrackId} {timestamp timestamp' : Nat}
    (h : segmentPath folder b id timestamp e = segmentPath folder b id' timestamp' e') : id = id' ∧ e = e' := by
  have hn := Path.join_inj (by rw [toList_segmentName, toList_segmentName]; exact head?_append_cons ..) h
  have hl := congrArg String.toList hn
  rw [toList_segmentName, toList_segmentName] at hl
  have hr := (List.cons_inj_right _).1 (List.append_cancel_left hl)
  obtain ⟨hi, ht⟩ := append_cons_cancel (not_mem_toString (by decide)) (not_mem_toString (by decide)) hr
  obtain ⟨-, he⟩ := append_cons_cancel (not_mem_toString (by decide)) (not_mem_toString (by decide)) ht
  exact ⟨toString_inj (String.toList_inj.1 hi), String.toList_inj.1 he⟩

/-- **No initialization segment has the name of a media segment.** -/
theorem headerPath_ne_segmentPath (folder : Path) (b e e' : String) (id id' : TrackId) (timestamp : Nat) :
    headerPath folder b id e ≠ segmentPath folder b id' timestamp e' := by
  intro h
  have hn := Path.join_inj (by rw [toList_headerName, toList_segmentName]; exact head?_append_cons ..) h
  have hl := congrArg String.toList hn
  rw [toList_headerName, toList_segmentName] at hl
  have hr := (List.cons_inj_right _).1 (List.append_cancel_left hl)
  obtain ⟨-, hi⟩ := append_cons_cancel (not_mem_toString (by decide)) (not_mem_toString (by decide)) hr
  obtain ⟨c, rest, hc, hdigit⟩ := exists_toString_eq_cons timestamp
  rw [hc] at hi
  have hcc : 'i' = c := (List.cons.inj hi).1
  rw [← hcc] at hdigit
  cases hdigit

/-! ## Across folders and base names

Read from its end, a path tells what it is whatever stands before: both the folder and the base name may hold
underscores. -/

theorem exists_reverse_headerPath (folder : Path) (b e : String) (id : TrackId) : ∃ rest,
    (headerPath folder b id e).text.toList.reverse =
      (e.toList.reverse ++ '.' :: "tini".toList) ++ '_' :: ((toString id).toList.reverse ++ '_' :: rest) := by
  obtain ⟨front, h⟩ := folder.exists_join (headerName b (toString id) e)
  refine ⟨b.toList.reverse ++ front.reverse, ?_⟩
  unfold headerPath
  rw [h, toList_headerName]
  simp

theorem exists_reverse_segmentPath (folder : Path) (b e : String) (id : TrackId) (timestamp : Nat) : ∃ rest,
    (segmentPath folder b id timestamp e).text.toList.reverse =
      (e.toList.reverse ++ '.' :: (toString timestamp).toList.reverse) ++
        '_' :: ((toString id).toList.reverse ++ '_' :: rest) := by
  obtain ⟨front, h⟩ := folder.exists_join (segmentName b (toString id) (toString timestamp) e)
  refine ⟨b.toList.reverse ++ front.reverse, ?_⟩
  unfold segmentPath
  rw [h, toList_segmentName]
  simp

theorem underscore_not_mem_header (kind : Kind) : '_' ∉ (fileExtension kind).toList.reverse ++ '.' :: "tini".toList := by
  cases kind <;> decide

theorem dot_not_mem_fileExtension (kind : Kind) : '.' ∉ (fileExtension kind).toList.reverse := by
  cases kind <;> decide

theorem not_mem_reverse_toString {n : Nat} {c : Char} (h : c.isDigit = false) : c ∉ (toString n).toList.reverse :=
  fun hm => not_mem_toString h (List.mem_reverse.1 hm)

/-- **The path of an initialization segment tells its track.** -/
theorem headerPath_track {folder folder' : Path} {b b' : String} {id id' : TrackId} {kind kind' : Kind}
    (h : headerPath folder b id (fileExtension kind) = headerPath folder' b' id' (fileExtension kind')) : id = id' := by
  obtain ⟨rest, hr⟩ := exists_reverse_headerPath folder b (fileExtension kind) id
  obtain ⟨rest', hr'⟩ := exists_reverse_headerPath folder' b' (fileExtension kind') id'
  rw [h, hr'] at hr
  obtain ⟨-, hbehind⟩ := append_cons_cancel (underscore_not_mem_header kind') (underscore_not_mem_header kind) hr
  obtain ⟨hid, -⟩ := append_cons_cancel (not_mem_reverse_toString (by decide)) (not_mem_reverse_toString (by decide))
    hbehind
  exact (toString_inj (String.toList_inj.1 (List.reverse_inj.1 hid))).symm

/-- **No initialization segment has the path of a media segment**, wherever each of them lies. -/
theorem headerPath_apart (folder folder' : Path) (b b' : String) (id id' : TrackId) (kind kind' : Kind)
    (timestamp : Nat) :
    headerPath folder b id (fileExtension kind) ≠ segmentPath folder' b' id' timestamp (fileExtension kind') := by
  intro h
  obtain ⟨rest, hr⟩ := exists_reverse_headerPath folder b (fileExtension kind) id
  obtain ⟨rest', hr'⟩ := exists_reverse_segmentPath folder' b' (fileExtension kind') id' timestamp
  have hsegment : '_' ∉ (fileExtension kind').toList.reverse ++ '.' :: (toString timestamp).toList.reverse := by
    rw [List.mem_append, List.mem_cons, not_or, not_or]
    exact ⟨by cases kind' <;> decide, by decide, not_mem_reverse_toString (by decide)⟩
  rw [h, hr'] at hr
  obtain ⟨hlast, -⟩ := append_cons_cancel hsegment (underscore_not_mem_header kind) hr
  -- between the point and the underscore: the digits of the start against the word
  obtain ⟨-, hword⟩ := append_cons_cancel (dot_not_mem_fileExtension kind') (dot_not_mem_fileExtension kind) hlast
  have hdigit : 't' ∈ (toString timestamp).toList.reverse := by
    rw [hword]
    decide
  exact not_mem_reverse_toString (by decide) hdigit

end Naming
end Packager
