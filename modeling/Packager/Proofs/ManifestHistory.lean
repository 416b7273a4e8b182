import Mathlib.Data.List.Induction
import Packager.Proofs.Mirror
/-!
# Proofs.ManifestHistory — a live manifest is what was told of each representation

A manifest keeps two levels of maps, drops a set with its last representation and cuts the time lines as they grow.  All of
that stands for the history of news: news of one representation never touches another (`listing?_after`), and a
representation is listed when it was added and not removed since, as what was told of it from then on.
`manifest_refines_history` says so of every state and every answer.
-/
namespace Packager

/-! ## What a history says -/

namespace Announcement

/-- Whether news is about the representation with an id in a set. -/
def About (set rep : String) : Announcement → Prop
  | added r => r.adaptationSet = set ∧ r.id = rep
  | removed set' rep' | bitrate set' rep' _ | codec set' rep' _ | segment set' rep' _ _ => set' = set ∧ rep' = rep
  | relocated _ _ => False

instance (set rep : String) : (news : Announcement) → Decidable (news.About set rep)
  | added _ | removed _ _ | bitrate _ _ _ | codec _ _ _ | segment _ _ _ _ => inferInstanceAs (Decidable (_ ∧ _))
  | relocated _ _ => inferInstanceAs (Decidable False)

/-- Whether news puts a representation on the list or takes it off. -/
def opensOrCloses : Announcement → Bool
  | added _ | removed _ _ => true
  | _ => false

@[simp] def bitrate? : Announcement → Option Nat
  | bitrate _ _ rate => some rate
  | _ => none

@[simp] def codec? : Announcement → Option String
  | codec _ _ name => some name
  | _ => none

@[simp] def segment? : Announcement → Option (Nat × Nat)
  | segment _ _ timestamp duration => some (timestamp, duration)
  | _ => none

end Announcement

/-- Whether the last that a history of one representation says of its being listed is that it was added as `r`; `since`
is what was told after that. -/
def OpenSince (history : List Announcement) (r : Representation) (since : List Announcement) : Prop :=
  ∃ before, history = before ++ .added r :: since ∧ ∀ news ∈ since, news.opensOrCloses = false

/-- Whether a history of one representation leaves it listed. -/
def Open (history : List Announcement) : Prop := ∃ r since, OpenSince history r since

/-- What is listed of a representation that was added as `r`, by what was told since: the latest bitrate and the latest
codec, and the last of its segments in order, all of them when `maxSegments` is zero. -/
structure Listing.Told (maxSegments : Nat) (r : Representation) (since : List Announcement) (l : Listing) : Prop where
  representation : l.representation =
    { r with
      bitrate := (since.filterMap Announcement.bitrate?).getLast?.getD r.bitrate
      codec := (since.filterMap Announcement.codec?).getLast?.getD r.codec }
  ending : l.timeline <:+ since.filterMap Announcement.segment?
  length : l.timeline.length =
    if maxSegments = 0 then (since.filterMap Announcement.segment?).length
    else min maxSegments (since.filterMap Announcement.segment?).length

namespace Mpd

/-- A manifest after news, in the order in which it was told. -/
def after (m : Mpd) (history : List Announcement) : Mpd := history.foldl apply m

/-- The news of one representation. -/
def told (set rep : String) (history : List Announcement) : List Announcement := history.filter (·.About set rep)

end Mpd

/-! ## One representation -/

/-- What becomes of a listing by news about it. -/
def Announcement.next (maxSegments : Nat) : Announcement → Option Listing → Option Listing
  | added r, _ => some ⟨r, []⟩
  | removed _ _, _ => none
  | bitrate _ _ rate, l => l.map fun l => { l with representation := { l.representation with bitrate := rate } }
  | codec _ _ name, l => l.map fun l => { l with representation := { l.representation with codec := name } }
  | segment _ _ timestamp duration, l =>
    l.map fun l => { l with timeline := Mpd.window maxSegments (l.timeline ++ [(timestamp, duration)]) }
  | relocated _ _, l => l

namespace Mpd

/-- **News touches the representation that it is about, and no other.** -/
theorem listing?_apply (m : Mpd) (news : Announcement) (set rep : String) : (m.apply news).listing? set rep =
    if news.About set rep then news.next m.maxSegments (m.listing? set rep) else m.listing? set rep := by
  cases news with
  | added r => exact listing?_add m set rep r
  | removed set' rep' => exact listing?_remove m set set' rep rep'
  | bitrate set' rep' rate => exact listing?_update m set set' rep rep' _
  | codec set' rep' name => exact listing?_update m set set' rep rep' _
  | segment set' rep' timestamp duration => exact listing?_update m set set' rep rep' _
  | relocated path seconds => rfl

theorem maxSegments_apply (m : Mpd) (news : Announcement) : (m.apply news).maxSegments = m.maxSegments := by
  cases news with
  | removed set rep =>
    simp only [apply, remove]
    split <;> rfl
  | _ => rfl

/-- The listing of a representation is made of the news about it alone. -/
theorem listing?_after (m : Mpd) (set rep : String) (history : List Announcement) :
    (m.after history).listing? set rep =
      (told set rep history).foldl (fun l news => news.next m.maxSegments l) (m.listing? set rep) := by
  induction history generalizing m with
  | nil => rfl
  | cons news history ih =>
    have hafter : m.after (news :: history) = (m.apply news).after history := rfl
    rw [hafter, ih, maxSegments_apply, listing?_apply, told, told, List.filter_cons]
    by_cases h : news.About set rep
    · simp only [h, if_true, decide_true, List.foldl_cons]
    · simp only [h, if_false, decide_false, Bool.false_eq_true]

end Mpd

theorem Listing.told_nil (maxSegments : Nat) (r : Representation) : Listing.Told maxSegments r [] ⟨r, []⟩ :=
  ⟨rfl, List.suffix_rfl, by simp⟩

theorem Mpd.window_suffix (maxSegments : Nat) (timeline : List (Nat × Nat)) :
    window maxSegments timeline <:+ timeline := by
  unfold window
  split
  · exact List.suffix_rfl
  · exact List.drop_suffix _ _

theorem Mpd.length_window (maxSegments : Nat) (timeline : List (Nat × Nat)) :
    (window maxSegments timeline).length =
      if maxSegments = 0 then timeline.length else min maxSegments timeline.length := by
  unfold window
  split
  · rfl
  · rw [List.length_drop]
    omega

/-- One more piece of news about a representation that stays listed. -/
theorem Listing.Told.next {maxSegments : Nat} {r : Representation} {since : List Announcement} {l : Listing}
    (h : l.Told maxSegments r since) {news : Announcement} (hn : news.opensOrCloses = false) :
    ∃ l', news.next maxSegments (some l) = some l' ∧ l'.Told maxSegments r (since ++ [news]) := by
  obtain ⟨hrep, hend, hlen⟩ := h
  cases news with
  | added r' => cases hn
  | removed set rep => cases hn
  | bitrate set rep rate =>
    refine ⟨_, rfl, ?_, ?_, ?_⟩ <;> simp [List.filterMap_cons, hrep, hend, hlen]
  | codec set rep name =>
    refine ⟨_, rfl, ?_, ?_, ?_⟩ <;> simp [List.filterMap_cons, hrep, hend, hlen]
  | segment set rep timestamp duration =>
    have hsegments : (since ++ [Announcement.segment set rep timestamp duration]).filterMap Announcement.segment? =
        since.filterMap Announcement.segment? ++ [(timestamp, duration)] := by
      rw [List.filterMap_append]
      rfl
    refine ⟨_, rfl, ?_, ?_, ?_⟩
    · simp [List.filterMap_cons, hrep]
    · rw [hsegments]
      refine (Mpd.window_suffix _ _).trans ?_
      rw [List.suffix_append_inj_of_length_eq rfl]
      exact ⟨hend, rfl⟩
    · rw [hsegments, Mpd.length_window, List.length_append, List.length_append, hlen]
      simp only [List.length_singleton]
      split <;> omega
  | relocated path seconds =>
    refine ⟨l, rfl, ?_, ?_, ?_⟩ <;> simp [List.filterMap_cons, hrep, hend, hlen]

theorem Listing.exists_told (maxSegments : Nat) (r : Representation) (since : List Announcement)
    (h : ∀ news ∈ since, news.opensOrCloses = false) :
    ∃ l, since.foldl (fun l news => news.next maxSegments l) (some ⟨r, []⟩) = some l ∧ l.Told maxSegments r since := by
  induction since using List.reverseRecOn with
  | nil => exact ⟨⟨r, []⟩, rfl, Listing.told_nil maxSegments r⟩
  | append_singleton since news ih =>
    obtain ⟨l, hl, ht⟩ := ih fun other hm => h other (List.mem_append_left _ hm)
    obtain ⟨l', hl', ht'⟩ := ht.next (h news (List.mem_append_right _ (List.mem_singleton_self _)))
    exact ⟨l', by rw [List.foldl_append, hl]; exact hl', ht'⟩

theorem open_of_listed (maxSegments : Nat) {history : List Announcement} {l : Listing}
    (h : history.foldl (fun l news => news.next maxSegments l) none = some l) : Open history := by
  induction history using List.reverseRecOn generalizing l with
  | nil => cases h
  | append_singleton history news ih =>
    rw [List.foldl_append, List.foldl_cons, List.foldl_nil] at h
    cases hn : news.opensOrCloses with
    | true =>
      cases news with
      | added r => exact ⟨r, [], history, rfl, fun _ hm => absurd hm List.not_mem_nil⟩
      | removed set rep => cases h
      | _ => cases hn
    | false =>
      cases hbefore : history.foldl (fun l news => news.next maxSegments l) none with
      | none =>
        rw [hbefore] at h
        cases news with
        | added r => cases hn
        | _ => cases h
      | some l' =>
        obtain ⟨r, since, before, rfl, hsince⟩ := ih hbefore
        refine ⟨r, since ++ [news], before, by simp, fun other hm => ?_⟩
        rcases List.mem_append.1 hm with hm | hm
        · exact hsince other hm
        · rwa [List.mem_singleton.1 hm]

/-! ## The sets -/

namespace Mpd

/-- Whether every set of a manifest lists something. -/
def NoEmptySet (m : Mpd) : Prop := ∀ e ∈ m.sets.entries, e.2.entries ≠ []

theorem NoEmptySet.apply {m : Mpd} (h : m.NoEmptySet) (news : Announcement) : (m.apply news).NoEmptySet := by
  have hupdate : ∀ set rep f, (m.update set rep f).2.NoEmptySet := fun set rep f e hm => by
    obtain ⟨e', hm', rfl⟩ := List.mem_map.1 hm
    have hne := h e' hm'
    split
    · simpa [SortedMap.modify] using hne
    · exact hne
  cases news with
  | added r =>
    intro e hm
    rcases SortedMap.mem_insertEntry hm with rfl | hm
    · exact SortedMap.insertEntry_ne_nil _ _ _
    · exact h e hm
  | removed set rep =>
    show (m.remove set rep).2.NoEmptySet
    unfold remove
    split
    · exact h
    · rename_i listings _
      intro e hm
      dsimp only at hm
      split at hm
      · exact h e (List.mem_filter.1 hm |>.1)
      · rename_i hne
        rcases SortedMap.mem_insertEntry hm with rfl | hm
        · exact fun he => hne (List.isEmpty_iff.2 he)
        · exact h e hm
  | bitrate set rep rate => exact hupdate set rep _
  | codec set rep name => exact hupdate set rep _
  | segment set rep timestamp duration => exact hupdate set rep _
  | relocated path seconds => exact h

theorem NoEmptySet.after {m : Mpd} (h : m.NoEmptySet) (history : List Announcement) : (m.after history).NoEmptySet := by
  induction history generalizing m with
  | nil => exact h
  | cons news history ih => exact ih (h.apply news)

theorem remove_fst (m : Mpd) (set rep : String) : (m.remove set rep).1 = (m.listing? set rep).isSome := by
  unfold remove listing?
  cases m.sets.find? set <;> rfl

/-- **A live manifest refines its history.**  A representation is listed exactly when it was added and not removed since,
and then as what was told of it from then on: with the latest bitrate and codec, and the last of its segments in order.  The
answers to a removal and to a change say whether it is listed, every set lists something, and what is listed of a
representation is the same without the news of all others. -/
theorem manifest_refines_history (m : Mpd) (hm : m.sets = .empty) (history : List Announcement) :
    let now := m.after history
    (∀ set rep r since, OpenSince (told set rep history) r since →
      ∃ l, now.listing? set rep = some l ∧ l.Told m.maxSegments r since) ∧
    (∀ set rep, (now.listing? set rep).isSome = true ↔ Open (told set rep history)) ∧
    (∀ set rep bitrate codec, ((now.remove set rep).1 = true ↔ Open (told set rep history)) ∧
      ((now.setBitrate set rep bitrate).1 = true ↔ Open (told set rep history)) ∧
      ((now.setCodec set rep codec).1 = true ↔ Open (told set rep history))) ∧
    now.NoEmptySet ∧
    ∀ set rep, now.listing? set rep = (m.after (told set rep history)).listing? set rep := by
  intro now
  have hnone : ∀ set rep, m.listing? set rep = none := fun set rep => by
    unfold listing?
    rw [hm]
    rfl
  have hlisted : ∀ set rep r since, OpenSince (told set rep history) r since →
      ∃ l, now.listing? set rep = some l ∧ l.Told m.maxSegments r since := by
    rintro set rep r since ⟨before, htold, hsince⟩
    obtain ⟨l, hl, ht⟩ := Listing.exists_told m.maxSegments r since hsince
    exact ⟨l, by rw [listing?_after, htold, List.foldl_append]; exact hl, ht⟩
  have hopen : ∀ set rep, (now.listing? set rep).isSome = true ↔ Open (told set rep history) := fun set rep => by
    constructor
    · intro hl
      obtain ⟨l, hl⟩ := Option.isSome_iff_exists.1 hl
      rw [listing?_after, hnone] at hl
      exact open_of_listed m.maxSegments hl
    · rintro ⟨r, since, hsince⟩
      obtain ⟨l, hl, -⟩ := hlisted set rep r since hsince
      rw [hl]
      rfl
  refine ⟨hlisted, hopen, fun set rep _ _ => ⟨?_, hopen set rep, hopen set rep⟩, ?_, fun set rep => ?_⟩
  · rw [remove_fst]
    exact hopen set rep
  · exact NoEmptySet.after (fun e he => by rw [hm] at he; cases he) history
  · have hagain : told set rep (told set rep history) = told set rep history :=
      List.filter_filter.trans (by simp [told])
    rw [listing?_after, listing?_after, hagain]

/-- An audio representation that is added again after three segments, and a second one in its set that is removed: of the
first, two segments are listed of the three since, with the bitrate set since and the codec it was added with. -/
theorem manifest_refines_history_addedAgain :
    let m : Mpd := ⟨⟨"live.mpd"⟩, 2, 4, 2, ⟨0, 0⟩, .empty⟩
    let r (id : String) : Representation := ⟨"1", id, .audio, "mp4a.40.2", 0, 12800, "m", "i"⟩
    let since : List Announcement :=
      [.segment "1" "1" 40 10, .segment "1" "1" 50 10, .bitrate "1" "1" 96000, .segment "1" "1" 60 10]
    let history : List Announcement :=
      [.bitrate "1" "1" 1, .added (r "1"), .added (r "2"), .segment "1" "1" 0 10, .codec "1" "1" "mp4a.40.5",
        .segment "1" "2" 0 10, .added (r "1"), .segment "1" "1" 40 10, .segment "1" "1" 50 10, .removed "1" "2",
        .bitrate "1" "1" 96000, .relocated ⟨"other.mpd"⟩ 4, .segment "1" "2" 10 10, .segment "1" "1" 60 10]
    let listing : Listing := ⟨{ r "1" with bitrate := 96000 }, [(50, 10), (60, 10)]⟩
    m.sets = .empty ∧ OpenSince (told "1" "1" history) (r "1") since ∧
      (m.after history).listing? "1" "1" = some listing ∧ listing.Told 2 (r "1") since ∧
      ¬Open (told "1" "2" history) ∧ ((m.after history).listing? "1" "2").isSome = false ∧
      (m.after history).NoEmptySet := by
  intro m r since history listing
  have hsince : OpenSince (told "1" "1" history) (r "1") since :=
    ⟨[.bitrate "1" "1" 1, .added (r "1"), .segment "1" "1" 0 10, .codec "1" "1" "mp4a.40.5"], by decide, by decide⟩
  obtain ⟨hlisted, hopen, -, hne, -⟩ := manifest_refines_history m rfl history
  obtain ⟨l, hl, ht⟩ := hlisted "1" "1" (r "1") since hsince
  have hfound : (m.after history).listing? "1" "1" = some listing := by decide
  cases hl.symm.trans hfound
  have hnone : ((m.after history).listing? "1" "2").isSome = false := by decide
  refine ⟨rfl, hsince, hfound, ht, fun h => ?_, hnone, hne⟩
  rw [(hopen "1" "2").2 h] at hnone
  cases hnone

end Mpd
end Packager
