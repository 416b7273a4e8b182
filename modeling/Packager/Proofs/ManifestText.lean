import Packager.Proofs.FileNames
import Packager.Proofs.ManifestHistory
/-!
# Proofs.ManifestText — the text of a manifest tells what it lists

An attribute ends at its second quotation mark, so as long as no value has one in it, each line of a manifest tells its
values whatever follows it (`Tells`).  A list of lines goes on until a line that none of them can be, which lifts this from
the segments of a time line to the representations of a set and to the sets (`Tells.flatMap`).  Two manifests with one text
therefore list the same (`Mpd.render_tells`): the same representations in the same sets and order, each with its codec,
bitrate, time base, templates and time line.
-/
namespace Packager

/-! ## Texts that tell what they are of -/

/-- Whether the text of an item tells its `key`, and where it ends, whatever follows; among the items with `P`. -/
def Tells {α γ : Type} (P : α → Prop) (text : α → List Char) (key : α → γ) : Prop :=
  ∀ ⦃a b⦄, P a → P b → ∀ ⦃u v⦄, text a ++ u = text b ++ v → key a = key b ∧ u = v

/-- **A list of items tells the keys of all of them** when what stands behind it begins none of them. -/
theorem Tells.flatMap {α γ : Type} {P : α → Prop} {text : α → List Char} {key : α → γ} (h : Tells P text key)
    {stop : List Char} (hstop : ∀ a, P a → ∀ u v, text a ++ u ≠ stop ++ v) :
    Tells (fun x : List α => ∀ a ∈ x, P a) (fun x => x.flatMap text ++ stop) (·.map key) := by
  intro x
  induction x with
  | nil =>
    intro y hx hy u v he
    cases y with
    | nil => exact ⟨rfl, List.append_cancel_left he⟩
    | cons b y =>
      simp only [List.flatMap_nil, List.flatMap_cons, List.nil_append, List.append_assoc] at he
      exact absurd he.symm (hstop b (hy b List.mem_cons_self) _ _)
  | cons a x ih =>
    intro y hx hy u v he
    cases y with
    | nil =>
      simp only [List.flatMap_nil, List.flatMap_cons, List.nil_append, List.append_assoc] at he
      exact absurd he (hstop a (hx a List.mem_cons_self) _ _)
    | cons b y =>
      simp only [List.flatMap_cons, List.append_assoc] at he
      obtain ⟨hkey, hrest⟩ := h (hx a List.mem_cons_self) (hy b List.mem_cons_self) he
      obtain ⟨hkeys, hend⟩ := ih (fun c hc => hx c (List.mem_cons_of_mem a hc))
        (fun c hc => hy c (List.mem_cons_of_mem b hc)) (by simpa using hrest)
      exact ⟨congrArg₂ List.cons hkey hkeys, hend⟩

/-! ## What is listed -/

/-- What the text of a manifest says of a representation, under its id. -/
structure Listing.Entry where
  codec : String
  bitrate : Nat
  timeBase : Nat
  headerTemplate : String
  segmentTemplate : String
  timeline : List (Nat × Nat)
  deriving DecidableEq

def Listing.entry (l : Listing) : Entry where
  codec := l.representation.codec
  bitrate := l.representation.bitrate
  timeBase := l.representation.timeBase
  headerTemplate := l.representation.headerTemplate
  segmentTemplate := l.representation.segmentTemplate
  timeline := l.timeline

namespace Mpd

/-- What a manifest lists: under each set id, what it says under each representation id, in order. -/
def contents (m : Mpd) : List (String × List (String × Listing.Entry)) :=
  m.sets.entries.map fun set => (set.1, set.2.entries.map fun listing => (listing.1, listing.2.entry))

/-- Whether text can stand between quotation marks. -/
def Quotable (s : String) : Prop := '"' ∉ s.toList

instance (s : String) : Decidable (Quotable s) := inferInstanceAs (Decidable (_ ∉ _))

theorem quotable_toString (n : Nat) : Quotable (toString n) := not_mem_toString (by decide)

/-- **An attribute tells its value.** -/
theorem attr_cancel {name v w : String} (hv : Quotable v) (hw : Quotable w) {x y : List Char}
    (h : (attr name v).toList ++ x = (attr name w).toList ++ y) : v = w ∧ x = y := by
  have h : (" " ++ name ++ "=").toList ++ ('"' :: (v.toList ++ '"' :: x)) =
      (" " ++ name ++ "=").toList ++ ('"' :: (w.toList ++ '"' :: y)) := by
    simpa [attr, String.toList_append] using h
  obtain ⟨-, h⟩ := List.cons.inj (List.append_cancel_left h)
  obtain ⟨he, hend⟩ := append_cons_cancel hv hw h
  exact ⟨String.toList_inj.1 he, hend⟩

theorem attr_toString_cancel {name : String} {m n : Nat} {x y : List Char}
    (h : (attr name (toString m)).toList ++ x = (attr name (toString n)).toList ++ y) : m = n ∧ x = y := by
  obtain ⟨he, hend⟩ := attr_cancel (quotable_toString m) (quotable_toString n) h
  exact ⟨toString_inj he, hend⟩

theorem toList_renderSegment (s : Nat × Nat) (u : List Char) : (renderSegment s).toList ++ u =
    "            <S".toList ++ ((attr "t" (toString s.1)).toList ++ ((attr "d" (toString s.2)).toList ++
      ("/>\n".toList ++ u))) := by
  unfold renderSegment
  simp only [String.toList_append, List.append_assoc]

theorem segment_tells : Tells (fun _ => True) (fun s => (renderSegment s).toList) id := by
  rintro ⟨t, d⟩ ⟨t', d'⟩ - - u v h
  rw [toList_renderSegment, toList_renderSegment] at h
  replace h := List.append_cancel_left h
  obtain ⟨ht, h⟩ := attr_toString_cancel h
  obtain ⟨hd, h⟩ := attr_toString_cancel h
  exact ⟨Prod.ext ht hd, List.append_cancel_left h⟩

theorem segment_ne_stop (s : Nat × Nat) (u v : List Char) :
    (renderSegment s).toList ++ u ≠ "          </SegmentTimeline>\n".toList ++ v := by
  intro h
  rw [toList_renderSegment] at h
  have hat := congrArg (·[10]?) h
  revert hat
  simp

/-- Whether the texts of a listing can stand between quotation marks. -/
structure QuotableListing (l : Listing) : Prop where
  id : Quotable l.representation.id
  codec : Quotable l.representation.codec
  headerTemplate : Quotable l.representation.headerTemplate
  segmentTemplate : Quotable l.representation.segmentTemplate

theorem toList_renderListing (l : Listing) (u : List Char) : (renderListing l).toList ++ u =
    "      <Representation".toList ++ ((attr "id" l.representation.id).toList ++
      ((attr "codecs" l.representation.codec).toList ++ ((attr "bandwidth" (toString l.representation.bitrate)).toList ++
      (">\n".toList ++ ("        <SegmentTemplate".toList ++
      ((attr "timescale" (toString l.representation.timeBase)).toList ++
      ((attr "initialization" l.representation.headerTemplate).toList ++
      ((attr "media" l.representation.segmentTemplate).toList ++ (">\n".toList ++ ("          <SegmentTimeline>\n".toList ++
      ((l.timeline.flatMap (fun s => (renderSegment s).toList) ++ "          </SegmentTimeline>\n".toList) ++
      ("        </SegmentTemplate>\n".toList ++ ("      </Representation>\n".toList ++ u))))))))))))) := by
  unfold renderListing
  simp only [String.toList_append, String.toList_join, List.flatMap_map, List.append_assoc]

theorem listing_tells :
    Tells QuotableListing (fun l => (renderListing l).toList) fun l => (l.representation.id, l.entry) := by
  intro l l' hl hl' u v h
  rw [toList_renderListing, toList_renderListing] at h
  replace h := List.append_cancel_left h
  obtain ⟨hid, h⟩ := attr_cancel hl.id hl'.id h
  obtain ⟨hcodec, h⟩ := attr_cancel hl.codec hl'.codec h
  obtain ⟨hbitrate, h⟩ := attr_toString_cancel h
  replace h := List.append_cancel_left (List.append_cancel_left h)
  obtain ⟨hbase, h⟩ := attr_toString_cancel h
  obtain ⟨hheader, h⟩ := attr_cancel hl.headerTemplate hl'.headerTemplate h
  obtain ⟨hsegment, h⟩ := attr_cancel hl.segmentTemplate hl'.segmentTemplate h
  replace h := List.append_cancel_left (List.append_cancel_left h)
  obtain ⟨htime, h⟩ := segment_tells.flatMap (fun s _ => segment_ne_stop s) (fun _ _ => trivial) (fun _ _ => trivial) h
  have htime : l.timeline = l'.timeline := by simpa using htime
  refine ⟨?_, List.append_cancel_left (List.append_cancel_left h)⟩
  simp only [Listing.entry, hid, hcodec, hbitrate, hbase, hheader, hsegment, htime]

theorem listing_ne_stop (l : Listing) (u v : List Char) :
    (renderListing l).toList ++ u ≠ "    </AdaptationSet>\n".toList ++ v := by
  intro h
  rw [toList_renderListing] at h
  have hat := congrArg (·[4]?) h
  revert hat
  simp

/-- Whether a set lists something, and its texts can stand between quotation marks. -/
structure QuotableSet (set : String × SortedMap String Listing) : Prop where
  id : Quotable set.1
  nonempty : set.2.entries ≠ []
  listings : ∀ l ∈ set.2.values, QuotableListing l

theorem toList_renderSet {set : String × SortedMap String Listing} (h : set.2.entries ≠ []) : ∃ kind : Kind, ∀ u,
    (renderSet set).toList ++ u = "    <AdaptationSet".toList ++ ((attr "id" set.1).toList ++
      ((attr "contentType" kind.name).toList ++ ((attr "mimeType" (kind.name ++ "/mp4")).toList ++
      ((attr "segmentAlignment" "true").toList ++ ((attr "startWithSAP" "1").toList ++ (">\n".toList ++
      ((set.2.values.flatMap (fun l => (renderListing l).toList) ++ "    </AdaptationSet>\n".toList) ++ u))))))) := by
  unfold renderSet
  cases hvalues : set.2.values with
  | nil => exact absurd (List.map_eq_nil_iff.1 hvalues) h
  | cons first rest =>
    refine ⟨first.representation.kind, fun u => ?_⟩
    simp only [String.toList_append, String.toList_join, List.flatMap_map, List.append_assoc]

theorem quotable_kind (kind : Kind) : Quotable kind.name ∧ Quotable (kind.name ++ "/mp4") := by
  cases kind <;> decide

theorem set_tells : Tells QuotableSet (fun set => (renderSet set).toList) fun set =>
    (set.1, set.2.values.map fun l => (l.representation.id, l.entry)) := by
  intro set set' hset hset' u v h
  obtain ⟨kind, hrender⟩ := toList_renderSet hset.nonempty
  obtain ⟨kind', hrender'⟩ := toList_renderSet hset'.nonempty
  rw [hrender, hrender'] at h
  replace h := List.append_cancel_left h
  obtain ⟨hid, h⟩ := attr_cancel hset.id hset'.id h
  obtain ⟨-, h⟩ := attr_cancel (quotable_kind kind).1 (quotable_kind kind').1 h
  obtain ⟨-, h⟩ := attr_cancel (quotable_kind kind).2 (quotable_kind kind').2 h
  replace h := List.append_cancel_left (List.append_cancel_left (List.append_cancel_left h))
  obtain ⟨hlistings, h⟩ := listing_tells.flatMap (fun l _ => listing_ne_stop l) hset.listings hset'.listings h
  exact ⟨Prod.ext hid hlistings, h⟩

theorem set_ne_stop {set : String × SortedMap String Listing} (hset : QuotableSet set) (u v : List Char) :
    (renderSet set).toList ++ u ≠ "  </Period>\n".toList ++ v := by
  intro h
  obtain ⟨kind, hrender⟩ := toList_renderSet hset.nonempty
  rw [hrender] at h
  have hat := congrArg (·[2]?) h
  revert hat
  simp

/-! ## The head of the text -/

theorem quotable_append (s t : String) : Quotable (s ++ t) ↔ Quotable s ∧ Quotable t := by
  unfold Quotable
  rw [String.toList_append, List.mem_append, not_or]

theorem quotable_span (n : Nat) : Quotable (span n) := by
  have hspan : span n = "PT" ++ toString n ++ "S" := rfl
  rw [hspan, quotable_append, quotable_append]
  exact ⟨⟨by decide, quotable_toString n⟩, by decide⟩

theorem quotable_padded (width n : Nat) : Quotable (Instant.padded width n) := by
  unfold Quotable Instant.padded
  rw [String.toList_ofList, List.mem_append, not_or, List.mem_replicate]
  exact ⟨fun h => absurd h.2 (by decide), toList_toString n ▸ quotable_toString n⟩

theorem quotable_yearText (year : Int) : Quotable (Instant.yearText year) := by
  unfold Instant.yearText
  split
  · exact quotable_padded _ _
  · refine (quotable_append _ _).2 ⟨?_, quotable_padded _ _⟩
    split <;> decide

theorem quotable_instant (t : Instant) : Quotable t.render := by
  unfold Instant.render
  simp only [quotable_append, quotable_padded, quotable_yearText, true_and, and_true]
  decide

/-- The attribute that tells how far back segments are kept is there or not. -/
theorem depth_cancel {max max' seconds seconds' : Nat} {x y : List Char}
    (h : (if 0 < max then attr "timeShiftBufferDepth" (span (max * seconds)) else "").toList ++ (">\n".toList ++ x) =
      (if 0 < max' then attr "timeShiftBufferDepth" (span (max' * seconds')) else "").toList ++ (">\n".toList ++ y)) :
    x = y := by
  have hne : ∀ (value : String) (u v : List Char),
      (attr "timeShiftBufferDepth" value).toList ++ u ≠ "".toList ++ (">\n".toList ++ v) := fun value u v hat => by
    have hhead := congrArg List.head? hat
    revert hhead
    simp [attr]
  split at h <;> split at h
  · exact List.append_cancel_left (attr_cancel (quotable_span _) (quotable_span _) h).2
  · exact absurd h (hne _ _ _)
  · exact absurd h.symm (hne _ _ _)
  · exact List.append_cancel_left h

/-- The text up to the first value. -/
def prolog : String :=
  "<?xml" ++ attr "version" "1.0" ++ attr "encoding" "UTF-8" ++ "?>\n" ++
    "<MPD" ++ attr "xmlns" "urn:mpeg:dash:schema:mpd:2011" ++
    attr "profiles" "urn:mpeg:dash:profile:isoff-live:2011" ++ attr "type" "dynamic"

theorem toList_render (m : Mpd) (published : Instant) : (m.render published).toList =
    prolog.toList ++ ((attr "availabilityStartTime" m.availabilityStart.render).toList ++
      ((attr "publishTime" published.render).toList ++ ((attr "minimumUpdatePeriod" (span m.seconds)).toList ++
      ((attr "minBufferTime" (span m.minBufferSeconds)).toList ++
      ((if 0 < m.maxSegments then attr "timeShiftBufferDepth" (span (m.maxSegments * m.seconds)) else "").toList ++
      (">\n".toList ++ ("  <Period id=\"0\" start=\"PT0S\">\n".toList ++
      ((m.sets.entries.flatMap (fun set => (renderSet set).toList) ++ "  </Period>\n".toList) ++
      "</MPD>\n".toList)))))))) := by
  unfold render prolog
  simp only [String.toList_append, String.toList_join, List.flatMap_map, List.append_assoc]

/-- **The text tells the sets**, whatever the head of it says. -/
theorem sets_of_render {m m' : Mpd} (hm : ∀ set ∈ m.sets.entries, QuotableSet set)
    (hm' : ∀ set ∈ m'.sets.entries, QuotableSet set) {published published' : Instant}
    (h : m.render published = m'.render published') :
    (m.sets.entries.map fun set => (set.1, set.2.values.map fun l => (l.representation.id, l.entry))) =
      m'.sets.entries.map fun set => (set.1, set.2.values.map fun l => (l.representation.id, l.entry)) := by
  replace h := congrArg String.toList h
  rw [toList_render, toList_render] at h
  replace h := List.append_cancel_left h
  obtain ⟨-, h⟩ := attr_cancel (quotable_instant _) (quotable_instant _) h
  obtain ⟨-, h⟩ := attr_cancel (quotable_instant _) (quotable_instant _) h
  obtain ⟨-, h⟩ := attr_cancel (quotable_span _) (quotable_span _) h
  obtain ⟨-, h⟩ := attr_cancel (quotable_span _) (quotable_span _) h
  replace h := List.append_cancel_left (depth_cancel h)
  exact (set_tells.flatMap (fun set hset => set_ne_stop hset) hm hm' h).1

/-! ## Manifests that can come about -/

theorem mem_of_find? {set : String} {listings : SortedMap String Listing} {m : Mpd}
    (h : m.sets.find? set = some listings) : (set, listings) ∈ m.sets.entries := by
  obtain ⟨e, he, rfl⟩ := Option.map_eq_some_iff.1 h
  have hkey : e.1 = set := by simpa using List.find?_some he
  exact hkey ▸ List.mem_of_find?_eq_some he

/-- Whether every listing is filed under its own id. -/
def FiledById (m : Mpd) : Prop := ∀ set ∈ m.sets.entries, ∀ l ∈ set.2.entries, l.1 = l.2.representation.id

theorem FiledById.update {m : Mpd} (h : m.FiledById) (set rep : String) {f : Listing → Listing}
    (hf : ∀ l, (f l).representation.id = l.representation.id) : (m.update set rep f).2.FiledById := by
  intro e he l hl
  obtain ⟨e', he', rfl⟩ := List.mem_map.1 he
  split at hl
  · obtain ⟨l', hl', rfl⟩ := List.mem_map.1 hl
    split
    · rw [hf]
      exact h e' he' l' hl'
    · exact h e' he' l' hl'
  · exact h e' he' l hl

theorem FiledById.apply {m : Mpd} (h : m.FiledById) (news : Announcement) : (m.apply news).FiledById := by
  have hfind : ∀ set listings, m.sets.find? set = some listings →
      ∀ l ∈ listings.entries, l.1 = l.2.representation.id := fun set listings hfound =>
    h (set, listings) (mem_of_find? hfound)
  cases news with
  | added r =>
    intro e he l hl
    rcases SortedMap.mem_insertEntry he with rfl | he
    · rcases SortedMap.mem_insertEntry hl with rfl | hl
      · rfl
      · cases hfound : m.sets.find? r.adaptationSet with
        | none =>
          rw [hfound] at hl
          cases hl
        | some listings =>
          rw [hfound] at hl
          exact hfind _ _ hfound l hl
    · exact h e he l hl
  | removed set rep =>
    show (m.remove set rep).2.FiledById
    unfold remove
    split
    · exact h
    · rename_i listings hfound
      intro e he l hl
      dsimp only at he
      split at he
      · exact h e (List.mem_filter.1 he).1 l hl
      · rcases SortedMap.mem_insertEntry he with rfl | he
        · exact hfind _ _ hfound l (List.mem_filter.1 hl).1
        · exact h e he l hl
  | bitrate set rep rate => exact h.update set rep fun _ => rfl
  | codec set rep name => exact h.update set rep fun _ => rfl
  | segment set rep timestamp duration => exact h.update set rep fun _ => rfl
  | relocated path seconds => exact h

theorem FiledById.after {m : Mpd} (h : m.FiledById) (history : List Announcement) : (m.after history).FiledById := by
  induction history generalizing m with
  | nil => exact h
  | cons news history ih => exact ih (h.apply news)

/-- Whether no id, codec or template in a manifest has a quotation mark in it. -/
def NoQuotes (m : Mpd) : Prop :=
  ∀ set ∈ m.sets.entries, Quotable set.1 ∧ ∀ l ∈ set.2.entries, QuotableListing l.2

theorem quotableSet_after {m : Mpd} (hm : m.sets = .empty) {history : List Announcement}
    (h : (m.after history).NoQuotes) : ∀ set ∈ (m.after history).sets.entries, QuotableSet set := by
  have hne := NoEmptySet.after (m := m) (fun e he => by rw [hm] at he; cases he) history
  intro set hset
  refine ⟨(h set hset).1, hne set hset, fun l hl => ?_⟩
  obtain ⟨e, he, rfl⟩ := List.mem_map.1 hl
  exact (h set hset).2 e he

/-- What is listed can be read off the listings alone, as each is filed under its own id. -/
theorem contents_after {m : Mpd} (hm : m.sets = .empty) (history : List Announcement) :
    (m.after history).contents =
      (m.after history).sets.entries.map fun set =>
        (set.1, set.2.values.map fun l => (l.representation.id, l.entry)) := by
  have hfiled := FiledById.after (m := m) (fun e he => by rw [hm] at he; cases he) history
  refine List.map_congr_left fun set hset => ?_
  refine congrArg (Prod.mk set.1) ?_
  rw [SortedMap.values, List.map_map]
  exact List.map_congr_left fun l hl => congrArg (·, l.2.entry) (hfiled set hset l hl)

/-- **The text of a manifest tells what it lists.**  Of any two histories, as long as no id, codec or template has a
quotation mark in it: when the texts are the same, whenever each was published, so are the ids of the sets and under each
of them the ids of the representations, in order, with codec, bitrate, time base, templates and time line. -/
theorem render_tells {m m' : Mpd} (hm : m.sets = .empty) (hm' : m'.sets = .empty) (history history' : List Announcement)
    (hq : (m.after history).NoQuotes) (hq' : (m'.after history').NoQuotes) {published published' : Instant}
    (h : (m.after history).render published = (m'.after history').render published') :
    (m.after history).contents = (m'.after history').contents := by
  rw [contents_after hm, contents_after hm']
  exact sets_of_render (quotableSet_after hm hq) (quotableSet_after hm' hq') h

/-- A codec told after the first segment and one that the representation was added with, in manifests of two places. -/
theorem render_tells_codecToldLater :
    let m : Mpd := ⟨⟨"live.mpd"⟩, 2, 4, 2, ⟨0, 0⟩, .empty⟩
    let r (codec : String) : Representation := ⟨"1", "7", .audio, codec, 0, 12800, "a_$Time$.m4a", "a_init.m4a"⟩
    let history : List Announcement := [.added (r "mp4a.40.2"), .segment "1" "7" 0 10, .codec "1" "7" "mp4a.40.5"]
    let history' : List Announcement := [.relocated ⟨"other.mpd"⟩ 2, .added (r "mp4a.40.5"), .segment "1" "7" 0 10]
    (m.after history).NoQuotes ∧ (m.after history').NoQuotes ∧
      (m.after history).render ⟨5, 0⟩ = (m.after history').render ⟨5, 0⟩ ∧
      (m.after history).contents = (m.after history').contents ∧
      (m.after history').contents =
        [("1", [("7", ⟨"mp4a.40.5", 0, 12800, "a_init.m4a", "a_$Time$.m4a", [(0, 10)]⟩)])] := by
  intro m r history history'
  let listing : Listing := ⟨r "mp4a.40.5", [(0, 10)]⟩
  have hsets : (m.after history).sets.entries = [("1", ⟨[("7", listing)]⟩)] := rfl
  have hsets' : (m.after history').sets.entries = [("1", ⟨[("7", listing)]⟩)] := rfl
  have hlisting : QuotableListing listing := ⟨by decide, by decide, by decide, by decide⟩
  have hquotes : ∀ n : Mpd, n.sets.entries = [("1", ⟨[("7", listing)]⟩)] → n.NoQuotes := fun n hn set hset => by
    rw [hn, List.mem_singleton] at hset
    subst hset
    exact ⟨by decide, fun l hl => by rwa [List.mem_singleton.1 hl]⟩
  have hrender : (m.after history).render ⟨5, 0⟩ = (m.after history').render ⟨5, 0⟩ := by
    unfold render
    rw [hsets, hsets']
    rfl
  exact ⟨hquotes _ hsets, hquotes _ hsets', hrender,
    render_tells rfl rfl history history' (hquotes _ hsets) (hquotes _ hsets') hrender, by rw [contents, hsets']; rfl⟩

end Mpd
end Packager
