import Packager.Proofs.Journal
import Packager.Proofs.Operations
import Packager.Proofs.SortedEntries
/-!
# Proofs.TrackHeaders — what a track does with its initialization segment and its media segments

A track is described in its segmenter exactly when its initialization segment was written in its lifetime, and as long as
it is not, nothing of it is open or in the slot (`Channel.Matches`).  Feeding a track keeps to that and puts no media
segment out (`feed_feeds`).  Publishing and draining put segments out, described or not (`publish_closes`,
`drain_closes`).
-/
namespace Packager

/-- Whether two journals say the same of every initialization segment. -/
def SameHeaders (settings : Settings) (j k : Journal) : Prop :=
  ∀ id kind, HeaderWritten settings id kind k ↔ HeaderWritten settings id kind j

namespace SameHeaders

theorem refl (settings : Settings) (j : Journal) : SameHeaders settings j j := fun _ _ => Iff.rfl

theorem trans {settings : Settings} {j k l : Journal} (h : SameHeaders settings j k) (h' : SameHeaders settings k l) :
    SameHeaders settings j l := fun id kind => (h' id kind).trans (h id kind)

theorem cons {settings : Settings} {j k : Journal} {e : Effect} (h : SameHeaders settings j k)
    (he : ∀ id, ¬e.Concerns settings id) : SameHeaders settings j (e :: k) := fun id kind =>
  (headerWritten_cons (he id)).trans (h id kind)

end SameHeaders

/-- A journal that grew, each media segment being allowed where it was put out. -/
inductive Grown (settings : Settings) (allowed : TrackId → Kind → Journal → Prop) (j : Journal) : Journal → Prop where
  | refl : Grown settings allowed j j
  | step {k : Journal} {e : Effect} (h : Grown settings allowed j k)
      (he : ∀ id kind, e.PutsOut settings id kind → allowed id kind k) : Grown settings allowed j (e :: k)

namespace Grown

variable {settings : Settings} {allowed : TrackId → Kind → Journal → Prop} {j k l : Journal}

theorem trans (h : Grown settings allowed j k) (h' : Grown settings allowed k l) : Grown settings allowed j l := by
  induction h' with
  | refl => exact h
  | step _ he ih => exact ih.step he

theorem mono {allowed' : TrackId → Kind → Journal → Prop} (h : Grown settings allowed j k)
    (himp : ∀ id kind l, allowed id kind l → allowed' id kind l) : Grown settings allowed' j k := by
  induction h with
  | refl => exact .refl
  | step _ he ih => exact ih.step fun id kind hp => himp id kind _ (he id kind hp)

theorem manifest (h : Grown settings allowed j k) (result : Except Failure Unit) :
    Grown settings allowed j (.manifest result :: k) := h.step nofun

theorem removed (h : Grown settings allowed j k) (set rep : String) :
    Grown settings allowed j (.announced (.removed set rep) :: k) := h.step nofun

/-- The effects that were added, with what held where each segment was put out. -/
theorem exists_new (h : Grown settings allowed j k) : ∃ new, k = new ++ j ∧
    ∀ later e earlier, new = later ++ e :: earlier → ∀ id kind, e.PutsOut settings id kind →
      allowed id kind (earlier ++ j) := by
  induction h with
  | refl =>
    refine ⟨[], rfl, fun later e earlier hn => ?_⟩
    cases later <;> cases hn
  | @step k e _ he ih =>
    obtain ⟨new, rfl, hall⟩ := ih
    refine ⟨e :: new, rfl, fun later e' earlier hn => ?_⟩
    cases later with
    | nil =>
      obtain ⟨rfl, rfl⟩ := List.cons.inj hn
      exact he
    | cons x later => exact hall later e' earlier (List.cons.inj hn).2

end Grown

/-! ## One track -/

namespace Channel

variable (w : World) (settings : Settings) (id : TrackId)

def described (c : Channel) : Bool := c.segmenter.assembly.described

/-- Whether a track is described exactly when its initialization segment was written, and else holds nothing. -/
structure Matches (j : Journal) (c : Channel) : Prop where
  header : c.described = true ↔ HeaderWritten settings id c.kind j
  empty : c.described = false → c.slot.isEmpty = true ∧ c.segmenter.assembly.fragment.isEmpty = true

/-- What closing parts of a track comes to: the track stays what it was, no initialization segment is written, and what is
put out is of the track. -/
structure Closes (c : Channel) (j : Journal) (d : Channel) (k : Journal) : Prop where
  kind : d.kind = c.kind
  described : d.described = c.described
  same : SameHeaders settings j k
  grown : ∀ allowed : TrackId → Kind → Journal → Prop,
    (∀ l, SameHeaders settings j l → allowed id c.kind l) → Grown settings allowed j k

section
variable {settings id}

theorem Matches.same {j k : Journal} {c : Channel} (h : c.Matches settings id j) (hs : SameHeaders settings j k) :
    c.Matches settings id k := ⟨h.header.trans (hs id c.kind).symm, h.empty⟩

/-- A track that is as described as another and, as long as it is not, holds the same. -/
theorem Matches.of {j : Journal} {c d : Channel} (h : c.Matches settings id j) (hk : d.kind = c.kind)
    (hd : d.described = c.described)
    (hheld : d.described = false → d.slot = c.slot ∧ d.segmenter.assembly.fragment = c.segmenter.assembly.fragment) :
    d.Matches settings id j := by
  refine ⟨by rw [hd, hk]; exact h.header, fun hn => ?_⟩
  obtain ⟨hs, hf⟩ := hheld hn
  rw [hs, hf]
  exact h.empty (hd ▸ hn)

theorem Closes.refl (c : Channel) (j : Journal) : Closes settings id c j c j :=
  ⟨rfl, rfl, .refl settings j, fun _ _ => .refl⟩

theorem Closes.trans {c d e : Channel} {j k l : Journal} (h : Closes settings id c j d k)
    (h' : Closes settings id d k e l) : Closes settings id c j e l := by
  refine ⟨h'.kind.trans h.kind, h'.described.trans h.described, h.same.trans h'.same, fun allowed ha => ?_⟩
  refine (h.grown allowed ha).trans (h'.grown allowed fun m hm => ?_)
  rw [h.kind]
  exact ha m (h.same.trans hm)

end

/-- **Publishing** writes one file, which is no initialization segment, announces it when that worked, and frees the
slot. -/
theorem publish_closes (c : Channel) (j : Journal) :
    Closes settings id c j (c.publish w.outlet settings id j).1.2 (c.publish w.outlet settings id j).2 ∧
    (c.publish w.outlet settings id j).1.2 = { c with slot := c.slot.clear } := by
  have hsame : ∀ r, SameHeaders settings j (.wrote (c.segmentPath settings id) c.slot.data r :: j) := fun r =>
    (SameHeaders.refl settings j).cons fun id' => not_concerns_segment settings id' id _ _ _ r
  have hgrown : ∀ r, ∀ allowed : TrackId → Kind → Journal → Prop,
      (∀ l, SameHeaders settings j l → allowed id c.kind l) →
      Grown settings allowed j (.wrote (c.segmentPath settings id) c.slot.data r :: j) := by
    intro r allowed h
    refine Grown.refl.step fun id' kind' hp => ?_
    obtain ⟨rfl, rfl⟩ := hp.inj (.wrote c.slot.timestamp c.slot.data r : Effect.PutsOut settings id c.kind _)
    exact h j (.refl settings j)
  unfold publish Slot.writeTo
  simp only [StateM.bind_apply, World.writeFile_apply]
  generalize w.writeFile j (c.segmentPath settings id) c.slot.data = r
  rcases r with e | ⟨⟩
  · exact ⟨⟨rfl, rfl, hsame _, hgrown _⟩, rfl⟩
  · refine ⟨⟨rfl, rfl, (hsame _).cons (fun _ h => h), fun allowed h => (hgrown _ allowed h).step ?_⟩, rfl⟩
    intro id' kind' hp
    obtain ⟨rfl, rfl⟩ := hp.inj (.announced c.slot.timestamp c.slot.duration : Effect.PutsOut settings id c.kind _)
    exact h _ (hsame _)

def publishIf (b : Bool) (c : Channel) (j : Journal) : (Nat × Channel) × Journal :=
  if b then drain.publishOne w.outlet settings id c j else ((0, c), j)

theorem publishIf_closes (b : Bool) (c : Channel) (j : Journal) :
    let out := c.publishIf w settings id b j
    Closes settings id c j out.1.2 out.2 ∧ out.1.2.segmenter = c.segmenter ∧
      (out.1.2.slot.isEmpty = true ∨ b = false ∧ out.1.2.slot = c.slot) := by
  cases b with
  | false => exact ⟨.refl c j, rfl, .inr ⟨rfl, rfl⟩⟩
  | true =>
    obtain ⟨hc, he⟩ := publish_closes w settings id c j
    have he' : (c.publishIf w settings id true j).1.2 = { c with slot := c.slot.clear } := he
    have hseg : (c.publishIf w settings id true j).1.2.segmenter = c.segmenter := by rw [he']
    have hslot : (c.publishIf w settings id true j).1.2.slot = c.slot.clear := by rw [he']
    exact ⟨hc, hseg, .inl (congrArg Slot.isEmpty hslot)⟩

theorem freed_isEmpty (c : Channel) (j : Journal) :
    (c.publishIf w settings id c.isHolding j).1.2.slot.isEmpty = true := by
  obtain ⟨-, -, hfreed | ⟨hb, hsame⟩⟩ := publishIf_closes w settings id c.isHolding c j
  · exact hfreed
  · rw [hsame]
    simpa [isHolding] using hb

/-- `drain` publishes what is held, finishes and publishes what that left. -/
theorem drain_apply (c : Channel) (j : Journal) :
    c.drain w.outlet settings id j =
      let held := c.publishIf w settings id c.isHolding j
      let done := held.1.2.finish
      let last := done.2.publishIf w settings id done.1 held.2
      ((held.1.1 + last.1.1, last.1.2), last.2) := by
  unfold drain publishIf
  cases c.isHolding with
  | false => cases h : c.finish.1 <;> simp [h]
  | true => cases h : (drain.publishOne w.outlet settings id c j).1.2.finish.1 <;> simp [h]

theorem finish_closes (c : Channel) (j : Journal) : Closes settings id c j c.finish.2 j ∧
    (c.slot.isEmpty = true → c.finish.2.segmenter.assembly.fragment.isEmpty = true) ∧
    (c.finish.1 = true ∨ c.finish.2.slot = c.slot) := by
  obtain ⟨hk, hd, hf, hs⟩ := c.segmenter.finish_keeps c.slot
  refine ⟨⟨hk, hd, .refl settings j, fun _ _ => .refl⟩, hf, hs.imp (fun h => ?_) fun h => h⟩
  unfold finish
  simp only [h]

/-- **Draining a track** puts out what it has and leaves nothing behind. -/
theorem drain_closes (c : Channel) (j : Journal) :
    let out := c.drain w.outlet settings id j
    Closes settings id c j out.1.2 out.2 ∧ out.1.2.slot.isEmpty = true ∧
      out.1.2.segmenter.assembly.fragment.isEmpty = true := by
  rw [drain_apply]
  obtain ⟨hheld, -, -⟩ := publishIf_closes w settings id c.isHolding c j
  have hfree := freed_isEmpty w settings id c j
  generalize c.publishIf w settings id c.isHolding j = held at hheld hfree ⊢
  obtain ⟨hfinish, hfragment, hfilled⟩ := finish_closes settings id held.1.2 held.2
  obtain ⟨hlast, hseg, hslot'⟩ := publishIf_closes w settings id held.1.2.finish.1 held.1.2.finish.2 held.2
  refine ⟨(hheld.trans hfinish).trans hlast, ?_, ?_⟩
  · rcases hslot' with h | ⟨hb, h⟩
    · exact h
    · rcases hfilled with ht | hs
      · rw [ht] at hb
        cases hb
      · exact (congrArg Slot.isEmpty (h.trans hs)).trans hfree
  · exact (congrArg (·.assembly.fragment.isEmpty) hseg).trans (hfragment hfree)

theorem append_keeps (c : Channel) : c.append.1.kind = c.kind ∧ c.append.1.described = c.described :=
  c.segmenter.append_keeps c.slot

/-- What feeding a track comes to: the track keeps to its initialization segment, the other tracks' are left alone, and no
media segment is put out. -/
structure Feeds (c : Channel) (j : Journal) (d : Channel) (k : Journal) : Prop where
  kept : d.Matches settings id k
  kind : d.kind = c.kind
  others : ∀ id', id' ≠ id → ∀ kind, HeaderWritten settings id' kind k ↔ HeaderWritten settings id' kind j
  grown : ∀ allowed : TrackId → Kind → Journal → Prop, Grown settings allowed j k

/-- Trying to write the initialization segment of a track is no other track's matter, and puts no media segment out. -/
theorem tried_feeds {c d : Channel} {j : Journal} (content : Bytes) (result : Except IoError Unit)
    (hkind : d.kind = c.kind)
    (hkept : d.Matches settings id (.wrote (c.headerPath settings id) content result :: j)) :
    Feeds settings id c j d (.wrote (c.headerPath settings id) content result :: j) :=
  ⟨hkept, hkind, fun _ hne _ => headerWritten_cons (not_concerns_header (Ne.symm hne) _ _ _),
    fun _ => Grown.refl.step fun _ _ hp => absurd hp (not_putsOut_header settings _ id _ _ _ _)⟩

/-- An initialization segment that cannot be written leaves the track as it was, with nothing open. -/
theorem failed_feeds {c d : Channel} {j : Journal} (h : c.Matches settings id j) (hn : c.described = false)
    (content : Bytes) (e : IoError) (hkind : d.kind = c.kind) (hd : d.described = false) (hslot : d.slot = c.slot)
    (hfragment : d.segmenter.assembly.fragment.isEmpty = true) :
    Feeds settings id c j d (.wrote (c.headerPath settings id) content (.error e) :: j) := by
  have hstill : HeaderWritten settings id c.kind (.wrote (c.headerPath settings id) content (.error e) :: j) ↔
      HeaderWritten settings id c.kind j := headerWritten_cons fun h => h
  refine tried_feeds settings id content (.error e) hkind ⟨?_, fun _ => ⟨?_, hfragment⟩⟩
  · rw [hkind, hstill, ← h.header, hd, hn]
  · rw [hslot]
    exact (h.empty hn).1

theorem written_feeds {c d : Channel} {j : Journal} (content : Bytes) (hkind : d.kind = c.kind)
    (hd : d.described = true) :
    Feeds settings id c j d (.wrote (c.headerPath settings id) content (.ok ()) :: j) := by
  refine tried_feeds settings id content (.ok ()) hkind ⟨⟨fun _ => ?_, fun _ => hd⟩, fun hn => ?_⟩
  · rw [hkind]
    exact headerWritten_wrote settings id c.kind content j
  · rw [hd] at hn
    cases hn

variable {settings id} in
theorem Feeds.codec {c d : Channel} {j k : Journal} (h : Feeds settings id c j d k) (set rep codec : String) :
    Feeds settings id c j d (.announced (.codec set rep codec) :: k) :=
  ⟨h.kept.same ((SameHeaders.refl settings k).cons fun _ h => h), h.kind,
    fun id' hne kind => (headerWritten_cons (by exact fun h => h)).trans (h.others id' hne kind),
    fun allowed => (h.grown allowed).step nofun⟩

/-- A segmenter that took a frame, was configured and asked for its initialization segment is of the same kind and has the
same open.  When the segment could be made, it is described, and was before exactly if the segment was made before. -/
theorem described_keeps {c : Channel} {frame : Frame} {isNew : Bool} {g g' state : Segmenter} {free slot : Slot}
    {result : Except Failure Bool} (hm : c.segmenter.manage frame = .ok (isNew, g)) (hc : g.configure = .ok g')
    (hh : g'.describe free = ⟨result, state, slot⟩) :
    state.kind = c.kind ∧ state.assembly.fragment = c.segmenter.assembly.fragment ∧
      match result with
      | .error _ => state.assembly.described = c.described
      | .ok isMade => c.described = !isMade ∧ state.assembly.described = true := by
  obtain ⟨hk, clock, pending, phase, ha⟩ := Segmenter.manage_state hm
  obtain ⟨ticks, phase', rfl⟩ := Segmenter.configure_state hc
  have hd : g.assembly.described = c.described := by rw [ha]; rfl
  have hf : g.assembly.fragment = c.segmenter.assembly.fragment := by rw [ha]
  obtain ⟨hk', hf', hcases⟩ := Segmenter.describe_cases _ free
  rw [hh] at hk' hf' hcases
  refine ⟨hk'.trans hk, hf'.trans hf, ?_⟩
  rcases hcases with ⟨⟨failure, rfl⟩, hstill⟩ | ⟨rfl, hbefore, hnow⟩ | ⟨rfl, hbefore, hnow⟩
  · exact hstill.trans hd
  · exact ⟨hd.symm.trans hbefore, hnow⟩
  · exact ⟨hd.symm.trans hbefore, hnow⟩

/-- **The endings of a frame**, with what the channel, the report and the journal come to: the segmenter refuses it, is not
configured yet, or cannot make its initialization segment; that was made before and the frame is appended; or it is made
now, and its file cannot be written, or is, and the frame is appended. -/
inductive Course (c : Channel) (frame : Frame) (j : Journal) : Fed × Journal → Prop where
  | refused {failure : Failure} (hm : c.segmenter.manage frame = .error failure) :
      Course c frame j (⟨c, none, some failure⟩, j)
  | waiting {isNew : Bool} {g : Segmenter} {lack : Lack} (hm : c.segmenter.manage frame = .ok (isNew, g))
      (hc : g.configure = .error lack) : Course c frame j (⟨⟨g, c.slot⟩, none, none⟩, j)
  | rejected {isNew : Bool} {g g' state : Segmenter} {slot : Slot} {failure : Failure}
      (hm : c.segmenter.manage frame = .ok (isNew, g)) (hc : g.configure = .ok g')
      (hh : g'.describe (.empty settings.segment.maxBytes) = ⟨.error failure, state, slot⟩) :
      Course c frame j (⟨⟨state, c.slot⟩, none, some failure⟩, j)
  | appended {isNew : Bool} {g g' state : Segmenter} {slot : Slot} (hm : c.segmenter.manage frame = .ok (isNew, g))
      (hc : g.configure = .ok g') (hh : g'.describe (.empty settings.segment.maxBytes) = ⟨.ok false, state, slot⟩) :
      Course c frame j (⟨(append ⟨state, c.slot⟩).1, none, (append ⟨state, c.slot⟩).2⟩, j)
  | failed {isNew : Bool} {g g' state : Segmenter} {slot : Slot} {e : IoError}
      (hm : c.segmenter.manage frame = .ok (isNew, g)) (hc : g.configure = .ok g')
      (hh : g'.describe (.empty settings.segment.maxBytes) = ⟨.ok true, state, slot⟩)
      (hw : w.writeFile j (c.headerPath settings id) slot.data = .error e) :
      Course c frame j (⟨⟨state.flush, c.slot⟩, none, some (.io e)⟩,
        .wrote (c.headerPath settings id) slot.data (.error e) :: j)
  | made {isNew : Bool} {g g' state : Segmenter} {slot : Slot} (hm : c.segmenter.manage frame = .ok (isNew, g))
      (hc : g.configure = .ok g') (hh : g'.describe (.empty settings.segment.maxBytes) = ⟨.ok true, state, slot⟩)
      (hw : w.writeFile j (c.headerPath settings id) slot.data = .ok ()) :
      Course c frame j (⟨(append ⟨state, c.slot⟩).1, some (c.headerPath settings id), (append ⟨state, c.slot⟩).2⟩,
        .announced (.codec c.adaptationSet (toString id) state.codec) ::
          .wrote (c.headerPath settings id) slot.data (.ok ()) :: j)

theorem feed_course (c : Channel) (frame : Frame) (j : Journal) :
    Course w settings id c frame j (c.feed w.outlet settings id frame j) := by
  unfold feed
  cases hm : c.segmenter.manage frame with
  | error failure => exact .refused hm
  | ok r =>
    obtain ⟨isNew, g⟩ := r
    dsimp only
    cases hc : g.configure with
    | error lack => exact .waiting hm hc
    | ok g' =>
      dsimp only
      generalize hh : g'.describe (.empty settings.segment.maxBytes) = header
      obtain ⟨result, state, slot⟩ := header
      rcases result with failure | made
      · exact .rejected hm hc hh
      · cases made with
        | false => exact .appended hm hc hh
        | true =>
          have hkind : kind ⟨state, c.slot⟩ = c.kind := (described_keeps hm hc hh).1
          have hpath : headerPath settings id ⟨state, c.slot⟩ = c.headerPath settings id := by
            unfold headerPath
            rw [hkind]
          have hset : adaptationSet ⟨state, c.slot⟩ = c.adaptationSet := congrArg Naming.adaptationSet hkind
          simp only [StateM.bind_apply, Slot.writeTo, World.writeFile_apply, hpath]
          cases hw : w.writeFile j (c.headerPath settings id) slot.data with
          | error e => exact .failed hm hc hh hw
          | ok =>
            simp only [StateM.bind_apply, World.announce_apply, hset]
            exact .made hm hc hh hw

/-- **Feeding a track** writes its initialization segment before anything is appended, and notes it when that worked. -/
theorem feed_feeds {c : Channel} {j : Journal} (h : c.Matches settings id j) (frame : Frame) :
    Feeds settings id c j (c.feed w.outlet settings id frame j).1.channel (c.feed w.outlet settings id frame j).2 := by
  have still : ∀ d : Channel, d.Matches settings id j → d.kind = c.kind → Feeds settings id c j d j :=
    fun d hd hk => ⟨hd, hk, fun _ _ _ => Iff.rfl, fun _ => .refl⟩
  have hcourse := feed_course w settings id c frame j
  generalize c.feed w.outlet settings id frame j = out at hcourse ⊢
  -- only the last two write, and the track was not described until then
  cases hcourse with
  | refused => exact still c h rfl
  | @waiting _ g _ hm hc =>
    obtain ⟨hk, clock, pending, phase, ha⟩ := Segmenter.manage_state hm
    refine still ⟨g, c.slot⟩ (h.of hk ?_ fun _ => ⟨rfl, by rw [ha]⟩) hk
    show g.assembly.described = c.segmenter.assembly.described
    rw [ha]
  | @rejected _ _ _ state slot _ hm hc hh =>
    obtain ⟨hk, hf, hd⟩ := described_keeps hm hc hh
    exact still ⟨state, c.slot⟩ (h.of hk hd fun _ => ⟨rfl, hf⟩) hk
  | @appended _ _ _ state slot hm hc hh =>
    obtain ⟨hk, hf, hbefore, hd⟩ := described_keeps hm hc hh
    obtain ⟨hak, had⟩ := append_keeps ⟨state, c.slot⟩
    refine still (append ⟨state, c.slot⟩).1 (h.of (hak.trans hk) (had.trans (hd.trans hbefore.symm)) fun hn => ?_)
      (hak.trans hk)
    rw [had.trans hd] at hn
    cases hn
  | @failed _ _ _ state slot e hm hc hh hw =>
    obtain ⟨hk, hf, hbefore, hd⟩ := described_keeps hm hc hh
    exact failed_feeds settings id h hbefore slot.data e (d := ⟨state.flush, c.slot⟩) (state.kind_flush.trans hk) rfl rfl
      rfl
  | @made _ _ _ state slot hm hc hh hw =>
    obtain ⟨hk, hf, hbefore, hd⟩ := described_keeps hm hc hh
    obtain ⟨hak, had⟩ := append_keeps ⟨state, c.slot⟩
    exact (written_feeds settings id slot.data (hak.trans hk) (had.trans hd)).codec _ _ _

end Channel
end Packager
