import Packager.Proofs.SealedSlots
import Packager.Proofs.TrackHeaders
/-!
# Proofs.Emission — what a track adds to the journal

Taking a frame adds the initialization segment of the track at most (`Heads`).  Publishing adds, for each segment, the
write of its file and, when that worked, its announcement right after (`Emits`).  `Journal.published` reads the published
files back from a journal.
-/
namespace Packager

/-- What taking a frame adds to the journal: nothing, or the initialization segment of the track. -/
inductive Heads (settings : Settings) (id : TrackId) (kind : Kind) (j : Journal) : Journal → Prop where
  | nothing : Heads settings id kind j j
  | failed (content : Bytes) (e : IoError) : Heads settings id kind j
      (.wrote (Naming.headerPath settings.folder settings.baseName id (Naming.fileExtension kind)) content (.error e) :: j)
  | made (content : Bytes) (codec : String) : Heads settings id kind j
      (.announced (.codec (Naming.adaptationSet kind) (toString id) codec) ::
        .wrote (Naming.headerPath settings.folder settings.baseName id (Naming.fileExtension kind)) content (.ok ()) :: j)

/-- What publishing segments of a track adds to the journal: each file that was written is announced at once.  The files
are listed in order. -/
inductive Emits (settings : Settings) (id : TrackId) (kind : Kind) (j : Journal) : List Path → Journal → Prop where
  | nothing : Emits settings id kind j [] j
  | failed {paths : List Path} {k : Journal} (h : Emits settings id kind j paths k) (timestamp : Nat) (content : Bytes)
      (e : IoError) : Emits settings id kind j paths
      (.wrote (Naming.segmentPath settings.folder settings.baseName id timestamp (Naming.fileExtension kind)) content
        (.error e) :: k)
  | published {paths : List Path} {k : Journal} (h : Emits settings id kind j paths k) (timestamp duration : Nat)
      (f : Fragment) (ht : f.decodeTime = .ofNat timestamp) : Emits settings id kind j
      (paths ++ [Naming.segmentPath settings.folder settings.baseName id timestamp (Naming.fileExtension kind)])
      (.announced (.segment (Naming.adaptationSet kind) (toString id) timestamp duration) ::
        .wrote (Naming.segmentPath settings.folder settings.baseName id timestamp (Naming.fileExtension kind)) f.encode
          (.ok ()) :: k)

/-- The files of the segments that were published, in order: those written right before a segment was announced. -/
def Journal.published : Journal → List Path
  | [] => []
  | e :: j =>
    match e, j with
    | .announced (.segment ..), .wrote path _ (.ok ()) :: _ => published j ++ [path]
    | _, _ => published j

section
variable {settings : Settings} {id : TrackId} {kind : Kind} {j k l : Journal}

theorem Heads.published_eq (h : Heads settings id kind j k) : k.published = j.published := by
  cases h <;> rfl

theorem Emits.trans {paths more : List Path} (h : Emits settings id kind j paths k)
    (h' : Emits settings id kind k more l) : Emits settings id kind j (paths ++ more) l := by
  induction h' with
  | nothing =>
    rw [List.append_nil]
    exact h
  | failed _ timestamp content e ih => exact ih.failed timestamp content e
  | published _ timestamp duration f ht ih =>
    rw [← List.append_assoc]
    exact ih.published timestamp duration f ht

theorem Emits.published_eq {paths : List Path} (h : Emits settings id kind j paths k) :
    k.published = j.published ++ paths := by
  induction h with
  | nothing => exact (List.append_nil _).symm
  | failed _ _ _ _ ih => exact ih
  | @published paths k _ timestamp duration f ht ih =>
    rw [← List.append_assoc, ← ih]
    rfl

end

namespace Channel

variable (w : World) (settings : Settings) (id : TrackId)

theorem feed_heads (c : Channel) (frame : Frame) (j : Journal) :
    let out := c.feed w.outlet settings id frame j
    out.1.channel.kind = c.kind ∧ (c.slot.Sealed → out.1.channel.slot.Sealed) ∧ Heads settings id c.kind j out.2 := by
  have hcourse := feed_course w settings id c frame j
  generalize c.feed w.outlet settings id frame j = out at hcourse ⊢
  cases hcourse with
  | refused => exact ⟨rfl, fun h => h, .nothing⟩
  | waiting hm hc => exact ⟨(Segmenter.manage_state hm).1, fun h => h, .nothing⟩
  | rejected hm hc hh => exact ⟨(described_keeps hm hc hh).1, fun h => h, .nothing⟩
  | @appended _ _ _ state _ hm hc hh =>
    have hk := (append_keeps ⟨state, c.slot⟩).1.trans (described_keeps hm hc hh).1
    exact ⟨hk, fun h => state.sealed_append h, .nothing⟩
  | @failed _ _ _ state slot e hm hc hh hw =>
    exact ⟨state.kind_flush.trans (described_keeps hm hc hh).1, fun h => h, .failed slot.data e⟩
  | @made _ _ _ state slot hm hc hh hw =>
    have hk := (append_keeps ⟨state, c.slot⟩).1.trans (described_keeps hm hc hh).1
    exact ⟨hk, fun h => state.sealed_append h, .made slot.data _⟩

/-- **Publishing a media segment** writes one file and announces it when that worked. -/
theorem publish_emits {c : Channel} {f : Fragment} (h : c.slot.Holds f) (j : Journal) :
    let out := c.publish w.outlet settings id j
    out.1.2 = { c with slot := c.slot.clear } ∧
    ((∃ e, out.1.1 = .error (.io e) ∧ Emits settings id c.kind j [] out.2 ∧
        out.2 = .wrote (c.segmentPath settings id) c.slot.data (.error e) :: j) ∨
      (out.1.1 = .ok (c.segmentPath settings id) ∧ Emits settings id c.kind j [c.segmentPath settings id] out.2 ∧
        out.2 = .announced (.segment c.adaptationSet (toString id) c.slot.timestamp c.slot.duration) ::
          .wrote (c.segmentPath settings id) c.slot.data (.ok ()) :: j)) := by
  unfold publish Slot.writeTo
  simp only [StateM.bind_apply, World.writeFile_apply]
  generalize w.writeFile j (c.segmentPath settings id) c.slot.data = written
  rcases written with e | ⟨⟩
  · exact ⟨rfl, .inl ⟨e, rfl, Emits.nothing.failed c.slot.timestamp c.slot.data e, rfl⟩⟩
  · refine ⟨rfl, .inr ⟨rfl, ?_, rfl⟩⟩
    rw [h.data]
    exact Emits.nothing.published c.slot.timestamp c.slot.duration f h.decodeTime

/-- Publishing one segment if there is one: the count is that of the files. -/
theorem publishIf_emits (b : Bool) {c : Channel} (h : b = true → ∃ f, c.slot.Holds f) (j : Journal) :
    let out := c.publishIf w settings id b j
    out.1.2.kind = c.kind ∧ (out.1.2.slot = c.slot ∨ out.1.2.slot = c.slot.clear) ∧
      ∃ paths, paths.length = out.1.1 ∧ Emits settings id c.kind j paths out.2 := by
  cases b with
  | false => exact ⟨rfl, .inl rfl, [], rfl, .nothing⟩
  | true =>
    obtain ⟨f, hf⟩ := h rfl
    obtain ⟨hfreed, hout⟩ := publish_emits w settings id hf j
    unfold publishIf drain.publishOne
    simp only [if_true, StateM.bind_apply, StateM.pure_apply]
    generalize c.publish w.outlet settings id j = out at hfreed hout ⊢
    obtain ⟨⟨result, d⟩, k⟩ := out
    dsimp only at hfreed hout ⊢
    subst hfreed
    refine ⟨rfl, .inr rfl, ?_⟩
    rcases hout with ⟨e, rfl, hk, -⟩ | ⟨rfl, hk, -⟩
    · exact ⟨[], rfl, hk⟩
    · exact ⟨_, rfl, hk⟩

/-- **Draining a track** publishes what it has; the answer counts the files. -/
theorem drain_emits {c : Channel} (h : c.slot.Sealed) (j : Journal) :
    let out := c.drain w.outlet settings id j
    out.1.2.kind = c.kind ∧ out.1.2.slot.Sealed ∧
      ∃ paths, paths.length = out.1.1 ∧ Emits settings id c.kind j paths out.2 := by
  rw [drain_apply]
  obtain ⟨hk, hslot, paths, hlen, hemits⟩ :=
    publishIf_emits w settings id c.isHolding (fun hb => h (by simpa [isHolding] using hb)) j
  generalize c.publishIf w settings id c.isHolding j = held at hk hslot hlen hemits ⊢
  have hsealed : held.1.2.slot.Sealed := by
    rcases hslot with hs | hs <;> rw [hs]
    · exact h
    · exact c.slot.sealed_clear
  have hkind : held.1.2.finish.2.kind = c.kind := (held.1.2.segmenter.finish_keeps held.1.2.slot).1.trans hk
  obtain ⟨hk', hslot', more, hlen', hemits'⟩ :=
    publishIf_emits w settings id held.1.2.finish.1 (fun hb => holds_of_finish hb) held.2
  rw [hkind] at hemits'
  refine ⟨hk'.trans hkind, ?_, paths ++ more, ?_, hemits.trans hemits'⟩
  · rcases hslot' with hs | hs <;> rw [hs]
    · exact sealed_finish hsealed
    · exact Slot.sealed_clear _
  · rw [List.length_append, hlen, hlen']

end Channel

end Packager
