import Packager.Proofs.Moves
import Packager.Proofs.SegmentLayout
import Packager.Proofs.Templates
/-!
# Proofs.Listing — the manifest lists the files on the disk

A track is listed under the template of its file names as long as it is there (`Listed`), and a segment is announced right
after its file was written (`Tidy`).  So what the manifest tells a player to ask for is what was written, and it starts
where the manifest says (`manifest_lists_disk`).
-/
namespace Packager

/-! ## Where a file starts -/

/-- Whether a file is a media segment that starts at a tick, in its bytes and for a reader of boxes. -/
structure StartsAt (content : Bytes) (timestamp : Nat) : Prop where
  segment : ∃ f : Fragment, content = f.encode
  word : Bytes.readUInt64 84 content = some (timestamp % 2 ^ 64)
  found : content.length < 2 ^ 32 →
    (Box.find? Box.containers Fragment.tfdt content).bind (Bytes.readUInt64 4) = some (timestamp % 2 ^ 64)

namespace Fragment

open Bytes Box

theorem encode_around_decodeTime (f : Fragment) :
    ∃ front back, f.encode = front ++ (uint64 f.decodeTime ++ back) ∧ front.length = 84 := by
  let tfdtBox := full tfdt 1 0 (uint64 f.decodeTime)
  let tfhdBox := full tfhd 0 0x020000 (uint32 f.trackId)
  let mfhdBox := full mfhd 0 0 (uint32 f.sequence)
  let run := trackRun f.samples f.dataOffset
  refine ⟨segmentType.encode ++ (header moof (encodeAll [mfhdBox, .node traf [tfhdBox, tfdtBox, run]]).length ++
    (mfhdBox.encode ++ (header traf (encodeAll [tfhdBox, tfdtBox, run]).length ++ (tfhdBox.encode ++
      (header tfdt 12 ++ (bigEndian 1 1 ++ bigEndian 3 0)))))),
    run.encode ++ (Box.leaf mdat f.payload).encode, ?_, ?_⟩
  · show segmentType.encode ++ ((header moof _ ++ (mfhdBox.encode ++ ((header traf _ ++ (tfhdBox.encode ++
      ((header tfdt 12 ++ (bigEndian 1 1 ++ bigEndian 3 0 ++ uint64 f.decodeTime)) ++ (run.encode ++ [])))) ++ []))) ++
        ((Box.leaf mdat f.payload).encode ++ [])) = _
    simp only [List.append_assoc, List.append_nil]
    rfl
  · simp only [List.length_append, length_header, length_bigEndian, length_encode, mfhdBox, tfhdBox, full, size,
      segmentType, length_uint32, FourCC.bytes, length_zeros, List.length_cons, List.length_nil]

theorem fits_of_length {f : Fragment} (h : f.encode.length < 2 ^ 32) : f.Fits := by
  have hsize : f.encode.length = segmentType.size + ((f.movieFragment f.dataOffset).size + (8 + f.payload.length)) := by
    unfold Fragment.encode boxes
    rw [length_encodeAll]
    rfl
  constructor <;> omega

/-- **A segment that was made for a tick starts there for every reader.** -/
theorem startsAt_encode {f : Fragment} {timestamp : Nat} (h : f.decodeTime = .ofNat timestamp) :
    StartsAt f.encode timestamp := by
  have hword : f.decodeTime.toNat = timestamp % 2 ^ 64 := by
    rw [h]
    exact UInt64.toNat_ofNat'
  refine ⟨⟨f, rfl⟩, ?_, fun hlength => ?_⟩
  · obtain ⟨front, back, hf, hlen⟩ := encode_around_decodeTime f
    rw [hf, readUInt64, readAt_field 8 84 front (uint64 f.decodeTime) back hlen (length_uint64 _), toNat_uint64, hword]
  · have hfit := fits_of_length hlength
    have hbox := find?_encode_segment hfit tfdt ⟨tfdt, bigEndian 1 1 ++ bigEndian 3 0 ++ uint64 f.decodeTime⟩ rfl
    have hread := readAt_field 8 4 (bigEndian 1 1 ++ bigEndian 3 0) (uint64 f.decodeTime) [] (by simp)
      (length_uint64 f.decodeTime)
    rw [List.append_nil, toNat_uint64, hword] at hread
    rw [hbox]
    exact hread

end Fragment

/-! ## What the journal lists -/

/-- The media template under which the manifest lists a representation. -/
def Journal.template? (set rep : String) : Journal → Option String
  | [] => none
  | .announced (.added r) :: j =>
    if r.adaptationSet = set ∧ r.id = rep then some r.segmentTemplate else template? set rep j
  | .announced (.removed s r) :: j => if s = set ∧ r = rep then none else template? set rep j
  | _ :: j => template? set rep j

/-- Whether an effect leaves the segments alone: it announces none, and a file that it wrote is an initialization
segment. -/
def Effect.Aside (settings : Settings) : Effect → Prop
  | announced (.segment ..) => False
  | wrote path _ (.ok ()) =>
    ∃ id kind, path = Naming.headerPath settings.folder settings.baseName id (Naming.fileExtension kind)
  | _ => True

/-- A journal that grew, each segment being announced right after its file was written, under the template of its
track. -/
inductive Tidy (settings : Settings) (j : Journal) : Journal → Prop where
  | refl : Tidy settings j j
  | aside {k : Journal} {e : Effect} (h : Tidy settings j k) (he : e.Aside settings) : Tidy settings j (e :: k)
  | listed {k : Journal} (h : Tidy settings j k) (id : TrackId) (kind : Kind) (timestamp duration : Nat) (f : Fragment)
      (hf : f.decodeTime = .ofNat timestamp)
      (ht : k.template? (Naming.adaptationSet kind) (toString id) =
        some (Naming.segmentTemplate settings.baseName (Naming.fileExtension kind))) :
      Tidy settings j (.announced (.segment (Naming.adaptationSet kind) (toString id) timestamp duration) ::
        .wrote (Naming.segmentPath settings.folder settings.baseName id timestamp (Naming.fileExtension kind)) f.encode
          (.ok ()) :: k)

theorem Journal.published_cons_aside {settings : Settings} {e : Effect} (h : e.Aside settings) (j : Journal) :
    published (e :: j) = j.published := by
  cases e with
  | announced news =>
    cases news with
    | segment => exact h.elim
    | added => rfl
    | removed => rfl
    | bitrate => rfl
    | codec => rfl
    | relocated => rfl
  | folder => rfl
  | wrote => rfl
  | renamed => rfl
  | read => rfl
  | manifest => rfl

section
variable {settings : Settings} {id : TrackId} {kind : Kind} {j k l : Journal}

theorem Heads.template?_eq (h : Heads settings id kind j k) (set rep : String) :
    k.template? set rep = j.template? set rep := by
  cases h <;> rfl

theorem Emits.template?_eq {paths : List Path} (h : Emits settings id kind j paths k) (set rep : String) :
    k.template? set rep = j.template? set rep := by
  induction h with
  | nothing => rfl
  | failed _ _ _ _ ih => exact ih
  | published _ _ _ _ _ ih => exact ih

theorem Heads.tidy (h : Heads settings id kind j k) : Tidy settings j k := by
  cases h with
  | nothing => exact .refl
  | failed content e => exact .aside .refl trivial
  | made content codec => exact .aside (.aside .refl ⟨id, kind, rfl⟩) trivial

theorem Emits.tidy {paths : List Path} (h : Emits settings id kind j paths k)
    (ht : j.template? (Naming.adaptationSet kind) (toString id) =
      some (Naming.segmentTemplate settings.baseName (Naming.fileExtension kind))) : Tidy settings j k := by
  induction h with
  | nothing => exact .refl
  | failed _ timestamp content e ih => exact ih.aside trivial
  | published hk timestamp duration f hf ih =>
    exact ih.listed id kind timestamp duration f hf ((hk.template?_eq _ _).trans ht)

theorem Tidy.trans (h : Tidy settings j k) (h' : Tidy settings k l) : Tidy settings j l := by
  induction h' with
  | refl => exact h
  | aside _ he ih => exact ih.aside he
  | listed _ id kind timestamp duration f hf ht ih => exact ih.listed id kind timestamp duration f hf ht

/-- What a tidy journal gained: each announcement of a segment lies right on the write of its file, and each written file
that is no initialization segment right under its announcement. -/
structure Paired (settings : Settings) (new j : Journal) : Prop where
  announced : ∀ later set rep timestamp duration earlier,
    new = later ++ .announced (.segment set rep timestamp duration) :: earlier →
      ∃ (id : TrackId) (kind : Kind) (f : Fragment) (older : Journal),
        set = Naming.adaptationSet kind ∧ rep = toString id ∧ f.decodeTime = .ofNat timestamp ∧
        earlier = .wrote (Naming.segmentPath settings.folder settings.baseName id timestamp
          (Naming.fileExtension kind)) f.encode (.ok ()) :: older ∧
        (older ++ j).template? set rep =
          some (Naming.segmentTemplate settings.baseName (Naming.fileExtension kind))
  written : ∀ later path content earlier, new = later ++ .wrote path content (.ok ()) :: earlier →
    (∃ id kind, path = Naming.headerPath settings.folder settings.baseName id (Naming.fileExtension kind)) ∨
      ∃ before set rep timestamp duration, later = before ++ [.announced (.segment set rep timestamp duration)]
  published : Journal.published (new ++ j) = j.published ++ Journal.published new
  nonempty : (∃ set rep timestamp duration, .announced (.segment set rep timestamp duration) ∈ new) →
    Journal.published new ≠ []

theorem paired_nil (settings : Settings) (j : Journal) : Paired settings [] j := by
  refine ⟨fun later _ _ _ _ _ hn => ?_, fun later _ _ _ hn => ?_, (List.append_nil _).symm, ?_⟩
  · cases later <;> cases hn
  · cases later <;> cases hn
  · rintro ⟨set, rep, timestamp, duration, hm⟩
    cases hm

theorem Paired.aside {new : Journal} {e : Effect} (h : Paired settings new j) (he : e.Aside settings) :
    Paired settings (e :: new) j := by
  refine ⟨fun later set rep timestamp duration earlier hn => ?_, fun later path content earlier hn => ?_, ?_, ?_⟩
  · cases later with
    | nil =>
      rw [(List.cons.inj hn).1] at he
      exact he.elim
    | cons x later => exact h.announced later set rep timestamp duration earlier (List.cons.inj hn).2
  · cases later with
    | nil =>
      rw [(List.cons.inj hn).1] at he
      exact .inl he
    | cons x later =>
      rcases h.written later path content earlier (List.cons.inj hn).2 with h | ⟨before, set, rep, t, d, rfl⟩
      · exact .inl h
      · exact .inr ⟨x :: before, set, rep, t, d, rfl⟩
  · rw [List.cons_append, Journal.published_cons_aside he, Journal.published_cons_aside he, h.published]
  · rintro ⟨set, rep, timestamp, duration, hm⟩
    rw [Journal.published_cons_aside he]
    rcases List.mem_cons.1 hm with rfl | hm
    · exact he.elim
    · exact h.nonempty ⟨set, rep, timestamp, duration, hm⟩

theorem Paired.listed {new : Journal} (h : Paired settings new j) {timestamp : Nat} (duration : Nat) {f : Fragment}
    (hf : f.decodeTime = .ofNat timestamp)
    (ht : (new ++ j).template? (Naming.adaptationSet kind) (toString id) =
      some (Naming.segmentTemplate settings.baseName (Naming.fileExtension kind))) :
    Paired settings (.announced (.segment (Naming.adaptationSet kind) (toString id) timestamp duration) ::
      .wrote (Naming.segmentPath settings.folder settings.baseName id timestamp (Naming.fileExtension kind)) f.encode
        (.ok ()) :: new) j := by
  refine ⟨fun later set rep t d earlier hn => ?_, fun later path content earlier hn => ?_, ?_, ?_⟩
  · rcases later with - | ⟨x, - | ⟨y, later⟩⟩
    · obtain ⟨he, rfl⟩ := List.cons.inj hn
      cases he
      exact ⟨id, kind, f, new, rfl, rfl, hf, rfl, ht⟩
    · cases (List.cons.inj (List.cons.inj hn).2).1
    · exact h.announced later set rep t d earlier (List.cons.inj (List.cons.inj hn).2).2
  · rcases later with - | ⟨x, - | ⟨y, later⟩⟩
    · cases (List.cons.inj hn).1
    · exact .inr ⟨[], _, _, timestamp, duration, congrArg (· :: []) (List.cons.inj hn).1.symm⟩
    · rcases h.written later path content earlier (List.cons.inj (List.cons.inj hn).2).2 with
        h | ⟨before, set, rep, t, d, rfl⟩
      · exact .inl h
      · exact .inr ⟨x :: y :: before, set, rep, t, d, rfl⟩
  · show Journal.published (new ++ j) ++ _ = _ ++ (Journal.published new ++ _)
    rw [h.published, List.append_assoc]
  · intro _ hnil
    cases List.append_eq_nil_iff.1 hnil |>.2

theorem Tidy.exists_new (h : Tidy settings j k) : ∃ new, k = new ++ j ∧ Paired settings new j := by
  induction h with
  | refl => exact ⟨[], rfl, paired_nil settings j⟩
  | aside _ he ih =>
    obtain ⟨new, rfl, hnew⟩ := ih
    exact ⟨_ :: new, rfl, hnew.aside he⟩
  | listed _ id kind timestamp duration f hf ht ih =>
    obtain ⟨new, rfl, hnew⟩ := ih
    exact ⟨_ :: _ :: new, rfl, hnew.listed duration hf ht⟩

end

/-! ## Every move is tidy -/

namespace Presentation

/-- Whether every track is listed under the template of its file names. -/
structure Listed (s : Presentation) : Prop where
  name : Settings.checkBaseName s.publisher.settings.baseName = .ok ()
  tracks : ∀ id c, s.publisher.channels.find? id = some c →
    s.journal.template? (Naming.adaptationSet c.kind) (toString id) =
      some (Naming.segmentTemplate s.publisher.settings.baseName (Naming.fileExtension c.kind))

variable {w : World} {s t : Presentation}

theorem Listed.setChannel {p : Publisher} {j k : Journal} {id : TrackId} {c d : Channel} (h : Listed ⟨p, j⟩)
    (hc : p.channels.find? id = some c) (hk : d.kind = c.kind)
    (ht : ∀ set rep, k.template? set rep = j.template? set rep) : Listed ⟨p.setChannel id d, k⟩ := by
  refine ⟨h.name, fun id' c' hf => ?_⟩
  show k.template? _ _ = _
  rw [ht]
  obtain ⟨rfl, rfl⟩ | ⟨-, hf⟩ := Publisher.find?_setChannel_cases hf
  · rw [hk]
    exact h.tracks id c hc
  · exact h.tracks id' c' hf

theorem Move.listed (h : Move w s t) (hs : s.Sane) (hl : s.Listed) : t.Listed := by
  cases h with
  | manifest => exact ⟨hl.name, hl.tracks⟩
  | @added p id hfree j kind c hc =>
    have hkind : c.kind = kind := by
      rcases hc with rfl | ⟨origin, rfl⟩ <;> cases kind <;> rfl
    refine ⟨hl.name, fun id' c' hf => ?_⟩
    show Journal.template? _ _ (.announced (.added (Publisher.representation p.settings id kind)) :: j) = _
    unfold Journal.template?
    obtain ⟨rfl, rfl⟩ | ⟨hne, hf⟩ := Publisher.find?_setChannel_cases hf
    · rw [hkind]
      exact if_pos ⟨rfl, rfl⟩
    · rw [if_neg fun hsame => hne (toString_inj hsame.2)]
      exact hl.tracks id' c' hf
  | counted =>
    refine ⟨hl.name, fun id c hf => ?_⟩
    rw [SortedMap.find?_mapValues, Option.map_eq_some_iff] at hf
    obtain ⟨b, hb, rfl⟩ := hf
    exact hl.tracks id b hb
  | @fed p id c hc j frame =>
    obtain ⟨hk, -, hheads⟩ := Channel.feed_heads w p.settings id c frame j
    exact hl.setChannel hc hk hheads.template?_eq
  | held => exact ⟨hl.name, hl.tracks⟩
  | @discarded p id c window hc hh hw hv j =>
    have hset := hl.setChannel (d := { c with slot := c.slot.clear }) hc rfl fun _ _ => rfl
    exact ⟨hset.name, hset.tracks⟩
  | @released p id c window hc hh hw hv j =>
    obtain ⟨f, hf⟩ := hs.sealed id c hc (by simpa [Channel.isHolding] using hh)
    obtain ⟨hfreed, hout⟩ := Channel.publish_emits w p.settings id hf j
    have hset := hl.setChannel (d := (c.publish w.outlet p.settings id j).1.2) hc (by rw [hfreed]; rfl) (by
      rcases hout with ⟨e, -, hemits, -⟩ | ⟨-, hemits, -⟩ <;> exact hemits.template?_eq)
    exact ⟨hset.name, hset.tracks⟩
  | forced => exact ⟨hl.name, hl.tracks⟩
  | @drained p id c hc hk j =>
    obtain ⟨hkind, -, paths, -, hemits⟩ := Channel.drain_emits w p.settings id (hs.sealed id c hc) j
    exact hl.setChannel hc hkind hemits.template?_eq
  | rated hc => exact hl.setChannel hc rfl fun _ _ => rfl
  | @removed p id c hc j =>
    obtain ⟨-, -, paths, -, hemits⟩ := Channel.drain_emits w p.settings id (hs.sealed id c hc) j
    refine ⟨hl.name, fun id' c' hf => ?_⟩
    obtain ⟨hne, hf⟩ := Publisher.find?_erase_cases hf
    show Journal.template? _ _ (.announced (.removed _ _) :: _) = _
    unfold Journal.template?
    rw [if_neg fun hsame => hne (toString_inj hsame.2), hemits.template?_eq]
    exact hl.tracks id' c' hf

theorem Move.tidy (h : Move w s t) (hs : s.Sane) (hl : s.Listed) :
    Tidy s.publisher.settings s.journal t.journal := by
  cases h with
  | manifest => exact .aside .refl trivial
  | added => exact .aside .refl trivial
  | counted => exact .refl
  | @fed p id c hc j frame => exact (Channel.feed_heads w p.settings id c frame j).2.2.tidy
  | held => exact .refl
  | discarded => exact .refl
  | @released p id c window hc hh hw hv j =>
    obtain ⟨f, hf⟩ := hs.sealed id c hc (by simpa [Channel.isHolding] using hh)
    rcases (Channel.publish_emits w p.settings id hf j).2 with ⟨e, -, hemits, -⟩ | ⟨-, hemits, -⟩ <;>
      exact hemits.tidy (hl.tracks id c hc)
  | forced => exact .refl
  | @drained p id c hc hk j =>
    obtain ⟨-, -, paths, -, hemits⟩ := Channel.drain_emits w p.settings id (hs.sealed id c hc) j
    exact hemits.tidy (hl.tracks id c hc)
  | rated => exact .aside .refl trivial
  | @removed p id c hc j =>
    obtain ⟨-, -, paths, -, hemits⟩ := Channel.drain_emits w p.settings id (hs.sealed id c hc) j
    exact .aside (hemits.tidy (hl.tracks id c hc)) trivial

theorem Moves.tidy (h : Moves w s t) (hs : s.Sane) (hl : s.Listed) :
    Tidy s.publisher.settings s.journal t.journal := by
  let inv : Presentation → Prop := fun u => u.publisher.settings = s.publisher.settings ∧ u.Sane ∧ u.Listed ∧
    Tidy s.publisher.settings s.journal u.journal
  obtain ⟨-, -, -, htidy⟩ := h.invariant inv (by
    rintro u v hm ⟨hsettings, hsane, hlisted, htidy⟩
    have hnext := hm.tidy hsane hlisted
    rw [hsettings] at hnext
    exact ⟨hm.settings.trans hsettings, hm.sane hsane, hm.listed hsane hlisted, htidy.trans hnext⟩)
    ⟨rfl, hs, hl, .refl⟩
  exact htidy

theorem Relocated.listed (h : Relocated s t) (hl : s.Listed) : t.Listed := by
  cases h with
  | refused => exact hl
  | failed => exact ⟨hl.name, hl.tracks⟩
  | done folder baseName seconds hnone hname =>
    refine ⟨hname, fun id c hf => ?_⟩
    cases hf.symm.trans (hnone id)

theorem Relocated.tidy (h : Relocated s t) : Tidy s.publisher.settings s.journal t.journal := by
  cases h with
  | refused => exact .refl
  | failed => exact .aside .refl trivial
  | done => exact .aside (.aside .refl trivial) trivial

theorem start_listed {settings : Settings} (h : settings.check = .ok ()) : (start settings).Listed := by
  refine ⟨?_, fun id c hf => ?_⟩
  · unfold Settings.check at h
    cases hn : Settings.checkBaseName settings.baseName with
    | error fault =>
      rw [hn] at h
      cases h
    | ok => exact hn
  · cases hf

/-- **The manifest lists the files on the disk.**  Of what an operation adds to the journal: each segment is announced
right after its file was written, under the name that the template of its representation expands to and with its start as
decode time; each file written is an initialization segment or is announced at once; a cycle reports the files that it
announced, in order; and after an announcement the manifest is written, as the last thing that the operation does. -/
theorem manifest_lists_disk (w : World) (settings : Settings) (hcheck : settings.check = .ok ()) (ops : List Operation)
    (op : Operation) :
    let s := (start settings).run w ops
    ∃ new, (s.apply w op).journal = new ++ s.journal ∧
      (∀ later set rep timestamp duration earlier,
        new = later ++ .announced (.segment set rep timestamp duration) :: earlier →
          ∃ template content older, (older ++ s.journal).template? set rep = some template ∧
            earlier = .wrote (s.publisher.settings.folder.join (Naming.expand template rep (toString timestamp))) content
              (.ok ()) :: older ∧ StartsAt content timestamp) ∧
      (∀ later path content earlier, new = later ++ .wrote path content (.ok ()) :: earlier →
        (∃ id kind, path = Naming.headerPath s.publisher.settings.folder s.publisher.settings.baseName id
          (Naming.fileExtension kind)) ∨
        ∃ before set rep timestamp duration, later = before ++ [.announced (.segment set rep timestamp duration)]) ∧
      (∀ frames, op = .cycle frames →
        (s.publisher.cycle w.outlet frames s.journal).1.1.published = Journal.published new) ∧
      ((∃ set rep timestamp duration, .announced (.segment set rep timestamp duration) ∈ new) →
        ∃ result rest, new = .manifest result :: rest) := by
  intro s
  obtain ⟨hsane, hlisted⟩ : s.Sane ∧ s.Listed :=
    run_kept (fun _ _ hm hsane hl => hm.listed hsane hl) (fun _ _ hr hl => hr.listed hl) (start_listed hcheck) ops
  obtain ⟨hmoves, hlast⟩ := apply_moves (w := w) hsane op
  have htidy : Tidy s.publisher.settings s.journal (s.apply w op).journal := by
    rcases hmoves with h | h
    · exact h.tidy hsane hlisted
    · exact h.tidy
  obtain ⟨new, hnew, hpaired⟩ := htidy.exists_new
  have hpublished : (s.apply w op).journal.published = s.journal.published ++ Journal.published new := by
    rw [hnew]
    exact hpaired.published
  refine ⟨new, hnew, fun later set rep timestamp duration earlier hn => ?_, hpaired.written, fun frames hop => ?_,
    fun hm => ?_⟩
  · obtain ⟨id, kind, f, older, rfl, rfl, hf, rfl, ht⟩ := hpaired.announced later set rep timestamp duration earlier hn
    refine ⟨_, f.encode, older, ht, ?_, Fragment.startsAt_encode hf⟩
    rw [Naming.expand_segmentTemplate (Settings.not_mem_of_checkBaseName hlisted.name) (not_mem_toString (by decide))]
    rfl
  · obtain ⟨-, hreport, -⟩ := Publisher.cycle_moves (w := w) (j := s.journal) frames hsane.sorted hsane.sealed
    rw [hop] at hpublished
    exact List.append_cancel_left (hreport.symm.trans hpublished)
  · have hgrown : (s.apply w op).journal.published ≠ s.journal.published := by
      rw [hpublished]
      exact fun h => hpaired.nonempty hm (List.append_right_eq_self.1 h)
    obtain ⟨result, rest, hr⟩ := hlast.resolve_left hgrown
    rw [hr] at hnew
    cases new with
    | nil =>
      obtain ⟨set, rep, timestamp, duration, hm⟩ := hm
      cases hm
    | cons e new => exact ⟨result, new, congrArg (· :: new) (List.cons.inj hnew).1.symm⟩

/-- An access unit of two seconds, which is a segment by itself. -/
def twoSeconds : Frame := .audio ⟨1000000000, 48000, 2, 96000, [7]⟩

theorem manifest_lists_disk_twoSeconds :
    let s := (start .default).run .obliging [.addTrack 1 .audio]
    Settings.default.check = .ok () ∧ ((s.apply .obliging (.cycle [(1, twoSeconds)])).journal.published.length = 1) ∧
    ∃ new, (s.apply .obliging (.cycle [(1, twoSeconds)])).journal = new ++ s.journal ∧
      (∀ later set rep timestamp duration earlier,
        new = later ++ .announced (.segment set rep timestamp duration) :: earlier →
          ∃ template content older, (older ++ s.journal).template? set rep = some template ∧
            earlier = .wrote (s.publisher.settings.folder.join (Naming.expand template rep (toString timestamp))) content
              (.ok ()) :: older ∧ StartsAt content timestamp) ∧
      ((∃ set rep timestamp duration, .announced (.segment set rep timestamp duration) ∈ new) →
        ∃ result rest, new = .manifest result :: rest) := by
  intro s
  have hcheck : Settings.default.check = .ok () := by decide
  obtain ⟨new, hnew, hannounced, -, -, hlast⟩ :=
    manifest_lists_disk .obliging .default hcheck [.addTrack 1 .audio] (.cycle [(1, twoSeconds)])
  refine ⟨hcheck, ?_, new, hnew, hannounced, hlast⟩
  decide +kernel

end Presentation
end Packager
