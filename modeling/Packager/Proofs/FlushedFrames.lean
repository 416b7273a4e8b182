import Packager.Proofs.NothingLost
import Packager.Proofs.VideoTimeline
/-!
# Proofs.FlushedFrames — what is left of the frames before a flush

No operation makes up a sample, repeats one or changes the order: what fills slots, is open and waits is drawn from what
was open and waited and from the frames that came (`Draws`), also when a slot proves too small.  A flush gives up the
open fragment and the frame that waits, yet not the preroll of a video track: all that is ever placed afterwards are
frames of the preroll and frames taken later (`placed_after_flush`).
-/
namespace Packager

/-! ## Drawing samples -/

/-- Whether the samples in the slots `made` and then those of `after` are, in this order, among those of `before` and
then the new ones. -/
def Draws (before : List Bytes) (made : List Slot) (after new : List Bytes) : Prop :=
  ∃ fs : List Fragment, List.Forall₂ Slot.Holds made fs ∧ (fs.flatMap Fragment.datas ++ after).Sublist (before ++ new)

namespace Draws

theorem of_sublist {before after new : List Bytes} (h : after.Sublist (before ++ new)) : Draws before [] after new :=
  ⟨[], .nil, h⟩

theorem refl (l : List Bytes) : Draws l [] l [] := of_sublist (List.sublist_append_left l [])

theorem trans {a b c x y : List Bytes} {made made' : List Slot} (h : Draws a made b x) (h' : Draws b made' c y) :
    Draws a (made ++ made') c (x ++ y) := by
  obtain ⟨fs, hf, hs⟩ := h
  obtain ⟨gs, hg, hs'⟩ := h'
  refine ⟨fs ++ gs, List.rel_append hf hg, ?_⟩
  rw [List.flatMap_append, List.append_assoc, ← List.append_assoc a]
  have hmore := hs.append (List.Sublist.refl y)
  rw [List.append_assoc] at hmore
  exact ((List.Sublist.refl _).append hs').trans hmore

theorem trans_nil {a b c x : List Bytes} {made made' : List Slot} (h : Draws a made b x) (h' : Draws b made' c []) :
    Draws a (made ++ made') c x := by
  have hboth := h.trans h'
  rwa [List.append_nil] at hboth

end Draws

/-- **Closing puts the open samples into the slot**, or loses them. -/
theorem Assembly.close_draws (a : Assembly) (slot : Slot) :
    Draws a.fragment.datas (slot.fills (a.close slot).slot) (a.close slot).state.fragment.datas [] := by
  rcases a.close_cases slot with ⟨-, hc⟩ | ⟨-, -, hst, hslot⟩ | ⟨-, -, hst, hholds, hfull, -⟩
  · rw [hc, Slot.fills_self]
    exact .refl _
  · rw [hst, hslot, Slot.fills_self]
    exact .of_sublist (List.nil_sublist _)
  · rw [hst]
    cases hs : slot.isEmpty with
    | false =>
      rw [show slot.fills (a.close slot).slot = [] by simp [Slot.fills, hs]]
      exact .of_sublist (List.nil_sublist _)
    | true =>
      rw [show slot.fills (a.close slot).slot = [(a.close slot).slot] by simp [Slot.fills, hs, hfull]]
      refine ⟨[a.segment], .cons hholds .nil, ?_⟩
      rw [List.flatMap_singleton]
      exact List.Sublist.refl _

/-! ## Audio -/

namespace AudioStream

theorem resynchronize_held {a : Assembly} {v : AudioStream} {next : Nat} {slot : Slot} (h : slot.isEmpty = false) :
    (resynchronize a v next slot).slot = slot := by
  rcases resynchronize_cases a v next slot with ⟨-, he⟩ | ⟨-, -, ⟨hfree, -⟩ | ⟨-, g, -, he⟩ | ⟨-, -, he⟩⟩
  · rw [he]
  · rw [h] at hfree
    cases hfree
  · rw [he]
  · rw [he]

theorem resynchronize_draws (a : Assembly) (v : AudioStream) (next : Nat) (slot : Slot) :
    Draws a.fragment.datas (slot.fills (resynchronize a v next slot).slot)
      (resynchronize a v next slot).state.1.fragment.datas [] := by
  rcases resynchronize_cases a v next slot with ⟨-, he⟩ | ⟨-, -, ⟨-, he⟩ | ⟨-, g, hg, he⟩ | ⟨-, -, he⟩⟩ <;> rw [he]
  · rw [Slot.fills_self]
    exact .refl _
  · exact a.close_draws slot
  · rw [Slot.fills_self, OpenFragment.datas_bridge? hg]
    exact .refl _
  · rw [Slot.fills_self]
    exact .refl _

/-- **Appending draws from the open samples and the waiting frame**, cut before it, after it or not at all. -/
theorem append_draws (a : Assembly) (v : AudioStream) (slot : Slot) :
    Draws a.fragment.datas (slot.fills (append a v slot).slot) (append a v slot).state.1.fragment.datas
      (a.pending.toList.map Pending.data) := by
  unfold append
  cases hp : a.pending with
  | none =>
    rw [Slot.fills_self]
    exact .refl _
  | some p =>
    have hcut := resynchronize_draws { a with pending := none } v p.start slot
    have hheld : slot.isEmpty = false → (resynchronize { a with pending := none } v p.start slot).slot = slot :=
      resynchronize_held
    simp only
    generalize resynchronize { a with pending := none } v p.start slot = cut at hcut hheld
    have hpush : Draws a.fragment.datas (slot.fills cut.slot) (cut.state.1.push p).fragment.datas [p.data] := by
      have hboth := hcut.trans (.of_sublist (List.Sublist.refl (cut.state.1.fragment.datas ++ [p.data])))
      rw [List.append_nil] at hboth
      rw [show (cut.state.1.push p).fragment.datas = _ from OpenFragment.datas_push _ _ _]
      exact hboth
    split
    · split
      · -- the slot is filled by the cut before the frame, or by the one after it
        rename_i hfull
        rw [Bool.and_eq_true] at hfull
        have htaken : cut.slot.isEmpty = false → ((cut.state.1.push p).close cut.slot).slot = cut.slot := fun hn => by
          rw [hfull.2] at hn
          cases hn
        rw [← Slot.fills_trans hheld htaken]
        exact hpush.trans_nil (Assembly.close_draws _ _)
      · exact hpush
    · exact hpush

end AudioStream

/-! ## Video -/

namespace VideoStream

/-- **One picture**: it is dropped, or appended behind the samples that were open or cut. -/
theorem appendFrame_draws (a : Assembly) (v : VideoStream) (p : Pending) (slot : Slot) :
    Draws a.fragment.datas (slot.fills (appendFrame a v p slot).slot) (appendFrame a v p slot).state.1.fragment.datas
      [p.data] := by
  rcases appendFrame_cases a v p slot with ⟨-, -, he⟩ | ⟨-, -, ⟨-, hst, hslot, -⟩ | ⟨-, -, -, hst, hslot, -⟩⟩
  · rw [he, Slot.fills_self]
    exact .of_sublist (List.sublist_append_left _ _)
  · rw [hst, hslot, Slot.fills_self, datas_push, datas_closeLast]
    exact .of_sublist (List.Sublist.refl _)
  · have hclose := (closeLast a v p.start).close_draws slot
    rw [datas_closeLast] at hclose
    rw [hst, hslot, datas_push]
    have hboth := hclose.trans (.of_sublist (List.Sublist.refl
      (((closeLast a v p.start).close slot).state.fragment.datas ++ [p.data])))
    rwa [List.append_nil] at hboth

theorem appendAll_draws : ∀ (queue : List Pending) (acc : Outcome (Assembly × VideoStream)),
    Draws acc.state.1.fragment.datas (acc.slot.fills (appendAll queue acc).slot)
      (appendAll queue acc).state.1.fragment.datas (queue.map Pending.data)
  | [], acc => by
    show Draws acc.state.1.fragment.datas (acc.slot.fills acc.slot) acc.state.1.fragment.datas []
    rw [Slot.fills_self]
    exact .refl _
  | p :: queue, acc => by
    have hheld : acc.slot.isEmpty = false → (appendNext acc p).slot = acc.slot := appendFrame_held acc.state.1 acc.state.2 p
    have hstep : Draws acc.state.1.fragment.datas (acc.slot.fills (appendNext acc p).slot)
        (appendNext acc p).state.1.fragment.datas [p.data] := appendFrame_draws acc.state.1 acc.state.2 p acc.slot
    have hboth := hstep.trans (appendAll_draws queue (appendNext acc p))
    rwa [Slot.fills_trans hheld (appendAll_held queue (appendNext acc p))] at hboth

end VideoStream

/-- What is kept of frames that wait is among them. -/
theorem Feed.kept_sublist : ∀ (isOpen : Bool) (queue : List Pending),
    (kept isOpen (queue.map Pending.feed)).Sublist (queue.map Pending.data)
  | _, [] => .slnil
  | isOpen, p :: queue => by
    rw [List.map_cons, List.map_cons, Pending.feed, kept]
    have hrest := kept_sublist (isOpen || p.isSync) queue
    split
    · exact hrest.cons_cons p.data
    · exact hrest.cons p.data

/-! ## The operations of a segmenter -/

namespace Segmenter

/-- The samples of the frames that were taken and are not in a slot: those open, then those that wait. -/
def stock (s : Segmenter) : List Bytes := s.opened ++ s.waiting.map Pending.data

/-- The frames that wait behind the last one until the timing is known. -/
def preroll (s : Segmenter) : List Pending :=
  match s.stream with
  | .audio _ => []
  | .video v => v.preroll

theorem stock_of_waiting {s : Segmenter} (h : s.waiting = []) : s.stock = s.opened := by
  rw [stock, h]
  exact List.append_nil _

/-- **Taking a frame** adds its sample to what waits, where others may be given up for it. -/
theorem manage_stock {s g : Segmenter} {frame : Frame} {isNew : Bool} (h : s.manage frame = .ok (isNew, g)) :
    g.stock.Sublist (s.stock ++ (frame.sample?.map Prod.fst).toList) := by
  have behind : ∀ (opened : List Bytes) {later earlier : List Pending} (p : Pending), later.Sublist earlier →
      (opened ++ (later ++ [p]).map Pending.data).Sublist (opened ++ earlier.map Pending.data ++ [p.data]) := by
    intro opened later earlier p hl
    rw [List.map_append, ← List.append_assoc]
    exact ((List.Sublist.refl opened).append (hl.map _)).append (List.Sublist.refl [p.data])
  rcases manage_cases h with ⟨a, v, f, b, w, rfl, rfl, hm, rfl⟩ | ⟨a, v, f, b, w, rfl, rfl, hm, rfl⟩
  · obtain ⟨data, phase, hd, rfl, -⟩ := AudioStream.manage_ok hm
    rw [hd]
    exact behind a.fragment.datas ⟨_, data, true⟩ (List.nil_sublist a.pending.toList)
  · rcases VideoStream.manage_ok hm with ⟨hd, rfl, hr⟩ | ⟨p, clock, phase, hd, rfl, hr⟩
    · rw [hd, Option.map_none, Option.toList_none, List.append_nil]
      show (b.fragment.datas ++ (w.preroll ++ b.pending.toList).map Pending.data).Sublist _
      rw [hr]
      exact List.Sublist.refl _
    · rw [hd]
      refine behind a.fragment.datas p (?_ : w.preroll.Sublist (v.preroll ++ a.pending.toList))
      rw [hr]
      cases hp : a.pending with
      | none => exact List.sublist_append_left _ _
      | some q =>
        simp only
        split
        · exact List.sublist_append_left _ _
        · exact (List.drop_sublist _ _).append (List.Sublist.refl [q])

theorem waiting_append {s : Segmenter} (slot : Slot) (hc : s.assembly.configured = true) :
    (s.append slot).state.waiting = [] := by
  obtain ⟨a, stream⟩ := s
  cases stream with
  | audio v =>
    obtain ⟨g, next, phase, hst⟩ := AudioStream.append_moved a v slot
    rw [append_audio v slot hc]
    exact waiting_eq_nil (congrArg Assembly.pending hst) nofun
  | video v =>
    obtain ⟨⟨g, next, phase, hst⟩, hr⟩ := VideoStream.append_moved a v slot
    rw [append_video v slot hc]
    exact waiting_eq_nil (congrArg Assembly.pending hst) (by rintro w ⟨⟩; exact hr)

/-- **Appending draws from the stock.** -/
theorem append_draws (s : Segmenter) (slot : Slot) :
    Draws s.stock (slot.fills (s.append slot).slot) (s.append slot).state.stock [] := by
  by_cases hc : s.assembly.configured = true
  · rw [stock_of_waiting (waiting_append slot hc)]
    suffices h : Draws s.opened (slot.fills (s.append slot).slot) (s.append slot).state.opened
        (s.waiting.map Pending.data) by
      obtain ⟨fs, hf, hs⟩ := h
      exact ⟨fs, hf, by rwa [List.append_nil]⟩
    obtain ⟨a, stream⟩ := s
    cases stream with
    | audio v =>
      rw [append_audio v slot hc]
      exact AudioStream.append_draws a v slot
    | video v =>
      rw [append_video v slot hc]
      exact VideoStream.appendAll_draws (VideoStream.queue a v)
        ⟨.ok false, ({ a with pending := none }, { v with preroll := [] }), slot⟩
  · rw [append_of_unconfigured (by simpa using hc), Slot.fills_self]
    exact .refl _

/-- Appending without cutting keeps samples of the stock. -/
theorem absorb_stock (s : Segmenter) : s.absorb.opened.Sublist s.stock ∧ s.absorb.waiting = [] := by
  obtain ⟨a, stream⟩ := s
  cases stream with
  | audio v =>
    obtain ⟨g, next, phase, hst⟩ := AudioStream.absorb_moved a
    refine ⟨?_, waiting_eq_nil (congrArg Assembly.pending hst) nofun⟩
    show (AudioStream.absorb a).fragment.datas.Sublist (a.fragment.datas ++ a.pending.toList.map Pending.data)
    unfold AudioStream.absorb
    cases hp : a.pending with
    | none => exact List.sublist_append_left _ _
    | some p =>
      rw [show (Assembly.push { a with pending := none } p).fragment.datas = _ from OpenFragment.datas_push _ _ _]
      exact List.Sublist.refl _
  | video v =>
    obtain ⟨⟨g, next, phase, hst⟩, hr⟩ := VideoStream.absorb_moved a v
    refine ⟨?_, waiting_eq_nil (congrArg Assembly.pending hst) (by rintro w ⟨⟩; exact hr)⟩
    have hdatas : (absorb ⟨a, .video v⟩).opened = a.fragment.datas ++ Feed.kept (!a.fragment.isEmpty) _ :=
      VideoStream.datas_absorbAll (VideoStream.queue a v) { a with pending := none } { v with preroll := [] }
    rw [hdatas]
    exact (List.Sublist.refl _).append (Feed.kept_sublist _ _)

/-- **Finishing draws from the stock.** -/
theorem finish_draws (s : Segmenter) (slot : Slot) :
    Draws s.stock (slot.fills (s.finish slot).slot) (s.finish slot).state.stock [] := by
  rcases s.finish_cases slot with ⟨-, he⟩ | ⟨-, -, hslot, phase, hstate⟩
  · rw [he, Slot.fills_self]
    exact .refl _
  · obtain ⟨hopened, hwaiting⟩ := s.absorb_stock
    obtain ⟨g, n, phase', hst, -⟩ := s.absorb.assembly.close_state slot
    have hwaits : (s.finish slot).state.waiting = s.absorb.waiting := by
      rw [hstate, hst]
      rfl
    have habsorb : Draws s.stock [] s.absorb.opened [] := .of_sublist (hopened.trans (List.sublist_append_left _ _))
    rw [stock_of_waiting (hwaits.trans hwaiting), hslot, hstate]
    exact habsorb.trans_nil (s.absorb.assembly.close_draws slot)

/-- **A flush leaves the preroll**, and nothing else. -/
theorem waiting_flush (s : Segmenter) : s.flush.waiting = s.preroll := by
  obtain ⟨a, stream⟩ := s
  cases stream with
  | audio v => rfl
  | video v => exact List.append_nil v.preroll

theorem stock_flush (s : Segmenter) : s.flush.stock = s.preroll.map Pending.data := by
  rw [stock, waiting_flush]
  rfl

theorem agrees_flush (s : Segmenter) : s.flush.Agrees false := by
  obtain ⟨a, stream⟩ := s
  cases stream with
  | audio v => exact agrees_of_waiting rfl nofun
  | video v => exact ⟨nofun, fun _ => rfl⟩

theorem preroll_sublist (s : Segmenter) : (s.preroll.map Pending.data).Sublist s.stock := by
  obtain ⟨a, stream⟩ := s
  cases stream with
  | audio v => exact List.nil_sublist _
  | video v => exact ((List.sublist_append_left v.preroll _).map _).trans (List.sublist_append_right _ _)

theorem stock_of_relabelled {s g : Segmenter} (h : s.Relabelled g) : g.stock = s.stock := by
  obtain ⟨zero, metadata, bitrate, described, rfl⟩ := h
  rfl

theorem stock_of_configure {s g : Segmenter} (h : s.configure = .ok g) : g.stock = s.stock := by
  obtain ⟨ticks, phase, rfl⟩ := configure_state h
  rfl

end Segmenter

/-! ## Runs -/

/-- The samples of the frames taken in a history. -/
def Moment.payloads (history : List Moment) : List Bytes :=
  history.flatMap fun
    | .taken frame _ => (frame.sample?.map Prod.fst).toList
    | .configured | .finished => []

namespace Session

/-- **One call**: what fills the slot, is open and waits afterwards comes from what was open and waited before, and from
the frame that was taken. -/
theorem apply_draws (s : Session) (call : Call) : ∃ moments, (s.apply call).history = s.history ++ moments ∧
    Draws s.segmenter.stock (s.slot.fills (s.apply call).slot) (s.apply call).segmenter.stock
      (Moment.payloads moments) := by
  have quiet : ∀ {t : Session} {moments : List Moment}, t.history = s.history ++ moments →
      s.slot.fills t.slot = [] → t.segmenter.stock.Sublist (s.segmenter.stock ++ Moment.payloads moments) →
      ∃ moments, t.history = s.history ++ moments ∧
        Draws s.segmenter.stock (s.slot.fills t.slot) t.segmenter.stock (Moment.payloads moments) :=
    fun {t moments} hh hf hs => ⟨moments, hh, by rw [hf]; exact .of_sublist hs⟩
  have same : ∀ {t : Session}, t.history = s.history → s.slot.fills t.slot = [] → t.segmenter.stock = s.segmenter.stock →
      ∃ moments, t.history = s.history ++ moments ∧
        Draws s.segmenter.stock (s.slot.fills t.slot) t.segmenter.stock (Moment.payloads moments) :=
    fun hh hf hs => quiet (hh.trans (List.append_nil _).symm) hf (by rw [hs]; exact List.sublist_append_left _ _)
  cases call with
  | manage frame =>
    cases hm : s.segmenter.manage frame with
    | error e =>
      rw [apply_manage_error hm]
      exact same rfl s.slot.fills_self rfl
    | ok r =>
      obtain ⟨isNew, g⟩ := r
      rw [apply_manage_ok hm]
      refine quiet rfl s.slot.fills_self ?_
      have hstock := Segmenter.manage_stock hm
      cases hd : frame.sample? with
      | none => simpa [hd, Moment.payloads] using hstock
      | some sample => simpa [hd, Moment.payloads] using hstock
  | configure =>
    cases hc : s.segmenter.configure with
    | error lack =>
      rw [apply_configure_error hc]
      exact same rfl s.slot.fills_self rfl
    | ok g =>
      rw [apply_configure_ok hc]
      refine quiet rfl s.slot.fills_self ?_
      rw [show Session.segmenter _ = g from rfl, Segmenter.stock_of_configure hc]
      exact List.sublist_append_left _ _
  | describe header =>
    exact same rfl s.slot.fills_self (Segmenter.stock_of_relabelled (s.segmenter.relabelled_describe header))
  | append => exact ⟨[], (List.append_nil _).symm, s.segmenter.append_draws s.slot⟩
  | finish =>
    refine ⟨_, rfl, ?_⟩
    have hnone : Moment.payloads (if (s.segmenter.finish s.slot).result.isOk then [.finished] else []) = [] := by
      split <;> rfl
    rw [hnone]
    exact s.segmenter.finish_draws s.slot
  | flush =>
    refine quiet (List.append_nil _).symm s.slot.fills_self ?_
    show s.segmenter.flush.stock.Sublist _
    rw [Segmenter.stock_flush]
    exact s.segmenter.preroll_sublist.trans (List.sublist_append_left _ _)
  | setOrigin origin =>
    exact same rfl s.slot.fills_self (Segmenter.stock_of_relabelled (s.segmenter.relabelled_setOrigin origin))
  | setBitrate bitrate =>
    exact same rfl s.slot.fills_self (Segmenter.stock_of_relabelled (s.segmenter.relabelled_setBitrate bitrate))
  | clear =>
    refine same rfl ?_ rfl
    show s.slot.fills s.slot.clear = []
    simp [Slot.fills, Slot.clear, Slot.isEmpty]

theorem run_draws : ∀ (calls : List Call) (s : Session), ∃ moments, (s.run calls).history = s.history ++ moments ∧
    Draws s.segmenter.stock (s.fills calls) (s.run calls).segmenter.stock (Moment.payloads moments)
  | [], s => ⟨[], (List.append_nil _).symm, .refl _⟩
  | call :: calls, s => by
    obtain ⟨first, hh, hd⟩ := s.apply_draws call
    obtain ⟨rest, hh', hd'⟩ := run_draws calls (s.apply call)
    refine ⟨first ++ rest, ?_, ?_⟩
    · rw [← List.append_assoc, ← hh]
      exact hh'
    · unfold Moment.payloads
      rw [List.flatMap_append]
      exact hd.trans hd'

/-- **After a flush only frames of the preroll and frames taken later are placed**: the samples in the slots filled from
then on are in order among them, whatever calls follow.  An audio track has no preroll, so nothing of before is left.
What a video track has in its preroll does come out: the next time the track is finished, all of it from the first IDR
picture on. -/
theorem placed_after_flush (s : Session) (more : List Call) :
    let t := s.apply .flush
    (∃ moments fs, (t.run more).history = s.history ++ moments ∧ List.Forall₂ Slot.Holds (t.fills more) fs ∧
      (fs.flatMap Fragment.datas).Sublist (s.segmenter.preroll.map Pending.data ++ Moment.payloads moments)) ∧
    (s.slot.isEmpty = true → ¬(t.segmenter.finish t.slot).Overflows →
      ∃ fs, List.Forall₂ Slot.Holds (t.segmenter.finish t.slot).made fs ∧
        fs.flatMap Fragment.datas = Feed.kept false (s.segmenter.preroll.map Pending.feed)) := by
  intro t
  have hstock : t.segmenter.stock = s.segmenter.preroll.map Pending.data := s.segmenter.stock_flush
  refine ⟨?_, fun hfree hfits => ?_⟩
  · obtain ⟨moments, hh, fs, hf, hs⟩ := run_draws more t
    rw [hstock] at hs
    exact ⟨moments, fs, hh, hf, (List.sublist_append_left _ _).trans hs⟩
  · obtain ⟨⟨fs, hf, he⟩, -⟩ := Segmenter.finish_spec hfree hfits s.segmenter.agrees_flush
    rw [List.append_nil] at he
    rw [← Segmenter.waiting_flush]
    exact ⟨fs, hf, he⟩

/-- Two pictures of which the first has gone to the preroll. -/
def earlyPictures : List Call := [.manage (pictureAt 0 true), .configure, .manage (pictureAt 100 false)]

/-- A third picture, with which the timing becomes known. -/
def latePicture : List Call := [.manage (pictureAt 200 true), .configure, .append, .finish]

theorem placed_after_flush_pictures :
    let s := (start .video .default 65536).run earlyPictures
    let t := s.apply .flush
    (∃ moments fs, (t.run latePicture).history = s.history ++ moments ∧
      List.Forall₂ Slot.Holds (t.fills latePicture) fs ∧
      (fs.flatMap Fragment.datas).Sublist (s.segmenter.preroll.map Pending.data ++ Moment.payloads moments)) ∧
    ∃ fs, List.Forall₂ Slot.Holds (t.segmenter.finish t.slot).made fs ∧
      fs.flatMap Fragment.datas = Feed.kept false (s.segmenter.preroll.map Pending.feed) := by
  have h := placed_after_flush ((start .video .default 65536).run earlyPictures) latePicture
  exact ⟨h.1, h.2 (by decide +kernel) (by decide +kernel)⟩

/-- The first picture comes out in a segment that is cut after the flush. -/
theorem flushed_picture_placed :
    let s := (start .video .default 65536).run earlyPictures
    let t := s.apply .flush
    ∃ slot ∈ t.fills latePicture, ∃ f : Fragment, slot.Holds f ∧ ∃ data ∈ f.datas,
      data ∈ Moment.payloads s.history ∧
      data ∉ Moment.payloads ((t.run latePicture).history.drop s.history.length) := by
  refine ⟨(((start .video .default 65536).run earlyPictures).apply .flush |>.run latePicture).slot, by decide +kernel,
    ⟨1, 1, 0, [⟨2560, true, [0, 0, 0, 2, 0x65, 1]⟩, ⟨1280, true, [0, 0, 0, 2, 0x65, 3]⟩]⟩, ⟨?_, ?_, ?_⟩,
    [0, 0, 0, 2, 0x65, 1], ?_, ?_, ?_⟩
  · decide +kernel
  · decide +kernel
  · decide +kernel
  · decide +kernel
  · decide +kernel
  · decide +kernel

end Session

end Packager
