import Packager.Proofs.OneOrigin
import Packager.Proofs.SampleTimes
/-!
# Proofs.Boundaries — where video fragments begin and end

Beside a run of a video segmenter stands the log of its turns: each picture that came up for appending, and whether the
slot was occupied then.  The open fragment is the end of the log, one sample for each turn (`Logged`).  So a fragment that
was cut lies in the log, with the picture that it was cut at right behind it: an IDR picture that met a free slot.  One
further in that was far enough met an occupied slot.  And there is a cut whenever there can be one: every picture takes its
turn, and what a turn does is decided by the picture, the open fragment and the slot (`Takes`).  `cut_at_free_idr` says
both.
-/
namespace Packager

/-- A picture that came up for appending. -/
structure Turn where
  frame : Pending
  /-- Whether the slot was occupied. -/
  held : Bool

/-- Where an element of a list with one more at the end lies. -/
theorem eq_of_concat_eq {α : Type} {l pre post : List α} {x y : α} (h : l ++ [y] = pre ++ x :: post) :
    (pre = l ∧ x = y ∧ post = []) ∨ ∃ post', post = post' ++ [y] ∧ l = pre ++ x :: post' := by
  rcases List.eq_nil_or_concat post with rfl | ⟨post', z, rfl⟩
  · obtain ⟨hl, hx⟩ := List.append_inj' h rfl
    exact .inl ⟨hl.symm, (List.singleton_inj.1 hx).symm, rfl⟩
  · rw [List.concat_eq_append, ← List.cons_append, ← List.append_assoc] at h
    obtain ⟨hl, hy⟩ := List.append_inj' h rfl
    exact .inr ⟨post', by rw [List.concat_eq_append, List.singleton_inj.1 hy], hl⟩

/-- Samples that were appended one turn after the other: the first is a sync sample, and a later one that is at or past
the target met an occupied slot. -/
structure Turned (target : Nat) (pairs : List (Turn × Sample)) : Prop where
  same : ∀ x ∈ pairs, x.2.data = x.1.frame.data ∧ x.2.isSync = x.1.frame.isSync
  opens : ∀ x ∈ pairs.head?, x.2.isSync = true
  held : ∀ pre x post, pairs = pre ++ x :: post → pre ≠ [] → x.2.isSync = true →
    target ≤ Sample.span (pre.map Prod.snd) → x.1.held = true

section
variable {target : Nat} {pairs : List (Turn × Sample)} {turn : Turn} {sample : Sample}

theorem turned_nil (target : Nat) : Turned target [] := by
  refine ⟨fun x hx => absurd hx List.not_mem_nil, nofun, fun pre x post h => ?_⟩
  cases pre <;> cases h

theorem Turned.push (h : Turned target pairs) (hdata : sample.data = turn.frame.data)
    (hsync : sample.isSync = turn.frame.isSync) (hopens : pairs = [] → sample.isSync = true)
    (hheld : pairs ≠ [] → sample.isSync = true → target ≤ Sample.span (pairs.map Prod.snd) → turn.held = true) :
    Turned target (pairs ++ [(turn, sample)]) := by
  refine ⟨fun x hx => ?_, fun x hx => ?_, fun pre x post hp => ?_⟩
  · rcases List.mem_append.1 hx with hx | hx
    · exact h.same x hx
    · rw [List.mem_singleton.1 hx]
      exact ⟨hdata, hsync⟩
  · cases pairs with
    | nil =>
      cases hx
      exact hopens rfl
    | cons y pairs => exact h.opens x hx
  · obtain ⟨rfl, rfl, -⟩ | ⟨post', -, rfl⟩ := eq_of_concat_eq hp
    · exact hheld
    · exact h.held pre x post' rfl

theorem Turned.first (h : Turned target pairs) (hne : pairs ≠ []) :
    ∃ first rest, pairs.map Prod.snd = first :: rest ∧ first.isSync = true := by
  cases pairs with
  | nil => exact absurd rfl hne
  | cons x pairs => exact ⟨x.2, pairs.map Prod.snd, rfl, h.opens x rfl⟩

/-- The duration of the last sample is nobody's offset. -/
theorem Turned.setLast {before : List (Turn × Sample)} (h : Turned target (before ++ [(turn, sample)])) (duration : UInt32) :
    Turned target (before ++ [(turn, { sample with duration := duration })]) := by
  have hlast := h.same (turn, sample) (List.mem_append_right before List.mem_cons_self)
  have hbefore : Turned target before := by
    refine ⟨fun x hx => h.same x (List.mem_append_left _ hx), fun x hx => h.opens x ?_, fun pre x post hp => ?_⟩
    · cases before with
      | nil => cases hx
      | cons y before => exact hx
    · refine h.held pre x (post ++ [(turn, sample)]) ?_
      rw [hp, List.append_assoc, List.cons_append]
  refine hbefore.push hlast.1 hlast.2 (fun he => ?_) fun hne => h.held before (turn, sample) [] rfl hne
  refine h.opens (turn, sample) ?_
  rw [he]
  rfl

end

/-- Whether the open fragment is the end of a log. -/
def Logged (log : List Turn) (a : Assembly) : Prop :=
  ∃ before pairs, log = before ++ pairs.map Prod.fst ∧ a.fragment.samples = pairs.map Prod.snd ∧
    Turned a.target pairs ∧ Sample.span a.fragment.samples ≤ a.fragment.duration

/-- Whether a slot holds a fragment from the end of a log, as long as it should be. -/
def Slot.CutFrom (slot : Slot) (log : List Turn) (target : Nat) : Prop :=
  slot.isEmpty = false ∧ target ≤ slot.duration ∧ ∃ before pairs f, log = before ++ pairs.map Prod.fst ∧ slot.Holds f ∧
    f.samples = pairs.map Prod.snd ∧ pairs ≠ [] ∧ Turned target pairs

namespace Logged

variable {log : List Turn} {a b : Assembly}

theorem of_isEmpty (log : List Turn) (h : a.fragment.isEmpty = true) : Logged log a := by
  have hs := OpenFragment.samples_of_isEmpty h
  refine ⟨log, [], by simp, by rw [hs]; rfl, turned_nil _, ?_⟩
  rw [hs]
  exact Nat.zero_le _

theorem of_fragment (h : Logged log a) (hf : b.fragment = a.fragment) (ht : b.target = a.target) : Logged log b := by
  obtain ⟨before, pairs, hlog, hs, hturned, hspan⟩ := h
  exact ⟨before, pairs, hlog, hf ▸ hs, ht.symm ▸ hturned, hf ▸ hspan⟩

theorem closeLast (h : Logged log a) (v : VideoStream) (next : Nat) : Logged log (VideoStream.closeLast a v next) := by
  obtain ⟨before, pairs, hlog, hs, hturned, hspan⟩ := h
  unfold VideoStream.closeLast
  generalize VideoStream.sampleDuration a.clock v.lastStart next = duration
  rcases a.fragment.setLast_cases duration with ⟨-, he⟩ | ⟨front, last, hlast, he⟩
  · exact ⟨before, pairs, hlog, by rw [he]; exact hs, hturned, by rw [he]; exact hspan⟩
  · -- the last sample belongs to the last turn
    rcases List.eq_nil_or_concat pairs with rfl | ⟨rest, ⟨turn, sample⟩, rfl⟩
    · rw [hlast] at hs
      cases front <;> cases hs
    · rw [List.concat_eq_append] at hs hturned hlog
      rw [hlast, List.map_append, List.map_singleton] at hs
      obtain ⟨rfl, hsample⟩ := List.append_inj' hs rfl
      cases List.singleton_inj.1 hsample
      have hturned' := hturned.setLast (.ofNat (min duration OpenFragment.longest))
      refine ⟨before, _, ?_, ?_, hturned', ?_⟩
      · rw [hlog, List.map_append, List.map_append]
        rfl
      · rw [he, List.map_append]
        rfl
      · rw [hlast, Sample.span_append, Sample.span_singleton] at hspan
        have hword : (UInt32.ofNat (min duration OpenFragment.longest)).toNat ≤ duration :=
          Nat.le_trans (Nat.mod_le _ _) (Nat.min_le_left _ _)
        rw [he, Sample.span_append, Sample.span_singleton]
        dsimp only at hspan ⊢
        omega

/-- A picture that is appended. -/
theorem push (h : Logged log a) (turn : Turn) (hopens : a.fragment.isEmpty = true → turn.frame.isSync = true)
    (hheld : turn.frame.isSync = true → a.isFull = true → turn.held = true) :
    Logged (log ++ [turn]) (a.push turn.frame) := by
  obtain ⟨before, pairs, hlog, hs, hturned, hspan⟩ := h
  have hempty : a.fragment.isEmpty = true ↔ pairs = [] := by
    unfold OpenFragment.isEmpty
    rw [hs, List.isEmpty_iff, List.map_eq_nil_iff]
  have hsamples : (a.push turn.frame).fragment.samples =
      a.fragment.samples ++ [⟨a.sampleTicks, turn.frame.isSync, turn.frame.data⟩] := OpenFragment.samples_push _ _ _
  refine ⟨before, pairs ++ [(turn, ⟨a.sampleTicks, turn.frame.isSync, turn.frame.data⟩)], ?_, ?_, ?_, ?_⟩
  · rw [hlog, List.map_append, List.append_assoc]
    rfl
  · rw [hsamples, hs, List.map_append]
    rfl
  · refine hturned.push rfl rfl (fun he => hopens (hempty.2 he)) fun hne hsync hspan' => hheld hsync ?_
    have hn : a.fragment.isEmpty = false := by
      cases he : a.fragment.isEmpty with
      | false => rfl
      | true => exact absurd (hempty.1 he) hne
    have hlong : a.target ≤ a.fragment.duration := by
      rw [hs] at hspan
      exact Nat.le_trans hspan' hspan
    exact (Assembly.isFull_iff a).2 ⟨hn, hlong⟩
  · rw [hsamples, Sample.span_append, Sample.span_singleton]
    unfold Assembly.push OpenFragment.push
    dsimp only
    split
    · rename_i he
      rw [OpenFragment.samples_of_isEmpty he]
      simp [Sample.span]
    · exact Nat.add_le_add_right hspan _

/-- A picture that opens a fragment. -/
theorem opened (log : List Turn) (he : a.fragment.isEmpty = true) (turn : Turn) (hsync : turn.frame.isSync = true) :
    Logged (log ++ [turn]) (a.push turn.frame) := by
  refine (of_isEmpty log he).push turn (fun _ => hsync) fun _ hfull => ?_
  rw [((Assembly.isFull_iff a).1 hfull).1] at he
  cases he

end Logged

/-! ## Appending and closing -/

namespace VideoStream

/-- One step of `appendAll`. -/
def appendNext (acc : Outcome (Assembly × VideoStream)) (p : Pending) : Outcome (Assembly × VideoStream) :=
  let step := appendFrame acc.state.1 acc.state.2 p acc.slot
  { step with result := joinResults acc.result step.result }

/-- The turns that appending a queue takes. -/
def turns : List Pending → Outcome (Assembly × VideoStream) → List Turn
  | [], _ => []
  | p :: queue, acc => ⟨p, !acc.slot.isEmpty⟩ :: turns queue (appendNext acc p)

theorem appendAll_cons (p : Pending) (queue : List Pending) (acc : Outcome (Assembly × VideoStream)) :
    appendAll (p :: queue) acc = appendAll queue (appendNext acc p) := rfl

theorem target_of_moved {a b : Assembly} (h : a.Moved b) : b.target = a.target := by
  obtain ⟨f, n, phase, rfl⟩ := h
  rfl

/-- **One turn in the log**: the open fragment stays the end of the log, and a slot that changes takes what was open before an IDR
picture. -/
theorem appendFrame_logged {log : List Turn} {a : Assembly} (h : Logged log a) (v : VideoStream) (p : Pending) (slot : Slot) :
    Logged (log ++ [⟨p, !slot.isEmpty⟩]) (appendFrame a v p slot).state.1 ∧
    ((appendFrame a v p slot).slot = slot ∨
      slot.isEmpty = true ∧ p.isSync = true ∧ (appendFrame a v p slot).slot.CutFrom log a.target) := by
  have hclosed := h.closeLast v p.start
  rcases appendFrame_cases a v p slot with ⟨hempty, -, he⟩ | ⟨hopens, -, hcases⟩
  · rw [he]
    exact ⟨.of_isEmpty _ hempty, .inl rfl⟩
  · rcases hcases with ⟨hfree, hstate, hslot, -⟩ | ⟨hsync, hfull, hs, hstate, hslot, -⟩
    · rw [hstate, hslot]
      refine ⟨hclosed.push ⟨p, !slot.isEmpty⟩ (fun he => hopens ?_) fun hsync hfull => ?_, .inl rfl⟩
      · rwa [closeLast, OpenFragment.isEmpty_setLast] at he
      · rw [hfree hsync hfull]
        rfl
    · rw [hstate, hslot]
      obtain ⟨hn, hlong⟩ : (closeLast a v p.start).fragment.isEmpty = false ∧
          a.target ≤ (closeLast a v p.start).fragment.duration := (Assembly.isFull_iff _).1 hfull
      rcases (closeLast a v p.start).close_cases slot with ⟨he, -⟩ | ⟨-, -, hstate, hsame⟩ |
        ⟨-, -, hstate, hholds, hfilled, -, hduration⟩
      · rw [hn] at he
        cases he
      · rw [hstate, hsame]
        exact ⟨.opened log rfl ⟨p, !slot.isEmpty⟩ hsync, .inl rfl⟩
      · rw [hstate]
        refine ⟨.opened log rfl ⟨p, !slot.isEmpty⟩ hsync, .inr ⟨hs, hsync, hfilled, ?_, ?_⟩⟩
        · rw [hduration]
          exact hlong
        · obtain ⟨before, pairs, hlog, hsamples, hturned, -⟩ := hclosed
          refine ⟨before, pairs, _, hlog, hholds, hsamples, ?_, hturned⟩
          rintro rfl
          rw [OpenFragment.isEmpty, hsamples] at hn
          cases hn

/-- **The turns of a queue in the log.**  At most one of them finds the slot free for a cut. -/
theorem appendAll_logged : ∀ (queue : List Pending) (acc : Outcome (Assembly × VideoStream)) (log : List Turn),
    Logged log acc.state.1 →
    Logged (log ++ turns queue acc) (appendAll queue acc).state.1 ∧
    ((appendAll queue acc).slot = acc.slot ∨ acc.slot.isEmpty = true ∧ ∃ pre last post,
      turns queue acc = pre ++ last :: post ∧ last.frame.isSync = true ∧ last.held = false ∧
      (appendAll queue acc).slot.CutFrom (log ++ pre) acc.state.1.target)
  | [], acc, log, h => by
    rw [turns, List.append_nil]
    exact ⟨h, .inl rfl⟩
  | p :: queue, acc, log, h => by
    obtain ⟨hnext, hslot⟩ := appendFrame_logged h acc.state.2 p acc.slot
    obtain ⟨hrest, hslot'⟩ := appendAll_logged queue (appendNext acc p) _ hnext
    have htarget : (appendNext acc p).state.1.target = acc.state.1.target :=
      target_of_moved (appendFrame_moved acc.state.1 acc.state.2 p acc.slot).1
    rw [htarget] at hslot'
    rw [appendAll_cons, turns, List.append_cons log]
    refine ⟨hrest, ?_⟩
    rcases hslot with hsame | ⟨hfree, hsync, hcut⟩
    · have hsame : (appendNext acc p).slot = acc.slot := hsame
      rw [hsame] at hslot'
      refine hslot'.imp (fun h => h) ?_
      rintro ⟨hfree, pre, last, post, hturns, hsync, hheld, hcut⟩
      refine ⟨hfree, ⟨p, !acc.slot.isEmpty⟩ :: pre, last, post, ?_, hsync, hheld, ?_⟩
      · rw [hturns, List.cons_append]
      · rwa [List.append_cons]
    · have hcut : (appendNext acc p).slot.CutFrom log acc.state.1.target := hcut
      rcases hslot' with hkept | ⟨hfree', -⟩
      · refine .inr ⟨hfree, [], ⟨p, !acc.slot.isEmpty⟩, turns queue (appendNext acc p), rfl, hsync, ?_, ?_⟩
        · show (!acc.slot.isEmpty) = false
          rw [hfree]
          rfl
        · rw [hkept, List.append_nil]
          exact hcut
      · rw [hcut.1] at hfree'
        cases hfree'

/-- Pictures that are appended without a cut take their turns too. -/
theorem absorbAll_logged : ∀ (queue : List Pending) (a : Assembly) (v : VideoStream) (log : List Turn), Logged log a →
    ∃ log', Logged log' (queue.foldl (fun (a, v) p => absorbFrame a v p) (a, v)).1
  | [], _, _, log, h => ⟨log, h⟩
  | p :: queue, a, v, log, h => by
    have hstep : ∃ log', Logged log' (absorbFrame a v p).1 := by
      unfold absorbFrame
      split
      · exact ⟨log, h⟩
      · rename_i hkept
        have hopens : a.fragment.isEmpty = true → p.isSync = true := by simpa using hkept
        refine ⟨_, (h.closeLast v p.start).push ⟨p, true⟩ (fun he => hopens ?_) fun _ _ => rfl⟩
        rwa [closeLast, OpenFragment.isEmpty_setLast] at he
    obtain ⟨log', h'⟩ := hstep
    exact absorbAll_logged queue _ _ log' h'

end VideoStream

/-! ## What a turn does -/

/-- What a picture finds when its turn comes. -/
structure Scene where
  fragment : OpenFragment
  /-- Where the last sample starts. -/
  lastStart : Nat
  slot : Slot

namespace Scene

/-- What appending has come to. -/
def of (out : Outcome (Assembly × VideoStream)) : Scene := ⟨out.state.1.fragment, out.state.2.lastStart, out.slot⟩

/-- The open fragment, with its last sample closed at a picture. -/
def closed (x : Scene) (clock : Clock) (p : Pending) : OpenFragment :=
  x.fragment.setLast (VideoStream.sampleDuration clock x.lastStart p.start)

/-- Whether a picture is one to cut at: decoding can start there, what is open reaches the target, and the slot is
free. -/
def Cuts (x : Scene) (clock : Clock) (target : Nat) (p : Pending) : Prop :=
  p.isSync = true ∧ (x.closed clock p).reaches target = true ∧ x.slot.isEmpty = true

/-- What a picture leaves that is appended to a fragment. -/
def pushed (fragment : OpenFragment) (clock : Clock) (p : Pending) (slot : Slot) : Scene :=
  ⟨fragment.push p.start ⟨.ofNat (min clock.frameTicks OpenFragment.longest), p.isSync, p.data⟩, p.start, slot⟩

end Scene

/-- **What the turn of a picture does.**  The clock tells how long samples are. -/
inductive Takes (clock : Clock) (target : Nat) (p : Pending) (x : Scene) : Scene → Prop
  /-- Nothing is open, and decoding cannot start at the picture: it is dropped. -/
  | dropped (hempty : x.fragment.isEmpty = true) (hsync : p.isSync = false) : Takes clock target p x x
  /-- The picture is not one to cut at: it is appended. -/
  | appended (hopens : x.fragment.isEmpty = true → p.isSync = true) (hcut : ¬x.Cuts clock target p) :
      Takes clock target p x (.pushed (x.closed clock p) clock p x.slot)
  /-- What was open goes into the slot, and the picture opens the next fragment. -/
  | cut {f : Fragment} {slot : Slot} (hcut : x.Cuts clock target p) (hsamples : f.samples = (x.closed clock p).samples)
      (hfits : f.encode.length ≤ x.slot.capacity) (hholds : slot.Holds f) (hfilled : slot.isEmpty = false)
      (hduration : slot.duration = (x.closed clock p).duration) :
      Takes clock target p x (.pushed .empty clock p slot)
  /-- What was open is too large for the slot and lost; the picture opens the next fragment all the same. -/
  | lost {f : Fragment} (hcut : x.Cuts clock target p) (hsamples : f.samples = (x.closed clock p).samples)
      (hlarge : x.slot.capacity < f.encode.length) : Takes clock target p x (.pushed .empty clock p x.slot)

/-- Turns one after the other; each notes whether the slot was occupied when it came. -/
inductive TakesAll (clock : Clock) (target : Nat) : List Turn → Scene → Scene → Prop
  | done (x : Scene) : TakesAll clock target [] x x
  | next {turn : Turn} {turns : List Turn} {x y z : Scene} (hheld : turn.held = !x.slot.isEmpty)
      (hturn : Takes clock target turn.frame x y) (hrest : TakesAll clock target turns y z) :
      TakesAll clock target (turn :: turns) x z

namespace VideoStream

/-- **Every picture takes its turn.** -/
theorem appendFrame_takes (a : Assembly) (v : VideoStream) (p : Pending) (slot : Slot) :
    Takes a.clock a.target p ⟨a.fragment, v.lastStart, slot⟩ (.of (appendFrame a v p slot)) := by
  unfold Scene.of
  rcases appendFrame_cases a v p slot with ⟨hempty, hsync, he⟩ | ⟨hopens, hstream, hcases⟩
  · rw [he]
    exact .dropped hempty hsync
  · rw [hstream]
    rcases hcases with ⟨hfree, hstate, hslot, -⟩ | ⟨hsync, hfull, hfree, hstate, hslot, -⟩
    · rw [hstate, hslot]
      refine .appended hopens fun ⟨hsync, hfull, he⟩ => ?_
      have hheld : slot.isEmpty = false := hfree hsync hfull
      cases hheld.symm.trans he
    · obtain ⟨hopen, -⟩ := (Assembly.isFull_iff _).1 hfull
      have hsize := Assembly.close_overflows_iff hopen slot
      rw [hstate, hslot]
      rcases (closeLast a v p.start).close_cases slot with ⟨he, -⟩ | ⟨-, hover, hafter, hsame⟩ |
        ⟨-, hresult, hafter, hholds, hfilled, -, hduration⟩
      · cases hopen.symm.trans he
      · rw [hafter, hsame]
        exact .lost ⟨hsync, hfull, hfree⟩ rfl (hsize.1 hover)
      · have hfits : ¬slot.capacity < (closeLast a v p.start).segment.encode.length := fun hlarge => by
          obtain ⟨_, _, he⟩ := hsize.2 hlarge
          cases hresult.symm.trans he
        rw [hafter]
        exact .cut ⟨hsync, hfull, hfree⟩ rfl (Nat.not_lt.1 hfits) hholds hfilled hduration

/-- **All pictures of a queue take their turns.** -/
theorem appendAll_takes : ∀ (queue : List Pending) (acc : Outcome (Assembly × VideoStream)),
    TakesAll acc.state.1.clock acc.state.1.target (turns queue acc) (.of acc) (.of (appendAll queue acc))
  | [], acc => .done (.of acc)
  | p :: queue, acc => by
    have hrest := appendAll_takes queue (appendNext acc p)
    -- no turn changes the clock or the target
    obtain ⟨_, _, _, hmoved⟩ : acc.state.1.Moved (appendNext acc p).state.1 :=
      (appendFrame_moved acc.state.1 acc.state.2 p acc.slot).1
    rw [hmoved] at hrest
    exact .next rfl (appendFrame_takes acc.state.1 acc.state.2 p acc.slot) hrest

theorem frames_turns : ∀ (queue : List Pending) (acc : Outcome (Assembly × VideoStream)),
    (turns queue acc).map Turn.frame = queue
  | [], _ => rfl
  | p :: queue, acc => by rw [turns, List.map_cons, frames_turns queue]

end VideoStream

theorem Logged.opens {log : List Turn} {a : Assembly} (h : Logged log a) :
    ∀ first ∈ a.fragment.samples.head?, first.isSync = true := by
  obtain ⟨before, pairs, -, hs, hturned, -⟩ := h
  intro first hf
  rw [hs, List.head?_map] at hf
  obtain ⟨x, hx, rfl⟩ := Option.map_eq_some_iff.1 hf
  exact hturned.opens x hx

/-! ## Runs -/

namespace Session

/-- The turns that a call takes. -/
def turns (s : Session) : Call → List Turn
  | .append =>
    match s.segmenter.stream with
    | .video v =>
      if s.assembly.configured then VideoStream.turns (VideoStream.queue s.assembly v)
        ⟨.ok false, ({ s.assembly with pending := none }, { v with preroll := [] }), s.slot⟩
      else []
    | .audio _ => []
  | _ => []

/-- The log of a run. -/
def log : Session → List Call → List Turn
  | _, [] => []
  | s, call :: calls => s.turns call ++ log (s.apply call) calls

theorem log_concat (call : Call) : ∀ (calls : List Call) (s : Session),
    s.log (calls ++ [call]) = s.log calls ++ (s.run calls).turns call
  | [], s => List.append_nil (s.turns call)
  | c :: calls, s => by
    rw [List.cons_append, log, log, log_concat call calls (s.apply c), List.append_assoc]
    rfl

/-- No call changes the kind of the track or how long a segment should be. -/
theorem apply_fixed (s : Session) (call : Call) : (s.apply call).segmenter.kind = s.segmenter.kind ∧
    (s.apply call).assembly.target = s.assembly.target := by
  rcases s.apply_keeps call with h | ⟨bitrate, rfl⟩
  · exact ⟨h.kind, h.target⟩
  · exact ⟨rfl, rfl⟩

/-- What may have happened to the slot: nothing, it was emptied, or it was free and took a fragment that opens with an IDR
picture; one that `append` put there was cut at another. -/
def Fills (s t : Session) (call : Call) (log : List Turn) (target : Nat) : Prop :=
  t.slot = s.slot ∨ t.slot.isEmpty = true ∨ s.slot.isEmpty = true ∧ ∃ f : Fragment, t.slot.Holds f ∧
    (∃ first rest, f.samples = first :: rest ∧ first.isSync = true) ∧
    (call = .append → target ≤ t.slot.duration ∧ ∃ before pairs last after,
      log = before ++ pairs.map Prod.fst ++ last :: after ∧ f.samples = pairs.map Prod.snd ∧ Turned target pairs ∧
      last.frame.isSync = true ∧ last.held = false)

/-- What `append` comes to once the segmenter is configured, and the turns that it takes. -/
theorem append_outcome {s : Session} {v : VideoStream} (hv : s.segmenter.stream = .video v)
    (hc : s.assembly.configured = true) :
    let start : Outcome (Assembly × VideoStream) :=
      ⟨.ok false, ({ s.assembly with pending := none }, { v with preroll := [] }), s.slot⟩
    let out := VideoStream.appendAll (VideoStream.queue s.assembly v) start
    s.turns .append = VideoStream.turns (VideoStream.queue s.assembly v) start ∧
    (s.apply .append).assembly = out.state.1 ∧ (s.apply .append).segmenter.stream = .video out.state.2 ∧
    (s.apply .append).slot = out.slot := by
  obtain ⟨⟨a, stream⟩, slot, due, history, placed⟩ := s
  cases hv
  have hout := Segmenter.append_video v slot hc
  refine ⟨?_, congrArg (·.state.assembly) hout, congrArg (·.state.stream) hout, congrArg Outcome.slot hout⟩
  unfold turns
  exact if_pos hc

theorem append_logged {s : Session} {log : List Turn} {v : VideoStream} (hv : s.segmenter.stream = .video v)
    (h : Logged log s.assembly) : Logged (log ++ s.turns .append) (s.apply .append).assembly ∧
      Fills s (s.apply .append) .append (log ++ s.turns .append) s.assembly.target := by
  cases hc : s.assembly.configured with
  | false =>
    have hturns : s.turns .append = [] := by simp [turns, hv, hc]
    have hout := Segmenter.append_of_unconfigured hc s.slot
    have hsame : (s.apply .append).assembly = s.assembly := congrArg (·.state.assembly) hout
    rw [hturns, List.append_nil, hsame]
    exact ⟨h, .inl (congrArg Outcome.slot hout)⟩
  | true =>
    obtain ⟨hturns, hafter, -, hfinal⟩ := append_outcome hv hc
    have hstart : Logged log { s.assembly with pending := none } := h.of_fragment rfl rfl
    obtain ⟨hlogged, hslot⟩ := VideoStream.appendAll_logged (VideoStream.queue s.assembly v)
      ⟨.ok false, ({ s.assembly with pending := none }, { v with preroll := [] }), s.slot⟩ log hstart
    rw [hturns, hafter]
    refine ⟨hlogged, ?_⟩
    unfold Fills
    rw [hfinal]
    rcases hslot with hsame | ⟨hfree, pre, last, post, hsplit, hsync, hheld, -, hlong, before, pairs, f, hlog, hholds,
      hsamples, hne, hturned⟩
    · exact .inl hsame
    · refine .inr (.inr ⟨hfree, f, hholds, ?_, fun _ => ⟨hlong, before, pairs, last, post, ?_, hsamples, hturned, hsync,
        hheld⟩⟩)
      · rw [hsamples]
        exact hturned.first hne
      · rw [hsplit, ← List.append_assoc, hlog]

theorem finish_logged {s : Session} {log : List Turn} {v : VideoStream} (hv : s.segmenter.stream = .video v)
    (h : Logged log s.assembly) : Logged log (s.apply .finish).assembly ∧
      ∀ target, Fills s (s.apply .finish) .finish log target := by
  obtain ⟨⟨a, stream⟩, slot, due, history, placed⟩ := s
  cases hv
  have hstart : Logged log { a with pending := none } := h.of_fragment (a := a) rfl rfl
  obtain ⟨log', habsorbed⟩ := VideoStream.absorbAll_logged (VideoStream.queue a v) { a with pending := none }
    { v with preroll := [] } log hstart
  have habsorbed : Logged log' (Segmenter.absorb ⟨a, .video v⟩).assembly := habsorbed
  unfold Fills
  show Logged log (Segmenter.finish ⟨a, .video v⟩ slot).state.assembly ∧
    ∀ target, (Segmenter.finish ⟨a, .video v⟩ slot).slot = slot ∨ _
  rcases Segmenter.finish_cases ⟨a, .video v⟩ slot with ⟨-, he⟩ | ⟨hfree, -, hslot, phase, hstate⟩
  · rw [he]
    exact ⟨h, fun _ => .inl rfl⟩
  · generalize (Segmenter.absorb ⟨a, .video v⟩) = g at habsorbed hslot hstate
    obtain ⟨f, n, phase', hclosed, hempty⟩ := g.assembly.close_state slot
    refine ⟨?_, fun target => ?_⟩
    · rw [hstate, hclosed]
      exact .of_isEmpty log hempty
    · rcases g.assembly.close_cases slot with ⟨-, hc⟩ | ⟨-, -, -, hs⟩ | ⟨hn, -, -, hholds, -⟩
      · exact .inl (by rw [hslot, hc])
      · exact .inl (hslot.trans hs)
      · obtain ⟨before, pairs, -, hsamples, hturned, -⟩ := habsorbed
        refine .inr (.inr ⟨hfree, g.assembly.segment, ?_, ?_, nofun⟩)
        · show (Segmenter.finish ⟨a, .video v⟩ slot).slot.Holds _
          rw [hslot]
          exact hholds
        · have hne : pairs ≠ [] := by
            rintro rfl
            rw [OpenFragment.isEmpty, hsamples] at hn
            cases hn
          obtain ⟨first, rest, hp, hsync⟩ := hturned.first hne
          exact ⟨first, rest, hsamples.trans hp, hsync⟩

/-- **Every call** leaves the open fragment at the end of the log. -/
theorem apply_logged {s : Session} {log : List Turn} (hk : s.segmenter.kind = .video) (h : Logged log s.assembly)
    (call : Call) : Logged (log ++ s.turns call) (s.apply call).assembly ∧
      Fills s (s.apply call) call (log ++ s.turns call) s.assembly.target := by
  obtain ⟨_, v, hs⟩ := Segmenter.exists_video hk
  have hv : s.segmenter.stream = .video v := congrArg Segmenter.stream hs
  -- all but `append` and `finish` leave the slot alone and at most drop the fragment
  have quiet : ∀ {t : Session}, s.turns call = [] → Logged log t.assembly → (t.slot = s.slot ∨ t.slot.isEmpty = true) →
      Logged (log ++ s.turns call) t.assembly ∧ Fills s t call (log ++ s.turns call) s.assembly.target := by
    intro t hturns hlogged hslot
    rw [hturns, List.append_nil]
    exact ⟨hlogged, hslot.imp (fun h => h) .inl⟩
  cases call with
  | append => exact append_logged hv h
  | finish =>
    obtain ⟨hlogged, hfills⟩ := finish_logged hv h
    have hturns : s.turns .finish = [] := rfl
    rw [hturns, List.append_nil]
    exact ⟨hlogged, hfills _⟩
  | manage frame =>
    cases hm : s.segmenter.manage frame with
    | error e =>
      rw [apply_manage_error hm]
      exact quiet rfl h (.inl rfl)
    | ok r =>
      obtain ⟨-, clock, pending, phase, hg⟩ := Segmenter.manage_state hm
      have hk := Segmenter.keeps_manage hm
      rw [apply_manage_ok hm]
      refine quiet rfl (h.of_fragment ?_ hk.target) (.inl rfl)
      show r.2.assembly.fragment = s.segmenter.assembly.fragment
      rw [hg]
  | configure =>
    cases hc : s.segmenter.configure with
    | error lack =>
      rw [apply_configure_error hc]
      exact quiet rfl h (.inl rfl)
    | ok g =>
      obtain ⟨ticks, phase, rfl⟩ := Segmenter.configure_state hc
      rw [apply_configure_ok hc]
      exact quiet rfl (h.of_fragment rfl rfl) (.inl rfl)
  | describe header =>
    obtain ⟨metadata, described, hg⟩ := s.segmenter.describe_state header
    refine quiet rfl (h.of_fragment ?_ ?_) (.inl rfl)
    · exact congrArg (·.assembly.fragment) hg
    · exact congrArg (·.assembly.target) hg
  | flush => exact quiet rfl (.of_isEmpty log rfl) (.inl rfl)
  | setOrigin origin => exact quiet rfl (h.of_fragment rfl rfl) (.inl rfl)
  | setBitrate bitrate => exact quiet rfl (h.of_fragment rfl rfl) (.inl rfl)
  | clear => exact quiet rfl h (.inr rfl)

theorem run_logged (plan : SegmenterPlan) (capacity : Nat) (calls : List Call) :
    let s := (start .video plan capacity).run calls
    s.segmenter.kind = .video ∧ s.assembly.target = plan.target ∧
      Logged ((start .video plan capacity).log calls) s.assembly := by
  induction calls using List.reverseRecOn with
  | nil => exact ⟨rfl, rfl, .of_isEmpty [] rfl⟩
  | append_singleton calls call ih =>
    obtain ⟨hk, ht, hlogged⟩ := ih
    obtain ⟨hk', ht'⟩ := apply_fixed ((start .video plan capacity).run calls) call
    rw [run_concat, log_concat]
    exact ⟨hk'.trans hk, ht'.trans ht, (apply_logged hk hlogged call).1⟩

/-- **When `append` cuts**: every picture that waits takes its turn, and none waits any longer. -/
theorem append_takes {s : Session} {v : VideoStream} (hv : s.segmenter.stream = .video v)
    (hc : s.assembly.configured = true) :
    let t := s.apply .append
    (s.turns .append).map Turn.frame = VideoStream.queue s.assembly v ∧
    ∃ w, t.segmenter.stream = .video w ∧ VideoStream.queue t.assembly w = [] ∧
      TakesAll s.assembly.clock s.assembly.target (s.turns .append) ⟨s.assembly.fragment, v.lastStart, s.slot⟩
        ⟨t.assembly.fragment, w.lastStart, t.slot⟩ := by
  intro t
  obtain ⟨hturns, hafter, hstream, hslot⟩ := append_outcome hv hc
  obtain ⟨⟨g, n, phase, hmoved⟩, hpreroll⟩ := VideoStream.append_moved s.assembly v s.slot
  rw [hturns]
  refine ⟨VideoStream.frames_turns _ _, _, hstream, ?_, ?_⟩
  · have hpending : t.assembly.pending = none := (congrArg Assembly.pending hafter).trans (congrArg Assembly.pending hmoved)
    have hnone : (VideoStream.append s.assembly v s.slot).state.2.preroll = [] := hpreroll
    unfold VideoStream.append at hnone
    rw [VideoStream.queue, hnone, hpending]
    rfl
  · rw [hafter, hslot]
    exact VideoStream.appendAll_takes (VideoStream.queue s.assembly v)
      ⟨.ok false, ({ s.assembly with pending := none }, { v with preroll := [] }), s.slot⟩

/-- **Where video fragments begin and end**, whatever the calls.  The open fragment is the end of the log of the turns.  It,
and every fragment that goes into the slot, opens with a sync sample.  One that `append` puts there is at least as long as a
segment should be, and lies in the log right before the sync sample that it was cut at, which met a free slot; in the open
fragment and in one that `append` cut, a later sync sample that is at or past the target met an occupied slot.  `append`
gives every picture that waits its turn, once the segmenter is configured: a sync sample that finds the open fragment at or
past the target and the slot free cuts it, and no other. -/
theorem cut_at_free_idr (plan : SegmenterPlan) (capacity : Nat) (calls : List Call) (call : Call) :
    let s := (start .video plan capacity).run calls
    let t := s.apply call
    (∃ before pairs, (start .video plan capacity).log calls = before ++ pairs.map Prod.fst ∧
      s.assembly.fragment.samples = pairs.map Prod.snd ∧ Turned plan.target pairs) ∧
    (∀ first ∈ s.assembly.fragment.samples.head?, first.isSync = true) ∧
    (t.slot = s.slot ∨ t.slot.isEmpty = true ∨ s.slot.isEmpty = true ∧ ∃ f : Fragment, t.slot.Holds f ∧
      (∃ first rest, f.samples = first :: rest ∧ first.isSync = true) ∧
      (call = .append → plan.target ≤ t.slot.duration ∧ ∃ before pairs last after,
        (start .video plan capacity).log (calls ++ [call]) = before ++ pairs.map Prod.fst ++ last :: after ∧
        f.samples = pairs.map Prod.snd ∧ Turned plan.target pairs ∧ last.frame.isSync = true ∧ last.held = false)) ∧
    ∃ v, s.segmenter.stream = .video v ∧ (call = .append → s.assembly.configured = true →
      (s.turns call).map Turn.frame = VideoStream.queue s.assembly v ∧
      ∃ w, t.segmenter.stream = .video w ∧ VideoStream.queue t.assembly w = [] ∧
        TakesAll s.assembly.clock plan.target (s.turns call) ⟨s.assembly.fragment, v.lastStart, s.slot⟩
          ⟨t.assembly.fragment, w.lastStart, t.slot⟩) := by
  intro s t
  obtain ⟨hk, ht, hlogged⟩ := run_logged plan capacity calls
  have hfills := (apply_logged hk hlogged call).2
  rw [ht, ← log_concat] at hfills
  obtain ⟨_, v, hs⟩ := Segmenter.exists_video hk
  have hv : s.segmenter.stream = .video v := congrArg Segmenter.stream hs
  refine ⟨?_, hlogged.opens, hfills, v, hv, ?_⟩
  · obtain ⟨before, pairs, hlog, hsamples, hturned, -⟩ := hlogged
    exact ⟨before, pairs, hlog, hsamples, ht ▸ hturned⟩
  · rintro rfl hc
    rw [← ht]
    exact append_takes hv hc

/-- With an IDR picture every 1.2 seconds and segments of a second, the second one cuts.  The third meets an occupied slot,
so that the fourth is the next to cut. -/
example : ((start .video ⟨1, 1, 1000, 4, 0⟩ 4096).run ((List.range 10).flatMap fun n =>
      [.manage (.video ⟨1000000000 + n * 400000000, 640, 360,
        if n % 3 = 0 then [0, 0, 1, 0x67, 0x42, 0, 0x1e, 0, 0, 1, 0x68, 9, 0, 0, 1, 0x65, 1] else [0, 0, 1, 0x41, 2]⟩),
        .configure, .append] ++ if n = 6 then [.clear] else [])).placed.map
    (fun slot => (slot.timestamp, slot.duration)) = [(0, 1200), (1200, 2400)] := by decide +kernel

end Session
end Packager
