import Mathlib.Data.List.Chain
import Packager.Proofs.Boundaries
/-!
# Proofs.SteadyPictures — appending pictures that come at a steady pace

The fragments that were cut, the open one and the pictures that wait are the end of a line of arrivals (`Tiled`).  A
picture closes the sample before it with the gap between the two, which the clock tolerates as long as its frame duration
is a gap of the line, however many pictures are replayed under it (`closeLast_ends`).  Without a frame duration nothing
is tolerated: all pictures are decoded where the first of them arrived (`absorbAll_stacks`).
-/
namespace Packager

/-! ## Gaps between ticks -/

/-- The gaps between ticks that follow each other. -/
def gaps : List Nat → List Nat
  | s :: t :: ticks => (t - s) :: gaps (t :: ticks)
  | _ => []

theorem mem_gaps {g : Nat} : ∀ {ticks : List Nat},
    g ∈ gaps ticks ↔ ∃ pre s t post, ticks = pre ++ s :: t :: post ∧ g = t - s
  | [] => ⟨nofun, fun ⟨pre, s, t, post, h, _⟩ => by cases pre <;> cases h⟩
  | [x] => ⟨nofun, fun ⟨pre, s, t, post, h, _⟩ => by
    have hlength := congrArg List.length h
    simp only [List.length_append, List.length_cons, List.length_nil] at hlength
    omega⟩
  | x :: y :: ticks => by
    rw [gaps, List.mem_cons, mem_gaps]
    constructor
    · rintro (rfl | ⟨pre, s, t, post, h, rfl⟩)
      · exact ⟨[], x, y, ticks, rfl, rfl⟩
      · exact ⟨x :: pre, s, t, post, by rw [h, List.cons_append], rfl⟩
    · rintro ⟨pre, s, t, post, h, rfl⟩
      cases pre with
      | nil =>
        cases h
        exact .inl rfl
      | cons z pre =>
        obtain ⟨-, h⟩ := List.cons.inj h
        exact .inr ⟨pre, s, t, post, h, rfl⟩

theorem mem_gaps_append {g : Nat} {ticks : List Nat} (h : g ∈ gaps ticks) (more : List Nat) : g ∈ gaps (ticks ++ more) := by
  obtain ⟨pre, s, t, post, rfl, rfl⟩ := mem_gaps.1 h
  exact mem_gaps.2 ⟨pre, s, t, post ++ more, by simp, rfl⟩

/-- Ticks that rise by gaps of 32 bits, none of them more than `tolerance` times another. -/
structure Steady (tolerance : Nat) (ticks : List Nat) : Prop where
  rising : ticks.Pairwise (· < ·)
  even : ∀ g ∈ gaps ticks, g < 2 ^ 32 ∧ ∀ h ∈ gaps ticks, g ≤ h * tolerance

instance (tolerance : Nat) (ticks : List Nat) : Decidable (Steady tolerance ticks) :=
  decidable_of_iff (ticks.Pairwise (· < ·) ∧ ∀ g ∈ gaps ticks, g < 2 ^ 32 ∧ ∀ h ∈ gaps ticks, g ≤ h * tolerance)
    ⟨fun ⟨h, h'⟩ => ⟨h, h'⟩, fun h => ⟨h.rising, h.even⟩⟩

theorem Steady.next {tolerance s t : Nat} {ticks pre post : List Nat} (h : Steady tolerance ticks)
    (ht : ticks = pre ++ s :: t :: post) :
    s < t ∧ t - s < 2 ^ 32 ∧ ∀ g ∈ gaps ticks, t - s ≤ g * tolerance := by
  have hrise : s < t := by
    have hall := h.rising
    rw [ht, List.pairwise_append] at hall
    exact (List.pairwise_cons.1 hall.2.1).1 t List.mem_cons_self
  obtain ⟨hfit, hlong⟩ := h.even (t - s) (mem_gaps.2 ⟨pre, s, t, post, ht, rfl⟩)
  exact ⟨hrise, hfit, hlong⟩

/-- Whether frames that arrive on a line keep the pace of a clock. -/
structure Clock.Paces (c : Clock) (line : List (Nat × Bytes)) : Prop where
  steady : Steady c.tolerance (line.map Prod.fst)
  known : c.frameTicks ∈ gaps (line.map Prod.fst)

/-! ## Fragments that were cut -/

/-- The slot after something that may have filled it, if it did. -/
def Slot.fills (before after : Slot) : List Slot := if before.isEmpty && !after.isEmpty then [after] else []

theorem Slot.fills_self (slot : Slot) : slot.fills slot = [] := by
  unfold fills
  cases slot.isEmpty <;> rfl

/-- A slot is not filled again before it is cleared. -/
theorem Slot.fills_trans {s t u : Slot} (hst : s.isEmpty = false → t = s) (htu : t.isEmpty = false → u = t) :
    s.fills t ++ t.fills u = s.fills u := by
  cases hs : s.isEmpty with
  | false =>
    cases hst hs
    rw [htu hs, fills_self, List.append_nil]
  | true =>
    cases ht : t.isEmpty with
    | false =>
      rw [htu ht, fills_self, List.append_nil]
    | true => simp [fills, hs, ht]

/-- A fragment that was cut: its samples with their decode times, and its end. -/
structure Cut where
  samples : List (Nat × Bytes)
  stop : Nat

/-- Whether a fragment ends where another starts. -/
def Cut.Meets (c d : Cut) : Prop := d.samples.head?.map Prod.fst = some c.stop

/-- Whether a slot holds a fragment under its start and its duration. -/
def Slot.Shows (slot : Slot) (c : Cut) : Prop := slot.Carries c.samples ∧ slot.timestamp + slot.duration = c.stop

def OpenFragment.cut (f : OpenFragment) : Cut := ⟨f.timed, f.stop⟩

theorem Assembly.close_shows {a : Assembly} (slot : Slot) (ht : a.fragment.Tallied) (hn : a.fragment.isEmpty = false) :
    slot.fills (a.close slot).slot = [] ∨
    ∃ t : Slot, slot.fills (a.close slot).slot = [t] ∧ t.Shows a.fragment.cut ∧ t.timestamp = a.fragment.start ∧
      t.duration = a.fragment.duration := by
  rcases a.close_cases slot with ⟨he, -⟩ | ⟨-, -, -, hsame⟩ | ⟨-, -, -, hholds, hfull, hstart, hduration⟩
  · rw [hn] at he
    cases he
  · rw [hsame]
    exact .inl slot.fills_self
  · cases hs : slot.isEmpty with
    | false => exact .inl (by simp [Slot.fills, hs])
    | true =>
      refine .inr ⟨_, by simp [Slot.fills, hs, hfull], ⟨⟨a.segment, hholds, ?_, ?_⟩, ?_⟩, hstart, hduration⟩
      · rw [hstart]
        rfl
      · rw [hduration]
        exact ht hn
      · rw [hstart, hduration]
        rfl

/-- What `finish` puts into the slot, if anything, is all that was open or waited. -/
theorem Segmenter.finish_fills (a : Assembly) (v : VideoStream) (slot : Slot) :
    slot.fills (finish ⟨a, .video v⟩ slot).slot = [] ∨
    ((VideoStream.absorb a v).1.fragment.isEmpty = false ∧ slot.fills (finish ⟨a, .video v⟩ slot).slot =
      slot.fills ((VideoStream.absorb a v).1.close slot).slot) := by
  rcases finish_cases ⟨a, .video v⟩ slot with ⟨-, he⟩ | ⟨-, -, hslot, -⟩
  · rw [he]
    exact .inl slot.fills_self
  · have hslot : (finish ⟨a, .video v⟩ slot).slot = ((VideoStream.absorb a v).1.close slot).slot := hslot
    rw [hslot]
    rcases (VideoStream.absorb a v).1.close_cases slot with ⟨-, he⟩ | ⟨hn, -⟩ | ⟨hn, -⟩
    · rw [he]
      exact .inl slot.fills_self
    · exact .inr ⟨hn, rfl⟩
    · exact .inr ⟨hn, rfl⟩

/-! ## The end of the line of arrivals -/

def Pending.arrival (p : Pending) : Nat × Bytes := (p.start, p.data)

/-- Where the frames are that arrived on a line: the last of them wait, the ones before are the samples of the open
fragment, and the ones before those were cut, of which `kept` are in the slots `placed`. -/
structure Tiled (line : List (Nat × Bytes)) (placed : List Slot) (f : OpenFragment) (waiting : List Pending)
    (cuts kept : List Cut) : Prop where
  behind : cuts.flatMap Cut.samples ++ (f.timed ++ waiting.map Pending.arrival) <:+ line
  chain : cuts.IsChain Cut.Meets
  /-- What is open starts where the last cut was; so as long as nothing is open, nothing was cut. -/
  meets : ∀ c ∈ cuts.getLast?, c.Meets f.cut
  sublist : kept.Sublist cuts
  shows : List.Forall₂ Slot.Shows placed kept
  tallied : f.Tallied

namespace Tiled

variable {line : List (Nat × Bytes)} {placed : List Slot} {f g : OpenFragment} {p : Pending} {waiting : List Pending}
  {cuts kept : List Cut}

theorem cuts_eq_nil (h : Tiled line placed f waiting cuts kept) (he : f.isEmpty = true) : cuts = [] := by
  cases hl : cuts.getLast? with
  | none => exact List.getLast?_eq_none_iff.1 hl
  | some c =>
    have hmeets : f.timed.head?.map Prod.fst = some c.stop := h.meets c hl
    rw [OpenFragment.timed_of_isEmpty he] at hmeets
    cases hmeets

/-- A picture that is dropped is not behind any sample. -/
theorem skip (h : Tiled line placed f (p :: waiting) cuts kept) (he : f.isEmpty = true) :
    Tiled line placed f waiting cuts kept := by
  refine ⟨?_, h.chain, h.meets, h.sublist, h.shows, h.tallied⟩
  have hbehind := h.behind
  rw [h.cuts_eq_nil he, OpenFragment.timed_of_isEmpty he] at hbehind ⊢
  exact (List.suffix_cons p.arrival _).trans hbehind

theorem retimed (h : Tiled line placed f waiting cuts kept) (ht : g.Tallied) (he : g.timed = f.timed) :
    Tiled line placed g waiting cuts kept := by
  refine ⟨he ▸ h.behind, h.chain, fun c hc => ?_, h.sublist, h.shows, ht⟩
  show g.timed.head?.map Prod.fst = _
  rw [he]
  exact h.meets c hc

theorem push (h : Tiled line placed f (p :: waiting) cuts kept) (hs : f.isEmpty = false → f.stop = p.start)
    {sample : Sample} (hdata : sample.data = p.data) : Tiled line placed (f.push p.start sample) waiting cuts kept := by
  have htimed := OpenFragment.timed_push sample h.tallied hs
  rw [hdata] at htimed
  refine ⟨?_, h.chain, fun c hc => ?_, h.sublist, h.shows, OpenFragment.tallied_push sample h.tallied⟩
  · have hbehind := h.behind
    rw [htimed, List.append_assoc]
    exact hbehind
  · have hmeets : f.timed.head?.map Prod.fst = some c.stop := h.meets c hc
    show (f.push p.start sample).timed.head?.map Prod.fst = some c.stop
    rw [htimed]
    cases hf : f.timed with
    | nil =>
      rw [hf] at hmeets
      cases hmeets
    | cons x rest =>
      rw [hf] at hmeets
      exact hmeets

/-- The open fragment comes behind those that were cut. -/
theorem chain_cut (h : Tiled line placed f waiting cuts kept) : (cuts ++ [f.cut]).IsChain Cut.Meets := by
  refine List.isChain_append.2 ⟨h.chain, .singleton _, fun c hc d hd => ?_⟩
  cases hd
  exact h.meets c hc

/-- Closing adds the open fragment to those that were cut, and to those in the slots unless it is lost. -/
theorem close {a : Assembly} (slot : Slot) (hn : a.fragment.isEmpty = false)
    (h : Tiled line placed a.fragment waiting cuts kept) : ∃ kept', kept'.Sublist (cuts ++ [a.fragment.cut]) ∧
      List.Forall₂ Slot.Shows (placed ++ slot.fills (a.close slot).slot) kept' := by
  rcases Assembly.close_shows slot h.tallied hn with he | ⟨t, he, hshows, -⟩
  · refine ⟨kept, h.sublist.trans (List.sublist_append_left _ _), ?_⟩
    rw [he, List.append_nil]
    exact h.shows
  · refine ⟨kept ++ [a.fragment.cut], h.sublist.append (List.Sublist.refl _), ?_⟩
    rw [he]
    exact List.rel_append h.shows (.cons hshows .nil)

/-- A cut before an IDR picture, which opens the next fragment. -/
theorem reopen {a : Assembly} (slot : Slot) (hn : a.fragment.isEmpty = false)
    (h : Tiled line placed a.fragment (p :: waiting) cuts kept) (hs : a.fragment.stop = p.start) (hg : g.isEmpty = true)
    (sample : Sample) (hdata : sample.data = p.data) :
    ∃ kept', Tiled line (placed ++ slot.fills (a.close slot).slot) (g.push p.start sample) waiting
      (cuts ++ [a.fragment.cut]) kept' := by
  obtain ⟨kept', hkept, hshows⟩ := h.close slot hn
  have hpush : g.push p.start sample = ⟨[sample], p.start, sample.duration.toNat⟩ := if_pos hg
  refine ⟨kept', ?_, h.chain_cut, fun c hc => ?_, hkept, hshows,
    OpenFragment.tallied_push sample (OpenFragment.tallied_of_isEmpty hg)⟩
  · have hbehind := h.behind
    rw [hpush, List.flatMap_append, List.flatMap_singleton, List.append_assoc]
    show _ ++ (a.fragment.timed ++ ([(p.start, sample.data)] ++ _)) <:+ line
    rw [hdata]
    exact hbehind
  · rw [List.getLast?_concat] at hc
    cases hc
    rw [hpush]
    exact congrArg some hs.symm

end Tiled

/-! ## Appending pictures -/

namespace VideoStream

/-- Whether the samples of a track and the pictures that wait are the end of a line, and the last sample starts where the
stream has it. -/
def Lies (line : List (Nat × Bytes)) (placed : List Slot) (a : Assembly) (v : VideoStream) (waiting : List Pending) : Prop :=
  ∃ cuts kept, Tiled line placed a.fragment waiting cuts kept ∧
    (a.fragment.isEmpty = false → a.fragment.stop = v.lastStart + a.fragment.lastTicks)

theorem sampleDuration_of_lt {clock : Clock} {start next : Nat} (hlt : start < next)
    (hnear : next - start ≤ clock.frameTicks * clock.tolerance) : sampleDuration clock start next = next - start := by
  unfold sampleDuration
  generalize clock.frameTicks * clock.tolerance = longest at hnear ⊢
  have hkept : ¬(next - start = 0 ∨ longest < next - start) := by omega
  simp only [if_neg hkept]

variable {line : List (Nat × Bytes)} {placed : List Slot} {a : Assembly} {v : VideoStream} {p : Pending}
  {waiting : List Pending} {cuts kept : List Cut}

/-- **The last sample ends where the next picture arrived.** -/
theorem closeLast_ends (hp : a.clock.Paces line) (h : Tiled line placed a.fragment (p :: waiting) cuts kept)
    (hlast : a.fragment.isEmpty = false → a.fragment.stop = v.lastStart + a.fragment.lastTicks) :
    Tiled line placed (closeLast a v p.start).fragment (p :: waiting) cuts kept ∧
    ((closeLast a v p.start).fragment.isEmpty = false → (closeLast a v p.start).fragment.stop = p.start) := by
  show Tiled line placed (a.fragment.setLast (sampleDuration a.clock v.lastStart p.start)) _ cuts kept ∧
    ((a.fragment.setLast (sampleDuration a.clock v.lastStart p.start)).isEmpty = false →
      (a.fragment.setLast (sampleDuration a.clock v.lastStart p.start)).stop = p.start)
  have htimed := a.fragment.timed_setLast (sampleDuration a.clock v.lastStart p.start)
  rw [OpenFragment.isEmpty_setLast]
  cases hn : a.fragment.isEmpty with
  | true =>
    refine ⟨h.retimed (OpenFragment.tallied_of_isEmpty ?_) htimed, nofun⟩
    rw [OpenFragment.isEmpty_setLast, hn]
  | false =>
    have hstop := hlast hn
    -- the last sample and the picture follow each other on the line
    obtain ⟨front, data, hfront⟩ := OpenFragment.exists_last_timed h.tallied hn hstop
    obtain ⟨pre, hline⟩ := h.behind
    rw [hfront] at hline
    have hticks : line.map Prod.fst = (pre ++ (cuts.flatMap Cut.samples ++ front)).map Prod.fst ++
        v.lastStart :: p.start :: (waiting.map Pending.arrival).map Prod.fst := by
      rw [← hline]
      simp [Pending.arrival]
    obtain ⟨hlt, hfit, hnear⟩ := hp.steady.next hticks
    have hduration := sampleDuration_of_lt hlt (hnear a.clock.frameTicks hp.known)
    have hword : p.start - v.lastStart ≤ OpenFragment.longest := by
      unfold OpenFragment.longest UInt32.size
      omega
    rw [hduration] at htimed ⊢
    refine ⟨h.retimed (OpenFragment.tallied_setLast h.tallied hword) htimed, fun _ => ?_⟩
    have hmoved := OpenFragment.stop_setLast (p.start - v.lastStart) h.tallied hn
    rw [hstop] at hmoved
    omega

theorem lies_push (h : Tiled line placed a.fragment (p :: waiting) cuts kept)
    (hs : a.fragment.isEmpty = false → a.fragment.stop = p.start) :
    Lies line placed (a.push p) { v with lastStart := p.start } waiting := by
  refine ⟨cuts, kept, h.push hs rfl, fun _ => ?_⟩
  show (a.fragment.push p.start _).stop = p.start + (a.fragment.push p.start _).lastTicks
  rw [OpenFragment.stop_push _ hs, OpenFragment.lastTicks_push]

/-- **One picture**: it is appended where it arrived, or dropped before anything is open. -/
theorem appendFrame_lies (hp : a.clock.Paces line) (h : Lies line placed a v (p :: waiting)) (slot : Slot) :
    Lies line (placed ++ slot.fills (appendFrame a v p slot).slot) (appendFrame a v p slot).state.1
      (appendFrame a v p slot).state.2 waiting := by
  obtain ⟨cuts, kept, htiled, hlast⟩ := h
  obtain ⟨hclosed, hstop⟩ := closeLast_ends hp htiled hlast
  rcases appendFrame_cases a v p slot with ⟨hempty, -, he⟩ | ⟨-, hstream, hcases⟩
  · rw [he, Slot.fills_self, List.append_nil]
    exact ⟨cuts, kept, htiled.skip hempty, hlast⟩
  · rw [hstream]
    rcases hcases with ⟨-, hstate, hslot, -⟩ | ⟨-, hfull, -, hstate, hslot, -⟩
    · rw [hstate, hslot, Slot.fills_self, List.append_nil]
      exact lies_push hclosed hstop
    · obtain ⟨hn, -⟩ := (Assembly.isFull_iff _).1 hfull
      obtain ⟨g, n, phase, hstate', hg⟩ := (closeLast a v p.start).close_state slot
      obtain ⟨kept', hreopened⟩ := hclosed.reopen slot hn (hstop hn) hg ⟨a.sampleTicks, p.isSync, p.data⟩ rfl
      rw [hstate, hslot, hstate']
      refine ⟨_, kept', hreopened, fun _ => ?_⟩
      show (g.push p.start _).stop = p.start + (g.push p.start _).lastTicks
      rw [OpenFragment.stop_push _ (fun hn => by rw [hg] at hn; cases hn), OpenFragment.lastTicks_push]

theorem appendFrame_held (a : Assembly) (v : VideoStream) (p : Pending) {slot : Slot} (h : slot.isEmpty = false) :
    (appendFrame a v p slot).slot = slot := by
  rcases appendFrame_cases a v p slot with ⟨-, -, he⟩ | ⟨-, -, ⟨-, -, hslot, -⟩ | ⟨-, -, hfree, -⟩⟩
  · rw [he]
  · exact hslot
  · rw [h] at hfree
    cases hfree

theorem appendAll_held : ∀ (queue : List Pending) (acc : Outcome (Assembly × VideoStream)), acc.slot.isEmpty = false →
    (appendAll queue acc).slot = acc.slot
  | [], _, _ => rfl
  | p :: queue, acc, h => by
    have hstep : (appendNext acc p).slot = acc.slot := appendFrame_held acc.state.1 acc.state.2 p h
    rw [appendAll_cons, appendAll_held queue (appendNext acc p) (by rw [hstep]; exact h), hstep]

theorem appendAll_lies : ∀ (queue : List Pending) (acc : Outcome (Assembly × VideoStream)) (placed : List Slot),
    acc.state.1.clock.Paces line → Lies line placed acc.state.1 acc.state.2 queue →
    Lies line (placed ++ acc.slot.fills (appendAll queue acc).slot) (appendAll queue acc).state.1
      (appendAll queue acc).state.2 []
  | [], acc, placed, _, h => by
    show Lies line (placed ++ acc.slot.fills acc.slot) acc.state.1 acc.state.2 []
    rw [Slot.fills_self, List.append_nil]
    exact h
  | p :: queue, acc, placed, hp, h => by
    have hclock : (appendNext acc p).state.1.clock = acc.state.1.clock := by
      obtain ⟨f, n, phase, he⟩ := (appendFrame_moved acc.state.1 acc.state.2 p acc.slot).1
      exact (congrArg Assembly.clock he).trans rfl
    have hheld : acc.slot.isEmpty = false → (appendNext acc p).slot = acc.slot := appendFrame_held acc.state.1 acc.state.2 p
    have hnext : Lies line (placed ++ acc.slot.fills (appendNext acc p).slot) (appendNext acc p).state.1
        (appendNext acc p).state.2 queue := appendFrame_lies hp h acc.slot
    have hrest := appendAll_lies queue (appendNext acc p) _ (by rw [hclock]; exact hp) hnext
    rw [List.append_assoc, Slot.fills_trans hheld (appendAll_held queue (appendNext acc p))] at hrest
    exact hrest

/-- Appending leaves all of a stream but where its last sample starts. -/
theorem appendAll_stream : ∀ (queue : List Pending) (acc : Outcome (Assembly × VideoStream)),
    ∃ start, (appendAll queue acc).state.2 = { acc.state.2 with lastStart := start }
  | [], acc => ⟨acc.state.2.lastStart, rfl⟩
  | p :: queue, acc => by
    have hstep : ∃ start, (appendNext acc p).state.2 = { acc.state.2 with lastStart := start } := by
      show ∃ start, (appendFrame acc.state.1 acc.state.2 p acc.slot).state.2 = _
      rcases appendFrame_cases acc.state.1 acc.state.2 p acc.slot with ⟨-, -, he⟩ | ⟨-, he, -⟩
      · rw [he]
        exact ⟨acc.state.2.lastStart, rfl⟩
      · exact ⟨p.start, he⟩
    obtain ⟨start, hs⟩ := hstep
    obtain ⟨start', hs'⟩ := appendAll_stream queue (appendNext acc p)
    exact ⟨start', by rw [appendAll_cons, hs', hs]⟩

/-- Appending without cutting puts the pictures where they arrived, too. -/
theorem absorbAll_lies : ∀ (queue : List Pending) (a : Assembly) (v : VideoStream), a.clock.Paces line →
    Lies line placed a v queue →
    Lies line placed (queue.foldl (fun (a, v) p => absorbFrame a v p) (a, v)).1
      (queue.foldl (fun (a, v) p => absorbFrame a v p) (a, v)).2 []
  | [], _, _, _, h => h
  | p :: queue, a, v, hp, h => by
    have hstep : (absorbFrame a v p).1.clock = a.clock ∧ Lies line placed (absorbFrame a v p).1 (absorbFrame a v p).2 queue := by
      obtain ⟨cuts, kept, htiled, hlast⟩ := h
      unfold absorbFrame
      split
      · rename_i hdropped
        have hempty : a.fragment.isEmpty = true := (Bool.and_eq_true _ _ ▸ hdropped).1
        exact ⟨rfl, cuts, kept, htiled.skip hempty, hlast⟩
      · obtain ⟨hclosed, hstop⟩ := closeLast_ends hp htiled hlast
        exact ⟨rfl, lies_push hclosed hstop⟩
    exact absorbAll_lies queue (absorbFrame a v p).1 (absorbFrame a v p).2 (by rw [hstep.1]; exact hp) hstep.2

end VideoStream

/-! ## Pictures without a frame duration -/

namespace OpenFragment

/-- Whether a fragment holds some pictures, all decoded where the first of them arrived. -/
structure Stacks (f : OpenFragment) (pictures : List Pending) : Prop where
  timed : f.timed = pictures.map fun p => (f.start, p.data)
  first : ∀ p ∈ pictures.head?, f.start = p.start
  flat : f.isEmpty = false → f.duration = 0
  tallied : f.Tallied

variable {f : OpenFragment} {pictures : List Pending}

theorem stacks_of_isEmpty (h : f.isEmpty = true) : f.Stacks [] := by
  refine ⟨timed_of_isEmpty h, nofun, fun hn => ?_, tallied_of_isEmpty h⟩
  rw [h] at hn
  cases hn

theorem Stacks.isEmpty_iff (h : f.Stacks pictures) : f.isEmpty = true ↔ pictures = [] := by
  rw [← timed_eq_nil, h.timed, List.map_eq_nil_iff]

theorem Stacks.setLast (h : f.Stacks pictures) : (f.setLast 0).Stacks pictures := by
  refine ⟨?_, fun p hp => ?_, fun hn => ?_, tallied_setLast h.tallied (Nat.zero_le longest)⟩
  · rw [f.timed_setLast, f.start_setLast]
    exact h.timed
  · rw [f.start_setLast]
    exact h.first p hp
  · rw [f.isEmpty_setLast] at hn
    have hflat := h.flat hn
    have hstop := stop_setLast 0 h.tallied hn
    unfold stop at hstop
    rw [f.start_setLast] at hstop
    omega

theorem Stacks.push (h : f.Stacks pictures) {p : Pending} {sample : Sample} (hz : sample.duration.toNat = 0)
    (hdata : sample.data = p.data) : (f.push p.start sample).Stacks (pictures ++ [p]) := by
  have htallied : (f.push p.start sample).Tallied := tallied_push sample h.tallied
  cases hn : f.isEmpty with
  | true =>
    have hpush : f.push p.start sample = ⟨[sample], p.start, sample.duration.toNat⟩ := if_pos hn
    rw [hpush] at htallied ⊢
    rw [h.isEmpty_iff.1 hn, List.nil_append]
    refine ⟨?_, fun q hq => ?_, fun _ => hz, htallied⟩
    · rw [List.map_singleton, ← hdata]
      rfl
    · cases hq
      rfl
  | false =>
    have htimed := timed_push_of_nonempty p.start sample h.tallied hn
    have hpush : f.push p.start sample =
        { f with samples := f.samples ++ [sample], duration := f.duration + sample.duration.toNat } :=
      if_neg (by simpa using hn)
    rw [hpush] at htallied htimed ⊢
    refine ⟨?_, fun q hq => ?_, fun _ => ?_, htallied⟩
    · rw [htimed, h.timed, hdata, List.map_append, stop, h.flat hn]
      rfl
    · cases pictures with
      | nil =>
        rw [h.isEmpty_iff.2 rfl] at hn
        cases hn
      | cons first rest => exact h.first q hq
    · show f.duration + sample.duration.toNat = 0
      rw [h.flat hn, hz]

end OpenFragment

namespace VideoStream

theorem sampleDuration_of_zero {clock : Clock} (h : clock.frameTicks = 0) (start next : Nat) :
    sampleDuration clock start next = 0 := by
  unfold sampleDuration
  rw [h, Nat.zero_mul]
  by_cases hd : next - start = 0
  · simp [hd]
  · simp only [if_pos (Or.inr (Nat.pos_of_ne_zero hd))]

/-- **Pictures that are appended before the timing is known** are decoded where the first of them arrived. -/
theorem absorbAll_stacks : ∀ (queue : List Pending) (a : Assembly) (v : VideoStream) (pictures : List Pending),
    a.clock.frameTicks = 0 → a.fragment.Stacks pictures → ∃ pictures', pictures' <:+ pictures ++ queue ∧
      (queue.foldl (fun (a, v) p => absorbFrame a v p) (a, v)).1.fragment.Stacks pictures'
  | [], _, _, pictures, _, h => ⟨pictures, ⟨[], (List.append_nil pictures).symm⟩, h⟩
  | p :: queue, a, v, pictures, hz, h => by
    have hstep : ∃ pictures', (absorbFrame a v p).1.fragment.Stacks pictures' ∧
        pictures' ++ queue <:+ pictures ++ p :: queue := by
      unfold absorbFrame
      split
      · rename_i hdropped
        have hempty : a.fragment.isEmpty = true := (Bool.and_eq_true _ _ ▸ hdropped).1
        exact ⟨[], OpenFragment.stacks_of_isEmpty hempty, pictures ++ [p], by simp⟩
      · refine ⟨pictures ++ [p], ?_, [], (List.append_cons pictures p queue).symm⟩
        have hsample : a.sampleTicks.toNat = 0 := by
          unfold Assembly.sampleTicks
          rw [hz]
          rfl
        show ((a.fragment.setLast (sampleDuration a.clock v.lastStart p.start)).push p.start _).Stacks _
        rw [sampleDuration_of_zero hz]
        exact h.setLast.push hsample rfl
    have hclock : (absorbFrame a v p).1.clock = a.clock := by
      obtain ⟨f, n, phase, he⟩ := (absorbFrame_moved a v p).1
      rw [he]
    obtain ⟨pictures', hstacks, hsuffix⟩ := hstep
    obtain ⟨all, hall, hrest⟩ := absorbAll_stacks queue (absorbFrame a v p).1 (absorbFrame a v p).2 pictures'
      (by rw [hclock]; exact hz) hstacks
    exact ⟨all, hall.trans hsuffix, hrest⟩

end VideoStream

end Packager
