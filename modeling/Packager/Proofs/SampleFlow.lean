import Mathlib.Data.List.Forall2
import Packager.Proofs.Operations
/-!
# Proofs.SampleFlow — appending neither loses nor repeats a sample

What is fed to a segmenter are samples and requests to finish; `kept` says which samples a track keeps: from a sync
sample on, and again from one after each finish.  `Passes` compares a fragment with what became of it: the samples
placed in slots and those still open afterwards are the ones before it and the new ones.
-/
namespace Packager

/-! ## What is fed, and what is kept of it -/

/-- One thing fed to a segmenter. -/
inductive Feed where
  | sample (data : Bytes) (isSync : Bool)
  /-- All that waits is to be closed. -/
  | finish
  deriving DecidableEq, Repr

namespace Feed

/-- The samples that are kept: others than sync samples only while a fragment is open. -/
def kept : Bool → List Feed → List Bytes
  | _, [] => []
  | isOpen, .sample data isSync :: rest => (if isOpen || isSync then [data] else []) ++ kept (isOpen || isSync) rest
  | _, .finish :: rest => kept false rest

/-- Whether a fragment is open afterwards. -/
def opens : Bool → List Feed → Bool
  | isOpen, [] => isOpen
  | isOpen, .sample _ isSync :: rest => opens (isOpen || isSync) rest
  | _, .finish :: rest => opens false rest

theorem kept_append : ∀ (isOpen : Bool) (l m : List Feed), kept isOpen (l ++ m) = kept isOpen l ++ kept (opens isOpen l) m
  | _, [], _ => rfl
  | isOpen, .sample data isSync :: l, m => by
    rw [List.cons_append, kept, kept, opens, kept_append (isOpen || isSync) l m, List.append_assoc]
  | _, .finish :: l, m => by
    rw [List.cons_append, kept, kept, opens, kept_append false l m]

theorem opens_append : ∀ (isOpen : Bool) (l m : List Feed), opens isOpen (l ++ m) = opens (opens isOpen l) m
  | _, [], _ => rfl
  | isOpen, .sample _ isSync :: l, m => by rw [List.cons_append, opens, opens, opens_append (isOpen || isSync) l m]
  | _, .finish :: l, m => by rw [List.cons_append, opens, opens, opens_append false l m]

theorem kept_cons (isOpen : Bool) (x : Feed) (l : List Feed) :
    kept isOpen (x :: l) = kept isOpen [x] ++ kept (opens isOpen [x]) l := kept_append isOpen [x] l

end Feed

def Pending.feed (p : Pending) : Feed := .sample p.data p.isSync

def OpenFragment.datas (f : OpenFragment) : List Bytes := f.samples.map Sample.data

def Fragment.datas (f : Fragment) : List Bytes := f.samples.map Sample.data

/-! ## From the open fragment into the slots -/

/-- Whether the samples in the slots `made` and then those of `after` are those of `before` and then the new ones. -/
def Passes (before : List Bytes) (made : List Slot) (after new : List Bytes) : Prop :=
  ∃ fs : List Fragment, List.Forall₂ Slot.Holds made fs ∧ fs.flatMap Fragment.datas ++ after = before ++ new

namespace Passes

theorem refl (l : List Bytes) : Passes l [] l [] := ⟨[], .nil, (List.append_nil l).symm⟩

theorem of_eq {before after new : List Bytes} (h : after = before ++ new) : Passes before [] after new :=
  ⟨[], .nil, by rw [List.flatMap_nil, List.nil_append, h]⟩

theorem trans {a b c x y : List Bytes} {made made' : List Slot} (h : Passes a made b x) (h' : Passes b made' c y) :
    Passes a (made ++ made') c (x ++ y) := by
  obtain ⟨fs, hf, he⟩ := h
  obtain ⟨gs, hg, he'⟩ := h'
  refine ⟨fs ++ gs, List.rel_append hf hg, ?_⟩
  rw [List.flatMap_append, List.append_assoc, he', ← List.append_assoc, he, List.append_assoc]

theorem keep {made : List Slot} {after new : List Bytes} (h : Passes [] made after new) (more : List Bytes) :
    Passes [] made (after ++ more) (new ++ more) := by
  obtain ⟨fs, hf, he⟩ := h
  refine ⟨fs, hf, ?_⟩
  rw [← List.append_assoc, he, List.append_assoc]

/-- Samples that waited behind the open ones are passed on. -/
theorem chain {made made' : List Slot} {before after waited all : List Bytes}
    (h : Passes [] made (before ++ waited) all) (h' : Passes before made' after waited) :
    Passes [] (made ++ made') after all := by
  obtain ⟨fs, hf, he⟩ := h
  obtain ⟨gs, hg, he'⟩ := h'
  refine ⟨fs ++ gs, List.rel_append hf hg, ?_⟩
  rw [List.flatMap_append, List.append_assoc, he', he]

end Passes

namespace OpenFragment

theorem datas_of_isEmpty {f : OpenFragment} (h : f.isEmpty = true) : f.datas = [] := by
  rw [datas, List.isEmpty_iff.1 h]
  rfl

theorem datas_push (f : OpenFragment) (start : Nat) (s : Sample) : (f.push start s).datas = f.datas ++ [s.data] := by
  rw [datas, samples_push, List.map_append]
  rfl

theorem datas_setLast (f : OpenFragment) (duration : Nat) : (f.setLast duration).datas = f.datas := by
  rcases f.setLast_cases duration with ⟨-, he⟩ | ⟨before, last, hs, he⟩
  · rw [he]
  · rw [he, datas, datas, hs, List.map_append, List.map_append]
    rfl

theorem datas_bridge? {f g : OpenFragment} {next : Nat} (h : f.bridge? next = some g) : g.datas = f.datas := by
  unfold bridge? at h
  split at h
  · cases h
  · rename_i last hl
    simp only at h
    split at h <;> cases h
    have hs := List.dropLast_append_getLast? last hl
    rw [datas, datas, ← hs]
    simp

theorem isEmpty_eq_datas (f : OpenFragment) : f.isEmpty = f.datas.isEmpty := by
  unfold isEmpty datas
  rw [List.isEmpty_map]

end OpenFragment

namespace Assembly

/-- **What is closed is in the slot**, unless the slot is too small. -/
theorem passes_close {a : Assembly} {slot : Slot} (h : ¬(a.close slot).Overflows) :
    (a.close slot).result = .ok (!a.fragment.isEmpty) ∧
    Passes a.fragment.datas (a.close slot).made (a.close slot).state.fragment.datas [] := by
  rcases a.close_cases slot with ⟨he, hc⟩ | ⟨-, ho, -⟩ | ⟨he, hr, hst, hh, -, -⟩
  · rw [hc, he]
    exact ⟨rfl, .refl _⟩
  · exact absurd ho h
  · rw [he]
    refine ⟨hr, [a.segment], ?_, ?_⟩
    · rw [Outcome.made, hr]
      exact .cons hh .nil
    · rw [hst, List.flatMap_singleton]
      rfl

theorem isEmpty_slot_close {a : Assembly} {slot : Slot} (h : (a.close slot).result = .ok true) :
    (a.close slot).slot.isEmpty = false := by
  rcases a.close_cases slot with ⟨-, hc⟩ | ⟨-, ⟨length, capacity, he⟩, -⟩ | ⟨-, -, -, -, hn, -⟩
  · rw [hc] at h
    cases h
  · rw [he] at h
    cases h
  · exact hn

end Assembly

/-! ## Audio -/

namespace AudioStream

theorem passes_resynchronize (a : Assembly) (v : AudioStream) (next : Nat) (slot : Slot) :
    (resynchronize a v next slot).Overflows ∨
    (∃ filled, (resynchronize a v next slot).result = .ok filled) ∧
      Passes a.fragment.datas (resynchronize a v next slot).made
        (resynchronize a v next slot).state.1.fragment.datas [] := by
  rcases resynchronize_cases a v next slot with ⟨-, he⟩ | ⟨-, -, ⟨-, he⟩ | ⟨-, g, hg, he⟩ | ⟨-, -, he⟩⟩
  · rw [he]
    exact .inr ⟨⟨false, rfl⟩, .refl _⟩
  · rw [he]
    by_cases hf : (a.close slot).Overflows
    · exact .inl hf
    · obtain ⟨hr, hp⟩ := Assembly.passes_close hf
      exact .inr ⟨⟨_, hr⟩, hp⟩
  · rw [he]
    refine .inr ⟨⟨false, rfl⟩, .of_eq ?_⟩
    rw [List.append_nil]
    exact OpenFragment.datas_bridge? hg
  · rw [he]
    exact .inr ⟨⟨false, rfl⟩, .refl _⟩

/-- **Appending passes on the waiting frame** behind the samples so far. -/
theorem passes_append {a : Assembly} {v : AudioStream} {slot : Slot} (h : ¬(append a v slot).Overflows) :
    Passes a.fragment.datas (append a v slot).made (append a v slot).state.1.fragment.datas
      (a.pending.toList.map Pending.data) := by
  unfold append at h ⊢
  cases hp : a.pending with
  | none => exact .refl _
  | some p =>
    rw [hp] at h
    simp only at h ⊢
    have hf := passes_resynchronize { a with pending := none } v p.start slot
    generalize resynchronize { a with pending := none } v p.start slot = cut at h hf ⊢
    have hpush : Passes cut.state.1.fragment.datas [] (cut.state.1.push p).fragment.datas [p.data] :=
      .of_eq (OpenFragment.datas_push _ _ _)
    rcases hf with ⟨length, capacity, he⟩ | ⟨⟨filled, he⟩, hf⟩
    · rw [he] at h
      exact absurd ⟨length, capacity, rfl⟩ h
    · have hboth := hf.trans hpush
      rw [List.append_nil] at hboth
      cases filled with
      | true =>
        rw [he]
        rw [Outcome.made, he] at hboth
        exact hboth
      | false =>
        have hmade : cut.made = [] := by rw [Outcome.made, he]
        rw [hmade] at hboth
        simp only [he] at h ⊢
        split
        · rename_i hfull
          rw [if_pos hfull] at h
          exact hboth.trans (Assembly.passes_close h).2
        · exact hboth

end AudioStream

/-! ## Video -/

namespace VideoStream

theorem datas_closeLast (a : Assembly) (v : VideoStream) (next : Nat) :
    (closeLast a v next).fragment.datas = a.fragment.datas := OpenFragment.datas_setLast _ _

theorem datas_push (a : Assembly) (p : Pending) : (a.push p).fragment.datas = a.fragment.datas ++ [p.data] :=
  OpenFragment.datas_push _ _ _

theorem isEmpty_push (a : Assembly) (p : Pending) : (a.push p).fragment.isEmpty = false := by
  rw [OpenFragment.isEmpty_eq_datas, datas_push]
  cases a.fragment.datas <;> rfl

theorem kept_feed {a : Assembly} {p : Pending} (h : ¬(a.fragment.isEmpty && !p.isSync) = true) :
    Feed.kept (!a.fragment.isEmpty) [p.feed] = [p.data] ∧ Feed.opens (!a.fragment.isEmpty) [p.feed] = true := by
  unfold Pending.feed Feed.kept Feed.opens
  revert h
  cases a.fragment.isEmpty <;> cases p.isSync <;> simp [Feed.kept, Feed.opens]

theorem not_kept_feed {a : Assembly} {p : Pending} (h : (a.fragment.isEmpty && !p.isSync) = true) :
    Feed.kept (!a.fragment.isEmpty) [p.feed] = [] ∧
      Feed.opens (!a.fragment.isEmpty) [p.feed] = !a.fragment.isEmpty := by
  unfold Pending.feed Feed.kept Feed.opens
  revert h
  cases a.fragment.isEmpty <;> cases p.isSync <;> simp [Feed.kept, Feed.opens]

/-- What appending frames to a fragment, with a slot at hand, comes to. -/
structure Appended (f : OpenFragment) (slot : Slot) (out : Outcome (Assembly × VideoStream)) (new : List Feed) : Prop where
  ok : ∃ filled, out.result = .ok filled
  passes : Passes f.datas out.made out.state.1.fragment.datas (Feed.kept (!f.isEmpty) new)
  opens : (!out.state.1.fragment.isEmpty) = Feed.opens (!f.isEmpty) new
  /-- A slot that was filled is taken. -/
  taken : out.result = .ok true → out.slot.isEmpty = false
  /-- A slot that was held stays as it is. -/
  held : slot.isEmpty = false → out.result = .ok false ∧ out.slot = slot

theorem appended_appendFrame (a : Assembly) (v : VideoStream) (p : Pending) (slot : Slot) :
    (appendFrame a v p slot).Overflows ∨ Appended a.fragment slot (appendFrame a v p slot) [p.feed] := by
  unfold appendFrame
  by_cases hd : (a.fragment.isEmpty && !p.isSync) = true
  · obtain ⟨hkeep, hopens⟩ := not_kept_feed hd
    rw [if_pos hd]
    exact .inr ⟨⟨false, rfl⟩, by rw [hkeep]; exact .refl _, hopens.symm, nofun, fun _ => ⟨rfl, rfl⟩⟩
  · obtain ⟨hkeep, hopens⟩ := kept_feed hd
    rw [if_neg hd]
    simp only
    generalize hb : closeLast a v p.start = b
    have hdatas : b.fragment.datas = a.fragment.datas := by rw [← hb, datas_closeLast]
    by_cases hc : (p.isSync && b.isFull && slot.isEmpty) = true
    · rw [if_pos hc]
      have hfree : slot.isEmpty = true := (Bool.and_eq_true _ _ ▸ hc).2
      by_cases hf : (b.close slot).Overflows
      · exact .inl hf
      · obtain ⟨hr, hp⟩ := Assembly.passes_close hf
        refine .inr ⟨⟨_, hr⟩, ?_, ?_, Assembly.isEmpty_slot_close, fun hn => ?_⟩
        · rw [hkeep, ← hdatas]
          have hboth := hp.trans (.of_eq (datas_push (b.close slot).state p))
          rw [List.append_nil] at hboth
          exact hboth
        · rw [hopens, isEmpty_push]
          rfl
        · rw [hfree] at hn
          cases hn
    · rw [if_neg hc]
      refine .inr ⟨⟨false, rfl⟩, ?_, ?_, nofun, fun _ => ⟨rfl, rfl⟩⟩
      · rw [hkeep]
        refine .of_eq ?_
        rw [datas_push, hdatas]
      · rw [hopens, isEmpty_push]
        rfl

/-- **One more frame behind those appended so far.**  Once the slot is filled it is held, so a second cut waits. -/
theorem Appended.step {f : OpenFragment} {slot : Slot} {acc : Outcome (Assembly × VideoStream)} {new : List Feed}
    {p : Pending} (h : Appended f slot acc new)
    (hs : Appended acc.state.1.fragment acc.slot (appendFrame acc.state.1 acc.state.2 p acc.slot) [p.feed]) :
    let out := appendFrame acc.state.1 acc.state.2 p acc.slot
    Appended f slot { out with result := joinResults acc.result out.result } (new ++ [p.feed]) := by
  intro out
  change Appended _ _ out _ at hs
  clear_value out
  obtain ⟨filled, hr⟩ := h.ok
  obtain ⟨filled', hr'⟩ := hs.ok
  have hmade : (⟨joinResults acc.result out.result, out.state, out.slot⟩ : Outcome (Assembly × VideoStream)).made =
      acc.made ++ out.made := by
    unfold Outcome.made
    rw [hr, hr']
    cases filled with
    | false => rfl
    | true =>
      obtain ⟨hf, hslot⟩ := hs.held (h.taken hr)
      rw [hr'] at hf
      cases hf
      rw [hslot]
      rfl
  refine ⟨⟨filled || filled', by rw [hr, hr']; rfl⟩, ?_, ?_, fun hj => ?_, fun hn => ?_⟩
  · rw [hmade, Feed.kept_append, ← h.opens]
    exact h.passes.trans hs.passes
  · rw [Feed.opens_append, ← h.opens]
    exact hs.opens
  · cases filled with
    | true =>
      have htaken := h.taken hr
      rw [← (hs.held htaken).2] at htaken
      exact htaken
    | false =>
      rw [hr, hr'] at hj
      exact hs.taken (hr'.trans hj)
  · obtain ⟨hf, hslot⟩ := h.held hn
    have hn' : acc.slot.isEmpty = false := by rw [hslot]; exact hn
    obtain ⟨hf', hslot'⟩ := hs.held hn'
    refine ⟨?_, hslot'.trans hslot⟩
    rw [hf, hf']
    rfl

theorem appended_appendAll {f : OpenFragment} {slot : Slot} :
    ∀ (queue : List Pending) (acc : Outcome (Assembly × VideoStream)) (new : List Feed),
      acc.Overflows ∨ Appended f slot acc new →
      (appendAll queue acc).Overflows ∨ Appended f slot (appendAll queue acc) (new ++ queue.map Pending.feed)
  | [], acc, new, h => by
    rw [List.map_nil, List.append_nil]
    exact h
  | p :: queue, acc, new, h => by
    rw [List.map_cons, List.append_cons]
    refine appended_appendAll queue _ (new ++ [p.feed]) ?_
    rcases appended_appendFrame acc.state.1 acc.state.2 p acc.slot with ⟨length, capacity, he⟩ | hs
    · exact .inl ⟨length, capacity, (congrArg (joinResults acc.result) he).trans rfl⟩
    · rcases h with ⟨length, capacity, he⟩ | h
      · obtain ⟨filled, hr⟩ := hs.ok
        exact .inl ⟨length, capacity, congrArg₂ joinResults he hr⟩
      · exact .inr (h.step hs)

/-- **Appending passes on the waiting frames**, in order, behind the samples so far. -/
theorem appended_append {a : Assembly} {v : VideoStream} {slot : Slot} (h : ¬(append a v slot).Overflows) :
    Appended a.fragment slot (append a v slot) ((queue a v).map Pending.feed) := by
  have hstart : Appended a.fragment slot ⟨.ok false, ({ a with pending := none }, { v with preroll := [] }), slot⟩ [] :=
    ⟨⟨false, rfl⟩, .refl _, rfl, nofun, fun _ => ⟨rfl, rfl⟩⟩
  rcases appended_appendAll (queue a v) _ [] (.inr hstart) with ho | hout
  · exact absurd ho h
  · exact hout

/-- **Appending without cutting** keeps the same samples. -/
theorem absorbFrame_spec (a : Assembly) (v : VideoStream) (p : Pending) :
    (absorbFrame a v p).1.fragment.datas = a.fragment.datas ++ Feed.kept (!a.fragment.isEmpty) [p.feed] ∧
    (!(absorbFrame a v p).1.fragment.isEmpty) = Feed.opens (!a.fragment.isEmpty) [p.feed] := by
  unfold absorbFrame
  by_cases hd : (a.fragment.isEmpty && !p.isSync) = true
  · obtain ⟨hkeep, hopens⟩ := not_kept_feed hd
    rw [if_pos hd, hkeep, hopens, List.append_nil]
    exact ⟨rfl, rfl⟩
  · obtain ⟨hkeep, hopens⟩ := kept_feed hd
    rw [if_neg hd, hkeep, hopens, datas_push, datas_closeLast, isEmpty_push]
    exact ⟨rfl, rfl⟩

theorem datas_absorbAll : ∀ (queue : List Pending) (a : Assembly) (v : VideoStream),
    (queue.foldl (fun (a, v) p => absorbFrame a v p) (a, v)).1.fragment.datas =
      a.fragment.datas ++ Feed.kept (!a.fragment.isEmpty) (queue.map Pending.feed)
  | [], a, v => (List.append_nil _).symm
  | p :: queue, a, v => by
    obtain ⟨hd, ho⟩ := absorbFrame_spec a v p
    have hq := datas_absorbAll queue (absorbFrame a v p).1 (absorbFrame a v p).2
    rw [ho] at hq
    rw [List.map_cons, Feed.kept_cons, ← List.append_assoc, ← hd]
    exact hq

end VideoStream
end Packager
