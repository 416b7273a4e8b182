import Mathlib.Data.List.Chain
import Packager.Avc.AccessUnit
import Packager.Proofs.StartCodes
/-!
# Proofs.AccessUnits — a picture stream splits the same again

The access units of a stream are its NAL units in their order, cut only where the next one may not stand behind those
before it (`AccessUnit.Ordered`).  NAL units come back when they are written behind start codes (`AnnexB.split_join`), so
that splitting what was split changes nothing (`AccessUnit.split_partitions`).
-/
namespace Packager

namespace AnnexB

theorem join_append (xs ys : List NalUnit) : join (xs ++ ys) = join xs ++ join ys := List.flatMap_append

theorem join_flatten : ∀ units : List (List NalUnit), join units.flatten = (units.map join).flatten
  | [] => rfl
  | unit :: units => by
    rw [List.flatten_cons, join_append, join_flatten units, List.map_cons, List.flatten_cons]

end AnnexB

namespace AccessUnit

/-- Whether a NAL unit is a parameter set or a message. -/
def IsParameter (nal : NalUnit) : Prop :=
  nal.type = NalUnit.seiType ∨ nal.type = NalUnit.spsType ∨ nal.type = NalUnit.ppsType

/-- The rules for the NAL units of one picture: a delimiter stands first, parameter sets and messages stand before the
slices, and of the slices only the first may open a picture. -/
structure Ordered (unit : List NalUnit) : Prop where
  delimiter : ∀ before nal, before ++ [nal] <+: unit → nal.type = NalUnit.delimiterType → before = []
  parameters : ∀ before nal, before ++ [nal] <+: unit → IsParameter nal → ∀ m ∈ before, m.isSlice = false
  picture : ∀ before nal, before ++ [nal] <+: unit → nal.opensPicture = true → ∀ m ∈ before, m.isSlice = false

/-- Whether a unit had to be cut before another: the first NAL unit of that one breaks a rule behind it. -/
def Parted (unit next : List NalUnit) : Prop := ∃ nal, next.head? = some nal ∧ ¬Ordered (unit ++ [nal])

theorem Ordered.of_isPrefix {unit front : List NalUnit} (h : Ordered unit) (hp : front <+: unit) : Ordered front :=
  ⟨fun before nal hb => h.delimiter before nal (hb.trans hp), fun before nal hb => h.parameters before nal (hb.trans hp),
    fun before nal hb => h.picture before nal (hb.trans hp)⟩

theorem ordered_nil : Ordered [] :=
  ⟨fun before nal hb => by simp at hb, fun before nal hb => by simp at hb, fun before nal hb => by simp at hb⟩

theorem opens_eq_false {hasSlice : Bool} {nal : NalUnit} : opens hasSlice nal = false ↔
    nal.type ≠ NalUnit.delimiterType ∧ (hasSlice = true → ¬IsParameter nal ∧ nal.opensPicture = false) := by
  unfold opens IsParameter
  cases hasSlice
  · simp
  · simp
    tauto

/-- **A NAL unit opens a new access unit exactly when it breaks a rule** behind the ones so far. -/
theorem ordered_concat {unit : List NalUnit} {nal : NalUnit} : Ordered (unit ++ [nal]) ↔
    Ordered unit ∧ (unit ≠ [] → opens (unit.any NalUnit.isSlice) nal = false) := by
  constructor
  · intro h
    refine ⟨h.of_isPrefix (List.prefix_append unit [nal]), fun hne => opens_eq_false.2 ⟨fun ht => ?_, fun hs => ?_⟩⟩
    · exact hne (h.delimiter unit nal List.prefix_rfl ht)
    · obtain ⟨m, hm, hslice⟩ := List.any_eq_true.1 hs
      have hno : ¬m.isSlice = false := by simp [hslice]
      refine ⟨fun hp => hno (h.parameters unit nal List.prefix_rfl hp m hm), ?_⟩
      exact Bool.eq_false_iff.2 fun hp => hno (h.picture unit nal List.prefix_rfl hp m hm)
  · rintro ⟨h, hlast⟩
    have noSlice : ∀ m ∈ unit, IsParameter nal ∨ nal.opensPicture = true → m.isSlice = false := fun m hm hbad => by
      obtain ⟨-, hrest⟩ := opens_eq_false.1 (hlast (List.ne_nil_of_mem hm))
      refine Bool.eq_false_iff.2 fun hslice => ?_
      obtain ⟨hp, hpic⟩ := hrest (List.any_eq_true.2 ⟨m, hm, hslice⟩)
      exact hbad.elim hp (by simp [hpic])
    have either : ∀ {before : List NalUnit} {n : NalUnit}, before ++ [n] <+: unit ++ [nal] →
        (before = unit ∧ n = nal) ∨ before ++ [n] <+: unit := fun hb => by
      rcases List.prefix_concat_iff.1 hb with he | hb
      · obtain ⟨hu, hn⟩ := List.append_inj' he rfl
        exact .inl ⟨hu, List.singleton_inj.1 hn⟩
      · exact .inr hb
    refine ⟨fun before n hb ht => ?_, fun before n hb hp m hm => ?_, fun before n hb hp m hm => ?_⟩ <;>
      rcases either hb with ⟨rfl, rfl⟩ | hb
    · by_contra hne
      exact (opens_eq_false.1 (hlast hne)).1 ht
    · exact h.delimiter before n hb ht
    · exact noSlice m hm (.inl hp)
    · exact h.parameters before n hb hp m hm
    · exact noSlice m hm (.inr hp)
    · exact h.picture before n hb hp m hm

theorem ordered_singleton (nal : NalUnit) : Ordered [nal] := by
  have h : Ordered ([] ++ [nal]) := ordered_concat.2 ⟨ordered_nil, fun hne => absurd rfl hne⟩
  exact h

/-- Nothing is lost, and nothing changes its place. -/
theorem flatten_group : ∀ (nals current : List NalUnit) (hasSlice : Bool),
    (group current hasSlice nals).flatten = current.reverse ++ nals
  | [], current, _ => by
    unfold group
    cases current <;> simp
  | nal :: nals, current, hasSlice => by
    unfold group
    split
    · simp only
      split
      · rename_i hc
        rw [flatten_group nals, List.isEmpty_iff.1 hc]
        rfl
      · rw [List.flatten_cons, flatten_group nals]
        rfl
    · rw [flatten_group nals, List.reverse_cons, List.append_assoc]
      rfl

/-- What is open when the grouping goes on becomes the front of the next access unit. -/
theorem group_eq_cons : ∀ (nals current : List NalUnit) (hasSlice : Bool), current ≠ [] →
    ∃ more rest, group current hasSlice nals = (current.reverse ++ more) :: rest
  | [], current, hasSlice, h => ⟨[], [], by rw [group, if_neg (by simpa using h), List.append_nil]⟩
  | nal :: nals, current, hasSlice, h => by
    unfold group
    split
    · exact ⟨[], group [nal] nal.isSlice nals, by rw [List.append_nil, if_neg (by simpa using h)]⟩
    · obtain ⟨more, rest, he⟩ := group_eq_cons nals (nal :: current) (hasSlice || nal.isSlice) (List.cons_ne_nil _ _)
      exact ⟨nal :: more, rest, by rw [he, List.reverse_cons, List.append_assoc]; rfl⟩

/-- The first NAL unit is grouped the same whether it opens an access unit or not. -/
theorem group_cons (nal : NalUnit) (nals : List NalUnit) :
    group [] false (nal :: nals) = group [nal] nal.isSlice nals := by
  rw [group]
  split <;> rfl

theorem ordered_group (nals current : List NalUnit) (hne : current ≠ []) (ho : Ordered current.reverse) :
    ∀ unit ∈ group current (current.any NalUnit.isSlice) nals, unit ≠ [] ∧ Ordered unit := by
  have hcurrent : current.reverse ≠ [] := by simpa using hne
  induction nals generalizing current with
  | nil =>
    rw [group, if_neg (by simpa using hne)]
    exact fun unit hm => List.mem_singleton.1 hm ▸ ⟨hcurrent, ho⟩
  | cons nal nals ih =>
    have hfirst := ih [nal] (List.cons_ne_nil nal []) (ordered_singleton nal) (List.cons_ne_nil nal [])
    rw [List.any_cons, List.any_nil, Bool.or_false] at hfirst
    rw [group]
    split
    · simp only
      rw [if_neg (by simpa using hne)]
      exact List.forall_mem_cons.2 ⟨⟨hcurrent, ho⟩, hfirst⟩
    · rename_i hopens
      have hnext : Ordered (nal :: current).reverse := by
        rw [List.reverse_cons]
        exact ordered_concat.2 ⟨ho, fun _ => by rw [List.any_reverse]; simpa using hopens⟩
      have h := ih (nal :: current) (List.cons_ne_nil nal current) hnext (by simp)
      rwa [List.any_cons, Bool.or_comm] at h

/-- **Each cut is forced**: what stands behind it breaks a rule in the unit before it. -/
theorem parted_group (nals current : List NalUnit) (hne : current ≠ []) :
    (group current (current.any NalUnit.isSlice) nals).IsChain Parted := by
  induction nals generalizing current with
  | nil =>
    rw [group, if_neg (by simpa using hne)]
    exact List.isChain_singleton _
  | cons nal nals ih =>
    have hfirst := ih [nal] (List.cons_ne_nil nal [])
    rw [List.any_cons, List.any_nil, Bool.or_false] at hfirst
    rw [group]
    split
    · rename_i hopens
      simp only
      rw [if_neg (by simpa using hne)]
      -- whatever else joins the next unit, the one that cut stays its first
      obtain ⟨more, rest, hgroup⟩ := group_eq_cons nals [nal] nal.isSlice (List.cons_ne_nil nal [])
      rw [hgroup] at hfirst ⊢
      refine List.isChain_cons_cons.2 ⟨⟨nal, rfl, fun hbad => ?_⟩, hfirst⟩
      have hclosed := (ordered_concat.1 hbad).2 (by simpa using hne)
      rw [List.any_reverse, hopens] at hclosed
      cases hclosed
    · have h := ih (nal :: current) (List.cons_ne_nil nal current)
      rwa [List.any_cons, Bool.or_comm] at h

/-- What keeps the rules is one access unit. -/
theorem group_of_ordered (nals current : List NalUnit) (hne : current ≠ []) (ho : Ordered (current.reverse ++ nals)) :
    group current (current.any NalUnit.isSlice) nals = [current.reverse ++ nals] := by
  induction nals generalizing current with
  | nil => rw [group, if_neg (by simpa using hne), List.append_nil]
  | cons nal nals ih =>
    have happend : current.reverse ++ nal :: nals = (nal :: current).reverse ++ nals := by simp
    have hfront : Ordered (current.reverse ++ [nal]) := ho.of_isPrefix ⟨nals, by simp⟩
    have hopens := (ordered_concat.1 hfront).2 (by simpa using hne)
    rw [List.any_reverse] at hopens
    rw [group, hopens, happend, ← ih (nal :: current) (List.cons_ne_nil nal current) (happend ▸ ho), List.any_cons,
      Bool.or_comm]
    rfl

/-- The NAL units of a stream, one list for each access unit. -/
def groups (data : Bytes) : List (List NalUnit) := group [] false (AnnexB.split data)

theorem split_eq (data : Bytes) : split data = (groups data).map AnnexB.join := rfl

theorem flatten_groups (data : Bytes) : (groups data).flatten = AnnexB.split data := flatten_group _ [] false

/-- The access units of a stream keep the rules, and each cut is forced. -/
theorem groups_spec (data : Bytes) :
    (∀ unit ∈ groups data, unit ≠ [] ∧ Ordered unit) ∧ (groups data).IsChain Parted := by
  unfold groups
  cases AnnexB.split data with
  | nil => exact ⟨fun unit hm => absurd hm List.not_mem_nil, List.isChain_nil⟩
  | cons nal nals =>
    have ho := ordered_group nals [nal] (List.cons_ne_nil nal []) (ordered_singleton nal)
    have hp := parted_group nals [nal] (List.cons_ne_nil nal [])
    rw [List.any_cons, List.any_nil, Bool.or_false] at ho hp
    rw [group_cons]
    exact ⟨ho, hp⟩

theorem clean_of_mem_groups {data : Bytes} {unit : List NalUnit} (h : unit ∈ groups data) : ∀ nal ∈ unit, nal.Clean :=
  fun nal hnal => AnnexB.clean_split data nal (flatten_groups data ▸ List.mem_flatten.2 ⟨unit, h, hnal⟩)

theorem map_split_split (data : Bytes) : (split data).map AnnexB.split = groups data := by
  rw [split_eq, List.map_map]
  exact (List.map_congr_left fun unit hm => AnnexB.split_join (clean_of_mem_groups hm)).trans (List.map_id _)

theorem split_of_ordered {unit : List NalUnit} (hclean : ∀ nal ∈ unit, nal.Clean) (hne : unit ≠ []) (ho : Ordered unit) :
    split (AnnexB.join unit) = [AnnexB.join unit] := by
  obtain ⟨nal, nals, rfl⟩ := List.exists_cons_of_ne_nil hne
  have hgroup := group_of_ordered nals [nal] (List.cons_ne_nil nal []) ho
  rw [List.any_cons, List.any_nil, Bool.or_false] at hgroup
  rw [split, AnnexB.split_join hclean, group_cons, hgroup]
  rfl

/-- **The access units of a stream part its NAL units**, and splitting them again changes nothing.  The NAL units of the
units, one by one or of all of them together, are those of the stream in their order; all units together are split into
the same units, and each one alone into itself.  Each unit keeps the rules for the NAL units of one picture, and the first
NAL unit of the next one would break them. -/
theorem split_partitions (data : Bytes) :
    (split data).flatMap AnnexB.split = AnnexB.split data ∧
    AnnexB.split (split data).flatten = AnnexB.split data ∧
    split (split data).flatten = split data ∧
    (∀ unit ∈ split data, split unit = [unit]) ∧
    (∀ unit ∈ split data, Ordered (AnnexB.split unit)) ∧
    (split data).IsChain fun unit next => Parted (AnnexB.split unit) (AnnexB.split next) := by
  obtain ⟨hunits, hchain⟩ := groups_spec data
  have hback : (split data).map AnnexB.split = groups data := map_split_split data
  have hwhole : AnnexB.split (split data).flatten = AnnexB.split data := by
    rw [split_eq, ← AnnexB.join_flatten, flatten_groups, AnnexB.split_join (AnnexB.clean_split data)]
  have hmem : ∀ unit ∈ split data, AnnexB.split unit ∈ groups data ∧ AnnexB.join (AnnexB.split unit) = unit := by
    rw [split_eq]
    refine List.forall_mem_map.2 fun unit hm => ?_
    rw [AnnexB.split_join (clean_of_mem_groups hm)]
    exact ⟨hm, rfl⟩
  refine ⟨?_, hwhole, ?_, fun unit hm => ?_, fun unit hm => ?_, ?_⟩
  · rw [List.flatMap, hback, flatten_groups]
  · rw [split, hwhole]
    rfl
  · obtain ⟨hgroup, hjoin⟩ := hmem unit hm
    obtain ⟨hne, ho⟩ := hunits _ hgroup
    have hself := split_of_ordered (clean_of_mem_groups hgroup) hne ho
    rwa [hjoin] at hself
  · exact (hunits _ (hmem unit hm).1).2
  · rw [← hback] at hchain
    exact (List.isChain_map AnnexB.split).1 hchain

end AccessUnit

end Packager
