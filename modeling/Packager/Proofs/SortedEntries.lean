import Packager.Media
import Packager.SortedMap
/-!
# Proofs.SortedEntries — what a sorted map holds after a change

`find?` after each operation, for any keys; and for track numbers, that the entries stay in strictly increasing order,
so that each track is listed once and the entries are what `find?` sees (`mem_entries`).
-/
namespace Packager
namespace SortedMap

section
variable {κ α : Type} [DecidableEq κ]

theorem find?_cons (e : κ × α) (es : List (κ × α)) (k : κ) :
    find? ⟨e :: es⟩ k = if e.1 = k then some e.2 else find? ⟨es⟩ k := by
  unfold find?
  rw [List.find?_cons]
  by_cases h : e.1 = k
  · simp [h]
  · simp [h]

variable [LT κ] [DecidableLT κ]

theorem find?_insertEntry (k : κ) (a : α) (k' : κ) : ∀ es : List (κ × α),
    find? ⟨insertEntry k a es⟩ k' = if k = k' then some a else find? ⟨es⟩ k'
  | [] => by rw [insertEntry, find?_cons]
  | e :: es => by
    unfold insertEntry
    split
    · rename_i h
      rw [find?_cons, find?_cons, ← h]
      by_cases hk : k = k' <;> simp [hk]
    · split
      · rw [find?_cons]
      · rename_i hne _
        rw [find?_cons, find?_insertEntry k a k' es, find?_cons]
        by_cases hk : k = k'
        · have he : ¬e.1 = k' := fun he => hne (hk.trans he.symm)
          simp [hk, he]
        · simp [hk]

theorem insertEntry_ne_nil (k : κ) (a : α) (es : List (κ × α)) : insertEntry k a es ≠ [] := by
  cases es with
  | nil => exact List.cons_ne_nil _ _
  | cons e es =>
    unfold insertEntry
    split
    · exact List.cons_ne_nil _ _
    · split <;> exact List.cons_ne_nil _ _

theorem mem_insertEntry {k : κ} {a : α} {e : κ × α} : ∀ {es : List (κ × α)},
    e ∈ insertEntry k a es → e = (k, a) ∨ e ∈ es
  | [], h => .inl (List.mem_singleton.1 h)
  | e' :: es, h => by
    unfold insertEntry at h
    split at h
    · exact (List.mem_cons.1 h).imp_right (List.mem_cons_of_mem _)
    · split at h
      · exact List.mem_cons.1 h
      · rcases List.mem_cons.1 h with rfl | h
        · exact .inr List.mem_cons_self
        · exact (mem_insertEntry h).imp_right (List.mem_cons_of_mem _)

theorem find?_insert (m : SortedMap κ α) (k k' : κ) (a : α) :
    (m.insert k a).find? k' = if k = k' then some a else m.find? k' := find?_insertEntry k a k' m.entries

omit [LT κ] [DecidableLT κ] in
theorem find?_erase (m : SortedMap κ α) (k k' : κ) : (m.erase k).find? k' = if k = k' then none else m.find? k' := by
  obtain ⟨es⟩ := m
  induction es with
  | nil => by_cases hk : k = k' <;> simp [erase, find?]
  | cons e es ih =>
    unfold erase at ih ⊢
    rw [List.filter_cons]
    by_cases he : e.1 = k
    · rw [if_neg (by simpa using he), ih, find?_cons]
      by_cases hk : k = k'
      · simp [hk]
      · have hne : ¬e.1 = k' := fun h => hk (he.symm.trans h)
        simp [hk, hne]
    · rw [if_pos (by simpa using he), find?_cons, ih, find?_cons]
      by_cases hk : k = k'
      · have hne : ¬e.1 = k' := fun h => he (h.trans hk.symm)
        simp [hk, hne]
      · simp [hk]

omit [LT κ] [DecidableLT κ] in
theorem find?_mapValues (m : SortedMap κ α) (f : α → α) (k : κ) : (m.mapValues f).find? k = (m.find? k).map f := by
  obtain ⟨es⟩ := m
  unfold mapValues
  induction es with
  | nil => rfl
  | cons e es ih =>
    rw [List.map_cons, find?_cons, ih, find?_cons]
    by_cases he : e.1 = k <;> simp [he]

omit [LT κ] [DecidableLT κ] in
theorem find?_modify (m : SortedMap κ α) (k k' : κ) (f : α → α) :
    (m.modify k f).find? k' = if k = k' then (m.find? k').map f else m.find? k' := by
  obtain ⟨es⟩ := m
  unfold modify
  induction es with
  | nil => by_cases hk : k = k' <;> simp [find?]
  | cons e es ih =>
    rw [List.map_cons, find?_cons, ih, find?_cons]
    by_cases he : e.1 = k
    · by_cases hk : k = k'
      · simp [he, hk]
      · simp [he, hk]
    · by_cases hk : k = k'
      · have hne : ¬e.1 = k' := fun h => he (h.trans hk.symm)
        simp [hk, hne]
      · simp [he, hk]

omit [LT κ] [DecidableLT κ] in
theorem find?_of_isEmpty {m : SortedMap κ α} (h : m.isEmpty = true) (k : κ) : m.find? k = none := by
  unfold find?
  rw [List.isEmpty_iff.1 h]
  rfl

end

/-! ## Order -/

variable {α : Type}

/-- Whether the entries are in strictly increasing order of their keys. -/
def Sorted (m : SortedMap TrackId α) : Prop := m.keys.Pairwise (· < ·)

theorem sorted_empty : (empty : SortedMap TrackId α).Sorted := .nil

theorem mem_keys_insertEntry {k : TrackId} {a : α} {es : List (TrackId × α)} {x : TrackId}
    (h : x ∈ (insertEntry k a es).map Prod.fst) : x = k ∨ x ∈ es.map Prod.fst := by
  obtain ⟨e, he, rfl⟩ := List.mem_map.1 h
  exact (mem_insertEntry he).imp (congrArg Prod.fst) List.mem_map_of_mem

theorem sorted_insertEntry (k : TrackId) (a : α) : ∀ es : List (TrackId × α),
    (es.map Prod.fst).Pairwise (· < ·) → ((insertEntry k a es).map Prod.fst).Pairwise (· < ·)
  | [], _ => List.pairwise_singleton _ _
  | e :: es, h => by
    rw [List.map_cons, List.pairwise_cons] at h
    obtain ⟨hlt, hs⟩ := h
    unfold insertEntry
    split
    · rename_i he
      rw [List.map_cons, List.pairwise_cons, he]
      exact ⟨hlt, hs⟩
    · rename_i hne
      split
      · rename_i hk
        refine List.pairwise_cons.2 ⟨fun x hx => ?_, List.pairwise_cons.2 ⟨hlt, hs⟩⟩
        rcases List.mem_cons.1 hx with rfl | hx
        · exact hk
        · exact Nat.lt_trans hk (hlt x hx)
      · rename_i hk
        refine List.pairwise_cons.2 ⟨fun x hx => ?_, sorted_insertEntry k a es hs⟩
        rcases mem_keys_insertEntry hx with rfl | hx
        · exact Nat.lt_of_le_of_ne (Nat.le_of_not_lt hk) (Ne.symm hne)
        · exact hlt x hx

theorem Sorted.insert {m : SortedMap TrackId α} (h : m.Sorted) (k : TrackId) (a : α) : (m.insert k a).Sorted :=
  sorted_insertEntry k a m.entries h

theorem Sorted.erase {m : SortedMap TrackId α} (h : m.Sorted) (k : TrackId) : (m.erase k).Sorted :=
  List.Pairwise.sublist (List.filter_sublist.map Prod.fst) h

theorem Sorted.mapValues {m : SortedMap TrackId α} (h : m.Sorted) (f : α → α) : (m.mapValues f).Sorted := by
  unfold Sorted keys SortedMap.mapValues
  rw [List.map_map]
  exact h

/-- **The entries of a sorted map are what it holds under each key.** -/
theorem mem_entries {m : SortedMap TrackId α} (h : m.Sorted) {k : TrackId} {a : α} :
    (k, a) ∈ m.entries ↔ m.find? k = some a := by
  obtain ⟨es⟩ := m
  induction es with
  | nil => simp [find?]
  | cons e es ih =>
    obtain ⟨hlt, hs⟩ := List.pairwise_cons.1 h
    rw [find?_cons, List.mem_cons]
    by_cases he : e.1 = k
    · rw [if_pos he]
      constructor
      · rintro (rfl | hm)
        · rfl
        · have := hlt k (List.mem_map_of_mem hm)
          rw [he] at this
          exact absurd this (Nat.lt_irrefl k)
      · intro hv
        left
        rw [← he, ← Option.some.inj hv]
    · rw [if_neg he, ← ih hs]
      constructor
      · rintro (rfl | hm)
        · exact absurd rfl he
        · exact hm
      · exact .inr

theorem insertEntry_of_find? {k : TrackId} {a : α} : ∀ {es : List (TrackId × α)},
    (es.map Prod.fst).Pairwise (· < ·) → find? ⟨es⟩ k = some a → insertEntry k a es = es
  | e :: es, hs, h => by
    obtain ⟨hlt, hs⟩ := List.pairwise_cons.1 hs
    rw [find?_cons] at h
    unfold insertEntry
    by_cases he : e.1 = k
    · rw [if_pos he] at h
      rw [if_pos he.symm, ← he, ← Option.some.inj h]
    · rw [if_neg he] at h
      have hbelow : e.1 < k := hlt k (List.mem_map_of_mem ((mem_entries (m := ⟨es⟩) hs).2 h))
      rw [if_neg (Ne.symm he), if_neg (Nat.lt_asymm hbelow), insertEntry_of_find? hs h]

/-- Setting a key to the value that it has changes nothing. -/
theorem Sorted.insert_of_find? {m : SortedMap TrackId α} (hs : m.Sorted) {k : TrackId} {a : α} (h : m.find? k = some a) :
    m.insert k a = m := congrArg SortedMap.mk (insertEntry_of_find? hs h)

end SortedMap
end Packager
