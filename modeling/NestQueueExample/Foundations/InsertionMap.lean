import Mathlib.Data.List.Basic
import Mathlib.Data.List.Nodup
import Mathlib.Tactic.TypeStar

/-!
# Maps that remember insertion order

The `Map` of JavaScript: iteration is by insertion, storing under a key that
is present replaces the value in place, and storing under a new key appends.
The structure carries the fact that its keys are distinct.
-/

namespace NestQueueExample

/-- Entries in iteration order, with pairwise distinct keys. -/
structure InsertionMap (κ ν : Type*) where
  entries : List (κ × ν)
  nodup : (entries.map Prod.fst).Nodup

namespace InsertionMap

variable {κ ν : Type*}

def keys (m : InsertionMap κ ν) : List κ := m.entries.map Prod.fst

def size (m : InsertionMap κ ν) : ℕ := m.entries.length

@[simp] theorem length_keys (m : InsertionMap κ ν) : m.keys.length = m.size := by
  simp [keys, size]

def empty : InsertionMap κ ν := ⟨[], List.nodup_nil⟩

instance : Inhabited (InsertionMap κ ν) := ⟨empty⟩

@[ext] theorem ext {m n : InsertionMap κ ν} (h : m.entries = n.entries) : m = n := by
  cases m
  cases n
  simpa using h

theorem eq_of_mem {m : InsertionMap κ ν} {k : κ} {v w : ν}
    (hv : (k, v) ∈ m.entries) (hw : (k, w) ∈ m.entries) : v = w := by
  have heq : (k, v) = (k, w) := List.inj_on_of_nodup_map m.nodup hv hw rfl
  exact congrArg Prod.snd heq

variable [DecidableEq κ]

def get? (m : InsertionMap κ ν) (k : κ) : Option ν :=
  (m.entries.find? fun entry ↦ entry.1 = k).map Prod.snd

def has (m : InsertionMap κ ν) (k : κ) : Bool := (m.get? k).isSome

theorem get?_eq_some_iff {m : InsertionMap κ ν} {k : κ} {v : ν} :
    m.get? k = some v ↔ (k, v) ∈ m.entries := by
  constructor
  · intro h
    obtain ⟨⟨k', w⟩, hfind, rfl⟩ := Option.map_eq_some_iff.mp h
    have hk : k' = k := by simpa using List.find?_some hfind
    exact hk ▸ List.mem_of_find?_eq_some hfind
  · intro hmem
    cases hfind : m.entries.find? (fun entry ↦ entry.1 = k) with
    | none =>
        have hnone := List.find?_eq_none.mp hfind (k, v) hmem
        simp at hnone
    | some entry =>
        obtain ⟨k', w⟩ := entry
        have hk : k' = k := by simpa using List.find?_some hfind
        subst k'
        have hwv : w = v := eq_of_mem (List.mem_of_find?_eq_some hfind) hmem
        simp [get?, hfind, hwv]

theorem get?_eq_none_iff {m : InsertionMap κ ν} {k : κ} :
    m.get? k = none ↔ k ∉ m.keys := by
  simp only [get?, Option.map_eq_none_iff, List.find?_eq_none, decide_eq_true_eq, keys,
    List.mem_map, not_exists, not_and]

theorem has_iff {m : InsertionMap κ ν} {k : κ} : m.has k = true ↔ k ∈ m.keys := by
  rw [has, Option.isSome_iff_ne_none, ne_eq, get?_eq_none_iff, not_not]

/-! ## Deleting -/

def delete (m : InsertionMap κ ν) (k : κ) : InsertionMap κ ν where
  entries := m.entries.filter fun entry ↦ entry.1 ≠ k
  nodup := m.nodup.sublist (List.filter_sublist.map _)

theorem get?_delete (m : InsertionMap κ ν) (k j : κ) :
    (m.delete k).get? j = if j = k then none else m.get? j := by
  ext v
  by_cases hj : j = k
  · simp [hj, get?_eq_some_iff, delete]
  · simp [hj, get?_eq_some_iff, delete]

theorem has_delete (m : InsertionMap κ ν) (k j : κ) :
    (m.delete k).has j = if j = k then false else m.has j := by
  by_cases hj : j = k <;> simp [has, get?_delete, hj]

theorem entries_delete_head {m : InsertionMap κ ν} {k : κ} {v : ν} {rest : List (κ × ν)}
    (h : m.entries = (k, v) :: rest) : (m.delete k).entries = rest := by
  have hnodup := m.nodup
  rw [h, List.map_cons, List.nodup_cons] at hnodup
  have hkeep : ∀ entry ∈ rest, entry.1 ≠ k := fun entry hentry heq ↦
    hnodup.1 (List.mem_map.mpr ⟨entry, hentry, heq⟩)
  simpa [delete, h] using hkeep

def deleteOldest (m : InsertionMap κ ν) : InsertionMap κ ν :=
  match m.keys with
  | [] => m
  | oldest :: _ => m.delete oldest

theorem entries_deleteOldest (m : InsertionMap κ ν) :
    m.deleteOldest.entries = m.entries.tail := by
  unfold deleteOldest
  cases hentries : m.entries with
  | nil => simp [keys, hentries]
  | cons entry rest => simpa [keys, hentries] using entries_delete_head hentries

/-! ## Storing -/

def replace (k : κ) (v : ν) (entries : List (κ × ν)) : List (κ × ν) :=
  entries.map fun entry ↦ if entry.1 = k then (k, v) else entry

theorem map_fst_replace (k : κ) (v : ν) (entries : List (κ × ν)) :
    (replace k v entries).map Prod.fst = entries.map Prod.fst := by
  rw [replace, List.map_map]
  apply List.map_congr_left
  intro entry _
  by_cases hk : entry.1 = k <;> simp [hk]

/-- Store `v` under `k`: in place when `k` is present, else at the end. -/
def set (m : InsertionMap κ ν) (k : κ) (v : ν) : InsertionMap κ ν :=
  if h : k ∈ m.keys then
    ⟨replace k v m.entries, by rw [map_fst_replace]; exact m.nodup⟩
  else
    ⟨m.entries ++ [(k, v)], by
      rw [List.map_append, List.nodup_append]
      refine ⟨m.nodup, by simp, ?_⟩
      intro j hj l hl
      obtain rfl : l = k := by simpa using hl
      exact fun hjl ↦ h (hjl ▸ hj)⟩

theorem entries_set_of_notMem {m : InsertionMap κ ν} {k : κ} (h : k ∉ m.keys) (v : ν) :
    (m.set k v).entries = m.entries ++ [(k, v)] := by
  simp [set, h]

theorem mem_entries_set {m : InsertionMap κ ν} {k j : κ} {v w : ν} :
    (j, w) ∈ (m.set k v).entries ↔
      j = k ∧ w = v ∨ j ≠ k ∧ (j, w) ∈ m.entries := by
  by_cases h : k ∈ m.keys
  · obtain ⟨⟨k', old⟩, hold, hk'⟩ := List.mem_map.mp h
    obtain rfl : k' = k := hk'
    simp only [set, h, dif_pos, replace, List.mem_map]
    constructor
    · rintro ⟨⟨i, u⟩, hmem, heq⟩
      by_cases hi : i = k'
      · simp only [hi, if_true, Prod.mk.injEq] at heq
        exact Or.inl ⟨heq.1.symm, heq.2.symm⟩
      · simp only [hi, if_false, Prod.mk.injEq] at heq
        obtain ⟨rfl, rfl⟩ := heq
        exact Or.inr ⟨hi, hmem⟩
    · rintro (⟨rfl, rfl⟩ | ⟨hne, hmem⟩)
      · exact ⟨(j, old), hold, by simp⟩
      · exact ⟨(j, w), hmem, by simp [hne]⟩
  · rw [entries_set_of_notMem h]
    have hne : ∀ {u : ν}, (j, u) ∈ m.entries → j ≠ k := fun hmem heq ↦
      h (heq ▸ List.mem_map_of_mem hmem)
    simp only [List.mem_append, List.mem_singleton, Prod.mk.injEq]
    constructor
    · rintro (hmem | hnew)
      · exact Or.inr ⟨hne hmem, hmem⟩
      · exact Or.inl hnew
    · rintro (hnew | ⟨_, hmem⟩)
      · exact Or.inr hnew
      · exact Or.inl hmem

theorem get?_set (m : InsertionMap κ ν) (k j : κ) (v : ν) :
    (m.set k v).get? j = if j = k then some v else m.get? j := by
  ext w
  by_cases hj : j = k
  · rw [get?_eq_some_iff, mem_entries_set]
    simp [hj, eq_comm]
  · simp [hj, get?_eq_some_iff, mem_entries_set]

theorem has_set (m : InsertionMap κ ν) (k j : κ) (v : ν) :
    (m.set k v).has j = if j = k then true else m.has j := by
  by_cases hj : j = k <;> simp [has, get?_set, hj]

theorem size_deleteOldest (m : InsertionMap κ ν) : m.deleteOldest.size = m.size - 1 := by
  rw [size, entries_deleteOldest, List.length_tail, size]

theorem size_set (m : InsertionMap κ ν) (k : κ) (v : ν) :
    (m.set k v).size = if m.has k then m.size else m.size + 1 := by
  by_cases h : k ∈ m.keys
  · rw [if_pos (has_iff.mpr h)]
    simp [set, h, size, replace]
  · rw [if_neg (mt has_iff.mp h), size, entries_set_of_notMem h, List.length_append,
      List.length_singleton, size]

theorem keys_filter_eq (m : InsertionMap κ ν) (k : κ) :
    m.keys.filter (fun j ↦ j = k) = if m.has k then [k] else [] := by
  rw [List.filter_eq]
  by_cases h : k ∈ m.keys
  · have hcount : m.keys.count k = 1 := List.count_eq_one_of_mem m.nodup h
    rw [hcount, if_pos (has_iff.mpr h), List.replicate_one]
  · rw [List.count_eq_zero_of_not_mem h, if_neg (mt has_iff.mp h), List.replicate_zero]

theorem filter_entries_eq_singleton {m : InsertionMap κ ν} {k : κ} {v : ν} {p : κ × ν → Bool}
    (h : m.get? k = some v) (hp : ∀ entry ∈ m.entries, p entry = true ↔ entry.1 = k) :
    m.entries.filter p = [(k, v)] := by
  have hmem : (k, v) ∈ m.entries := get?_eq_some_iff.mp h
  have hall : ∀ entry ∈ m.entries.filter p, entry = (k, v) := by
    rintro ⟨j, w⟩ hentry
    obtain ⟨hin, hkept⟩ := List.mem_filter.mp hentry
    obtain rfl : j = k := (hp _ hin).mp hkept
    rw [eq_of_mem hin hmem]
  have hself : (k, v) ∈ m.entries.filter p := List.mem_filter.mpr ⟨hmem, (hp _ hmem).mpr rfl⟩
  have hnodup : (m.entries.filter p).Nodup := (List.Nodup.of_map _ m.nodup).filter _
  cases hfilter : m.entries.filter p with
  | nil =>
      rw [hfilter] at hself
      simp at hself
  | cons entry rest =>
      rw [hfilter] at hall hnodup
      obtain rfl := hall entry (by simp)
      cases rest with
      | nil => rfl
      | cons other rest =>
          obtain rfl := hall other (by simp)
          simp at hnodup

end InsertionMap

end NestQueueExample
