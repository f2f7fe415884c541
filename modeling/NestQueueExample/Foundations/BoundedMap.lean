import NestQueueExample.Foundations.InsertionMap
import NestQueueExample.Foundations.Runs
import NestQueueExample.Foundations.SlidingWindow

/-!
# Insertion maps that evict their oldest key

A map that holds at most `n` keys and gives up its oldest one for a new key,
either before the new key is stored or right after. Over a run of stores the
keys are the window of the last `n` entries of a key into the map: storing
under a held key is not an entry, and an evicted key enters again.
-/

namespace NestQueueExample.InsertionMap

open Runs SlidingWindow

variable {κ ν : Type*} [DecidableEq κ] {n : ℕ}

theorem entries_set_of_mem {m : InsertionMap κ ν} {k : κ} (h : k ∈ m.keys) (v : ν) :
    (m.set k v).entries = replace k v m.entries := by
  rw [set, dif_pos h]

theorem keys_set_of_mem {m : InsertionMap κ ν} {k : κ} (h : k ∈ m.keys) (v : ν) :
    (m.set k v).keys = m.keys := by
  rw [keys, entries_set_of_mem h, map_fst_replace, keys]

theorem keys_set_of_notMem {m : InsertionMap κ ν} {k : κ} (h : k ∉ m.keys) (v : ν) :
    (m.set k v).keys = m.keys ++ [k] := by
  simp [keys, entries_set_of_notMem h]

@[simp] theorem keys_deleteOldest (m : InsertionMap κ ν) : m.deleteOldest.keys = m.keys.tail := by
  simp [keys, entries_deleteOldest, List.map_tail]

/-! ## Eviction after and before the store -/

def evictOver (n : ℕ) (m : InsertionMap κ ν) : InsertionMap κ ν :=
  if m.size ≤ n then m else m.deleteOldest

def makeRoom (n : ℕ) (m : InsertionMap κ ν) (k : κ) : InsertionMap κ ν :=
  if m.size ≥ n ∧ ¬ m.has k then m.deleteOldest else m

theorem entries_evictOver_set {m : InsertionMap κ ν} {k : κ} (h : k ∉ m.keys) (v : ν) :
    (evictOver n (m.set k v)).entries = pushBounded n m.entries (k, v) := by
  have hset := entries_set_of_notMem h v
  simp only [evictOver, size, pushBounded, hset]
  split
  · next hle => rw [hset, if_neg (by omega)]
  · next hgt => rw [entries_deleteOldest, hset, if_pos (by omega)]

theorem keys_evictOver_set {m : InsertionMap κ ν} {k : κ} (h : k ∉ m.keys) (v : ν) :
    (evictOver n (m.set k v)).keys = pushBounded n m.keys k := by
  rw [keys, entries_evictOver_set h, map_pushBounded, keys]

theorem evictOver_set_of_mem {m : InsertionMap κ ν} (hsize : m.size ≤ n) {k : κ}
    (h : k ∈ m.keys) (v : ν) : evictOver n (m.set k v) = m.set k v := by
  rw [evictOver, if_pos]
  rw [← length_keys, keys_set_of_mem h, length_keys]
  exact hsize

theorem size_evictOver_set_le {m : InsertionMap κ ν} (hsize : m.size ≤ n) (k : κ) (v : ν) :
    (evictOver n (m.set k v)).size ≤ n := by
  unfold evictOver
  split
  · next hle => exact hle
  · rw [size_deleteOldest, size_set]
    split <;> omega

theorem makeRoom_of_mem {m : InsertionMap κ ν} {k : κ} (h : k ∈ m.keys) :
    makeRoom n m k = m := by
  rw [makeRoom, if_neg]
  exact fun hfull ↦ hfull.2 (has_iff.mpr h)

theorem entries_makeRoom_suffix (m : InsertionMap κ ν) (k : κ) :
    (makeRoom n m k).entries <:+ m.entries := by
  unfold makeRoom
  split
  · rw [entries_deleteOldest]
    exact List.tail_suffix _
  · exact List.suffix_refl _

/-- Store an entry, after the oldest key was evicted to make room for it. -/
def store (n : ℕ) (m : InsertionMap κ ν) (entry : κ × ν) : InsertionMap κ ν :=
  (makeRoom n m entry.1).set entry.1 entry.2

theorem keys_store_of_mem {m : InsertionMap κ ν} {entry : κ × ν} (h : entry.1 ∈ m.keys) :
    (store n m entry).keys = m.keys := by
  rw [store, makeRoom_of_mem h, keys_set_of_mem h]

theorem keys_store_of_notMem (hpos : 0 < n) {m : InsertionMap κ ν} (hsize : m.size ≤ n)
    {entry : κ × ν} (h : entry.1 ∉ m.keys) :
    (store n m entry).keys = pushBounded n m.keys entry.1 := by
  have habsent : entry.1 ∉ (makeRoom n m entry.1).keys := fun hmem ↦
    h (((entries_makeRoom_suffix m entry.1).map Prod.fst).subset hmem)
  have hlen := length_keys m
  rw [store, keys_set_of_notMem habsent]
  by_cases hfull : m.size ≥ n
  · have hne : m.keys ≠ [] := List.length_pos_iff.mp (by omega)
    rw [pushBounded_of_le (by omega), makeRoom, if_pos ⟨hfull, mt has_iff.mp h⟩,
      keys_deleteOldest, List.tail_append_of_ne_nil hne]
  · rw [pushBounded_of_lt (by omega), makeRoom, if_neg (fun hroom ↦ hfull hroom.1)]

theorem mem_entries_store {m : InsertionMap κ ν} {entry : κ × ν} {k : κ} {v : ν}
    (h : (k, v) ∈ (store n m entry).entries) :
    (k, v) = entry ∨ k ≠ entry.1 ∧ (k, v) ∈ m.entries := by
  rcases mem_entries_set.mp h with ⟨rfl, rfl⟩ | ⟨hne, hmem⟩
  · exact Or.inl rfl
  · exact Or.inr ⟨hne, (entries_makeRoom_suffix m entry.1).subset hmem⟩

/-! ## Runs of stores -/

def stored (n : ℕ) (entries : List (κ × ν)) : InsertionMap κ ν := exec (store n) empty entries

/-- The key of an entry whose key is not held when it is stored. -/
def enters (m : InsertionMap κ ν) (entry : κ × ν) : List κ :=
  if entry.1 ∈ m.keys then [] else [entry.1]

def entered (n : ℕ) (entries : List (κ × ν)) : List κ :=
  emitted (store n) enters empty entries

/-- The value stored last under a key. -/
def latest (entries : List (κ × ν)) (k : κ) : Option ν :=
  (entries.filter fun entry ↦ entry.1 = k).getLast?.map Prod.snd

/-- Fewer than `n` keys entered after the last entry of `k`. -/
def Retained (n : ℕ) (entries : List (κ × ν)) (k : κ) : Prop :=
  ∃ before after, entered n entries = before ++ k :: after ∧ k ∉ after ∧ after.length < n

theorem stored_append (entries : List (κ × ν)) (entry : κ × ν) :
    stored n (entries ++ [entry]) = store n (stored n entries) entry := by
  simp [stored]

theorem entered_append (entries : List (κ × ν)) (entry : κ × ν) :
    entered n (entries ++ [entry]) = entered n entries ++ enters (stored n entries) entry := by
  simp [entered, stored, emitted_append, emitted]

theorem latest_append (entries : List (κ × ν)) (entry : κ × ν) (k : κ) :
    latest (entries ++ [entry]) k = if k = entry.1 then some entry.2 else latest entries k := by
  by_cases hk : k = entry.1
  · simp [latest, List.filter_append, hk]
  · simp [latest, List.filter_append, hk, Ne.symm hk]

theorem keys_stored (hpos : 0 < n) (entries : List (κ × ν)) :
    (stored n entries).keys = (entered n entries).rtake n := by
  induction entries using List.reverseRecOn with
  | nil => simp [stored, entered, emitted, empty, keys, List.rtake]
  | append_singleton entries entry ih =>
      have hsize : (stored n entries).size ≤ n := by
        rw [← length_keys, ih, length_rtake]
        exact Nat.min_le_left _ _
      rw [stored_append, entered_append, enters]
      by_cases h : entry.1 ∈ (stored n entries).keys
      · rw [if_pos h, keys_store_of_mem h, ih, List.append_nil]
      · rw [if_neg h, keys_store_of_notMem hpos hsize h, ih, pushBounded_rtake]

theorem latest_of_mem_stored {entries : List (κ × ν)} {k : κ} {v : ν}
    (h : (k, v) ∈ (stored n entries).entries) : latest entries k = some v := by
  induction entries using List.reverseRecOn with
  | nil => simp [stored, empty] at h
  | append_singleton entries entry ih =>
      rw [stored_append] at h
      rw [latest_append]
      rcases mem_entries_store h with rfl | ⟨hne, hmem⟩
      · rw [if_pos rfl]
      · rw [if_neg hne, ih hmem]

theorem mem_keys_stored_iff (hpos : 0 < n) {entries : List (κ × ν)} {k : κ} :
    k ∈ (stored n entries).keys ↔ Retained n entries k := by
  have hnodup : (((entered n entries).rtake n).map id).Nodup := by
    rw [List.map_id, ← keys_stored hpos]
    exact (stored n entries).nodup
  rw [keys_stored hpos, mem_rtake_iff_latest hnodup, Retained]
  simp only [id, List.map_id]

theorem get?_stored_eq_none_iff (hpos : 0 < n) {entries : List (κ × ν)} {k : κ} :
    (stored n entries).get? k = none ↔ ¬ Retained n entries k := by
  rw [get?_eq_none_iff, mem_keys_stored_iff hpos]

theorem get?_stored_eq_some_iff (hpos : 0 < n) {entries : List (κ × ν)} {k : κ} {v : ν} :
    (stored n entries).get? k = some v ↔ latest entries k = some v ∧ Retained n entries k := by
  rw [← mem_keys_stored_iff hpos]
  constructor
  · intro hget
    have hmem := get?_eq_some_iff.mp hget
    exact ⟨latest_of_mem_stored hmem, List.mem_map_of_mem hmem⟩
  · rintro ⟨hlatest, hheld⟩
    obtain ⟨⟨k', w⟩, hmem, hk⟩ := List.mem_map.mp hheld
    obtain rfl : k' = k := hk
    rw [latest_of_mem_stored hmem] at hlatest
    rw [get?_eq_some_iff, ← Option.some.inj hlatest]
    exact hmem

/-- A new key that finds the map full evicts the key that entered before all
the others that are held. -/
theorem keys_store_of_full (hpos : 0 < n) {entries : List (κ × ν)}
    (hfull : (stored n entries).size = n) {entry : κ × ν}
    (h : entry.1 ∉ (stored n entries).keys) :
    ∃ before oldest after, entered n entries = before ++ oldest :: after ∧ oldest ∉ after ∧
      (stored n entries).keys = oldest :: after ∧
      (stored n (entries ++ [entry])).keys = after ++ [entry.1] := by
  have hnodup := (stored n entries).nodup
  obtain ⟨before, hentered⟩ := rtake_suffix n (entered n entries)
  rw [← keys_stored hpos] at hentered
  rw [stored_append, keys_store_of_notMem hpos hfull.le h]
  rw [← length_keys] at hfull
  rw [pushBounded_of_le hfull.ge]
  change (stored n entries).keys.Nodup at hnodup
  cases hkeys : (stored n entries).keys with
  | nil =>
      rw [hkeys] at hfull
      simp only [List.length_nil] at hfull
      omega
  | cons oldest after =>
      rw [hkeys] at hentered hnodup hfull
      exact ⟨before, oldest, after, hentered.symm, (List.nodup_cons.mp hnodup).1, rfl, rfl⟩

end NestQueueExample.InsertionMap
