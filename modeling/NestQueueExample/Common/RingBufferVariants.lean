import NestQueueExample.Common.BoundedRingBuffer

/-!
# The fast paths of the ring buffer

A ring buffer that always overwrites and advances seeds its slots in the same
order: while it fills, its head is the number of slots in use, and the head is
back at the first slot exactly when the last one is in use. A snapshot that
always wraps reads the same entries, since the head it wraps at is at one of
the two ends while the buffer fills.
-/

namespace NestQueueExample.Common

open SlidingWindow

namespace BoundedRingBuffer

variable {α : Type*} {capacity : ℕ}

/-- The assignment `items[index] = item`, which appends where `index` is the
length. -/
def assignAt (items : List α) (index : ℕ) (item : α) : List α :=
  if index < items.length then items.set index item else items ++ [item]

/-- `push` without its branch for a buffer that is not full. -/
def pushOverwriting (b : BoundedRingBuffer α capacity) (item : α) :
    BoundedRingBuffer α capacity :=
  { items := assignAt b.items b.head item, head := (b.head + 1) % capacity }

/-- `snapshot` without its branch for a buffer that is not full. -/
def snapshotWrapping (b : BoundedRingBuffer α capacity) : List α :=
  slice b.items b.head none ++ slice b.items 0 (some b.head)

theorem snapshotWrapping_eq (b : BoundedRingBuffer α capacity) :
    b.snapshotWrapping = b.items.drop b.head ++ b.items.take b.head := by
  rw [snapshotWrapping, slice_from, slice_take]

theorem WellFormed.snapshotWrapping_eq {b : BoundedRingBuffer α capacity} (h : b.WellFormed) :
    b.snapshotWrapping = b.snapshot := by
  rw [BoundedRingBuffer.snapshotWrapping_eq, h.snapshot_eq]

/-- The variant has the same slots; its head runs ahead while they fill. -/
structure Seeds (b v : BoundedRingBuffer α capacity) : Prop where
  wellFormed : b.WellFormed
  items : v.items = b.items
  filling : b.items.length < capacity → v.head = b.items.length
  full : b.items.length = capacity → v.head = b.head

namespace Seeds

variable {b v : BoundedRingBuffer α capacity}

theorem empty (hpos : 1 ≤ capacity) :
    Seeds ({} : BoundedRingBuffer α capacity) {} where
  wellFormed := ⟨Nat.zero_le _, hpos, fun _ ↦ rfl⟩
  items := rfl
  filling _ := rfl
  full _ := rfl

theorem push (h : Seeds b v) (item : α) : Seeds (b.push item) (v.pushOverwriting item) := by
  have hwellFormed := h.wellFormed.push item
  rcases Nat.lt_or_eq_of_le h.wellFormed.length_le with hroom | hfull
  · have hpush : b.push item = { b with items := b.items ++ [item] } := if_pos hroom
    have hitems : (v.pushOverwriting item).items = b.items ++ [item] := by
      simp [pushOverwriting, assignAt, h.filling hroom, h.items]
    have hhead : (v.pushOverwriting item).head = (b.items.length + 1) % capacity := by
      simp [pushOverwriting, h.filling hroom]
    refine ⟨hwellFormed, by rw [hitems, hpush], ?_, ?_⟩
    · intro hlt
      rw [hpush, List.length_append, List.length_singleton] at hlt
      rw [hhead, hpush, List.length_append, List.length_singleton, Nat.mod_eq_of_lt hlt]
    · intro heq
      rw [hpush, List.length_append, List.length_singleton] at heq
      rw [hhead, heq, Nat.mod_self, hpush]
      exact (h.wellFormed.head_eq_zero hroom).symm
  · have hnot : ¬ b.items.length < capacity := by omega
    have hpush : b.push item =
        { items := b.items.set b.head item, head := (b.head + 1) % capacity } := if_neg hnot
    have hhead := h.full hfull
    have hlt : b.head < b.items.length := by
      rw [hfull]
      exact h.wellFormed.head_lt
    have hvariant : v.pushOverwriting item =
        { items := b.items.set b.head item, head := (b.head + 1) % capacity } := by
      simp [pushOverwriting, assignAt, hhead, h.items, hlt]
    rw [hvariant, ← hpush]
    refine ⟨hwellFormed, rfl, fun hroom ↦ ?_, fun _ ↦ rfl⟩
    rw [hpush, List.length_set] at hroom
    omega

theorem head_le (h : Seeds b v) : v.head ≤ v.items.length := by
  rw [h.items]
  rcases Nat.lt_or_eq_of_le h.wellFormed.length_le with hroom | hfull
  · exact (h.filling hroom).le
  · rw [h.full hfull, hfull]
    exact h.wellFormed.head_lt.le

theorem snapshotWrapping_eq (h : Seeds b v) : v.snapshotWrapping = b.snapshot := by
  rw [BoundedRingBuffer.snapshotWrapping_eq, h.wellFormed.snapshot_eq, h.items]
  rcases Nat.lt_or_eq_of_le h.wellFormed.length_le with hroom | hfull
  · simp [h.filling hroom, h.wellFormed.head_eq_zero hroom]
  · rw [h.full hfull]

theorem snapshot_eq (h : Seeds b v) : v.snapshot = b.snapshot := by
  rw [snapshot, ← snapshotWrapping, h.snapshotWrapping_eq, h.items]
  split
  · next hroom => rw [snapshot, if_pos hroom]
  · rfl

end Seeds

theorem seeds_foldl (hpos : 1 ≤ capacity) (items : List α) :
    Seeds (items.foldl push ({} : BoundedRingBuffer α capacity))
      (items.foldl pushOverwriting {}) := by
  induction items using List.reverseRecOn with
  | nil => exact .empty hpos
  | append_singleton items item ih =>
      rw [List.foldl_concat, List.foldl_concat]
      exact ih.push item

/-- After any pushes, dropping the branch of `push`, of `snapshot` or of both
changes neither the slots nor the snapshot, and no push of the variant leaves
a hole before the slot it assigns. -/
theorem fastPaths_equivalent (hpos : 1 ≤ capacity) (items : List α) :
    let b : BoundedRingBuffer α capacity := items.foldl push {}
    let v : BoundedRingBuffer α capacity := items.foldl pushOverwriting {}
    v.items = b.items ∧ v.snapshot = b.snapshot ∧ b.snapshotWrapping = b.snapshot ∧
      v.snapshotWrapping = b.snapshot ∧ v.head ≤ v.items.length := by
  have hseeds := seeds_foldl hpos items
  exact ⟨hseeds.items, hseeds.snapshot_eq, hseeds.wellFormed.snapshotWrapping_eq,
    hseeds.snapshotWrapping_eq, hseeds.head_le⟩

theorem fastPaths_equivalent_two :
    (([1, 2, 3].foldl pushOverwriting ({} : BoundedRingBuffer ℕ 2)).items =
      ([1, 2, 3].foldl push ({} : BoundedRingBuffer ℕ 2)).items) :=
  (fastPaths_equivalent (by decide) [1, 2, 3]).1

end BoundedRingBuffer

end NestQueueExample.Common
