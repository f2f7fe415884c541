import Mathlib.Algebra.Ring.Nat
import Mathlib.Algebra.NeZero
import NestQueueExample.Foundations.SlidingWindow

/-!
# The bounded ring buffer

The fixed-capacity list behind the observation trails. Once it is full, the
slot at `head` holds the oldest entry and is the next one to be overwritten.
Its snapshots are those of the plain bounded list: the window of the last
`capacity` entries pushed.
-/

namespace NestQueueExample.Common

open SlidingWindow

structure BoundedRingBuffer (α : Type*) (capacity : ℕ) where
  items : List α := []
  head : ℕ := 0

namespace BoundedRingBuffer

variable {α : Type*} {capacity : ℕ}

def push (b : BoundedRingBuffer α capacity) (item : α) : BoundedRingBuffer α capacity :=
  if b.items.length < capacity then
    { b with items := b.items ++ [item] }
  else
    { items := b.items.set b.head item, head := (b.head + 1) % capacity }

def snapshot (b : BoundedRingBuffer α capacity) : List α :=
  if b.items.length < capacity then b.items
  else slice b.items b.head none ++ slice b.items 0 (some b.head)

structure WellFormed (b : BoundedRingBuffer α capacity) : Prop where
  length_le : b.items.length ≤ capacity
  head_lt : b.head < capacity
  head_eq_zero : b.items.length < capacity → b.head = 0

theorem wellFormed_empty [NeZero capacity] :
    ({} : BoundedRingBuffer α capacity).WellFormed :=
  ⟨Nat.zero_le _, Nat.pos_of_ne_zero (NeZero.ne capacity), fun _ ↦ rfl⟩

theorem WellFormed.push {b : BoundedRingBuffer α capacity} (h : b.WellFormed) (item : α) :
    (b.push item).WellFormed := by
  have hlen := h.length_le
  unfold BoundedRingBuffer.push
  split
  · next hroom =>
      refine ⟨?_, h.head_lt, fun _ ↦ h.head_eq_zero hroom⟩
      simp only [List.length_append, List.length_singleton]
      omega
  · next hfull =>
      have hpos : 0 < capacity := Nat.zero_lt_of_lt h.head_lt
      refine ⟨by simpa using hlen, Nat.mod_lt _ hpos, fun hroom ↦ ?_⟩
      simp only [List.length_set] at hroom
      omega

theorem WellFormed.snapshot_eq {b : BoundedRingBuffer α capacity} (h : b.WellFormed) :
    b.snapshot = b.items.drop b.head ++ b.items.take b.head := by
  unfold snapshot
  split
  · next hroom => simp [h.head_eq_zero hroom]
  · rw [slice_from, slice_take]

@[simp] theorem WellFormed.length_snapshot {b : BoundedRingBuffer α capacity}
    (h : b.WellFormed) : b.snapshot.length = b.items.length := by
  rw [h.snapshot_eq, List.length_append, List.length_drop, List.length_take]
  omega

/-- Overwriting the slot at `head` and advancing drops the oldest entry of the
snapshot and appends the new one, also when `head` wraps. -/
theorem rotate_set {items : List α} {head capacity : ℕ} (hfull : items.length = capacity)
    (hhead : head < capacity) (item : α) :
    (items.set head item).drop ((head + 1) % capacity) ++
        (items.set head item).take ((head + 1) % capacity) =
      (items.drop head ++ items.take head ++ [item]).tail := by
  have htail : (items.drop head ++ items.take head ++ [item]).tail =
      items.drop (head + 1) ++ (items.take head ++ [item]) := by
    rw [List.drop_eq_getElem_cons (hfull ▸ hhead), List.cons_append, List.cons_append,
      List.tail_cons, List.append_assoc]
  have htake : (items.set head item).take (head + 1) = items.take head ++ [item] := by
    rw [List.take_succ_eq_append_getElem (by simpa using hfull ▸ hhead),
      List.take_set_of_le (le_refl _), List.getElem_set_self]
  rw [htail]
  rcases Nat.lt_or_ge (head + 1) capacity with hlt | hge
  · rw [Nat.mod_eq_of_lt hlt, htake, List.drop_set_of_lt (Nat.lt_succ_self _)]
  · obtain rfl : capacity = head + 1 := by omega
    have hset : items.set head item = items.take head ++ [item] := by
      rw [← htake, List.take_of_length_le (by simp [hfull])]
    simp [hset, hfull]

theorem WellFormed.snapshot_push {b : BoundedRingBuffer α capacity} (h : b.WellFormed)
    (item : α) : (b.push item).snapshot = pushBounded capacity b.snapshot item := by
  have hlen := h.length_le
  rcases Nat.lt_or_ge b.items.length capacity with hroom | hfull
  · rw [pushBounded_of_lt (by rwa [h.length_snapshot]), (h.push item).snapshot_eq,
      h.snapshot_eq]
    simp [BoundedRingBuffer.push, hroom, h.head_eq_zero hroom]
  · have hnot : ¬ b.items.length < capacity := by omega
    rw [pushBounded_of_le (by rwa [h.length_snapshot]), (h.push item).snapshot_eq,
      h.snapshot_eq, ← rotate_set (by omega) h.head_lt]
    simp [BoundedRingBuffer.push, hnot]

theorem WellFormed.foldl_push {b : BoundedRingBuffer α capacity} (h : b.WellFormed)
    (items : List α) : (items.foldl BoundedRingBuffer.push b).WellFormed := by
  induction items generalizing b with
  | nil => exact h
  | cons item items ih => exact ih (h.push item)

/-- The plain bounded list takes the same steps as the snapshots. -/
theorem WellFormed.snapshot_foldl_push {b : BoundedRingBuffer α capacity} (h : b.WellFormed)
    (items : List α) :
    (items.foldl BoundedRingBuffer.push b).snapshot =
      items.foldl (pushBounded capacity) b.snapshot := by
  induction items generalizing b with
  | nil => rfl
  | cons item items ih => rw [List.foldl_cons, ih (h.push item), h.snapshot_push, List.foldl_cons]

end BoundedRingBuffer

/-- A ring buffer that was built by pushes: the trails hold these. -/
def Trail (α : Type*) (capacity : ℕ) :=
  {b : BoundedRingBuffer α capacity // b.WellFormed}

namespace Trail

variable {α : Type*} {capacity : ℕ}

def empty [NeZero capacity] : Trail α capacity := ⟨{}, BoundedRingBuffer.wellFormed_empty⟩

def push (trail : Trail α capacity) (item : α) : Trail α capacity :=
  ⟨trail.1.push item, trail.2.push item⟩

def snapshot (trail : Trail α capacity) : List α := trail.1.snapshot

@[simp] theorem snapshot_empty [NeZero capacity] :
    (empty : Trail α capacity).snapshot = [] := by
  have hpos : 0 < capacity := Nat.pos_of_ne_zero (NeZero.ne capacity)
  simp [snapshot, empty, BoundedRingBuffer.snapshot, hpos]

theorem snapshot_foldl_push_eq_rtake {trail : Trail α capacity} {pushed : List α}
    (h : trail.snapshot = pushed.rtake capacity) (items : List α) :
    (items.foldl push trail).snapshot = (pushed ++ items).rtake capacity := by
  have hbuffer : (items.foldl push trail).1 = items.foldl BoundedRingBuffer.push trail.1 :=
    (List.foldl_hom Subtype.val (fun _ _ ↦ rfl)).symm
  rw [snapshot, hbuffer, trail.2.snapshot_foldl_push, ← foldl_pushBounded_rtake, ← h, snapshot]

end Trail

end NestQueueExample.Common
