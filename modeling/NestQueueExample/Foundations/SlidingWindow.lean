import Mathlib.Data.List.DropRight
import Mathlib.Data.List.Nodup
import Mathlib.Data.List.Perm.Subperm
import Mathlib.Tactic.TypeStar

/-!
# Sliding windows and array slices

The last `n` elements of a list are `List.rtake`. A bounded list that appends
and then drops its first element when it has become too long holds exactly
such a window of everything that was appended. The slices of JavaScript
arrays, whose negative indices count from the end, are windows too.
-/

namespace NestQueueExample.SlidingWindow

variable {α β : Type*}

@[simp] theorem length_rtake (n : ℕ) (xs : List α) :
    (xs.rtake n).length = min n xs.length := by
  simp only [List.rtake, List.length_drop]
  omega

theorem rtake_suffix (n : ℕ) (xs : List α) : xs.rtake n <:+ xs :=
  List.drop_suffix _ _

theorem rtake_of_length_le {n : ℕ} {xs : List α} (h : xs.length ≤ n) :
    xs.rtake n = xs := by
  simp [List.rtake, Nat.sub_eq_zero_of_le h]

theorem rtake_of_suffix {n : ℕ} {xs ys : List α} (h : ys <:+ xs)
    (hlen : ys.length = min n xs.length) : ys = xs.rtake n := by
  obtain ⟨zs, rfl⟩ := h
  have hdrop : (zs ++ ys).length - n = zs.length ∨ zs.length = 0 := by
    simp only [List.length_append] at hlen ⊢
    omega
  rcases hdrop with hdrop | hzero
  · rw [List.rtake, hdrop, List.drop_left]
  · obtain rfl := List.eq_nil_of_length_eq_zero hzero
    have hle : ys.length ≤ n := by
      simp only [List.nil_append] at hlen
      omega
    simp [rtake_of_length_le hle]

theorem rtake_rtake (m n : ℕ) (xs : List α) :
    (xs.rtake n).rtake m = xs.rtake (min m n) := by
  apply rtake_of_suffix ((rtake_suffix m _).trans (rtake_suffix n xs))
  simp only [length_rtake]
  omega

theorem tail_rtake {n : ℕ} (hpos : 0 < n) {xs : List α} (hlen : n ≤ xs.length) :
    (xs.rtake n).tail = xs.rtake (n - 1) := by
  have hdrop : xs.length - n + 1 = xs.length - (n - 1) := by omega
  rw [List.rtake, List.tail_drop, hdrop, List.rtake]

theorem rtake_min_length (n : ℕ) (xs : List α) :
    xs.rtake (min n xs.length) = xs.rtake n := by
  rw [← rtake_rtake, rtake_of_length_le (le_refl xs.length)]

theorem map_rtake (f : α → β) (n : ℕ) (xs : List α) :
    (xs.rtake n).map f = (xs.map f).rtake n := by
  simp [List.rtake, List.map_drop]

def pushBounded (n : ℕ) (xs : List α) (x : α) : List α :=
  if (xs ++ [x]).length > n then (xs ++ [x]).tail else xs ++ [x]

theorem pushBounded_of_lt {n : ℕ} {xs : List α} (h : xs.length < n) (x : α) :
    pushBounded n xs x = xs ++ [x] := by
  rw [pushBounded, List.length_append, List.length_singleton, if_neg (by omega)]

theorem pushBounded_of_le {n : ℕ} {xs : List α} (h : n ≤ xs.length) (x : α) :
    pushBounded n xs x = (xs ++ [x]).tail := by
  rw [pushBounded, List.length_append, List.length_singleton, if_pos (by omega)]

theorem map_pushBounded (f : α → β) (n : ℕ) (xs : List α) (x : α) :
    (pushBounded n xs x).map f = pushBounded n (xs.map f) (f x) := by
  rcases Nat.lt_or_ge xs.length n with hlt | hge
  · rw [pushBounded_of_lt hlt, pushBounded_of_lt (by simpa using hlt)]
    simp
  · rw [pushBounded_of_le hge, pushBounded_of_le (by simpa using hge)]
    simp [List.map_tail]

theorem mem_pushBounded_self {n : ℕ} (hpos : 0 < n) (xs : List α) (x : α) :
    x ∈ pushBounded n xs x := by
  rcases Nat.lt_or_ge xs.length n with hlt | hge
  · simp [pushBounded_of_lt hlt]
  · cases xs with
    | nil => exact absurd hpos (Nat.not_lt.mpr hge)
    | cons y ys => simp [pushBounded_of_le hge]

theorem mem_of_mem_pushBounded {n : ℕ} {xs : List α} {x y : α} (h : y ∈ pushBounded n xs x) :
    y ∈ xs ∨ y = x := by
  have hmem : y ∈ xs ++ [x] := by
    unfold pushBounded at h
    split at h
    · exact List.mem_of_mem_tail h
    · exact h
  simpa using hmem

theorem pushBounded_rtake (n : ℕ) (xs : List α) (x : α) :
    pushBounded n (xs.rtake n) x = (xs ++ [x]).rtake n := by
  have hsuffix : xs.rtake n ++ [x] <:+ xs ++ [x] :=
    List.suffix_append_self_iff.mpr (rtake_suffix n xs)
  unfold pushBounded
  split
  · next h =>
      apply rtake_of_suffix ((List.tail_suffix _).trans hsuffix)
      simp only [List.length_append, length_rtake, List.length_singleton, gt_iff_lt,
        List.length_tail] at h ⊢
      omega
  · next h =>
      apply rtake_of_suffix hsuffix
      simp only [List.length_append, length_rtake, List.length_singleton, gt_iff_lt] at h ⊢
      omega

theorem foldl_pushBounded_rtake (n : ℕ) (pushed xs : List α) :
    xs.foldl (pushBounded n) (pushed.rtake n) = (pushed ++ xs).rtake n := by
  induction xs generalizing pushed with
  | nil => simp
  | cons x xs ih =>
      rw [List.foldl_cons, pushBounded_rtake, ih, List.append_assoc, List.singleton_append]

theorem foldl_pushBounded (n : ℕ) (xs : List α) :
    xs.foldl (pushBounded n) [] = xs.rtake n := by
  simpa [List.rtake] using foldl_pushBounded_rtake n [] xs

theorem filter_rtake_suffix (p : α → Bool) (n : ℕ) (xs : List α) :
    (xs.rtake n).filter p <:+ (xs.filter p).rtake n := by
  have hfilter : (xs.rtake n).filter p <:+ xs.filter p := (rtake_suffix n xs).filter p
  apply List.suffix_of_suffix_length_le hfilter (rtake_suffix n _)
  have hwindow : ((xs.rtake n).filter p).length ≤ (xs.rtake n).length :=
    List.length_filter_le _ _
  have hle := hfilter.length_le
  rw [length_rtake] at hwindow ⊢
  omega

theorem mem_rtake_of_length_lt {n : ℕ} {before between : List α} {x : α}
    (h : between.length < n) : x ∈ (before ++ x :: between).rtake n := by
  have hsuffix : x :: between <:+ (before ++ x :: between).rtake n := by
    apply List.suffix_of_suffix_length_le (List.suffix_append _ _) (rtake_suffix n _)
    simp only [length_rtake, List.length_append, List.length_cons]
    omega
  exact hsuffix.subset List.mem_cons_self

/-- A window without a repeated key: an entry is in it exactly when it is the
latest under its key and fewer than `n` entries follow. -/
theorem mem_rtake_iff_latest {key : α → β} {n : ℕ} {xs : List α}
    (hnodup : ((xs.rtake n).map key).Nodup) {x : α} :
    x ∈ xs.rtake n ↔
      ∃ before after, xs = before ++ x :: after ∧ key x ∉ after.map key ∧ after.length < n := by
  constructor
  · intro hmem
    obtain ⟨older, after, hwindow⟩ := List.append_of_mem hmem
    obtain ⟨before, hxs⟩ := rtake_suffix n xs
    refine ⟨before ++ older, after, by rw [← hxs, hwindow, List.append_assoc], ?_, ?_⟩
    · rw [hwindow, List.map_append, List.map_cons] at hnodup
      exact (List.nodup_cons.mp (List.nodup_append.mp hnodup).2.1).1
    · have hlen := congrArg List.length hwindow
      simp only [length_rtake, List.length_append, List.length_cons] at hlen
      omega
  · rintro ⟨before, after, rfl, -, hlen⟩
    exact mem_rtake_of_length_lt hlen

/-! ## Repetitions -/

/-- Between two occurrences of an element stand at least `n` others. -/
def Spaced (n : ℕ) (xs : List α) : Prop :=
  ∀ before x between after, xs = before ++ x :: (between ++ x :: after) → n ≤ between.length

theorem Spaced.nil (n : ℕ) : Spaced n ([] : List α) := by
  intro before x between after h
  simp at h

theorem Spaced.of_append {n : ℕ} {xs ys : List α} (h : Spaced n (xs ++ ys)) : Spaced n xs := by
  rintro before x between after rfl
  apply h before x between (after ++ ys)
  simp

/-- What is not in the window may be appended. -/
theorem Spaced.append_singleton {n : ℕ} {xs : List α} (h : Spaced n xs) {x : α}
    (hx : x ∉ xs.rtake n) : Spaced n (xs ++ [x]) := by
  intro before y between after heq
  rcases List.eq_nil_or_concat after with rfl | ⟨after, z, rfl⟩
  · have hsplit : xs ++ [x] = (before ++ y :: between) ++ [y] := by simpa using heq
    obtain ⟨rfl, hxy⟩ := List.append_inj' hsplit rfl
    obtain rfl := List.singleton_inj.mp hxy
    by_contra hfew
    exact hx (mem_rtake_of_length_lt (not_le.mp hfew))
  · have hsplit : xs ++ [x] = (before ++ y :: (between ++ y :: after)) ++ [z] := by
      simpa using heq
    exact h before y between after (List.append_inj' hsplit rfl).1

/-- A spaced list over at most `n` elements repeats none of them. -/
theorem Spaced.nodup {n : ℕ} {xs ids : List α} (h : Spaced n xs) (hsub : xs ⊆ ids)
    (hlen : ids.length ≤ n) : xs.Nodup := by
  induction xs using List.reverseRecOn with
  | nil => exact List.nodup_nil
  | append_singleton xs x ih =>
      have hold : xs.Nodup := ih h.of_append fun y hy ↦ hsub (List.mem_append_left _ hy)
      rw [List.nodup_append]
      refine ⟨hold, List.nodup_singleton x, ?_⟩
      rintro y hy z hz rfl
      obtain rfl := List.mem_singleton.mp hz
      obtain ⟨before, between, rfl⟩ := List.append_of_mem hy
      have hfar : n ≤ between.length := h before y between [] (by simp)
      have hfits : (before ++ y :: between).length ≤ ids.length :=
        (List.subperm_of_subset hold fun z hz ↦ hsub (List.mem_append_left _ hz)).length_le
      simp only [List.length_append, List.length_cons] at hfits
      omega

/-! ## Slices -/

/-- An index argument of `slice`: negative counts from the end, and the result
is clamped to the length. -/
def sliceIndex (length : ℕ) (index : ℤ) : ℕ :=
  if index < 0 then (length + index).toNat else min index.toNat length

def slice (xs : List α) (start : ℤ) (stop : Option ℤ) : List α :=
  (xs.take (sliceIndex xs.length (stop.getD xs.length))).drop (sliceIndex xs.length start)

@[simp] theorem sliceIndex_natCast (length n : ℕ) :
    sliceIndex length (n : ℤ) = min n length := by
  have hneg : ¬ (n : ℤ) < 0 := by omega
  simp [sliceIndex, hneg]

theorem sliceIndex_neg {n : ℕ} (hn : 0 < n) (length : ℕ) :
    sliceIndex length (-(n : ℤ)) = length - n := by
  have hneg : -(n : ℤ) < 0 := by omega
  simp only [sliceIndex, hneg, if_true]
  omega

theorem slice_neg {n : ℕ} (hn : 0 < n) (xs : List α) :
    slice xs (-(n : ℤ)) none = xs.rtake n := by
  simp [slice, sliceIndex_neg hn, List.rtake]

theorem slice_from (n : ℕ) (xs : List α) : slice xs n none = xs.drop n := by
  rcases Nat.le_total n xs.length with h | h <;> simp [slice, h]

theorem slice_take (n : ℕ) (xs : List α) : slice xs 0 (some n) = xs.take n := by
  have hstart : sliceIndex xs.length 0 = 0 := by simp [sliceIndex]
  rcases Nat.le_total n xs.length with h | h
  · simp [slice, hstart, h]
  · simp [slice, hstart, h, List.take_of_length_le h]

end NestQueueExample.SlidingWindow
