import Mathlib.Algebra.Ring.Nat
import Mathlib.Tactic.TypeStar

/-!
# Retries

A job is attempted until an attempt returns or its budget is used up. The
handler knows how many attempts were made before, and whatever a failed attempt
has done to the state stays.
-/

namespace NestQueueExample.Retries

variable {σ ε ρ : Type*}

/-- What a handler makes of a state, given the number of attempts before. -/
abbrev Handler (σ ε ρ : Type*) : Type _ := ℕ → σ → Except ε ρ × σ

/-- The outcomes of the attempts from the one with `made` before it on, of
which `retries` may follow a failure, and the state after them. -/
def attempts (handler : Handler σ ε ρ) : ℕ → ℕ → σ → List (Except ε ρ) × σ
  | 0, made, s => ([(handler made s).1], (handler made s).2)
  | retries + 1, made, s =>
      match handler made s with
      | (.ok result, after) => ([.ok result], after)
      | (.error error, after) =>
          let later := attempts handler retries (made + 1) after
          (.error error :: later.1, later.2)

/-- A budget of zero or one allows a single attempt. -/
def run (handler : Handler σ ε ρ) (budget : ℕ) (s : σ) : List (Except ε ρ) × σ :=
  attempts handler (budget - 1) 0 s

/-- `n` failures and then one success. -/
def SucceedsAfter (n : ℕ) (outcomes : List (Except ε ρ)) : Prop :=
  ∃ (failures : List ε) (result : ρ), failures.length = n ∧
    outcomes = failures.map .error ++ [.ok result]

/-- From every state satisfying the invariant, the attempts with fewer than `n`
before them fail and keep the invariant, and the one after them returns. -/
structure FailsTimes (handler : Handler σ ε ρ) (inv : σ → Prop) (n : ℕ) : Prop where
  fails : ∀ made < n, ∀ s, inv s →
    ∃ error after, handler made s = (.error error, after) ∧ inv after
  returns : ∀ s, inv s → ∃ result after, handler n s = (.ok result, after)

namespace FailsTimes

variable {handler : Handler σ ε ρ} {inv : σ → Prop} {n : ℕ}

theorem attempts_return (h : FailsTimes handler inv n) {retries made : ℕ} {s : σ} (hs : inv s)
    (hmade : made ≤ n) (hbudget : n ≤ made + retries) :
    SucceedsAfter (n - made) (attempts handler retries made s).1 ∧
      ∃ last result, inv last ∧
        handler n last = (.ok result, (attempts handler retries made s).2) := by
  induction retries generalizing made s with
  | zero =>
      obtain rfl : made = n := by omega
      obtain ⟨result, after, hreturns⟩ := h.returns s hs
      rw [attempts, hreturns, Nat.sub_self]
      exact ⟨⟨[], result, rfl, rfl⟩, s, result, hs, hreturns⟩
  | succ retries ih =>
      rcases Nat.lt_or_eq_of_le hmade with hlt | rfl
      · obtain ⟨error, after, hfails, hafter⟩ := h.fails made hlt s hs
        obtain ⟨⟨failures, result, hlength, houtcomes⟩, hlast⟩ :=
          ih hafter (Nat.succ_le_of_lt hlt) (by omega)
        rw [attempts, hfails]
        refine ⟨⟨error :: failures, result, ?_, ?_⟩, hlast⟩
        · rw [List.length_cons, hlength]
          omega
        · rw [List.map_cons, List.cons_append, ← houtcomes]
      · obtain ⟨result, after, hreturns⟩ := h.returns s hs
        rw [attempts, hreturns, Nat.sub_self]
        exact ⟨⟨[], result, rfl, rfl⟩, s, result, hs, hreturns⟩

theorem attempts_fail (h : FailsTimes handler inv n) {retries made : ℕ} {s : σ} (hs : inv s)
    (hbudget : made + retries < n) :
    ∃ failures : List ε, failures.length = retries + 1 ∧
      (attempts handler retries made s).1 = failures.map .error := by
  induction retries generalizing made s with
  | zero =>
      obtain ⟨error, after, hfails, -⟩ := h.fails made (by omega) s hs
      exact ⟨[error], rfl, by rw [attempts, hfails]; rfl⟩
  | succ retries ih =>
      obtain ⟨error, after, hfails, hafter⟩ := h.fails made (by omega) s hs
      have hnext : made + 1 + retries < n := by omega
      obtain ⟨failures, hlength, houtcomes⟩ := ih hafter hnext
      refine ⟨error :: failures, by rw [List.length_cons, hlength], ?_⟩
      rw [attempts, hfails, List.map_cons, ← houtcomes]

/-- The job succeeds after exactly the failures of its handler when its budget
leaves one attempt more than these. -/
theorem run_succeedsAfter_iff (h : FailsTimes handler inv n) {s : σ} (hs : inv s) {budget : ℕ}
    (hbudget : 0 < budget) : SucceedsAfter n (run handler budget s).1 ↔ n < budget := by
  constructor
  · rintro ⟨failures, result, -, houtcomes⟩
    by_contra hge
    have hsmall : 0 + (budget - 1) < n := by omega
    obtain ⟨errors, -, herrors⟩ := h.attempts_fail hs hsmall
    have hmem : (Except.ok result : Except ε ρ) ∈ errors.map Except.error := by
      rw [← herrors, ← run, houtcomes]
      simp
    simp at hmem
  · intro hlt
    have henough : n ≤ 0 + (budget - 1) := by omega
    have hreturn := (h.attempts_return hs (Nat.zero_le n) henough).1
    rwa [Nat.sub_zero] at hreturn

end FailsTimes

end NestQueueExample.Retries
