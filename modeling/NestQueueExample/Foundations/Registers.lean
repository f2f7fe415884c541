import Mathlib.Data.List.Induction
import Mathlib.Logic.Function.Basic
import NestQueueExample.Foundations.Runs

/-!
# Registers of a run

A register is read off the state under a key. Where each step of a component
does to its registers what the updates it reports say, a register holds after a
run what the last update of its key says, or what it held at the start.
-/

namespace NestQueueExample.Registers

open Runs

variable {σ ε κ ν : Type*} [DecidableEq κ]

/-- The registers after the updates, in order; `none` clears a register. -/
def assign (registers : κ → Option ν) (updates : List (κ × Option ν)) : κ → Option ν :=
  updates.foldl (fun held update ↦ Function.update held update.1 update.2) registers

@[simp] theorem assign_nil (registers : κ → Option ν) : assign registers [] = registers := rfl

theorem assign_singleton (registers : κ → Option ν) (key : κ) (value : Option ν) :
    assign registers [(key, value)] = Function.update registers key value := rfl

theorem assign_append (registers : κ → Option ν) (before after : List (κ × Option ν)) :
    assign registers (before ++ after) = assign (assign registers before) after :=
  List.foldl_append

/-- The last update of a key. -/
def lastUpdate (updates : List (κ × Option ν)) (key : κ) : Option (Option ν) :=
  (updates.filter fun update ↦ update.1 = key).getLast?.map Prod.snd

theorem assign_eq (registers : κ → Option ν) (updates : List (κ × Option ν)) (key : κ) :
    assign registers updates key = (lastUpdate updates key).getD (registers key) := by
  induction updates using List.reverseRecOn with
  | nil => rfl
  | append_singleton updates update ih =>
      obtain ⟨other, value⟩ := update
      rw [assign_append, assign_singleton, lastUpdate, List.filter_append]
      by_cases hkey : other = key
      · subst hkey
        simp
      · rw [Function.update_of_ne (Ne.symm hkey), ih]
        simp [hkey, lastUpdate]

/-- Registers that every step updates as it reports are updated so by a run. -/
theorem read_exec {step : σ → ε → σ} {report : σ → ε → List (κ × Option ν)}
    {read : σ → κ → Option ν} (hstep : ∀ s e, read (step s e) = assign (read s) (report s e))
    (s : σ) (es : List ε) :
    read (exec step s es) = assign (read s) (emitted step report s es) := by
  induction es generalizing s with
  | nil => rfl
  | cons e es ih => rw [exec_cons, ih, hstep, emitted, assign_append]

end NestQueueExample.Registers
