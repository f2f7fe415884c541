import Mathlib.Data.List.Basic
import Mathlib.Data.List.Forall2
import Mathlib.Tactic.TypeStar

/-!
# Runs of a total transition function

A component is a type of states with a total step function; a disabled event
leaves the state as it is. A run is a finite list of events. The induction
over runs is done here, once for invariants, once for conditions on the steps
of a run, and once for pairs of runs.
-/

namespace NestQueueExample.Runs

variable {σ τ ε ζ ω : Type*}

def exec (step : σ → ε → σ) (s : σ) (es : List ε) : σ := es.foldl step s

section Exec

variable (step : σ → ε → σ)

@[simp] theorem exec_nil (s : σ) : exec step s [] = s := rfl

@[simp] theorem exec_cons (s : σ) (e : ε) (es : List ε) :
    exec step s (e :: es) = exec step (step s e) es := rfl

@[simp] theorem exec_append (s : σ) (es fs : List ε) :
    exec step s (es ++ fs) = exec step (exec step s es) fs := by
  simp [exec, List.foldl_append]

theorem exec_invariant {I : σ → Prop} (hstep : ∀ s e, I s → I (step s e))
    {s : σ} (hs : I s) (es : List ε) : I (exec step s es) := by
  induction es generalizing s with
  | nil => exact hs
  | cons e es ih => exact ih (hstep s e hs)

end Exec

/-- What the steps of a run emit, in order; `emit s e` is read before the step. -/
def emitted (step : σ → ε → σ) (emit : σ → ε → List ω) : σ → List ε → List ω
  | _, [] => []
  | s, e :: es => emit s e ++ emitted step emit (step s e) es

theorem emitted_append (step : σ → ε → σ) (emit : σ → ε → List ω)
    (s : σ) (es fs : List ε) :
    emitted step emit s (es ++ fs) =
      emitted step emit s es ++ emitted step emit (exec step s es) fs := by
  induction es generalizing s with
  | nil => rfl
  | cons e es ih => simp [emitted, ih, List.append_assoc]

theorem emitted_map (step : σ → ε → σ) (emit : σ → ε → List ω) (f : ζ → ε)
    (s : σ) (es : List ζ) :
    emitted step emit s (es.map f) =
      emitted (fun s e ↦ step s (f e)) (fun s e ↦ emit s (f e)) s es := by
  induction es generalizing s with
  | nil => rfl
  | cons e es ih => simp [emitted, ih]

section Driven

variable {step : σ → ε → σ} {drive : σ → ε → List ζ} {step' : τ → ζ → τ} (part : σ → τ)

/-- A part that every step drives by the events it emits is driven so by a run. -/
theorem exec_driven (hstep : ∀ s e, part (step s e) = exec step' (part s) (drive s e))
    (s : σ) (es : List ε) :
    part (exec step s es) = exec step' (part s) (emitted step drive s es) := by
  induction es generalizing s with
  | nil => rfl
  | cons e es ih => rw [exec_cons, ih, hstep, emitted, exec_append]

theorem emitted_driven (hstep : ∀ s e, part (step s e) = exec step' (part s) (drive s e))
    (emit : τ → ζ → List ω) (s : σ) (es : List ε) :
    emitted step' emit (part s) (emitted step drive s es) =
      emitted step (fun s e ↦ emitted step' emit (part s) (drive s e)) s es := by
  induction es generalizing s with
  | nil => rfl
  | cons e es ih => rw [emitted, emitted_append, ← hstep, ih, emitted]

end Driven

theorem exists_of_mem_emitted {step : σ → ε → σ} {emit : σ → ε → List ω} {s : σ}
    {es : List ε} {x : ω} (h : x ∈ emitted step emit s es) :
    ∃ pre e post, es = pre ++ e :: post ∧ x ∈ emit (exec step s pre) e := by
  induction es generalizing s with
  | nil => simp [emitted] at h
  | cons e es ih =>
      rcases List.mem_append.mp h with hnow | hlater
      · exact ⟨[], e, es, rfl, hnow⟩
      · obtain ⟨pre, f, post, rfl, hmem⟩ := ih hlater
        exact ⟨e :: pre, f, post, rfl, hmem⟩

def AllSteps (step : σ → ε → σ) (good : σ → ε → Prop) : σ → List ε → Prop
  | _, [] => True
  | s, e :: es => good s e ∧ AllSteps step good (step s e) es

/-- `P` holds in every state the run passes through, both ends included. -/
def Throughout (step : σ → ε → σ) (P : σ → Prop) (s : σ) (es : List ε) : Prop :=
  ∀ pre, pre <+: es → P (exec step s pre)

section Conditions

variable {step : σ → ε → σ} {good : σ → ε → Prop} {I P : σ → Prop}

theorem AllSteps.append_iff {s : σ} {es fs : List ε} :
    AllSteps step good s (es ++ fs) ↔
      AllSteps step good s es ∧ AllSteps step good (exec step s es) fs := by
  induction es generalizing s with
  | nil => simp [AllSteps]
  | cons e es ih => simp [AllSteps, ih, and_assoc]

theorem allSteps_of_forall (h : ∀ s e, good s e) {s : σ} {es : List ε} :
    AllSteps step good s es := by
  induction es generalizing s with
  | nil => trivial
  | cons e es ih => exact ⟨h s e, ih⟩

theorem AllSteps.of_prefix {s : σ} {es pre : List ε}
    (h : AllSteps step good s es) (hpre : pre <+: es) : AllSteps step good s pre := by
  obtain ⟨rest, rfl⟩ := hpre
  exact (AllSteps.append_iff.mp h).1

theorem throughout_cons {s : σ} {e : ε} {es : List ε} :
    Throughout step P s (e :: es) ↔ P s ∧ Throughout step P (step s e) es := by
  constructor
  · intro h
    refine ⟨h [] List.nil_prefix, fun pre hpre ↦ ?_⟩
    exact h (e :: pre) (List.cons_prefix_cons.mpr ⟨rfl, hpre⟩)
  · rintro ⟨hs, h⟩ pre hpre
    cases pre with
    | nil => exact hs
    | cons f pre =>
        obtain ⟨rfl, htail⟩ := List.cons_prefix_cons.mp hpre
        exact h pre htail

theorem exec_invariant_of_allSteps
    (hstep : ∀ s e, I s → good s e → I (step s e)) {s : σ} {es : List ε}
    (hs : I s) (hgood : AllSteps step good s es) : I (exec step s es) := by
  induction es generalizing s with
  | nil => exact hs
  | cons e es ih => exact ih (hstep s e hs hgood.1) hgood.2

theorem throughout_of_allSteps
    (hstep : ∀ s e, I s → good s e → I (step s e)) (hP : ∀ s, I s → P s)
    {s : σ} {es : List ε} (hs : I s) (hgood : AllSteps step good s es) :
    Throughout step P s es := fun _ hpre ↦
  hP _ (exec_invariant_of_allSteps hstep hs (hgood.of_prefix hpre))

theorem throughout_iff_allSteps
    (hstep : ∀ s e, I s → good s e → I (step s e)) (hP : ∀ s, I s → P s)
    (hexact : ∀ s e, I s → P (step s e) → good s e)
    {s : σ} {es : List ε} (hs : I s) :
    Throughout step P s es ↔ AllSteps step good s es := by
  refine ⟨fun h ↦ ?_, throughout_of_allSteps hstep hP hs⟩
  induction es generalizing s with
  | nil => trivial
  | cons e es ih =>
      have htail := (throughout_cons.mp h).2
      have hgood : good s e := hexact s e hs (htail [] List.nil_prefix)
      exact ⟨hgood, ih (hstep s e hs hgood) htail⟩

/-- Where a step ends in `P` exactly when it starts in `P` and is good, a run
ends in `P` exactly when it starts in `P` and all its steps are good. -/
theorem exec_iff_allSteps (hI : ∀ s e, I s → I (step s e))
    (hP : ∀ s e, I s → (P (step s e) ↔ P s ∧ good s e)) {s : σ} (hs : I s) (es : List ε) :
    P (exec step s es) ↔ P s ∧ AllSteps step good s es := by
  induction es generalizing s with
  | nil => simp [AllSteps]
  | cons e es ih => rw [exec_cons, ih (hI s e hs), hP s e hs, AllSteps, and_assoc]

end Conditions

section TwoRuns

variable {step : σ → ε → σ} {step' : τ → ζ → τ}

theorem exec_related {R : σ → τ → Prop} {E : ε → ζ → Prop}
    (hstep : ∀ s t e f, R s t → E e f → R (step s e) (step' t f))
    {es : List ε} {fs : List ζ} (hes : List.Forall₂ E es fs) {s : σ} {t : τ}
    (hst : R s t) : R (exec step s es) (exec step' t fs) := by
  induction hes generalizing s t with
  | nil => exact hst
  | cons hef _ ih => exact ih (hstep _ _ _ _ hst hef)

theorem emitted_related {step' : τ → ε → τ} {R : σ → τ → Prop}
    {emit : σ → ε → List ω} {emit' : τ → ε → List ω}
    (hstep : ∀ s t e, R s t → R (step s e) (step' t e))
    (hsame : ∀ s t e, R s t → emit s e = emit' t e)
    {s : σ} {t : τ} (hst : R s t) (es : List ε) :
    emitted step emit s es = emitted step' emit' t es := by
  induction es generalizing s t with
  | nil => rfl
  | cons e es ih => simp [emitted, hsame s t e hst, ih (hstep s t e hst)]

/-- Where the relation tells exactly which steps emit the same, and is kept by
these, two runs emit the same exactly when all their steps do. -/
theorem emitted_eq_iff_allSteps {step' : τ → ε → τ} {R : σ → τ → Prop}
    {emit : σ → ε → List ω} {emit' : τ → ε → List ω} {good : σ × τ → ε → Prop}
    (hstep : ∀ s t e, R s t → good (s, t) e → R (step s e) (step' t e))
    (hlen : ∀ s t e, (emit s e).length = (emit' t e).length)
    (hsame : ∀ s t e, R s t → (emit s e = emit' t e ↔ good (s, t) e))
    {s : σ} {t : τ} (hst : R s t) (es : List ε) :
    emitted step emit s es = emitted step' emit' t es ↔
      AllSteps (fun s e ↦ (step s.1 e, step' s.2 e)) good (s, t) es := by
  induction es generalizing s t with
  | nil => simp [emitted, AllSteps]
  | cons e es ih =>
      rw [emitted, emitted, AllSteps]
      constructor
      · intro heq
        obtain ⟨hnow, hlater⟩ := List.append_inj heq (hlen s t e)
        have hgood := (hsame s t e hst).mp hnow
        exact ⟨hgood, (ih (hstep s t e hst hgood)).mp hlater⟩
      · rintro ⟨hgood, hlater⟩
        rw [(hsame s t e hst).mpr hgood, (ih (hstep s t e hst hgood)).mpr hlater]

/-- Deleting events that do not concern the relation keeps it. -/
theorem exec_filter_related {step' : τ → ε → τ} {R : σ → τ → Prop} {keep : ε → Bool}
    (hkeep : ∀ s t e, keep e = true → R s t → R (step s e) (step' t e))
    (hdrop : ∀ s t e, keep e = false → R s t → R (step s e) t)
    {s : σ} {t : τ} (hst : R s t) (es : List ε) :
    R (exec step s es) (exec step' t (es.filter keep)) := by
  induction es generalizing s t with
  | nil => exact hst
  | cons e es ih =>
      cases he : keep e with
      | true => simpa [he] using ih (hkeep s t e he hst)
      | false => simpa [he] using ih (hdrop s t e he hst)

theorem emitted_filter_related {step' : τ → ε → τ} {R : σ → τ → Prop} {keep : ε → Bool}
    {emit : σ → ε → List ω} {emit' : τ → ε → List ω} {see : ω → Bool}
    (hkeep : ∀ s t e, keep e = true → R s t → R (step s e) (step' t e))
    (hdrop : ∀ s t e, keep e = false → R s t → R (step s e) t)
    (hsame : ∀ s t e, keep e = true → R s t → (emit s e).filter see = emit' t e)
    (hnone : ∀ s t e, keep e = false → R s t → (emit s e).filter see = [])
    {s : σ} {t : τ} (hst : R s t) (es : List ε) :
    (emitted step emit s es).filter see = emitted step' emit' t (es.filter keep) := by
  induction es generalizing s t with
  | nil => rfl
  | cons e es ih =>
      cases he : keep e with
      | true =>
          simp [emitted, he, hsame s t e he hst, ih (hkeep s t e he hst)]
      | false =>
          simp [emitted, he, hnone s t e he hst, ih (hdrop s t e he hst)]

end TwoRuns

end NestQueueExample.Runs
