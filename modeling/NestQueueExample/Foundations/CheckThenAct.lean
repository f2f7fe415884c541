import Mathlib.Data.List.Induction
import NestQueueExample.Foundations.Runs

/-!
# Calls that check and then act

A call reads a shared store, waits, and then acts on the store with what it has
read. Between the two other calls may act and the environment may change the
store, so what was read need not hold any more. What such changes do keep, a
call may still rely on when it acts.
-/

namespace NestQueueExample.CheckThenAct

open Runs

/-- What a call with an input reads and does, where a choice settles what is
left open, and what the environment does to the store. -/
structure Protocol (σ ι κ χ ο ε : Type*) where
  check : σ → ι → κ
  act : σ → ι → κ → χ → σ × ο
  disturb : σ → ε → σ

inductive Event (ι χ ε : Type*) where
  | check (input : ι)
  | act (call : ℕ) (choice : χ)
  | disturb (event : ε)

structure Finished (ι κ ο : Type*) where
  input : ι
  seen : κ
  outcome : ο

/-- The store, the calls that have read and not yet acted, and those that have
acted, each with what it has read. -/
structure State (σ ι κ ο : Type*) where
  store : σ
  pending : List (ι × κ) := []
  finished : List (Finished ι κ ο) := []

namespace Protocol

variable {σ ι κ χ ο ε : Type*} (P : Protocol σ ι κ χ ο ε)

def step (s : State σ ι κ ο) : Event ι χ ε → State σ ι κ ο
  | .check input => { s with pending := s.pending ++ [(input, P.check s.store input)] }
  | .act call choice =>
      match s.pending[call]? with
      | none => s
      | some (input, seen) =>
          let acted := P.act s.store input seen choice
          ⟨acted.1, s.pending.eraseIdx call, s.finished ++ [⟨input, seen, acted.2⟩]⟩
  | .disturb event => { s with store := P.disturb s.store event }

variable {P} {s : State σ ι κ ο}

theorem step_act_none {call : ℕ} (h : s.pending[call]? = none) (choice : χ) :
    P.step s (.act call choice) = s := by
  simp only [step, h]

theorem step_act_some {call : ℕ} {input : ι} {seen : κ}
    (h : s.pending[call]? = some (input, seen)) (choice : χ) :
    P.step s (.act call choice) =
      ⟨(P.act s.store input seen choice).1, s.pending.eraseIdx call,
        s.finished ++ [⟨input, seen, (P.act s.store input seen choice).2⟩]⟩ := by
  simp only [step, h]

/-- The changes of the environment in a run are allowed where they happen. -/
def Allowed (allowed : σ → ε → Prop) (s : State σ ι κ ο) : Event ι χ ε → Prop
  | .disturb event => allowed s.store event
  | _ => True

/-! ## What pending calls rely on -/

/-- A fact that holds of a call when it reads and that neither another call nor
an allowed change of the environment takes away. -/
structure Keeps (P : Protocol σ ι κ χ ο ε) (allowed : σ → ε → Prop) (K : σ → ι → κ → Prop) :
    Prop where
  checked : ∀ store input, K store input (P.check store input)
  acted : ∀ store input seen other otherSeen choice, K store input seen →
    K store other otherSeen → K (P.act store other otherSeen choice).1 input seen
  disturbed : ∀ store input seen event, K store input seen → allowed store event →
    K (P.disturb store event) input seen

def Pending (K : σ → ι → κ → Prop) (s : State σ ι κ ο) : Prop :=
  ∀ call ∈ s.pending, K s.store call.1 call.2

variable {allowed : σ → ε → Prop}

theorem Pending.step {K : σ → ι → κ → Prop} (hK : P.Keeps allowed K) (h : Pending K s)
    {e : Event ι χ ε} (he : Allowed allowed s e) : Pending K (P.step s e) := by
  cases e with
  | check input =>
      intro call hcall
      rcases List.mem_append.mp hcall with hold | hnew
      · exact h call hold
      · rw [List.mem_singleton] at hnew
        subst hnew
        exact hK.checked s.store input
  | act call choice =>
      cases hget : s.pending[call]? with
      | none => rwa [step_act_none hget]
      | some acting =>
          have hacting := h acting (List.mem_of_getElem? hget)
          rw [step_act_some hget]
          intro other hother
          exact hK.acted _ _ _ _ _ _ (h other (List.mem_of_mem_eraseIdx hother)) hacting
  | disturb event => exact fun call hcall ↦ hK.disturbed _ _ _ _ (h call hcall) he

theorem pending_exec {K : σ → ι → κ → Prop} (hK : P.Keeps allowed K) {es : List (Event ι χ ε)}
    (hes : AllSteps P.step (Allowed allowed) s es) (h : Pending K s) :
    Pending K (exec P.step s es) :=
  exec_invariant_of_allSteps (fun _ _ hs he ↦ hs.step hK he) h hes

/-! ## What happens to the store -/

theorem store_step {I : σ → Prop}
    (hact : ∀ store input seen choice, I store → I (P.act store input seen choice).1)
    (hdisturb : ∀ store event, I store → allowed store event → I (P.disturb store event))
    (h : I s.store) {e : Event ι χ ε} (he : Allowed allowed s e) : I (P.step s e).store := by
  cases e with
  | check input => exact h
  | act call choice =>
      cases hget : s.pending[call]? with
      | none => rwa [step_act_none hget]
      | some acting =>
          rw [step_act_some hget]
          exact hact _ _ _ _ h
  | disturb event => exact hdisturb _ _ h he

theorem store_exec {I : σ → Prop}
    (hact : ∀ store input seen choice, I store → I (P.act store input seen choice).1)
    (hdisturb : ∀ store event, I store → allowed store event → I (P.disturb store event))
    {es : List (Event ι χ ε)} (hes : AllSteps P.step (Allowed allowed) s es) (h : I s.store) :
    I (exec P.step s es).store :=
  exec_invariant_of_allSteps (I := fun s ↦ I s.store)
    (fun _ _ hs he ↦ store_step hact hdisturb hs he) h hes

/-! ## The two moments of a call -/

variable {store : σ} {es : List (Event ι χ ε)}

theorem exists_of_mem_pending {input : ι} {seen : κ}
    (h : (input, seen) ∈ (exec P.step ⟨store, [], []⟩ es).pending) :
    ∃ before after, es = before ++ .check input :: after ∧
      seen = P.check (exec P.step ⟨store, [], []⟩ before).store input := by
  induction es using List.reverseRecOn with
  | nil => simp at h
  | append_singleton es e ih =>
      rw [exec_append, exec_cons, exec_nil] at h
      have hlater : (input, seen) ∈ (exec P.step ⟨store, [], []⟩ es).pending →
          ∃ before after, es ++ [e] = before ++ .check input :: after ∧
            seen = P.check (exec P.step ⟨store, [], []⟩ before).store input := by
        intro hold
        obtain ⟨before, after, rfl, hseen⟩ := ih hold
        exact ⟨before, after ++ [e], by simp, hseen⟩
      cases e with
      | check other =>
          rcases List.mem_append.mp h with hold | hnew
          · exact hlater hold
          · obtain ⟨rfl, rfl⟩ := Prod.mk.inj (List.mem_singleton.mp hnew)
            exact ⟨es, [], rfl, rfl⟩
      | act call choice =>
          cases hget : (exec P.step ⟨store, [], []⟩ es).pending[call]? with
          | none =>
              rw [step_act_none hget] at h
              exact hlater h
          | some acting =>
              rw [step_act_some hget] at h
              exact hlater (List.mem_of_mem_eraseIdx h)
      | disturb event => exact hlater h

/-- The call has read after the events `before`, and its action is the event
after `between` that follows. -/
structure ActsAfter (P : Protocol σ ι κ χ ο ε) (store : σ) (es : List (Event ι χ ε))
    (call : Finished ι κ ο) (before between : List (Event ι χ ε)) (choice : χ) : Prop where
  run : ∃ index after,
    es = before ++ .check call.input :: between ++ .act index choice :: after ∧
      (exec P.step ⟨store, [], []⟩
          (before ++ .check call.input :: between ++ [.act index choice])).store =
        (P.act (exec P.step ⟨store, [], []⟩ (before ++ .check call.input :: between)).store
          call.input call.seen choice).1
  seen : call.seen = P.check (exec P.step ⟨store, [], []⟩ before).store call.input
  pending : (call.input, call.seen) ∈
    (exec P.step ⟨store, [], []⟩ (before ++ .check call.input :: between)).pending
  outcome : call.outcome =
    (P.act (exec P.step ⟨store, [], []⟩ (before ++ .check call.input :: between)).store
      call.input call.seen choice).2

/-- Every finished call has read the store at one moment of the run and acted on
it at a later one. -/
theorem exists_of_mem_finished {call : Finished ι κ ο}
    (h : call ∈ (exec P.step ⟨store, [], []⟩ es).finished) :
    ∃ before between choice, ActsAfter P store es call before between choice := by
  induction es using List.reverseRecOn with
  | nil => simp at h
  | append_singleton es e ih =>
      rw [exec_append, exec_cons, exec_nil] at h
      have hlater : call ∈ (exec P.step ⟨store, [], []⟩ es).finished →
          ∃ before between choice, ActsAfter P store (es ++ [e]) call before between choice := by
        intro hold
        obtain ⟨before, between, choice, ⟨index, after, rfl, hstore⟩, hseen, hpending, houtcome⟩ :=
          ih hold
        exact ⟨before, between, choice, ⟨index, after ++ [e], by simp, hstore⟩, hseen, hpending,
          houtcome⟩
      cases e with
      | check other => exact hlater h
      | disturb event => exact hlater h
      | act index choice =>
          cases hget : (exec P.step ⟨store, [], []⟩ es).pending[index]? with
          | none =>
              rw [step_act_none hget] at h
              exact hlater h
          | some acting =>
              rw [step_act_some hget] at h
              rcases List.mem_append.mp h with hold | hnew
              · exact hlater hold
              · obtain rfl := List.mem_singleton.mp hnew
                have hpending := List.mem_of_getElem? hget
                obtain ⟨before, between, rfl, hseen⟩ := exists_of_mem_pending hpending
                refine ⟨before, between, choice, ⟨index, [], rfl, ?_⟩, hseen, hpending, rfl⟩
                rw [exec_append, exec_cons, exec_nil, step_act_some hget]

end Protocol

end NestQueueExample.CheckThenAct
