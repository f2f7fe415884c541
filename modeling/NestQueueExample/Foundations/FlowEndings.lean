import Mathlib.Algebra.Group.Action.Defs
import Mathlib.Algebra.GroupWithZero.Nat
import Mathlib.Algebra.Order.BigOperators.Group.List
import Mathlib.Algebra.Order.Group.Nat
import NestQueueExample.Foundations.JobFlows

/-!
# How flows of dependent jobs end

The status a job is left in once nothing can move is read off its tree alone,
whatever the workers did in between, as long as no job is told both to fail its
parent and to be ignored by it. The attempts a job has made are counted along
every run, and a measure bounds the steps that are left when no execution is
lost.
-/

namespace NestQueueExample.JobFlows

open Runs

variable {δ : Type*}

/-! ## The end of a tree -/

namespace FlowJob

mutual

def ending (w : Workers δ) : FlowJob δ → Status
  | ⟨name, queueName, data, opts, children⟩ =>
      if anyFailsParent w children then .failedByChild
      else if allSettle w children then
        if w.throws ⟨name, queueName, data, opts, children⟩ then .failed else .completed
      else .waitingChildren

def anyFailsParent (w : Workers δ) : List (FlowJob δ) → Bool
  | [] => false
  | child :: children =>
      (child.ending w).isFailed && child.opts.failParentOnFailure || anyFailsParent w children

def allSettle (w : Workers δ) : List (FlowJob δ) → Bool
  | [] => true
  | child :: children => child.settles (child.ending w) && allSettle w children

end

theorem ending_eq (w : Workers δ) (job : FlowJob δ) :
    job.ending w =
      if anyFailsParent w job.children then .failedByChild
      else if allSettle w job.children then if w.throws job then .failed else .completed
      else .waitingChildren := by
  obtain ⟨name, queueName, data, opts, children⟩ := job
  rw [ending]

theorem ending_leaf (w : Workers δ) {job : FlowJob δ} (hleaf : job.children = []) :
    job.ending w = if w.throws job then .failed else .completed := by
  simp [ending_eq, hleaf, anyFailsParent, allSettle]

theorem anyFailsParent_iff {w : Workers δ} {children : List (FlowJob δ)} :
    anyFailsParent w children = true ↔ ∃ child ∈ children,
      (child.ending w).isFailed = true ∧ child.opts.failParentOnFailure = true := by
  induction children with
  | nil => simp [anyFailsParent]
  | cons child children ih => simp [anyFailsParent, ih]

theorem allSettle_iff {w : Workers δ} {children : List (FlowJob δ)} :
    allSettle w children = true ↔ ∀ child ∈ children,
      child.settles (child.ending w) = true := by
  induction children with
  | nil => simp [allSettle]
  | cons child children ih => simp [allSettle, ih]

/-- Below the job, no child is told both to fail its parent and to be ignored
by it. -/
inductive Consistent : FlowJob δ → Prop
  | intro {job : FlowJob δ}
      (hopts : ∀ child ∈ job.children, child.opts.failParentOnFailure = true →
        child.opts.ignoreDependencyOnFailure = false)
      (hchildren : ∀ child ∈ job.children, Consistent child) : Consistent job

mutual

theorem consistent_of_places : ∀ root : FlowJob δ,
    (∀ path job, root.sub? path = some job → job.opts.failParentOnFailure = true →
      job.opts.ignoreDependencyOnFailure = false) → root.Consistent
  | ⟨name, queueName, data, opts, children⟩, h => by
      refine .intro ?_ (consistent_of_children children ?_)
      · intro child hmem
        obtain ⟨i, hchild⟩ := List.mem_iff_getElem?.mp hmem
        exact h [i] child (by simp [sub?, hchild])
      · intro i child path job hchild hsub
        exact h (i :: path) job (by simp [sub?, hchild, hsub])

theorem consistent_of_children : ∀ children : List (FlowJob δ),
    (∀ (i : ℕ) (child : FlowJob δ) path job, children[i]? = some child →
      child.sub? path = some job → job.opts.failParentOnFailure = true →
        job.opts.ignoreDependencyOnFailure = false) →
    ∀ child ∈ children, child.Consistent
  | [], _ => by simp
  | child :: children, h => by
      have hfirst : child.Consistent :=
        consistent_of_places child fun path job hsub ↦ h 0 child path job rfl hsub
      have hrest := consistent_of_children children fun i other path job hother hsub ↦
        h (i + 1) other path job (by simpa using hother) hsub
      simpa [hfirst] using hrest

end

end FlowJob

namespace JobQueues

variable {w : Workers δ} {s : JobQueues δ} {r : JobRef} {job : FlowJob δ}

theorem Halted.status_of_failed (h : Halted w s) (hnode : s.node? r = some job) {i : ℕ}
    {child : FlowJob δ} (hchild : job.children[i]? = some child)
    (hfailed : (s.status (r.child i)).isFailed = true)
    (hopts : child.opts.failParentOnFailure = true) : s.status r ≠ .waitingChildren := by
  intro hstatus
  have hsame := h r (.failParent i)
  have hact : s.act w r job (.failParent i) = s.setStatus r .failedByChild := by
    simp [act, hchild, hstatus, hfailed, hopts]
  simp only [step, hnode, hact] at hsame
  have hkept := (moved_setStatus (s := s) (r := r) .failedByChild).status_self
  rw [hsame, hstatus] at hkept
  exact absurd hkept (by decide)

theorem halted_of_terminal
    (h : ∀ r job, s.node? r = some job → (s.status r).isTerminal = true) : Halted w s := by
  intro r action
  simp only [step]
  cases hnode : s.node? r with
  | none => rfl
  | some job =>
      rcases act_cases w s r job action with hsame | ⟨status, log, hmove, -⟩
      · exact hsame
      · have hopen := hmove.not_terminal
        rw [h r job hnode] at hopen
        exact absurd hopen (by decide)

theorem status_of_unsettled (hvalid : Valid w s) (hnode : s.node? r = some job)
    (hunsettled : ¬ s.childrenSettled r job = true) :
    s.status r = .waitingChildren ∨ s.status r = .failedByChild := by
  have hgated := (hvalid.jobs r job hnode).gated
  cases hstatus : s.status r with
  | waitingChildren => exact Or.inl rfl
  | failedByChild => exact Or.inr rfl
  | waiting => exact absurd (hgated (Or.inl (Or.inl hstatus))) hunsettled
  | delayed => exact absurd (hgated (Or.inl (Or.inr (Or.inl hstatus)))) hunsettled
  | active => exact absurd (hgated (Or.inl (Or.inr (Or.inr hstatus)))) hunsettled
  | completed => exact absurd (hgated (Or.inr (Or.inl hstatus))) hunsettled
  | failed => exact absurd (hgated (Or.inr (Or.inr hstatus))) hunsettled

/-- Once nothing can move, a job is where its tree says it ends. -/
theorem status_eq_ending (h : job.Consistent) (hvalid : Valid w s) (hhalted : Halted w s)
    (hnode : s.node? r = some job) : s.status r = job.ending w := by
  induction h generalizing r with
  | @intro job hopts _ ih =>
      have hends : ∀ (i : ℕ) (child : FlowJob δ), job.children[i]? = some child →
          s.status (r.child i) = child.ending w := fun i child hchild ↦
        ih child (List.mem_of_getElem? hchild) (by rw [node?_child hnode, hchild])
      have hsettled : s.childrenSettled r job = true ↔ FlowJob.allSettle w job.children = true := by
        rw [childrenSettled_iff, FlowJob.allSettle_iff]
        constructor
        · intro hall child hmem
          obtain ⟨i, hchild⟩ := List.mem_iff_getElem?.mp hmem
          rw [← hends i child hchild]
          exact hall i child hchild
        · intro hall i child hchild
          rw [hends i child hchild]
          exact hall child (List.mem_of_getElem? hchild)
      rw [FlowJob.ending_eq]
      split
      · next hany =>
          obtain ⟨child, hmem, hfailed, hparent⟩ := FlowJob.anyFailsParent_iff.mp hany
          obtain ⟨i, hchild⟩ := List.mem_iff_getElem?.mp hmem
          have hunsettled : ¬ s.childrenSettled r job = true := by
            intro hall
            have hsettles := childrenSettled_iff.mp hall i child hchild
            rw [hends i child hchild] at hsettles
            rcases Bool.or_eq_true_iff.mp hsettles with hcompleted | hignored
            · rw [of_decide_eq_true hcompleted] at hfailed
              exact absurd hfailed (by decide)
            · rw [hopts child hmem hparent] at hignored
              simp at hignored
          rcases status_of_unsettled hvalid hnode hunsettled with hwaiting | hfailedByChild
          · rw [← hends i child hchild] at hfailed
            exact absurd hwaiting (hhalted.status_of_failed hnode hchild hfailed hparent)
          · exact hfailedByChild
      · next hnone =>
          have hnotByChild : s.status r ≠ .failedByChild := by
            intro hstatus
            obtain ⟨i, child, hchild, hparent, hfailed⟩ :=
              (hvalid.jobs r job hnode).failedByChild hstatus
            rw [hends i child hchild] at hfailed
            exact hnone (FlowJob.anyFailsParent_iff.mpr
              ⟨child, List.mem_of_getElem? hchild, hfailed, hparent⟩)
          split
          · next hall =>
              have hterminal := hhalted.status_of_settled hnode (hsettled.mpr hall)
              cases hstatus : s.status r with
              | completed => simp [(hvalid.jobs r job hnode).completed hstatus]
              | failed => simp [(hvalid.jobs r job hnode).failed hstatus]
              | failedByChild => exact absurd hstatus hnotByChild
              | _ => simp [hstatus, Status.isTerminal] at hterminal
          · next hsome =>
              have hunsettled : ¬ s.childrenSettled r job = true := fun h ↦ hsome (hsettled.mp h)
              rcases status_of_unsettled hvalid hnode hunsettled with hwaiting | hfailedByChild
              · exact hwaiting
              · exact absurd hfailedByChild hnotByChild

end JobQueues

/-! ## Attempts -/

/-- The attempts a job makes if it runs to its own end. -/
def Workers.limit (w : Workers δ) (job : FlowJob δ) : ℕ :=
  if w.throws job then max 1 (job.opts.attempts.getD w.defaultAttempts) else 1

def Workers.Tally (w : Workers δ) (job : FlowJob δ) (state : JobState) : Prop :=
  match state.status with
  | .waitingChildren | .failedByChild => state.attemptsMade = 0
  | .waiting | .delayed | .active => state.attemptsMade < w.limit job
  | .completed | .failed => state.attemptsMade = w.limit job

theorem Workers.limit_pos (w : Workers δ) (job : FlowJob δ) : 0 < w.limit job := by
  rw [limit]
  split <;> omega

theorem Workers.tally_added (w : Workers δ) (job : FlowJob δ) : w.Tally job job.added := by
  rw [FlowJob.added]
  split
  · exact w.limit_pos job
  · exact rfl

theorem Workers.tally_outcome {w : Workers δ} {job : FlowJob δ} {state : JobState}
    (hactive : state.status = .active) (h : w.Tally job state) :
    w.Tally job (w.outcome job state) := by
  have hlt : state.attemptsMade < w.limit job := by simpa [Tally, hactive] using h
  rw [limit] at hlt
  simp only [outcome]
  split
  · next hthrows =>
      rw [if_pos hthrows] at hlt
      split
      · simp only [Tally, limit, if_pos hthrows]
        omega
      · simp only [Tally, limit, if_pos hthrows]
        omega
  · next hreturns =>
      rw [if_neg hreturns] at hlt
      simp only [Tally, limit, if_neg hreturns]
      omega

namespace JobQueues

variable {w : Workers δ} {s : JobQueues δ} {r : JobRef} {job : FlowJob δ}

@[simp] theorem jobs_setStatus (status : Status) :
    (s.setStatus r status).jobs = Function.update s.jobs r { s.jobs r with status } := rfl

theorem jobs_act_other (w : Workers δ) (s : JobQueues δ) (job : FlowJob δ) (action : JobAction)
    {q : JobRef} (hq : q ≠ r) : (s.act w r job action).jobs q = s.jobs q := by
  cases action <;> simp only [act] <;> repeat' split
  all_goals simp [put, hq]

theorem tally_act (h : w.Tally job (s.jobs r)) (action : JobAction) :
    w.Tally job ((s.act w r job action).jobs r) := by
  have hstatus : s.status r = (s.jobs r).status := rfl
  cases action with
  | release =>
      simp only [act]
      split
      · next hold =>
          have hmade : (s.jobs r).attemptsMade = 0 := by
            simpa [Workers.Tally, hstatus ▸ hold.1] using h
          simpa [Workers.Tally, hmade] using w.limit_pos job
      · exact h
  | start =>
      simp only [act]
      split
      · next hold => simpa [Workers.Tally, hstatus ▸ hold] using h
      · exact h
  | run now reported =>
      simp only [act]
      split
      · next hold =>
          cases reported with
          | false => exact h
          | true => simpa [put] using Workers.tally_outcome hold h
      · exact h
  | stall =>
      simp only [act]
      split
      · next hold => simpa [Workers.Tally, hstatus ▸ hold] using h
      · exact h
  | retry =>
      simp only [act]
      split
      · next hold => simpa [Workers.Tally, hstatus ▸ hold] using h
      · exact h
  | failParent i =>
      simp only [act]
      split
      · split
        · next hold => simpa [Workers.Tally, hstatus ▸ hold.1] using h
        · exact h
      · exact h

def Tallied (w : Workers δ) (s : JobQueues δ) : Prop :=
  ∀ r job, s.node? r = some job → w.Tally job (s.jobs r)

theorem tallied_step (h : Tallied w s) (e : FlowEvent δ) : Tallied w (s.step w e) := by
  cases e with
  | launch trees =>
      intro r job hnode
      rcases Nat.lt_or_ge r.flow s.flows.length with hlt | hge
      · have hold : s.node? r = some job := by
          simpa [step, launch, node?, List.getElem?_append_left hlt] using hnode
        simpa [step, launch, hlt] using h r job hold
      · have hnode' : ({ s with flows := s.flows ++ trees } : JobQueues δ).node? r = some job :=
          hnode
        simpa [step, launch, Nat.not_lt.mpr hge, hnode'] using w.tally_added job
  | job r action =>
      intro q other hq
      have hflows := flows_job w s r action
      have hold : s.node? q = some other := by simpa [node?, hflows] using hq
      simp only [step]
      cases hnode : s.node? r with
      | none => exact h q other hold
      | some job =>
          by_cases hqr : q = r
          · subst hqr
            obtain rfl := Option.some.inj (hnode.symm.trans hold)
            exact tally_act (h q job hnode) action
          · simpa only [jobs_act_other w s job action hqr] using h q other hold

theorem tallied_exec (w : Workers δ) (es : List (FlowEvent δ)) :
    Tallied w (exec (step w) {} es) :=
  exec_invariant (I := Tallied w) (step w) (fun _ e h ↦ tallied_step h e)
    (fun r job hnode ↦ by simp [node?] at hnode) es

end JobQueues

/-! ## The work that is left -/

namespace FlowJob

mutual

def places : FlowJob δ → List ℕ → List (List ℕ × FlowJob δ)
  | ⟨name, queueName, data, opts, children⟩, place =>
      (place, ⟨name, queueName, data, opts, children⟩) :: placesFrom children place 0

def placesFrom : List (FlowJob δ) → List ℕ → ℕ → List (List ℕ × FlowJob δ)
  | [], _, _ => []
  | child :: children, place, i =>
      child.places (place ++ [i]) ++ placesFrom children place (i + 1)

end

mutual

theorem mem_places_iff {path : List ℕ} {job : FlowJob δ} : ∀ (root : FlowJob δ) (place : List ℕ),
    (path, job) ∈ root.places place ↔ ∃ rest, path = place ++ rest ∧ root.sub? rest = some job
  | ⟨name, queueName, data, opts, children⟩, place => by
      rw [places, List.mem_cons, mem_placesFrom_iff children place 0]
      constructor
      · rintro (hroot | ⟨i, child, rest, hpath, hchild, hrest⟩)
        · obtain ⟨rfl, rfl⟩ := Prod.mk.inj hroot
          exact ⟨[], (List.append_nil _).symm, rfl⟩
        · exact ⟨i :: rest, by simpa using hpath, by simp [sub?, hchild, hrest]⟩
      · rintro ⟨rest, rfl, hrest⟩
        cases rest with
        | nil =>
            obtain rfl := Option.some.inj hrest
            exact Or.inl (by rw [List.append_nil])
        | cons i rest =>
            obtain ⟨child, hchild, hsub⟩ := Option.bind_eq_some_iff.mp hrest
            exact Or.inr ⟨i, child, rest, by simp, hchild, hsub⟩

theorem mem_placesFrom_iff {path : List ℕ} {job : FlowJob δ} :
    ∀ (children : List (FlowJob δ)) (place : List ℕ) (k : ℕ),
      (path, job) ∈ placesFrom children place k ↔ ∃ (i : ℕ) (child : FlowJob δ) (rest : List ℕ),
        path = place ++ (k + i) :: rest ∧ children[i]? = some child ∧ child.sub? rest = some job
  | [], place, k => by simp [placesFrom]
  | child :: children, place, k => by
      rw [placesFrom, List.mem_append, mem_places_iff child, mem_placesFrom_iff children]
      constructor
      · rintro (⟨rest, rfl, hrest⟩ | ⟨i, other, rest, rfl, hother, hrest⟩)
        · exact ⟨0, child, rest, by simp, rfl, hrest⟩
        · refine ⟨i + 1, other, rest, ?_, by simpa using hother, hrest⟩
          rw [Nat.add_right_comm, Nat.add_assoc]
      · rintro ⟨i, other, rest, rfl, hother, hrest⟩
        cases i with
        | zero =>
            obtain rfl := Option.some.inj hother
            exact Or.inl ⟨rest, by simp, hrest⟩
        | succ i =>
            refine Or.inr ⟨i, other, rest, ?_, by simpa using hother, hrest⟩
            rw [Nat.add_right_comm, Nat.add_assoc]

end

end FlowJob

/-- A bound on the steps a job still takes when none of its executions is lost. -/
def Workers.work (w : Workers δ) (job : FlowJob δ) (state : JobState) : ℕ :=
  match state.status with
  | .waitingChildren => 3 * w.limit job + 1
  | .waiting => 3 * (w.limit job - state.attemptsMade)
  | .active => 3 * (w.limit job - state.attemptsMade) - 1
  | .delayed => 3 * (w.limit job - state.attemptsMade) + 1
  | .completed | .failed | .failedByChild => 0

/-- The steps of workers that lose no execution. -/
def JobAction.keeps : JobAction → Bool
  | .stall => false
  | .run _ reported => reported
  | _ => true

theorem Workers.work_outcome_lt {w : Workers δ} {job : FlowJob δ} {state : JobState}
    (hactive : state.status = .active) (h : w.Tally job state) :
    w.work job (w.outcome job state) < w.work job state := by
  have hlt : state.attemptsMade < w.limit job := by simpa [Tally, hactive] using h
  have hwork : w.work job state = 3 * (w.limit job - state.attemptsMade) - 1 := by
    simp [work, hactive]
  rw [hwork]
  simp only [outcome]
  split
  · split
    · simp only [work]
      omega
    · simp only [work]
      omega
  · simp only [work]
    omega

namespace JobQueues

variable {w : Workers δ} {s : JobQueues δ} {r : JobRef} {job : FlowJob δ}

theorem work_act_lt (h : w.Tally job (s.jobs r)) {action : JobAction} (hkeeps : action.keeps = true)
    (hchange : s.act w r job action ≠ s) :
    w.work job ((s.act w r job action).jobs r) < w.work job (s.jobs r) := by
  have hstatus : s.status r = (s.jobs r).status := rfl
  cases action with
  | release =>
      simp only [act] at hchange ⊢
      split at hchange
      · next hold =>
          rw [if_pos hold]
          simp only [Workers.work, ← hstatus, hold.1, jobs_setStatus, Function.update_self]
          omega
      · exact absurd rfl hchange
  | start =>
      simp only [act] at hchange ⊢
      split at hchange
      · next hold =>
          have hlt : (s.jobs r).attemptsMade < w.limit job := by
            simpa [Workers.Tally, hstatus ▸ hold] using h
          rw [if_pos hold]
          simp only [Workers.work, ← hstatus, hold, jobs_setStatus, Function.update_self]
          omega
      · exact absurd rfl hchange
  | run now reported =>
      obtain rfl : reported = true := hkeeps
      simp only [act] at hchange ⊢
      split at hchange
      · next hold =>
          rw [if_pos hold]
          simpa [put] using Workers.work_outcome_lt hold h
      · exact absurd rfl hchange
  | stall => exact absurd hkeeps (by decide)
  | retry =>
      simp only [act] at hchange ⊢
      split at hchange
      · next hold =>
          rw [if_pos hold]
          simp only [Workers.work, ← hstatus, hold, jobs_setStatus, Function.update_self]
          omega
      · exact absurd rfl hchange
  | failParent i =>
      simp only [act] at hchange ⊢
      split at hchange
      · next child hchild =>
          split at hchange
          · next hold =>
              rw [if_pos hold]
              simp only [Workers.work, ← hstatus, hold.1, jobs_setStatus, Function.update_self]
              omega
          · exact absurd rfl hchange
      · exact absurd rfl hchange

def nodes (s : JobQueues δ) : List (JobRef × FlowJob δ) :=
  s.flows.zipIdx.flatMap fun tree ↦
    (tree.1.places []).map fun node ↦ (⟨tree.2, node.1⟩, node.2)

theorem mem_nodes_iff : (r, job) ∈ s.nodes ↔ s.node? r = some job := by
  obtain ⟨flow, path⟩ := r
  simp only [nodes, List.mem_flatMap, Prod.exists, List.mem_zipIdx_iff_getElem?, List.mem_map,
    Prod.mk.injEq, JobRef.mk.injEq, node?, Option.bind_eq_some_iff]
  constructor
  · rintro ⟨tree, k, htree, place, other, hmem, ⟨rfl, rfl⟩, rfl⟩
    obtain ⟨rest, rfl, hsub⟩ := (FlowJob.mem_places_iff tree []).mp hmem
    exact ⟨tree, htree, hsub⟩
  · rintro ⟨tree, htree, hsub⟩
    exact ⟨tree, flow, htree, path, job, (FlowJob.mem_places_iff tree []).mpr ⟨path, rfl, hsub⟩,
      ⟨rfl, rfl⟩, rfl⟩

def work (w : Workers δ) (s : JobQueues δ) : ℕ :=
  (s.nodes.map fun node ↦ w.work node.2 (s.jobs node.1)).sum

theorem work_le {bound : ℕ}
    (h : ∀ tree ∈ s.flows, ((tree.places []).map fun node ↦ 3 * w.limit node.2 + 1).sum ≤ bound) :
    s.work w ≤ s.flows.length * bound := by
  have hjob : ∀ (job : FlowJob δ) (state : JobState), w.work job state ≤ 3 * w.limit job + 1 := by
    intro job state
    rw [Workers.work]
    split <;> omega
  rw [work, nodes, List.map_flatMap, List.flatMap_def, List.sum_flatten, List.map_map]
  refine (List.sum_le_card_nsmul _ bound ?_).trans (by simp)
  simp only [List.mem_map, Prod.exists, Function.comp_apply, List.map_map]
  rintro _ ⟨tree, k, hmem, rfl⟩
  apply (List.sum_le_sum fun node _ ↦ hjob node.2 _).trans
  exact h tree (List.mem_of_getElem? (List.mem_zipIdx_iff_getElem?.mp hmem))

abbrev Move := JobRef × JobAction

def move (w : Workers δ) (s : JobQueues δ) (m : Move) : JobQueues δ := s.step w (.job m.1 m.2)

theorem work_move_lt (h : Tallied w s) {m : Move} (hkeeps : m.2.keeps = true)
    (hchange : s.move w m ≠ s) : (s.move w m).work w < s.work w := by
  obtain ⟨r, action⟩ := m
  have hnodes : (s.move w (r, action)).nodes = s.nodes := by
    simp only [nodes, move, flows_job]
  simp only [move, step] at hchange hnodes ⊢
  cases hnode : s.node? r with
  | none => simp [hnode] at hchange
  | some job =>
      simp only [hnode] at hchange hnodes ⊢
      have hself := work_act_lt (h r job hnode) hkeeps hchange
      rw [work, work, hnodes]
      apply List.sum_lt_sum
      · rintro ⟨q, other⟩ hmem
        by_cases hqr : q = r
        · subst hqr
          obtain rfl := Option.some.inj (hnode.symm.trans (mem_nodes_iff.mp hmem))
          exact hself.le
        · simp only [jobs_act_other w s job action hqr, le_refl]
      · exact ⟨(r, job), mem_nodes_iff.mpr hnode, hself⟩

/-- When something can move, so can a step that loses no execution. -/
theorem exists_keeps (h : ¬ Halted w s) : ∃ m : Move, m.2.keeps = true ∧ s.move w m ≠ s := by
  simp only [Halted, not_forall] at h
  obtain ⟨r, action, hchange⟩ := h
  by_cases hkeeps : action.keeps = true
  · exact ⟨(r, action), hkeeps, hchange⟩
  · refine ⟨(r, .run 0 true), rfl, ?_⟩
    simp only [move, step] at hchange ⊢
    cases hnode : s.node? r with
    | none => simp [hnode] at hchange
    | some job =>
        simp only [hnode] at hchange ⊢
        have hactive : s.status r = .active := by
          cases action with
          | stall => exact of_not_not fun hother ↦ hchange (by simp [act, hother])
          | run now reported => exact of_not_not fun hother ↦ hchange (by simp [act, hother])
          | _ => exact absurd rfl hkeeps
        intro hsame
        have hlog := congrArg (fun t ↦ t.log.length) hsame
        simp [act, hactive, put] at hlog

/-- Any state is brought to its end, within the work that is left. -/
theorem exists_halted (h : Tallied w s) : ∃ ms : List Move,
    (∀ m ∈ ms, m.2.keeps = true) ∧ ms.length ≤ s.work w ∧ Halted w (exec (move w) s ms) := by
  induction hwork : s.work w using Nat.strong_induction_on generalizing s with
  | _ n ih =>
      by_cases hhalted : Halted w s
      · exact ⟨[], by simp, Nat.zero_le _, hhalted⟩
      · obtain ⟨m, hkeeps, hchange⟩ := exists_keeps hhalted
        have hlt := work_move_lt h hkeeps hchange
        have hnext : Tallied w (s.move w m) := tallied_step h (.job m.1 m.2)
        obtain ⟨ms, hall, hlength, hend⟩ := ih _ (hwork ▸ hlt) hnext rfl
        refine ⟨m :: ms, by simpa [hkeeps] using hall, ?_, hend⟩
        rw [List.length_cons]
        omega

/-- And no run that loses no execution goes on for longer. -/
theorem length_le_work (h : Tallied w s) {ms : List Move}
    (hms : AllSteps (move w) (fun s m ↦ m.2.keeps = true ∧ s.move w m ≠ s) s ms) :
    ms.length + (exec (move w) s ms).work w ≤ s.work w := by
  induction ms generalizing s with
  | nil => simp
  | cons m ms ih =>
      obtain ⟨⟨hkeeps, hchange⟩, hrest⟩ := hms
      have hlt := work_move_lt h hkeeps hchange
      have hnext : Tallied w (s.move w m) := tallied_step h (.job m.1 m.2)
      have hlater := ih hnext hrest
      rw [List.length_cons, exec_cons]
      omega

end JobQueues

end NestQueueExample.JobFlows
