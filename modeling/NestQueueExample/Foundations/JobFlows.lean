import Mathlib.Data.List.Basic
import Mathlib.Logic.Function.Basic
import Mathlib.Tactic.TypeStar
import NestQueueExample.Foundations.Runs

/-!
# Flows of dependent jobs

A queue system runs trees of jobs: a job is held back until each of its
children has completed, or has failed for good with its failure ignored. A
handler that throws uses up one attempt, and the last attempt fails the job. A
child that fails for good can fail its parent instead. Workers may lose a job
they have started, before or after its handler ran, and the job then runs
again. Any number of trees is added at any time, and the order of all steps is
left open.
-/

namespace NestQueueExample.JobFlows

open Runs

structure JobOpts where
  attempts : Option ℕ := none
  failParentOnFailure : Bool := false
  ignoreDependencyOnFailure : Bool := false
  deriving DecidableEq

structure FlowJob (δ : Type*) where
  name : String
  queueName : String
  data : δ
  opts : JobOpts := {}
  children : List (FlowJob δ) := []

/-- A job of a tree, by the number of the tree and its place in it. -/
structure JobRef where
  flow : ℕ
  path : List ℕ
  deriving DecidableEq

def JobRef.child (r : JobRef) (i : ℕ) : JobRef := ⟨r.flow, r.path ++ [i]⟩

inductive Status where
  | waitingChildren
  | waiting
  | delayed
  | active
  | completed
  | failed
  | failedByChild
  deriving DecidableEq

namespace Status

def isFailed : Status → Bool
  | .failed | .failedByChild => true
  | _ => false

def isTerminal : Status → Bool
  | .completed | .failed | .failedByChild => true
  | _ => false

theorem isTerminal_of_isFailed {status : Status} (h : status.isFailed = true) :
    status.isTerminal = true := by
  cases status <;> first | rfl | exact absurd h (by decide)

end Status

structure JobState where
  status : Status
  attemptsMade : ℕ

structure Execution where
  job : JobRef
  now : ℕ

/-- What the workers bring: the attempts of a job that sets none, and whether
the handler of a job throws. -/
structure Workers (δ : Type*) where
  defaultAttempts : ℕ
  throws : FlowJob δ → Bool

/-- The trees added so far, the states of their jobs, and all executions. -/
structure JobQueues (δ : Type*) where
  flows : List (FlowJob δ) := []
  jobs : JobRef → JobState := fun _ ↦ ⟨.waiting, 0⟩
  log : List Execution := []

inductive JobAction where
  | release
  | start
  | run (now : ℕ) (reported : Bool)
  | stall
  | retry
  | failParent (child : ℕ)

inductive FlowEvent (δ : Type*) where
  | launch (trees : List (FlowJob δ))
  | job (ref : JobRef) (action : JobAction)

variable {δ : Type*}

def FlowJob.sub? : FlowJob δ → List ℕ → Option (FlowJob δ)
  | job, [] => some job
  | job, i :: path => (job.children[i]?).bind fun child ↦ child.sub? path

def FlowJob.settles (child : FlowJob δ) (status : Status) : Bool :=
  status = .completed || (status.isFailed && child.opts.ignoreDependencyOnFailure)

def FlowJob.added (job : FlowJob δ) : JobState :=
  ⟨if job.children.isEmpty then .waiting else .waitingChildren, 0⟩

/-- The state of an active job once its handler has returned or thrown. -/
def Workers.outcome (w : Workers δ) (job : FlowJob δ) (state : JobState) : JobState :=
  let made := state.attemptsMade + 1
  if w.throws job then
    if made < job.opts.attempts.getD w.defaultAttempts then ⟨.delayed, made⟩
    else ⟨.failed, made⟩
  else ⟨.completed, made⟩

namespace JobQueues

def node? (s : JobQueues δ) (r : JobRef) : Option (FlowJob δ) :=
  (s.flows[r.flow]?).bind fun tree ↦ tree.sub? r.path

def status (s : JobQueues δ) (r : JobRef) : Status := (s.jobs r).status

def put (s : JobQueues δ) (r : JobRef) (state : JobState) : JobQueues δ :=
  { s with jobs := Function.update s.jobs r state }

def setStatus (s : JobQueues δ) (r : JobRef) (status : Status) : JobQueues δ :=
  s.put r { s.jobs r with status }

def childrenSettled (s : JobQueues δ) (r : JobRef) (job : FlowJob δ) : Bool :=
  job.children.zipIdx.all fun entry ↦ entry.1.settles (s.status (r.child entry.2))

def launch (s : JobQueues δ) (trees : List (FlowJob δ)) : JobQueues δ :=
  let flows := s.flows ++ trees
  { s with
    flows
    jobs := fun r ↦
      if r.flow < s.flows.length then s.jobs r
      else (({ s with flows }.node? r).map FlowJob.added).getD (s.jobs r) }

def act (w : Workers δ) (s : JobQueues δ) (r : JobRef) (job : FlowJob δ) : JobAction → JobQueues δ
  | .release =>
      if s.status r = .waitingChildren ∧ s.childrenSettled r job then s.setStatus r .waiting
      else s
  | .start => if s.status r = .waiting then s.setStatus r .active else s
  | .run now reported =>
      if s.status r = .active then
        let ran := { s with log := s.log ++ [⟨r, now⟩] }
        if reported then ran.put r (w.outcome job (s.jobs r)) else ran
      else s
  | .stall => if s.status r = .active then s.setStatus r .waiting else s
  | .retry => if s.status r = .delayed then s.setStatus r .waiting else s
  | .failParent i =>
      match job.children[i]? with
      | some child =>
          if s.status r = .waitingChildren ∧ (s.status (r.child i)).isFailed ∧
              child.opts.failParentOnFailure then s.setStatus r .failedByChild
          else s
      | none => s

def step (w : Workers δ) (s : JobQueues δ) : FlowEvent δ → JobQueues δ
  | .launch trees => s.launch trees
  | .job r action =>
      match s.node? r with
      | some job => s.act w r job action
      | none => s

def Executed (s : JobQueues δ) (r : JobRef) : Prop := ∃ x ∈ s.log, x.job = r

def Halted (w : Workers δ) (s : JobQueues δ) : Prop := ∀ r action, s.step w (.job r action) = s

end JobQueues

/-! ## Places -/

theorem FlowJob.sub?_append (job : FlowJob δ) (path rest : List ℕ) :
    job.sub? (path ++ rest) = (job.sub? path).bind fun child ↦ child.sub? rest := by
  induction path generalizing job with
  | nil => rfl
  | cons i path ih =>
      simp only [List.cons_append, FlowJob.sub?, Option.bind_assoc]
      congr 1
      funext child
      exact ih child

theorem FlowJob.sub?_leaf {job other : FlowJob δ} (hleaf : job.children = []) {path : List ℕ} :
    job.sub? path = some other ↔ path = [] ∧ other = job := by
  cases path with
  | nil => simp [FlowJob.sub?, eq_comm]
  | cons i path => simp [FlowJob.sub?, hleaf]

namespace JobQueues

variable {s : JobQueues δ} {r : JobRef} {job child : FlowJob δ}

theorem node?_child (h : s.node? r = some job) (i : ℕ) :
    s.node? (r.child i) = job.children[i]? := by
  obtain ⟨tree, htree, hjob⟩ := Option.bind_eq_some_iff.mp h
  simp [node?, JobRef.child, htree, FlowJob.sub?_append, hjob, FlowJob.sub?]

theorem flow_lt (h : s.node? r = some job) : r.flow < s.flows.length := by
  obtain ⟨tree, htree, -⟩ := Option.bind_eq_some_iff.mp h
  exact (List.getElem?_eq_some_iff.mp htree).1

theorem childrenSettled_iff :
    s.childrenSettled r job = true ↔
      ∀ (i : ℕ) (child : FlowJob δ), job.children[i]? = some child →
        child.settles (s.status (r.child i)) = true := by
  simp only [childrenSettled, List.all_eq_true, Prod.forall, List.mem_zipIdx_iff_getElem?]
  exact ⟨fun h i child hchild ↦ h child i hchild, fun h child i hchild ↦ h i child hchild⟩

@[simp] theorem status_put (q : JobRef) (state : JobState) :
    (s.put r state).status q = if q = r then state.status else s.status q := by
  by_cases hq : q = r <;> simp [put, status, hq]

/-! ## What a job can do -/

def Ready (status : Status) : Prop :=
  status = .waiting ∨ status = .delayed ∨ status = .active

/-- The moves of a single job, with the executions they log. -/
inductive Moves (w : Workers δ) (s : JobQueues δ) (r : JobRef) (job : FlowJob δ) :
    Status → List Execution → Prop
  | release (hold : s.status r = .waitingChildren) (hsettled : s.childrenSettled r job = true) :
      Moves w s r job .waiting []
  | shift {status : Status} (hold : Ready (s.status r)) (hnew : Ready status) :
      Moves w s r job status []
  | lose {now : ℕ} (hold : s.status r = .active) : Moves w s r job .active [⟨r, now⟩]
  | retry {now : ℕ} (hold : s.status r = .active) : Moves w s r job .delayed [⟨r, now⟩]
  | complete {now : ℕ} (hold : s.status r = .active) (hreturns : w.throws job = false) :
      Moves w s r job .completed [⟨r, now⟩]
  | fail {now : ℕ} (hold : s.status r = .active) (hthrows : w.throws job = true) :
      Moves w s r job .failed [⟨r, now⟩]
  | failByChild {i : ℕ} {child : FlowJob δ} (hold : s.status r = .waitingChildren)
      (hchild : job.children[i]? = some child)
      (hfailed : (s.status (r.child i)).isFailed = true)
      (hopts : child.opts.failParentOnFailure = true) : Moves w s r job .failedByChild []

structure Moved (s s' : JobQueues δ) (r : JobRef) (status : Status) (log : List Execution) :
    Prop where
  flows : s'.flows = s.flows
  log : s'.log = s.log ++ log
  status_self : s'.status r = status
  status_other : ∀ q, q ≠ r → s'.status q = s.status q

theorem moved_setStatus (status : Status) : Moved s (s.setStatus r status) r status [] where
  flows := rfl
  log := by simp [setStatus, put]
  status_self := by simp [setStatus]
  status_other := fun q hq ↦ by simp [setStatus, hq]

theorem setStatus_cases {w : Workers δ} {condition : Prop} [Decidable condition] {status : Status}
    (hmove : condition → Moves w s r job status []) :
    (if condition then s.setStatus r status else s) = s ∨ ∃ status' log,
      Moves w s r job status' log ∧
        Moved s (if condition then s.setStatus r status else s) r status' log := by
  split
  · next h => exact Or.inr ⟨_, _, hmove h, moved_setStatus _⟩
  · exact Or.inl rfl

theorem moves_outcome {w : Workers δ} (hactive : s.status r = .active) (now : ℕ) :
    Moves w s r job (w.outcome job (s.jobs r)).status [⟨r, now⟩] := by
  simp only [Workers.outcome]
  split
  · next hthrows =>
      split
      · exact .retry hactive
      · exact .fail hactive hthrows
  · next hreturns => exact .complete hactive (by simpa using hreturns)

theorem act_cases (w : Workers δ) (s : JobQueues δ) (r : JobRef) (job : FlowJob δ)
    (action : JobAction) :
    s.act w r job action = s ∨ ∃ status log, Moves w s r job status log ∧
      Moved s (s.act w r job action) r status log := by
  cases action with
  | release => exact setStatus_cases fun h ↦ .release h.1 h.2
  | start => exact setStatus_cases fun h ↦ .shift (Or.inl h) (Or.inr (Or.inr rfl))
  | stall => exact setStatus_cases fun h ↦ .shift (Or.inr (Or.inr h)) (Or.inl rfl)
  | retry => exact setStatus_cases fun h ↦ .shift (Or.inr (Or.inl h)) (Or.inl rfl)
  | failParent i =>
      simp only [act]
      split
      · next child hchild =>
          exact setStatus_cases fun h ↦ .failByChild h.1 hchild h.2.1 h.2.2
      · exact Or.inl rfl
  | run now reported =>
      simp only [act]
      split
      · next hactive =>
          right
          cases reported with
          | false =>
              exact ⟨.active, _, .lose hactive, ⟨rfl, rfl, hactive, fun _ _ ↦ rfl⟩⟩
          | true =>
              refine ⟨_, _, moves_outcome hactive now, ⟨rfl, rfl, by simp, fun q hq ↦ ?_⟩⟩
              simp only [if_true, status_put, if_neg hq]
              rfl
      · exact Or.inl rfl

theorem flows_job (w : Workers δ) (s : JobQueues δ) (r : JobRef) (action : JobAction) :
    (s.step w (.job r action)).flows = s.flows := by
  simp only [step]
  cases s.node? r with
  | none => rfl
  | some job =>
      rcases act_cases w s r job action with hsame | ⟨status, log, -, hmoved⟩
      · simp only [hsame]
      · exact hmoved.flows

/-! ## What later states keep -/

structure Extends (s s' : JobQueues δ) : Prop where
  node : ∀ r job, s.node? r = some job → s'.node? r = some job
  terminal : ∀ r job, s.node? r = some job → (s.status r).isTerminal = true →
    s'.status r = s.status r
  log : s.log <+: s'.log

theorem Moves.not_terminal {w : Workers δ} {status : Status} {log : List Execution}
    (h : Moves w s r job status log) : (s.status r).isTerminal = false := by
  cases h with
  | shift hold hnew => rcases hold with hold | hold | hold <;> simp [hold, Status.isTerminal]
  | release hold => simp [hold, Status.isTerminal]
  | lose hold => simp [hold, Status.isTerminal]
  | retry hold => simp [hold, Status.isTerminal]
  | complete hold => simp [hold, Status.isTerminal]
  | fail hold => simp [hold, Status.isTerminal]
  | failByChild hold => simp [hold, Status.isTerminal]

theorem Moved.node?_eq {s' : JobQueues δ} {status : Status} {log : List Execution}
    (h : Moved s s' r status log) (q : JobRef) : s'.node? q = s.node? q := by
  simp [node?, h.flows]

theorem Moved.executed {s' : JobQueues δ} {status : Status} {now : ℕ}
    (h : Moved s s' r status [⟨r, now⟩]) : s'.Executed r :=
  ⟨⟨r, now⟩, by rw [h.log]; exact List.mem_append_right _ (List.mem_singleton.mpr rfl), rfl⟩

theorem Moves.extends {w : Workers δ} {s' : JobQueues δ} {status : Status} {log : List Execution}
    (hmove : Moves w s r job status log) (h : Moved s s' r status log) : Extends s s' where
  node := fun q job hq ↦ by rw [h.node?_eq, hq]
  terminal := by
    intro q job _ hterminal
    by_cases hq : q = r
    · subst hq
      rw [hmove.not_terminal] at hterminal
      exact absurd hterminal (by decide)
    · exact h.status_other q hq
  log := by rw [h.log]; exact List.prefix_append _ _

theorem status_launch (trees : List (FlowJob δ)) (h : s.node? r = some job) :
    (s.launch trees).status r = s.status r := by
  simp [launch, status, flow_lt h]

theorem node?_launch (trees : List (FlowJob δ)) (h : s.node? r = some job) :
    (s.launch trees).node? r = some job := by
  have hlt := flow_lt h
  simpa [launch, node?, List.getElem?_append_left hlt] using h

theorem extends_launch (trees : List (FlowJob δ)) : Extends s (s.launch trees) where
  node := fun _ _ h ↦ node?_launch trees h
  terminal := fun _ _ h _ ↦ status_launch trees h
  log := List.prefix_rfl

theorem isTerminal_of_settles {status : Status} (h : child.settles status = true) :
    status.isTerminal = true := by
  rcases Bool.or_eq_true_iff.mp h with hcompleted | hignored
  · rw [of_decide_eq_true hcompleted]
    rfl
  · exact Status.isTerminal_of_isFailed (Bool.and_eq_true_iff.mp hignored).1

theorem Extends.childrenSettled {s' : JobQueues δ} (h : Extends s s') (hnode : s.node? r = some job)
    (hsettled : s.childrenSettled r job = true) : s'.childrenSettled r job = true := by
  rw [childrenSettled_iff] at hsettled ⊢
  intro i child hchild
  have hold := hsettled i child hchild
  rw [h.terminal _ child (by rw [node?_child hnode, hchild]) (isTerminal_of_settles hold)]
  exact hold

theorem Extends.executed {s' : JobQueues δ} (h : Extends s s') (hr : s.Executed r) :
    s'.Executed r := by
  obtain ⟨x, hx, hjob⟩ := hr
  exact ⟨x, h.log.subset hx, hjob⟩

/-! ## What every run keeps -/

/-- What the state of a job says about its children, its handler and the log. -/
structure JobValid (w : Workers δ) (s : JobQueues δ) (r : JobRef) (job : FlowJob δ) : Prop where
  gated : Ready (s.status r) ∨ s.status r = .completed ∨ s.status r = .failed →
    s.childrenSettled r job = true
  executed : s.status r = .completed ∨ s.status r = .failed → s.Executed r
  settled : s.Executed r → s.childrenSettled r job = true
  completed : s.status r = .completed → w.throws job = false
  failed : s.status r = .failed → w.throws job = true
  failedByChild : s.status r = .failedByChild → ∃ (i : ℕ) (child : FlowJob δ),
    job.children[i]? = some child ∧ child.opts.failParentOnFailure = true ∧
      (s.status (r.child i)).isFailed = true

/-- Every job is valid, and every execution comes behind one of each child,
unless the child never ran because a child of its own failed it. -/
structure Valid (w : Workers δ) (s : JobQueues δ) : Prop where
  jobs : ∀ r job, s.node? r = some job → s.JobValid w r job
  ordered : ∀ pre x post, s.log = pre ++ x :: post → ∃ job, s.node? x.job = some job ∧
    ∀ (i : ℕ) (child : FlowJob δ), job.children[i]? = some child →
      (∃ y ∈ pre, y.job = x.job.child i) ∨ s.status (x.job.child i) = .failedByChild

variable {w : Workers δ}

theorem JobValid.of_extends {s' : JobQueues δ} (h : JobValid w s r job) (hext : Extends s s')
    (hnode : s.node? r = some job) (hsame : s'.status r = s.status r)
    (hexecuted : s'.Executed r → s.Executed r) : JobValid w s' r job where
  gated := fun hs ↦ hext.childrenSettled hnode (h.gated (hsame ▸ hs))
  executed := fun hs ↦ hext.executed (h.executed (hsame ▸ hs))
  settled := fun hs ↦ hext.childrenSettled hnode (h.settled (hexecuted hs))
  completed := fun hs ↦ h.completed (hsame ▸ hs)
  failed := fun hs ↦ h.failed (hsame ▸ hs)
  failedByChild := by
    intro hs
    obtain ⟨i, child, hchild, hopts, hfailed⟩ := h.failedByChild (hsame ▸ hs)
    refine ⟨i, child, hchild, hopts, ?_⟩
    rw [hext.terminal _ child (by rw [node?_child hnode, hchild])
      (Status.isTerminal_of_isFailed hfailed)]
    exact hfailed

theorem Moves.jobValid {s' : JobQueues δ} {status : Status} {log : List Execution}
    (hmove : Moves w s r job status log) (hmoved : Moved s s' r status log)
    (hnode : s.node? r = some job) (h : JobValid w s r job) : JobValid w s' r job := by
  have hext := hmove.extends hmoved
  have hself := hmoved.status_self
  have hactive : s.status r = .active → s'.childrenSettled r job = true := fun hs ↦
    hext.childrenSettled hnode (h.gated (Or.inl (Or.inr (Or.inr hs))))
  cases hmove with
  | release hold hsettled =>
      have hsettled' : s'.childrenSettled r job = true := hext.childrenSettled hnode hsettled
      refine ⟨fun _ ↦ hsettled', ?_, fun _ ↦ hsettled', ?_, ?_, ?_⟩ <;> simp [hself]
  | shift hold hnew =>
      have hready : s'.childrenSettled r job = true :=
        hext.childrenSettled hnode (h.gated (Or.inl hold))
      refine ⟨fun _ ↦ hready, ?_, fun _ ↦ hready, ?_, ?_, ?_⟩ <;>
        rcases hnew with rfl | rfl | rfl <;> simp [hself]
  | lose hold =>
      refine ⟨fun _ ↦ hactive hold, ?_, fun _ ↦ hactive hold, ?_, ?_, ?_⟩ <;> simp [hself]
  | retry hold =>
      refine ⟨fun _ ↦ hactive hold, ?_, fun _ ↦ hactive hold, ?_, ?_, ?_⟩ <;> simp [hself]
  | complete hold hreturns =>
      refine ⟨fun _ ↦ hactive hold, fun _ ↦ hmoved.executed, fun _ ↦ hactive hold,
        fun _ ↦ hreturns, ?_, ?_⟩ <;> simp [hself]
  | fail hold hthrows =>
      refine ⟨fun _ ↦ hactive hold, fun _ ↦ hmoved.executed, fun _ ↦ hactive hold, ?_,
        fun _ ↦ hthrows, ?_⟩ <;> simp [hself]
  | @failByChild i child hold hchild hfailed hopts =>
      have hkept : s'.status (r.child i) = s.status (r.child i) :=
        hext.terminal _ child (by rw [node?_child hnode, hchild])
          (Status.isTerminal_of_isFailed hfailed)
      have hlogged : s'.Executed r → s'.childrenSettled r job = true := by
        rintro ⟨x, hx, hjob⟩
        rw [hmoved.log, List.append_nil] at hx
        exact hext.childrenSettled hnode (h.settled ⟨x, hx, hjob⟩)
      refine ⟨?_, ?_, hlogged, ?_, ?_,
        fun _ ↦ ⟨i, child, hchild, hopts, by rw [hkept]; exact hfailed⟩⟩ <;>
        simp [hself, Ready]

theorem Moves.log_cases {status : Status} {log : List Execution}
    (h : Moves w s r job status log) :
    log = [] ∨ ∃ x, log = [x] ∧ x.job = r ∧ s.status r = .active := by
  cases h with
  | lose hold => exact Or.inr ⟨_, rfl, rfl, hold⟩
  | retry hold => exact Or.inr ⟨_, rfl, rfl, hold⟩
  | complete hold => exact Or.inr ⟨_, rfl, rfl, hold⟩
  | fail hold => exact Or.inr ⟨_, rfl, rfl, hold⟩
  | _ => exact Or.inl rfl

theorem jobValid_of_moved {s' : JobQueues δ} {status : Status} {log : List Execution}
    (hmove : Moves w s r job status log) (hmoved : Moved s s' r status log)
    (hnode : s.node? r = some job) (h : Valid w s) {q : JobRef} {other : FlowJob δ}
    (hq : s'.node? q = some other) : JobValid w s' q other := by
  rw [hmoved.node?_eq] at hq
  by_cases hqr : q = r
  · subst hqr
    obtain rfl := Option.some.inj (hnode.symm.trans hq)
    exact hmove.jobValid hmoved hnode (h.jobs q job hnode)
  · apply (h.jobs q other hq).of_extends (hmove.extends hmoved) hq (hmoved.status_other q hqr)
    rintro ⟨x, hx, rfl⟩
    rw [hmoved.log] at hx
    rcases hmove.log_cases with rfl | ⟨z, rfl, hz, -⟩
    · exact ⟨x, by simpa using hx, rfl⟩
    · rcases List.mem_append.mp hx with hold | hnew
      · exact ⟨x, hold, rfl⟩
      · obtain rfl := List.mem_singleton.mp hnew
        exact absurd hz hqr

theorem Valid.children_executed (h : Valid w s) (hnode : s.node? r = some job)
    (hsettled : s.childrenSettled r job = true) {i : ℕ} (hchild : job.children[i]? = some child) :
    s.Executed (r.child i) ∨ s.status (r.child i) = .failedByChild := by
  have hvalid := h.jobs (r.child i) child (by rw [node?_child hnode, hchild])
  have hsettles := childrenSettled_iff.mp hsettled i child hchild
  have hterminal := isTerminal_of_settles hsettles
  cases hstatus : s.status (r.child i) with
  | completed => exact Or.inl (hvalid.executed (Or.inl hstatus))
  | failed => exact Or.inl (hvalid.executed (Or.inr hstatus))
  | failedByChild => exact Or.inr rfl
  | _ => exact absurd hterminal (by simp [hstatus, Status.isTerminal])

theorem Valid.ordered_of_extends {s' : JobQueues δ} (h : Valid w s) (hext : Extends s s')
    {pre post : List Execution} {x : Execution} (hlog : s.log = pre ++ x :: post) :
    ∃ job, s'.node? x.job = some job ∧
      ∀ (i : ℕ) (child : FlowJob δ), job.children[i]? = some child →
        (∃ y ∈ pre, y.job = x.job.child i) ∨ s'.status (x.job.child i) = .failedByChild := by
  obtain ⟨job, hnode, hchildren⟩ := h.ordered pre x post hlog
  refine ⟨job, hext.node _ _ hnode, fun i child hchild ↦ ?_⟩
  rcases hchildren i child hchild with hran | hfailed
  · exact Or.inl hran
  · right
    rw [hext.terminal _ child (by rw [node?_child hnode, hchild]) (by rw [hfailed]; rfl)]
    exact hfailed

theorem Valid.moved {s' : JobQueues δ} {status : Status} {log : List Execution} (h : Valid w s)
    (hnode : s.node? r = some job) (hmove : Moves w s r job status log)
    (hmoved : Moved s s' r status log) : Valid w s' where
  jobs := fun _ _ hq ↦ jobValid_of_moved hmove hmoved hnode h hq
  ordered := by
    intro pre x post hlog
    have hext := hmove.extends hmoved
    rw [hmoved.log] at hlog
    rcases hmove.log_cases with rfl | ⟨z, rfl, hz, hactive⟩
    · exact h.ordered_of_extends hext (by simpa using hlog)
    · rcases List.eq_nil_or_concat post with rfl | ⟨post, last, rfl⟩
      · obtain ⟨rfl, hx⟩ := List.append_inj' hlog rfl
        obtain rfl : z = x := by simpa using hx
        rw [hz]
        refine ⟨job, hext.node _ _ hnode, fun i child hchild ↦ ?_⟩
        have hsettled := (h.jobs r job hnode).gated (Or.inl (Or.inr (Or.inr hactive)))
        rcases h.children_executed hnode hsettled hchild with hran | hfailed
        · exact Or.inl hran
        · right
          rw [hext.terminal _ child (by rw [node?_child hnode, hchild]) (by rw [hfailed]; rfl)]
          exact hfailed
      · have hlog' : s.log ++ [z] = (pre ++ x :: post) ++ [last] := by simpa using hlog
        exact h.ordered_of_extends hext (List.append_inj' hlog' rfl).1

theorem valid_launch (h : Valid w s) (trees : List (FlowJob δ)) : Valid w (s.launch trees) where
  jobs := by
    intro r job hnode
    rcases Nat.lt_or_ge r.flow s.flows.length with hlt | hge
    · have hold : s.node? r = some job := by
        simpa [launch, node?, List.getElem?_append_left hlt] using hnode
      exact (h.jobs r job hold).of_extends (extends_launch trees) hold
        (status_launch trees hold) id
    · have hstate : (s.launch trees).jobs r = job.added := by
        have hnode' : ({ s with flows := s.flows ++ trees } : JobQueues δ).node? r = some job :=
          hnode
        simp [launch, Nat.not_lt.mpr hge, hnode']
      have hstatus : (s.launch trees).status r =
          if job.children.isEmpty then .waiting else .waitingChildren := by
        rw [status, hstate, FlowJob.added]
      have hfresh : ¬ (s.launch trees).Executed r := by
        rintro ⟨x, hx, rfl⟩
        obtain ⟨pre, post, hlog⟩ := List.append_of_mem hx
        obtain ⟨job, hjob, -⟩ := h.ordered pre x post hlog
        exact Nat.not_lt.mpr hge (flow_lt hjob)
      by_cases hleaf : job.children = []
      · refine ⟨fun _ ↦ ?_, ?_, fun hran ↦ absurd hran hfresh, ?_, ?_, ?_⟩
        · simp [childrenSettled, hleaf]
        all_goals simp [hstatus, hleaf]
      · refine ⟨?_, ?_, fun hran ↦ absurd hran hfresh, ?_, ?_, ?_⟩ <;>
          simp [hstatus, hleaf, Ready]
  ordered := fun _ _ _ hlog ↦ h.ordered_of_extends (extends_launch trees) hlog

theorem valid_step (h : Valid w s) (e : FlowEvent δ) : Valid w (s.step w e) := by
  cases e with
  | launch trees => exact valid_launch h trees
  | job r action =>
      simp only [step]
      cases hnode : s.node? r with
      | none => exact h
      | some job =>
          rcases act_cases w s r job action with hsame | ⟨status, log, hmove, hmoved⟩
          · simpa only [hsame] using h
          · exact h.moved hnode hmove hmoved

theorem valid_exec (w : Workers δ) (es : List (FlowEvent δ)) : Valid w (exec (step w) {} es) :=
  exec_invariant (I := Valid w) (step w) (fun _ e h ↦ valid_step h e)
    ⟨by simp [node?], by simp⟩ es

/-! ## States in which nothing can move -/

/-- Below the job, every child whose handler throws has its failure ignored. -/
inductive RunsThrough (w : Workers δ) : FlowJob δ → Prop
  | intro {job : FlowJob δ}
      (hthrows : ∀ child ∈ job.children, w.throws child = true →
        child.opts.ignoreDependencyOnFailure = true ∧ child.opts.failParentOnFailure = false)
      (hchildren : ∀ child ∈ job.children, RunsThrough w child) : RunsThrough w job

theorem Halted.status_of_settled (h : Halted w s) (hnode : s.node? r = some job)
    (hsettled : s.childrenSettled r job = true) : (s.status r).isTerminal = true := by
  have hmoves : ∀ action status, s.act w r job action = s.setStatus r status →
      s.status r = status := by
    intro action status hact
    have hsame := h r action
    simp only [step, hnode, hact] at hsame
    rw [← (moved_setStatus (s := s) (r := r) status).status_self, hsame]
  cases hstatus : s.status r with
  | waitingChildren =>
      have hsame := hmoves .release .waiting (by simp [act, hstatus, hsettled])
      simp [hstatus] at hsame
  | waiting =>
      have hsame := hmoves .start .active (by simp [act, hstatus])
      simp [hstatus] at hsame
  | delayed =>
      have hsame := hmoves .retry .waiting (by simp [act, hstatus])
      simp [hstatus] at hsame
  | active =>
      have hsame := hmoves .stall .waiting (by simp [act, hstatus])
      simp [hstatus] at hsame
  | _ => rfl

/-- When nothing can move any more, a job below which all failures are ignored
has come to its own end. -/
theorem RunsThrough.ended (h : RunsThrough w job) (hvalid : Valid w s) (hhalted : Halted w s)
    (hnode : s.node? r = some job) : s.status r = .completed ∨ s.status r = .failed := by
  induction h generalizing r with
  | @intro job hthrows _ ih =>
      have hchildren : ∀ (i : ℕ) (child : FlowJob δ), job.children[i]? = some child →
          s.status (r.child i) = .completed ∨ s.status (r.child i) = .failed ∧
            child.opts.ignoreDependencyOnFailure = true ∧
            child.opts.failParentOnFailure = false := by
        intro i child hchild
        have hmem := List.mem_of_getElem? hchild
        have hchildNode : s.node? (r.child i) = some child := by rw [node?_child hnode, hchild]
        rcases ih child hmem hchildNode with hcompleted | hfailed
        · exact Or.inl hcompleted
        · exact Or.inr ⟨hfailed, hthrows child hmem ((hvalid.jobs _ _ hchildNode).failed hfailed)⟩
      have hsettled : s.childrenSettled r job = true := by
        rw [childrenSettled_iff]
        intro i child hchild
        rcases hchildren i child hchild with hcompleted | ⟨hfailed, hignored, -⟩
        · simp [FlowJob.settles, hcompleted]
        · simp [FlowJob.settles, hfailed, Status.isFailed, hignored]
      have hterminal := hhalted.status_of_settled hnode hsettled
      cases hstatus : s.status r with
      | completed => exact Or.inl rfl
      | failed => exact Or.inr rfl
      | failedByChild =>
          obtain ⟨i, child, hchild, hopts, hfailed⟩ :=
            (hvalid.jobs r job hnode).failedByChild hstatus
          rcases hchildren i child hchild with hcompleted | ⟨-, -, hkept⟩
          · simp [hcompleted, Status.isFailed] at hfailed
          · simp [hopts] at hkept
      | _ => simp [hstatus, Status.isTerminal] at hterminal

end JobQueues

end NestQueueExample.JobFlows
