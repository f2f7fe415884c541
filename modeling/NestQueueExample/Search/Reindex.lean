import NestQueueExample.Foundations.CheckThenAct
import NestQueueExample.Foundations.Schema
import NestQueueExample.Queues.JobQueue

/-!
# The reindex flag

`reindex` reads which job holds the deduplication key of its term, enqueues, and
reports `deduplicated` when the enqueue answered that job. What it reports as
deduplicated did collapse, as ids are never given twice. But the key may pass to
another job between the read and the enqueue, and an enqueue that collapses into
a job that was not the one read is reported as new.
-/

namespace NestQueueExample.Search

open CheckThenAct Queues Runs

def REINDEX_JOB : String := "reindex"
def DEDUP_TTL_MS : ℕ := 5000
def DEBOUNCE_DELAY_MS : ℕ := 2000

inductive DedupMode where
  | simple
  | throttle
  | debounce
  | keepLast
  deriving DecidableEq

structure ReindexInput where
  term : String
  mode : DedupMode

structure ReindexJobData where
  term : String
  deriving DecidableEq

structure ReindexResult where
  jobId : Option String
  deduplicated : Bool
  deriving DecidableEq

def MAX_TERM_LENGTH : ℕ := 128

def modeSchema : Schema DedupMode :=
  .transform (.enum ["simple", "throttle", "debounce", "keepLast"]) fun value ↦
    if value.1 = "simple" then .simple
    else if value.1 = "throttle" then .throttle
    else if value.1 = "debounce" then .debounce
    else .keepLast

def reindexSchema : Schema ReindexInput :=
  .object (.cons "term" (.string [.min 1, .max MAX_TERM_LENGTH]) <| .cons "mode" modeSchema .nil)
    fun (term, mode, _) ↦ ⟨term, mode⟩

theorem term_length_of_reindexSchema {zod : Zod} (hzod : zod.Documented) (hchecks : zod.Checks)
    {body : JsValue} {input : ReindexInput}
    (h : zod.safeParse reindexSchema body = .ok input) :
    1 ≤ JsString.length input.term ∧ JsString.length input.term ≤ MAX_TERM_LENGTH := by
  obtain ⟨⟨term, mode, _⟩, ⟨hterm, -⟩, rfl⟩ := hzod.object_ok h
  have hholds := (hchecks.string_iff.mp hterm).2
  exact ⟨by simpa [StringCheck.holds] using hholds (.min 1) (by simp),
    by simpa [StringCheck.holds] using hholds (.max MAX_TERM_LENGTH) (by simp)⟩

def dedupId (term : String) : String := "reindex:" ++ term

def reindexOptions (mode : DedupMode) (id : String) : JobsOptions :=
  match mode with
  | .simple => { deduplication := some { id } }
  | .throttle => { deduplication := some { id, ttl := some DEDUP_TTL_MS } }
  | .debounce =>
      { deduplication := some { id, ttl := some DEDUP_TTL_MS, extend := true, replace := true }
        delay := some DEBOUNCE_DELAY_MS }
  | .keepLast => { deduplication := some { id, keepLastIfActive := true } }

namespace ReindexService

def options (input : ReindexInput) : JobsOptions := reindexOptions input.mode (dedupId input.term)

/-- What a call answers, and whether its own enqueue created a job. -/
structure Outcome where
  result : Except EnqueueError ReindexResult
  created : Bool

def getDeduplicationJobId (queue : JobQueue ReindexJobData) (id : String) : Option String :=
  queue.keys.get? id

/-- The part of `reindex` from the enqueue on. -/
def act (queue : JobQueue ReindexJobData) (input : ReindexInput) (existing : Option String)
    (replaceable : Bool) : JobQueue ReindexJobData × Outcome :=
  match queue.enqueue REINDEX_JOB ⟨input.term⟩ (options input) replaceable with
  | .ok job =>
      (job.queue, ⟨.ok ⟨some job.jobId, existing.isSome && some job.jobId = existing⟩, job.created⟩)
  | .error error => (queue, ⟨.error error, false⟩)

/-- A key lapses or is cleared, or a job is removed. -/
inductive QueueChange where
  | dropKey (key : String)
  | remove (id : String)

def disturb (queue : JobQueue ReindexJobData) : QueueChange → JobQueue ReindexJobData
  | .dropKey key => queue.dropKey key
  | .remove id => queue.remove id

def reindex : Protocol (JobQueue ReindexJobData) ReindexInput (Option String) Bool Outcome
    QueueChange where
  check queue input := getDeduplicationJobId queue (dedupId input.term)
  act
  disturb

abbrev Calls : Type := State (JobQueue ReindexJobData) ReindexInput (Option String) Outcome

/-- `deduplicated` says that the enqueue created no job. -/
def Outcome.Truthful (outcome : Outcome) : Prop :=
  ∀ result, outcome.result = .ok result → (result.deduplicated = true ↔ outcome.created = false)

def Truthful (s : Calls) : Prop := ∀ call ∈ s.finished, call.outcome.Truthful

/-- A call that is about to collapse into a job has read that this job holds the
key. -/
def Informed (s : Calls) : Event ReindexInput Bool QueueChange → Prop
  | .act call replaceable => ∀ input seen, s.pending[call]? = some (input, seen) →
      ∀ held, s.store.holder (options input) = some held →
        JobQueue.replaces (options input) replaceable = false → seen = some held
  | _ => True

/-! ## One call -/

theorem holder_options (queue : JobQueue ReindexJobData) (input : ReindexInput) :
    queue.holder (options input) = getDeduplicationJobId queue (dedupId input.term) := by
  obtain ⟨term, mode⟩ := input
  cases mode <;> rfl

theorem jobId_options (input : ReindexInput) : (options input).jobId = none := by
  obtain ⟨term, mode⟩ := input
  cases mode <;> rfl

/-- An action collapses into the job that holds the key, or creates a job under
the next number. -/
theorem act_cases (queue : JobQueue ReindexJobData) (input : ReindexInput)
    (existing : Option String) (replaceable : Bool) :
    (∃ held, queue.holder (options input) = some held ∧
      JobQueue.replaces (options input) replaceable = false ∧
      act queue input existing replaceable =
        (queue, ⟨.ok ⟨some held, existing.isSome && some held = existing⟩, false⟩)) ∨
    ((∀ held, queue.holder (options input) = some held →
      JobQueue.replaces (options input) replaceable = true) ∧
      ∃ after : JobQueue ReindexJobData, after.nextId = queue.nextId + 1 ∧
        act queue input existing replaceable =
          (after, ⟨.ok ⟨some (autoId queue.nextId), existing.isSome &&
            some (autoId queue.nextId) = existing⟩, true⟩)) := by
  have hkeyed := @JobQueue.enqueue_keyed _ queue REINDEX_JOB ⟨input.term⟩ (options input)
    replaceable (jobId_options input)
  rcases hkeyed with ⟨held, hheld, hreplaces, henqueue⟩ | ⟨hreplaces, after, hnext, henqueue⟩
  · exact .inl ⟨held, hheld, hreplaces, by simp only [act, henqueue]⟩
  · exact .inr ⟨hreplaces, after, hnext, by simp only [act, henqueue]⟩

theorem nextId_le_act (queue : JobQueue ReindexJobData) (input : ReindexInput)
    (existing : Option String) (replaceable : Bool) :
    queue.nextId ≤ (act queue input existing replaceable).1.nextId := by
  rcases act_cases queue input existing replaceable with
    ⟨held, -, -, hact⟩ | ⟨-, after, hnext, hact⟩
  · rw [hact]
  · rw [hact, hnext]
    exact Nat.le_succ _

/-- No number that is still to be given was read. -/
def Issued (queue : JobQueue ReindexJobData) (_ : ReindexInput) (existing : Option String) : Prop :=
  ∀ n, queue.nextId ≤ n → existing ≠ some (autoId n)

theorem keeps_issued : reindex.Keeps (fun _ _ ↦ True) Issued where
  checked queue input n hn := queue.unissued n hn _
  acted queue input existing other otherExisting replaceable h _ n hn :=
    h n ((nextId_le_act queue other otherExisting replaceable).trans hn)
  disturbed queue input existing change h _ := by
    cases change with
    | dropKey key => exact h
    | remove id => exact h

theorem act_truthful_iff {queue : JobQueue ReindexJobData} {input : ReindexInput}
    {existing : Option String} (hissued : Issued queue input existing) (replaceable : Bool) :
    (act queue input existing replaceable).2.Truthful ↔
      ∀ held, queue.holder (options input) = some held →
        JobQueue.replaces (options input) replaceable = false → existing = some held := by
  rcases act_cases queue input existing replaceable with
    ⟨held, hheld, hreplaces, hact⟩ | ⟨hreplaces, after, -, hact⟩
  · rw [hact]
    constructor
    · intro h other hother _
      obtain rfl : held = other := Option.some.inj (hheld.symm.trans hother)
      have hflag := (h _ rfl).mpr rfl
      simp only [Bool.and_eq_true, decide_eq_true_eq] at hflag
      exact hflag.2.symm
    · intro h result hresult
      obtain rfl := Except.ok.inj hresult
      simp [h held hheld hreplaces]
  · rw [hact]
    constructor
    · intro _ held hheld hnot
      rw [hreplaces held hheld] at hnot
      exact Bool.noConfusion hnot
    · intro _ result hresult
      obtain rfl := Except.ok.inj hresult
      have hne : ¬ some (autoId queue.nextId) = existing := fun heq ↦
        hissued queue.nextId le_rfl heq.symm
      simp [hne]

/-! ## Many calls -/

structure Valid (s : Calls) : Prop where
  issued : Protocol.Pending Issued s
  truthful : Truthful s

theorem truthful_step_iff {s : Calls} (h : Valid s) (e : Event ReindexInput Bool QueueChange) :
    Truthful (reindex.step s e) ↔ Informed s e := by
  have hold : Truthful s := h.truthful
  cases e with
  | check input => exact iff_of_true hold trivial
  | disturb change => exact iff_of_true hold trivial
  | act call replaceable =>
      cases hget : s.pending[call]? with
      | none =>
          rw [Protocol.step_act_none hget]
          refine iff_of_true hold fun input seen hsome ↦ ?_
          rw [hget] at hsome
          exact absurd hsome (by simp)
      | some acting =>
          obtain ⟨input, seen⟩ := acting
          have hissued := h.issued _ (List.mem_of_getElem? hget)
          rw [Protocol.step_act_some hget]
          constructor
          · intro htruthful input' seen' hget'
            obtain ⟨rfl, rfl⟩ := Prod.mk.inj (Option.some.inj (hget.symm.trans hget'))
            exact (act_truthful_iff hissued replaceable).mp (htruthful _
              (List.mem_append_right _ (List.mem_singleton.mpr rfl)))
          · intro hinformed other hother
            rcases List.mem_append.mp hother with hmem | hnew
            · exact hold other hmem
            · rw [List.mem_singleton.mp hnew]
              exact (act_truthful_iff hissued replaceable).mpr (hinformed input seen hget)

/-- A call that enqueues right after it has read is informed. -/
theorem informed_after_check (s : Calls) (input : ReindexInput) (replaceable : Bool) :
    Informed (reindex.step s (.check input)) (.act s.pending.length replaceable) := by
  intro other seen hget held hheld _
  have hlast : (reindex.step s (.check input)).pending[s.pending.length]? =
      some (input, getDeduplicationJobId s.store (dedupId input.term)) := by
    simp [Protocol.step, reindex]
  obtain ⟨rfl, rfl⟩ := Prod.mk.inj (Option.some.inj (hlast.symm.trans hget))
  rw [← holder_options]
  exact hheld

end ReindexService

/-- In every state of a run all flags are truthful exactly when every call that
collapsed had read the job it collapsed into. -/
theorem reindex_truthful_iff (queue : JobQueue ReindexJobData)
    (es : List (Event ReindexInput Bool ReindexService.QueueChange)) :
    Throughout ReindexService.reindex.step ReindexService.Truthful ⟨queue, [], []⟩ es ↔
      AllSteps ReindexService.reindex.step ReindexService.Informed ⟨queue, [], []⟩ es :=
  throughout_iff_allSteps (I := ReindexService.Valid)
    (fun _ e h he ↦ ⟨h.issued.step ReindexService.keeps_issued (by cases e <;> trivial),
      (ReindexService.truthful_step_iff h e).mpr he⟩)
    (fun _ h ↦ h.truthful) (fun _ e h he ↦ (ReindexService.truthful_step_iff h e).mp he)
    ⟨by simp [Protocol.Pending], by simp [ReindexService.Truthful]⟩

/-- What is reported as deduplicated has collapsed, in every run. -/
theorem created_of_deduplicated {queue : JobQueue ReindexJobData}
    {es : List (Event ReindexInput Bool ReindexService.QueueChange)}
    {call : Finished ReindexInput (Option String) ReindexService.Outcome}
    (hcall : call ∈ (exec ReindexService.reindex.step ⟨queue, [], []⟩ es).finished)
    {result : ReindexResult} (hresult : call.outcome.result = .ok result)
    (hflag : result.deduplicated = true) : call.outcome.created = false := by
  obtain ⟨before, between, replaceable, hacts⟩ := Protocol.exists_of_mem_finished hcall
  have hallowed : AllSteps ReindexService.reindex.step
      (Protocol.Allowed fun _ _ ↦ True) ⟨queue, [], []⟩
      (before ++ .check call.input :: between) :=
    allSteps_of_forall fun _ e ↦ by cases e <;> trivial
  have hpending := Protocol.pending_exec ReindexService.keeps_issued hallowed
    (by simp [Protocol.Pending])
  have hissued := hpending _ hacts.pending
  rw [hacts.outcome] at hresult ⊢
  rcases ReindexService.act_cases _ call.input call.seen replaceable with
    ⟨held, -, -, hact⟩ | ⟨-, after, -, hact⟩
  · exact congrArg (fun acted ↦ acted.2.created) hact
  · change (ReindexService.act _ _ _ _).2.result = _ at hresult
    rw [hact] at hresult
    obtain rfl := Except.ok.inj hresult
    simp only [Bool.and_eq_true, decide_eq_true_eq] at hflag
    exact absurd hflag.2.symm (hissued _ le_rfl)

def twoReindexes : List (Event ReindexInput Bool ReindexService.QueueChange) :=
  [.check ⟨"shoes", .simple⟩, .check ⟨"shoes", .simple⟩, .act 0 false, .act 0 false]

/-- Both calls read that the key is free; the second collapses into the job of
the first and reports a new one. -/
theorem collapsed_call_reports_new :
    ¬ Throughout ReindexService.reindex.step ReindexService.Truthful ⟨.empty, [], []⟩
      twoReindexes := by
  intro h
  have htruthful := h _ List.prefix_rfl ⟨⟨"shoes", .simple⟩, none,
    ⟨.ok ⟨some "1", false⟩, false⟩⟩ (List.mem_cons_of_mem _ (List.mem_singleton.mpr rfl)) _ rfl
  exact absurd (htruthful.mpr rfl) (by decide)

end NestQueueExample.Search
