import NestQueueExample.Foundations.CheckThenAct
import NestQueueExample.Orders.Placement
import NestQueueExample.Schedulers.Controller

/-!
# Welcoming users

`welcome` looks for the welcome job of the user and then enqueues it under an id
made from the user id. The enqueue adds nothing when the id is present, so
however the calls interleave there is one welcome job for a user; the reported
flag comes from the earlier look.
-/

namespace NestQueueExample.Orders

open CheckThenAct Http Processors Queues Runs

def WELCOME_JOB : String := "send-welcome"
def MAX_USER_ID_LENGTH : ℕ := 64

def welcomeJobId (userId : String) : String := "welcome-" ++ userId

def isUserIdChar (c : Char) : Bool := Schedulers.isAlphanumeric c || c = '_' || c = '-'

/-- The pattern `^[A-Za-z0-9_-]+$`. -/
def matchesUserId (s : String) : Bool := s ≠ "" && s.toList.all isUserIdChar

def userIdSchema : Schema String := .string [.regex matchesUserId, .max MAX_USER_ID_LENGTH]

/-- The user id that the handler gives to the service. -/
def OnboardingController.welcome {ε : Type} (zod : Zod) (userId : JsValue) :
    Except (Rejection ε) String :=
  parseRequest zod userIdSchema userId

structure OnboardingResult where
  created : Bool
  jobId : String
  deriving DecidableEq

namespace OnboardingService

abbrev EmailQueue : Type := JobQueue EmailJobData

structure Outcome where
  result : Except EnqueueError OnboardingResult
  inserted : Bool

def getJob (queue : EmailQueue) (jobId : String) : Option (QueuedJob EmailJobData) :=
  queue.jobs.get? jobId

def options (userId : String) : JobsOptions := { jobId := some (welcomeJobId userId) }

/-- The part of `welcome` from the enqueue on. -/
def act (queue : EmailQueue) (userId : String) (existing : Option (QueuedJob EmailJobData)) :
    EmailQueue × Outcome :=
  match queue.enqueue WELCOME_JOB (.welcome ⟨userId⟩) (options userId) false with
  | .ok job => (job.queue, ⟨.ok ⟨existing.isNone, welcomeJobId userId⟩, job.created⟩)
  | .error error => (queue, ⟨.error error, false⟩)

/-- A receipt is enqueued by one of the other producers, or a job is removed. -/
inductive QueueChange where
  | receipt (data : ReceiptEmailJobData) (priority : Option ℕ) (delay : Option ℚ)
  | remove (id : String)

def disturb (queue : EmailQueue) : QueueChange → EmailQueue
  | .receipt data priority delay =>
      queue.insertAuto ⟨RECEIPT_JOB, .receipt data, { priority, delay }⟩
  | .remove id => queue.remove id

def welcome : Protocol EmailQueue String (Option (QueuedJob EmailJobData)) Unit Outcome
    QueueChange where
  check queue userId := getJob queue (welcomeJobId userId)
  act queue userId existing _ := act queue userId existing
  disturb

abbrev Calls : Type := State EmailQueue String (Option (QueuedJob EmailJobData)) Outcome

end OnboardingService

/-- The welcome job of a user. -/
def welcomeJob (userId : String) : QueuedJob EmailJobData :=
  ⟨WELCOME_JOB, .welcome ⟨userId⟩, OnboardingService.options userId⟩

def isWelcomeFor (userId : String) (job : QueuedJob EmailJobData) : Bool :=
  match job.data with
  | .welcome data => data.userId = userId
  | .receipt _ => false

/-- The welcome jobs of a user in the queue, with their ids. -/
def welcomeJobs (queue : JobQueue EmailJobData) (userId : String) :
    List (String × QueuedJob EmailJobData) :=
  queue.jobs.entries.filter fun entry ↦ isWelcomeFor userId entry.2

/-- No welcome job is removed. -/
def KeepsWelcomeJobs (queue : JobQueue EmailJobData) : OnboardingService.QueueChange → Prop
  | .remove id => ∀ job userId, queue.jobs.get? id = some job → isWelcomeFor userId job = false
  | .receipt .. => True

/-! ## Ids of welcome jobs -/

theorem welcomeJobId_inj {userId other : String} :
    welcomeJobId userId = welcomeJobId other ↔ userId = other :=
  String.append_right_inj _

theorem isNumeral_welcomeJobId (userId : String) : isNumeral (welcomeJobId userId) = false :=
  isNumeral_eq_false (c := 'w') (by simp [welcomeJobId]) (by decide)

theorem autoId_ne_welcomeJobId (n : ℕ) (userId : String) : autoId n ≠ welcomeJobId userId := by
  intro h
  have hnumeral := isNumeral_welcomeJobId userId
  rw [← h, isNumeral_autoId] at hnumeral
  exact Bool.noConfusion hnumeral

theorem isCustomId_welcomeJobId {userId : String} (h : matchesUserId userId = true) :
    isCustomId (welcomeJobId userId) = true := by
  have hchars : ∀ c ∈ userId.toList, isUserIdChar c = true := by
    simp only [matchesUserId, Bool.and_eq_true, List.all_eq_true] at h
    exact h.2
  have hcolon : ':' ∉ userId.toList := fun hmem ↦ absurd (hchars ':' hmem) (by decide)
  have hinteger : isInteger (welcomeJobId userId) = false := by
    rw [isInteger, isNumeral_welcomeJobId]
    simp [welcomeJobId]
  have hnocolon : ':' ∉ (welcomeJobId userId).toList := by simp [welcomeJobId, hcolon]
  simp [isCustomId, hinteger, hnocolon]

/-! ## One call -/

namespace OnboardingService

theorem act_custom {userId : String} (hid : isCustomId (welcomeJobId userId) = true)
    (queue : EmailQueue) (existing : Option (QueuedJob EmailJobData)) :
    act queue userId existing =
      (if queue.jobs.has (welcomeJobId userId) then queue
        else queue.insertCustom (welcomeJobId userId) hid (welcomeJob userId),
      ⟨.ok ⟨existing.isNone, welcomeJobId userId⟩, !queue.jobs.has (welcomeJobId userId)⟩) := by
  have henqueue : queue.enqueue WELCOME_JOB (.welcome ⟨userId⟩) (options userId) false =
      if queue.jobs.has (welcomeJobId userId) then .ok ⟨queue, welcomeJobId userId, false⟩
      else .ok ⟨queue.insertCustom (welcomeJobId userId) hid (welcomeJob userId),
        welcomeJobId userId, true⟩ := JobQueue.enqueue_custom rfl rfl hid
  unfold act
  rw [henqueue]
  cases queue.jobs.has (welcomeJobId userId) <;> rfl

theorem act_invalid {userId : String} (hid : isCustomId (welcomeJobId userId) = false)
    (queue : EmailQueue) (existing : Option (QueuedJob EmailJobData)) :
    act queue userId existing =
      (queue, ⟨.error (.invalidJobId (welcomeJobId userId)), false⟩) := by
  simp [act, JobQueue.enqueue, options, hid]

/-- An action leaves the jobs as they are, or adds the welcome job of the user,
who had none. -/
theorem act_cases (queue : EmailQueue) (userId : String)
    (existing : Option (QueuedJob EmailJobData)) :
    (act queue userId existing).2.inserted = false ∧
        (act queue userId existing).1.jobs = queue.jobs ∨
      (act queue userId existing).2.inserted = true ∧
        queue.jobs.get? (welcomeJobId userId) = none ∧
        (act queue userId existing).1.jobs =
          queue.jobs.set (welcomeJobId userId) (welcomeJob userId) := by
  cases hid : isCustomId (welcomeJobId userId) with
  | false => exact .inl (by rw [act_invalid hid]; exact ⟨rfl, rfl⟩)
  | true =>
      rw [act_custom hid]
      cases hhas : queue.jobs.has (welcomeJobId userId) with
      | true => exact .inl ⟨rfl, rfl⟩
      | false => exact .inr ⟨rfl, by simpa [InsertionMap.has] using hhas, rfl⟩

/-- A job in the queue stays where it is. -/
theorem get?_act {queue : EmailQueue} {id : String} {job : QueuedJob EmailJobData}
    (h : queue.jobs.get? id = some job) (userId : String)
    (existing : Option (QueuedJob EmailJobData)) :
    (act queue userId existing).1.jobs.get? id = some job := by
  rcases act_cases queue userId existing with ⟨-, hjobs⟩ | ⟨-, hnone, hjobs⟩
  · rwa [hjobs]
  · have hne : id ≠ welcomeJobId userId := by
      rintro rfl
      rw [hnone] at h
      exact absurd h (by simp)
    rw [hjobs, InsertionMap.get?_set, if_neg hne, h]

theorem get?_disturb {queue : EmailQueue} {id : String} {job : QueuedJob EmailJobData}
    (h : queue.jobs.get? id = some job) {userId : String} (hjob : isWelcomeFor userId job = true)
    {change : QueueChange} (hkeeps : KeepsWelcomeJobs queue change) :
    (disturb queue change).jobs.get? id = some job := by
  cases change with
  | receipt data priority delay =>
      have hne : id ≠ autoId queue.nextId := by
        rintro rfl
        exact absurd h (by rw [InsertionMap.get?_eq_none_iff.mpr (queue.fresh _ le_rfl)]; simp)
      rw [disturb, JobQueue.jobs_insertAuto, InsertionMap.get?_set, if_neg hne, h]
  | remove removed =>
      have hne : id ≠ removed := by
        rintro rfl
        rw [hkeeps job userId h] at hjob
        exact Bool.noConfusion hjob
      change (queue.jobs.delete removed).get? id = some job
      rw [InsertionMap.get?_delete, if_neg hne, h]

end OnboardingService

/-! ## What every run keeps -/

/-- The welcome jobs are where their ids say. -/
structure WelcomeIds (queue : JobQueue EmailJobData) : Prop where
  id_eq : ∀ id job userId, queue.jobs.get? id = some job → isWelcomeFor userId job = true →
    id = welcomeJobId userId
  job_eq : ∀ userId job, queue.jobs.get? (welcomeJobId userId) = some job →
    job = welcomeJob userId

theorem isWelcomeFor_welcomeJob {userId other : String} :
    isWelcomeFor other (welcomeJob userId) = true ↔ userId = other := by
  simp [isWelcomeFor, welcomeJob]

theorem WelcomeIds.welcomeJobs_eq {queue : JobQueue EmailJobData} (h : WelcomeIds queue)
    {userId : String} (hjob : queue.jobs.get? (welcomeJobId userId) = some (welcomeJob userId)) :
    welcomeJobs queue userId = [(welcomeJobId userId, welcomeJob userId)] := by
  apply InsertionMap.filter_entries_eq_singleton hjob
  rintro ⟨id, job⟩ hentry
  have hget := InsertionMap.get?_eq_some_iff.mpr hentry
  constructor
  · exact h.id_eq id job userId hget
  · rintro rfl
    rw [h.job_eq userId job hget]
    exact isWelcomeFor_welcomeJob.mpr rfl

theorem WelcomeIds.act {queue : JobQueue EmailJobData} (h : WelcomeIds queue) (userId : String)
    (existing : Option (QueuedJob EmailJobData)) :
    WelcomeIds (OnboardingService.act queue userId existing).1 := by
  rcases OnboardingService.act_cases queue userId existing with ⟨-, hjobs⟩ | ⟨-, -, hjobs⟩
  · exact ⟨by simpa only [hjobs] using h.id_eq, by simpa only [hjobs] using h.job_eq⟩
  · constructor
    · intro id job other hget hjob
      rw [hjobs, InsertionMap.get?_set] at hget
      split at hget
      · next hid =>
          obtain rfl := Option.some.inj hget
          rw [hid, isWelcomeFor_welcomeJob.mp hjob]
      · exact h.id_eq id job other hget hjob
    · intro other job hget
      rw [hjobs, InsertionMap.get?_set] at hget
      split at hget
      · next hid =>
          obtain rfl := Option.some.inj hget
          rw [welcomeJobId_inj.mp hid]
      · exact h.job_eq other job hget

theorem WelcomeIds.get?_act_self {queue : JobQueue EmailJobData} (h : WelcomeIds queue)
    {userId : String} (hid : isCustomId (welcomeJobId userId) = true)
    (existing : Option (QueuedJob EmailJobData)) :
    (OnboardingService.act queue userId existing).1.jobs.get? (welcomeJobId userId) =
      some (welcomeJob userId) := by
  rw [OnboardingService.act_custom hid]
  cases hget : queue.jobs.get? (welcomeJobId userId) with
  | none =>
      have hhas : queue.jobs.has (welcomeJobId userId) = false := by
        simp [InsertionMap.has, hget]
      simp only [hhas, JobQueue.jobs_insertCustom, Bool.false_eq_true, if_false]
      rw [InsertionMap.get?_set, if_pos rfl]
  | some job =>
      have hhas : queue.jobs.has (welcomeJobId userId) = true := by
        simp [InsertionMap.has, hget]
      simp only [hhas, if_true]
      rw [hget, h.job_eq userId job hget]

theorem WelcomeIds.disturb {queue : JobQueue EmailJobData} (h : WelcomeIds queue)
    (change : OnboardingService.QueueChange) :
    WelcomeIds (OnboardingService.disturb queue change) := by
  cases change with
  | receipt data priority delay =>
      constructor
      · intro id job userId hget hjob
        rw [OnboardingService.disturb, JobQueue.jobs_insertAuto, InsertionMap.get?_set] at hget
        split at hget
        · obtain rfl := Option.some.inj hget
          simp [isWelcomeFor] at hjob
        · exact h.id_eq id job userId hget hjob
      · intro userId job hget
        rw [OnboardingService.disturb, JobQueue.jobs_insertAuto, InsertionMap.get?_set,
          if_neg (autoId_ne_welcomeJobId _ _).symm] at hget
        exact h.job_eq userId job hget
  | remove removed =>
      have hget : ∀ {id job}, (queue.jobs.delete removed).get? id = some job →
          queue.jobs.get? id = some job := by
        intro id job hsome
        rw [InsertionMap.get?_delete] at hsome
        split at hsome
        · exact absurd hsome (by simp)
        · exact hsome
      exact ⟨fun id job userId hsome ↦ h.id_eq id job userId (hget hsome),
        fun userId job hsome ↦ h.job_eq userId job (hget hsome)⟩

namespace OnboardingService

/-- How many finished calls have inserted the welcome job of the user. -/
def insertions (s : Calls) (userId : String) : ℕ :=
  s.finished.countP fun call ↦ call.input = userId && call.outcome.inserted

/-- The welcome job of a user is in the queue exactly when a call has inserted
it, and then only one has. -/
structure Accounted (s : Calls) : Prop where
  ids : WelcomeIds s.store
  once : ∀ userId, insertions s userId =
    if s.store.jobs.has (welcomeJobId userId) then 1 else 0

theorem has_disturb {queue : EmailQueue} (h : WelcomeIds queue) {change : QueueChange}
    (hkeeps : KeepsWelcomeJobs queue change) (userId : String) :
    (disturb queue change).jobs.has (welcomeJobId userId) =
      queue.jobs.has (welcomeJobId userId) := by
  cases change with
  | receipt data priority delay =>
      rw [disturb, JobQueue.jobs_insertAuto, InsertionMap.has_set,
        if_neg (autoId_ne_welcomeJobId _ _).symm]
  | remove removed =>
      change (queue.jobs.delete removed).has (welcomeJobId userId) = _
      rw [InsertionMap.has_delete]
      by_cases hid : welcomeJobId userId = removed
      · subst hid
        cases hget : queue.jobs.get? (welcomeJobId userId) with
        | none => simp [InsertionMap.has, hget]
        | some job =>
            have hnot := hkeeps job userId hget
            rw [h.job_eq userId job hget, isWelcomeFor_welcomeJob.mpr rfl] at hnot
            exact Bool.noConfusion hnot
      · simp [hid]

theorem Accounted.step {s : Calls} (h : Accounted s) {e : Event String Unit QueueChange}
    (he : Protocol.Allowed KeepsWelcomeJobs s e) : Accounted (welcome.step s e) := by
  cases e with
  | check userId => exact ⟨h.ids, h.once⟩
  | disturb change =>
      refine ⟨h.ids.disturb change, fun userId ↦ ?_⟩
      change insertions s userId = if (disturb s.store change).jobs.has _ then 1 else 0
      rw [has_disturb h.ids he, h.once]
  | act call choice =>
      cases hget : s.pending[call]? with
      | none => rwa [Protocol.step_act_none hget]
      | some acting =>
          obtain ⟨userId, existing⟩ := acting
          rw [Protocol.step_act_some hget]
          refine ⟨h.ids.act userId existing, fun other ↦ ?_⟩
          have honce := h.once other
          simp only [insertions, List.countP_append, List.countP_singleton] at honce ⊢
          change _ + (if (decide (userId = other) && (act s.store userId existing).2.inserted)
            then 1 else 0) = if (act s.store userId existing).1.jobs.has _ then 1 else 0
          rw [honce]
          rcases act_cases s.store userId existing with ⟨hkept, hjobs⟩ | ⟨hnew, hnone, hjobs⟩
          · simp [hkept, hjobs]
          · rw [hjobs, InsertionMap.has_set, hnew]
            by_cases hother : userId = other
            · subst hother
              simp [InsertionMap.has, hnone]
            · have hne : welcomeJobId other ≠ welcomeJobId userId :=
                mt welcomeJobId_inj.mp (Ne.symm hother)
              simp [hother, hne]

/-- A welcome job that a call has seen is still there. -/
def StillThere (queue : EmailQueue) (userId : String)
    (existing : Option (QueuedJob EmailJobData)) : Prop :=
  ∀ job other, existing = some job → isWelcomeFor other job = true →
    queue.jobs.get? (welcomeJobId userId) = some job

theorem keeps_stillThere : welcome.Keeps KeepsWelcomeJobs StillThere where
  checked _ _ _ _ hjob _ := hjob
  acted _ _ _ other otherExisting _ h _ job user hjob huser :=
    get?_act (h job user hjob huser) other otherExisting
  disturbed _ _ _ _ h hkeeps job user hjob huser :=
    get?_disturb (h job user hjob huser) huser hkeeps

end OnboardingService

theorem welcomeIds_empty : WelcomeIds .empty :=
  ⟨by simp [JobQueue.empty, InsertionMap.empty, InsertionMap.get?],
    by simp [JobQueue.empty, InsertionMap.empty, InsertionMap.get?]⟩

/-- What a finished call reports: it has seen no job if it inserted one, and if
it reports none created then the job was there at its own read. -/
structure Reports (es : List (Event String Unit OnboardingService.QueueChange))
    (call : Finished String (Option (QueuedJob EmailJobData)) OnboardingService.Outcome)
    (result : OnboardingResult) : Prop where
  resolves : call.outcome.result = .ok result
  jobId : result.jobId = welcomeJobId call.input
  created : call.outcome.inserted = true → result.created = true
  existed : result.created = false → ∃ before between choice,
    Protocol.ActsAfter OnboardingService.welcome .empty es call before between choice ∧
      OnboardingService.getJob
        (exec OnboardingService.welcome.step ⟨.empty, [], []⟩ before).store
        (welcomeJobId call.input) = some (welcomeJob call.input)

section Runs

variable {es : List (Event String Unit OnboardingService.QueueChange)}

theorem accounted_exec
    (hkept : AllSteps OnboardingService.welcome.step (Protocol.Allowed KeepsWelcomeJobs)
      ⟨.empty, [], []⟩ es) :
    OnboardingService.Accounted (exec OnboardingService.welcome.step ⟨.empty, [], []⟩ es) :=
  exec_invariant_of_allSteps (I := OnboardingService.Accounted) (fun _ _ hs he ↦ hs.step he)
    ⟨welcomeIds_empty, fun _ ↦ rfl⟩ hkept

theorem accepted_of_welcome {ε : Type} {zod : Zod} (hzod : zod.Checks) {param : JsValue}
    {userId : String}
    (h : (OnboardingController.welcome zod param : Except (Rejection ε) String) = .ok userId) :
    matchesUserId userId = true := by
  have hchecks := (hzod.string_iff.mp (parseRequest_ok_iff.mp h)).2
  exact hchecks (.regex matchesUserId) (by simp)

variable {call : Finished String (Option (QueuedJob EmailJobData)) OnboardingService.Outcome}

theorem get?_of_mem_finished
    (hkept : AllSteps OnboardingService.welcome.step (Protocol.Allowed KeepsWelcomeJobs)
      ⟨.empty, [], []⟩ es)
    (hids : ∀ userId, Event.check userId ∈ es → matchesUserId userId = true)
    (hcall : call ∈ (exec OnboardingService.welcome.step ⟨.empty, [], []⟩ es).finished) :
    (exec OnboardingService.welcome.step ⟨.empty, [], []⟩ es).store.jobs.get?
      (welcomeJobId call.input) = some (welcomeJob call.input) := by
  obtain ⟨before, between, choice, hacts⟩ := Protocol.exists_of_mem_finished hcall
  obtain ⟨index, after, rfl, hstore⟩ := hacts.run
  have hid := isCustomId_welcomeJobId (hids call.input (by simp))
  obtain ⟨hbefore, hafter⟩ := AllSteps.append_iff.mp hkept
  have hacted : (exec OnboardingService.welcome.step ⟨.empty, [], []⟩
      (before ++ .check call.input :: between ++ [.act index choice])).store.jobs.get?
        (welcomeJobId call.input) = some (welcomeJob call.input) := by
    rw [hstore]
    exact (accounted_exec hbefore).ids.get?_act_self hid call.seen
  rw [exec_append, exec_cons, exec_nil] at hacted
  rw [exec_append, exec_cons]
  exact Protocol.store_exec
    (I := fun queue ↦ queue.jobs.get? (welcomeJobId call.input) = some (welcomeJob call.input))
    (fun _ other existing _ h ↦ OnboardingService.get?_act h other existing)
    (fun _ _ h hkeeps ↦
      OnboardingService.get?_disturb h (isWelcomeFor_welcomeJob.mpr rfl) hkeeps)
    hafter.2 hacted

theorem reports_of_mem_finished
    (hkept : AllSteps OnboardingService.welcome.step (Protocol.Allowed KeepsWelcomeJobs)
      ⟨.empty, [], []⟩ es)
    (hids : ∀ userId, Event.check userId ∈ es → matchesUserId userId = true)
    (hcall : call ∈ (exec OnboardingService.welcome.step ⟨.empty, [], []⟩ es).finished) :
    ∃ result, Reports es call result := by
  obtain ⟨before, between, choice, hacts⟩ := Protocol.exists_of_mem_finished hcall
  obtain ⟨index, after, hes, -⟩ := hacts.run
  have hid := isCustomId_welcomeJobId (hids call.input (by simp [hes]))
  have hbetween := (AllSteps.append_iff.mp (hes ▸ hkept)).1
  have hseen : ∀ job, call.seen = some job → job = welcomeJob call.input := fun job hjob ↦
    (accounted_exec (AllSteps.append_iff.mp hbetween).1).ids.job_eq call.input job
      (hacts.seen.symm.trans hjob)
  have hstill : OnboardingService.StillThere _ call.input call.seen :=
    Protocol.pending_exec OnboardingService.keeps_stillThere hbetween (by simp [Protocol.Pending])
      _ hacts.pending
  have houtcome := hacts.outcome
  rw [show OnboardingService.welcome.act _ _ _ _ = OnboardingService.act _ _ _ from rfl,
    OnboardingService.act_custom hid] at houtcome
  refine ⟨⟨call.seen.isNone, welcomeJobId call.input⟩, by rw [houtcome], rfl, ?_, ?_⟩
  · intro hinserted
    rw [houtcome, Bool.not_eq_true'] at hinserted
    cases hjob : call.seen with
    | none => rfl
    | some job =>
        have hget := hstill job call.input hjob (by
          rw [hseen job hjob]
          exact isWelcomeFor_welcomeJob.mpr rfl)
        rw [InsertionMap.has, hget] at hinserted
        exact Bool.noConfusion hinserted
  · intro hcreated
    cases hjob : call.seen with
    | none => simp [hjob] at hcreated
    | some job =>
        refine ⟨before, between, choice, hacts, ?_⟩
        rw [← hseen job hjob, ← hjob]
        exact hacts.seen.symm

end Runs

/-- However the calls interleave, and as long as no welcome job is removed: a
user for whom a call has finished has one welcome job, which one call has
inserted; the jobs of different users differ; and the flags are right about the
insertion and about what was there at the call's own look. -/
theorem onboarding_idempotent {ε : Type} {zod : Zod} (hzod : zod.Checks)
    {es : List (Event String Unit OnboardingService.QueueChange)}
    (hids : ∀ userId, Event.check userId ∈ es → ∃ param,
      (OnboardingController.welcome zod param : Except (Rejection ε) String) = .ok userId)
    (hkept : AllSteps OnboardingService.welcome.step (Protocol.Allowed KeepsWelcomeJobs)
      ⟨.empty, [], []⟩ es) :
    let s := exec OnboardingService.welcome.step ⟨.empty, [], []⟩ es
    (∀ call ∈ s.finished, welcomeJobs s.store call.input =
      [(welcomeJobId call.input, welcomeJob call.input)] ∧
        OnboardingService.insertions s call.input = 1) ∧
    (∀ userId other, userId ≠ other → ∀ job ∈ welcomeJobs s.store userId,
      ∀ otherJob ∈ welcomeJobs s.store other, job.1 ≠ otherJob.1) ∧
    ∀ call ∈ s.finished, ∃ result, Reports es call result := by
  have haccepted : ∀ userId, Event.check userId ∈ es → matchesUserId userId = true := by
    intro userId hmem
    obtain ⟨param, hparam⟩ := hids userId hmem
    exact accepted_of_welcome hzod hparam
  have haccounted := accounted_exec hkept
  refine ⟨fun call hcall ↦ ?_, ?_, fun call hcall ↦ reports_of_mem_finished hkept haccepted hcall⟩
  · have hget := get?_of_mem_finished hkept haccepted hcall
    refine ⟨haccounted.ids.welcomeJobs_eq hget, ?_⟩
    rw [haccounted.once, if_pos (by simp [InsertionMap.has, hget])]
  · rintro userId other hne ⟨id, job⟩ hjob ⟨otherId, otherJob⟩ hother rfl
    obtain ⟨hentry, hwelcome⟩ := List.mem_filter.mp hjob
    obtain ⟨hotherEntry, hotherWelcome⟩ := List.mem_filter.mp hother
    have hid := haccounted.ids.id_eq _ _ _ (InsertionMap.get?_eq_some_iff.mpr hentry) hwelcome
    have hotherId := haccounted.ids.id_eq _ _ _
      (InsertionMap.get?_eq_some_iff.mpr hotherEntry) hotherWelcome
    exact hne (welcomeJobId_inj.mp (hid.symm.trans hotherId))

def threeWelcomes : List (Event String Unit OnboardingService.QueueChange) :=
  [.check "bob", .check "bob", .act 0 (), .act 0 (), .check "bob", .act 0 ()]

theorem welcome_bob : (OnboardingController.welcome (Zod.ofParse fun _ ↦ none) (.string "bob") :
    Except (Rejection Empty) String) = .ok "bob" := by
  have hchecks : ∀ check ∈ [.regex matchesUserId, .max MAX_USER_ID_LENGTH],
      StringCheck.holds check "bob" = true := by
    decide
  exact parseRequest_ok_iff.mpr ((Zod.checks_ofParse _).string_iff.mpr ⟨rfl, hchecks⟩)

def thirdWelcome : Finished String (Option (QueuedJob EmailJobData)) OnboardingService.Outcome :=
  ⟨"bob", some (welcomeJob "bob"), ⟨.ok ⟨false, "welcome-bob"⟩, false⟩⟩

/-- Two calls saw no job and one of them inserted it; the third call reports what
it has read itself. -/
theorem onboarding_idempotent_three :
    welcomeJobs (exec OnboardingService.welcome.step ⟨.empty, [], []⟩ threeWelcomes).store "bob" =
      [("welcome-bob", welcomeJob "bob")] ∧
    ∃ before between choice,
      Protocol.ActsAfter OnboardingService.welcome .empty threeWelcomes thirdWelcome before between
        choice := by
  have hids : ∀ userId, Event.check userId ∈ threeWelcomes → ∃ param,
      (OnboardingController.welcome (Zod.ofParse fun _ ↦ none) param :
        Except (Rejection Empty) String) = .ok userId := by
    intro userId hmem
    obtain rfl : userId = "bob" := by simpa [threeWelcomes] using hmem
    exact ⟨_, welcome_bob⟩
  have hkept : AllSteps OnboardingService.welcome.step (Protocol.Allowed KeepsWelcomeJobs)
      ⟨.empty, [], []⟩ threeWelcomes :=
    ⟨trivial, trivial, trivial, trivial, trivial, trivial, trivial⟩
  obtain ⟨hjobs, -, hreports⟩ := onboarding_idempotent (Zod.checks_ofParse _) hids hkept
  have hthird : thirdWelcome ∈
      (exec OnboardingService.welcome.step ⟨.empty, [], []⟩ threeWelcomes).finished :=
    List.mem_cons_of_mem _ (List.mem_cons_of_mem _ List.mem_cons_self)
  obtain ⟨result, hreport⟩ := hreports thirdWelcome hthird
  have hresult : result = ⟨false, "welcome-bob"⟩ := by
    simpa [thirdWelcome] using hreport.resolves.symm
  obtain ⟨before, between, choice, hacts, -⟩ := hreport.existed (by rw [hresult])
  exact ⟨(hjobs thirdWelcome hthird).1, before, between, choice, hacts⟩

end NestQueueExample.Orders
