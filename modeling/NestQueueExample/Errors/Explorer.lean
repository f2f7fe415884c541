import NestQueueExample.Admin.Queues
import NestQueueExample.Http.Envelope

/-!
# The error explorer

The catalog of the error codes, and the triggers that provoke some of them by
the operation that fails with them. Whatever the library answers, the explorer
asks it for nothing that a library which keeps its documented checks carries
out, and a code it cannot provoke is rejected without a call.
-/

namespace NestQueueExample.Errors

open Admin Http Queues

/-! ## The catalog -/

inductive ErrorOrigin where
  | library
  | consumer
  deriving DecidableEq

structure CatalogEntry where
  code : QueueErrorCode
  message : String
  httpStatus : ℕ
  reproducibleHere : Bool
  raisedBy : ErrorOrigin
  coveredBy : String

def ERROR_HTTP_STATUS : QueueErrorCode → ℕ
  | .CONNECTION_INVALID => INTERNAL_SERVER_ERROR
  | .CONNECTION_REQUIRES_NULL_RETRIES => INTERNAL_SERVER_ERROR
  | .CONNECTION_TIMEOUT => INTERNAL_SERVER_ERROR
  | .QUEUE_NOT_FOUND => NOT_FOUND
  | .JOB_NOT_FOUND => NOT_FOUND
  | .INVALID_JOB_DATA => BAD_REQUEST
  | .INVALID_REPEAT_OPTIONS => BAD_REQUEST
  | .DUPLICATE_PROCESSOR => INTERNAL_SERVER_ERROR
  | .FLOW_DISABLED => SERVICE_UNAVAILABLE
  | .METRICS_DISABLED => SERVICE_UNAVAILABLE
  | .SHUTDOWN_TIMEOUT_EXCEEDED => INTERNAL_SERVER_ERROR
  | .BULK_ENQUEUE_FAILED => INTERNAL_SERVER_ERROR
  | .WORKER_REGISTRATION_FAILED => INTERNAL_SERVER_ERROR
  | .INVALID_OPTIONS => INTERNAL_SERVER_ERROR

inductive ReproducibleErrorCode where
  | QUEUE_NOT_FOUND
  | JOB_NOT_FOUND
  | INVALID_JOB_DATA
  | INVALID_REPEAT_OPTIONS
  | BULK_ENQUEUE_FAILED
  | INVALID_OPTIONS
  | DUPLICATE_PROCESSOR
  deriving DecidableEq

def ReproducibleErrorCode.code : ReproducibleErrorCode → QueueErrorCode
  | .QUEUE_NOT_FOUND => .QUEUE_NOT_FOUND
  | .JOB_NOT_FOUND => .JOB_NOT_FOUND
  | .INVALID_JOB_DATA => .INVALID_JOB_DATA
  | .INVALID_REPEAT_OPTIONS => .INVALID_REPEAT_OPTIONS
  | .BULK_ENQUEUE_FAILED => .BULK_ENQUEUE_FAILED
  | .INVALID_OPTIONS => .INVALID_OPTIONS
  | .DUPLICATE_PROCESSOR => .DUPLICATE_PROCESSOR

def REPRODUCIBLE_CODES : List ReproducibleErrorCode :=
  [.QUEUE_NOT_FOUND, .JOB_NOT_FOUND, .INVALID_JOB_DATA, .INVALID_REPEAT_OPTIONS,
    .BULK_ENQUEUE_FAILED, .INVALID_OPTIONS, .DUPLICATE_PROCESSOR]

def CODE_ORIGIN : QueueErrorCode → ErrorOrigin
  | .CONNECTION_INVALID => .library
  | .CONNECTION_REQUIRES_NULL_RETRIES => .library
  | .CONNECTION_TIMEOUT => .library
  | .QUEUE_NOT_FOUND => .consumer
  | .JOB_NOT_FOUND => .consumer
  | .INVALID_JOB_DATA => .consumer
  | .INVALID_REPEAT_OPTIONS => .library
  | .DUPLICATE_PROCESSOR => .library
  | .FLOW_DISABLED => .library
  | .METRICS_DISABLED => .library
  | .SHUTDOWN_TIMEOUT_EXCEEDED => .library
  | .BULK_ENQUEUE_FAILED => .library
  | .WORKER_REGISTRATION_FAILED => .library
  | .INVALID_OPTIONS => .library

def COVERAGE_NOTES : QueueErrorCode → String
  | .CONNECTION_INVALID => "e2e connection variants (boot-time)"
  | .CONNECTION_REQUIRES_NULL_RETRIES => "e2e connection variants (boot-time)"
  | .CONNECTION_TIMEOUT => "e2e connection variants (boot-time)"
  | .QUEUE_NOT_FOUND => "reproducible via the error explorer"
  | .JOB_NOT_FOUND => "reproducible via the error explorer"
  | .INVALID_JOB_DATA => "reproducible via the error explorer"
  | .INVALID_REPEAT_OPTIONS => "reproducible via the error explorer"
  | .DUPLICATE_PROCESSOR => "reproducible via the error explorer"
  | .FLOW_DISABLED => "library unit tests (this app enables flows)"
  | .METRICS_DISABLED => "library unit tests (this app enables metrics)"
  | .SHUTDOWN_TIMEOUT_EXCEEDED => "e2e shutdown variant (shutdown-time)"
  | .BULK_ENQUEUE_FAILED => "reproducible via the error explorer"
  | .WORKER_REGISTRATION_FAILED => "workers surface (invalid options / bad processor file)"
  | .INVALID_OPTIONS => "reproducible via the error explorer"

variable (codes : QueueErrorCodes)

/-- The code that the string is narrowed to, where it is reproducible. -/
def isReproducibleCode (code : String) : Option ReproducibleErrorCode :=
  REPRODUCIBLE_CODES.find? fun reproducible ↦ codes.text reproducible.code = code

def catalogEntry (messages : String → Option String) (code : QueueErrorCode) : CatalogEntry :=
  let reproducibleHere := (isReproducibleCode codes (codes.text code)).isSome
  { code := code
    message := (messages (codes.text code)).getD "Queue error"
    httpStatus := ERROR_HTTP_STATUS code
    reproducibleHere := reproducibleHere
    raisedBy := CODE_ORIGIN code
    coveredBy := if reproducibleHere then "POST /errors/trigger/" ++ codes.text code
      else COVERAGE_NOTES code }

def buildCatalog (messages : String → Option String) : List CatalogEntry :=
  codes.values.map (catalogEntry codes messages)

theorem mem_REPRODUCIBLE_CODES (code : ReproducibleErrorCode) : code ∈ REPRODUCIBLE_CODES := by
  cases code <;> decide

theorem isReproducibleCode_eq_some_iff {codes : QueueErrorCodes} {text : String}
    {code : ReproducibleErrorCode} :
    isReproducibleCode codes text = some code ↔ codes.text code.code = text := by
  constructor
  · intro h
    simpa using List.find?_some h
  · rintro rfl
    have hsome : (isReproducibleCode codes (codes.text code.code)).isSome := by
      rw [isReproducibleCode, List.find?_isSome]
      exact ⟨code, mem_REPRODUCIBLE_CODES code, by simp⟩
    obtain ⟨other, hother⟩ := Option.isSome_iff_exists.mp hsome
    have hcode : other.code = code.code := by
      apply codes.text_injective
      simpa using List.find?_some hother
    have hsame : other = code := by
      cases other <;> cases code <;> first | rfl | exact QueueErrorCode.noConfusion hcode
    rw [hother, hsame]

/-! ## Calls -/

structure BulkJob where
  name : String
  index : ℕ

inductive ExplorerCall (L : Library) where
  | queues (call : Call L)
  | enqueueBulk (name : String) (jobs : List BulkJob)
  | forRoot (url : String) (drainTimeoutMs : ℚ)
  | registerWorker (queueName : String)

abbrev ExplorerCall.Answer {L : Library} : ExplorerCall L → Type
  | .queues call => call.Answer
  | .enqueueBulk .. => List Job
  | .forRoot .. | .registerWorker _ => Unit

abbrev Explorer (L : Library) (α : Type) : Type :=
  Program (ExplorerCall L) ExplorerCall.Answer (Thrown L.Error) α

/-- What a handler reads of the process: the clock, and the registered workers. -/
structure Moment where
  now : ℚ
  workers : List String

variable {L : Library}

def invoke (call : ExplorerCall L) : Explorer L call.Answer := Program.call call

def throwHttp {α : Type} (exception : HttpException) : Explorer L α :=
  .done (.error (.http exception))

def ofHandler {α : Type} (handler : Handler L α) : Explorer L α :=
  handler.lift .queues (fun _ answer ↦ answer) (Rejection.thrown codes)

/-! ## The service -/

def MINUTE_MS : ℚ := 60000
def OVERSIZED_BATCH_SIZE : ℕ := 1001
def UNKNOWN_QUEUE : String := "errors-explorer-unknown-queue"
def MISSING_JOB_ID : String := "errors-explorer-missing-job"
def PROBE_QUEUE : String := AUDIT_QUEUE
def INVALID_OPTIONS_URL : String := "redis://errors-explorer-invalid-options:6379"

/-- The schema of an object with an e-mail address. -/
def PROBE_JOB_SCHEMA (isEmail : String → Bool) : Schema String :=
  .object (.cons "to" (.string [.regex isEmail]) .nil) Prod.fst

def INVALID_JOB_PAYLOAD : JsValue := .object [(.own "to", .string "not-an-email")]

def buildOversizedBatch : List BulkJob :=
  (List.range OVERSIZED_BATCH_SIZE).map fun index ↦ ⟨"probe", index⟩

def repeatOptions (pattern : Option String) (every endDate : Option ℚ) :
    JobSchedulerRepeatOptions :=
  ⟨pattern, none, every, none, none, none, endDate.map .inl⟩

def invalidRepeatVariant (now variant : ℚ) : JobSchedulerRepeatOptions :=
  if variant = 1 then repeatOptions none (some 0) none
  else if variant = 2 then repeatOptions (some "not-a-valid-cron-expression") none none
  else if variant = 3 then repeatOptions (some "0 3 * * *") none (some (now - MINUTE_MS))
  else repeatOptions (some "0 3 * * *") (some MINUTE_MS) none

namespace ErrorExplorerService

def catalog : List CatalogEntry := buildCatalog codes fun text ↦ some (codes.message text)

def triggerQueueNotFound : Explorer L Unit := do
  let _ ← ofHandler codes (AdminQueuesService.getManagedQueue UNKNOWN_QUEUE)

def triggerJobNotFound : Explorer L Unit := do
  let _ ← ofHandler codes (AdminQueuesService.findJob AUDIT_QUEUE MISSING_JOB_ID)

def triggerInvalidJobData (zod : Zod) (isEmail : String → Bool) : Explorer L Unit := do
  let _ ← (.done (parseJobData codes zod (PROBE_JOB_SCHEMA isEmail) INVALID_JOB_PAYLOAD) :
    Explorer L String)

def triggerInvalidRepeatOptions (now variant : ℚ) : Explorer L Unit := do
  let _ ← invoke (.queues (.upsertJobScheduler PROBE_QUEUE "errors-explorer-scheduler"
    (invalidRepeatVariant now variant) none))

def triggerBulkEnqueueFailed : Explorer L Unit := do
  let _ ← invoke (.enqueueBulk PROBE_QUEUE buildOversizedBatch)

def triggerInvalidOptions : Explorer L Unit := invoke (.forRoot INVALID_OPTIONS_URL 0)

def triggerDuplicateProcessor (workers : List String) : Explorer L Unit :=
  match workers with
  | [] => throwHttp (queueException codes .DUPLICATE_PROCESSOR
      (ERROR_HTTP_STATUS .DUPLICATE_PROCESSOR)
      (.object [(.own "reason", .string "no registered worker to collide with")]))
  | registeredQueue :: _ => invoke (.registerWorker registeredQueue)

variable (zod : Zod) (isEmail : String → Bool) (moment : Moment)

def triggers (variant : ℚ) : ReproducibleErrorCode → Explorer L Unit
  | .QUEUE_NOT_FOUND => triggerQueueNotFound codes
  | .JOB_NOT_FOUND => triggerJobNotFound codes
  | .INVALID_JOB_DATA => triggerInvalidJobData codes zod isEmail
  | .INVALID_REPEAT_OPTIONS => triggerInvalidRepeatOptions moment.now variant
  | .BULK_ENQUEUE_FAILED => triggerBulkEnqueueFailed
  | .INVALID_OPTIONS => triggerInvalidOptions
  | .DUPLICATE_PROCESSOR => triggerDuplicateProcessor codes moment.workers

def trigger (code : ReproducibleErrorCode) (variant : ℚ) : Explorer L Empty := do
  triggers codes zod isEmail moment variant code
  throwHttp (queueException codes code.code (ERROR_HTTP_STATUS code.code)
    (.object [(.own "reason", .string "operation did not raise")]))

end ErrorExplorerService

/-! ## The controller -/

namespace ErrorExplorerController

def MAX_VARIANT : ℚ := 3

def triggerQuerySchema : Schema ℚ :=
  .object (.cons "variant" (.default (.coerceNumber [.int, .min 0, .max MAX_VARIANT]) 0) .nil)
    Prod.fst

def unknownCode : HttpException :=
  ⟨NOT_FOUND, "errors.unknown_code", "Unknown error code", .null⟩

def rejectNonReproducible (code : String) : HttpException :=
  match (ErrorExplorerService.catalog codes).find? fun candidate ↦
      codes.text candidate.code = code with
  | none => unknownCode
  | some entry => ⟨BAD_REQUEST, "errors.not_reproducible",
      "This code is covered outside the error explorer",
      .object [(.own "code", .string (codes.text entry.code)),
        (.own "coveredBy", .string entry.coveredBy)]⟩

def trigger (zod : Zod) (isEmail : String → Bool) (moment : Moment) (code : String)
    (query : JsValue) : Explorer L Empty :=
  match isReproducibleCode codes code with
  | some reproducible => do
      let variant ← ofHandler codes (Handler.sync (parseRequest zod triggerQuerySchema query))
      ErrorExplorerService.trigger codes zod isEmail moment reproducible variant
  | none => throwHttp (rejectNonReproducible codes code)

end ErrorExplorerController

/-! ## What is asked of the library -/

def MAX_BULK_SIZE : ℕ := 1000

/-- The schedules that the library documents as invalid: not exactly one of a
pattern and an interval, no positive interval, no cron expression, or an end
that has passed. -/
def RepeatInvalid (isCron : String → Bool) (clock : ℚ) (schedule : JobSchedulerRepeatOptions) :
    Prop :=
  schedule.pattern.isSome = schedule.every.isSome ∨
    (∃ every ∈ schedule.every, every ≤ 0) ∨
    (∃ pattern ∈ schedule.pattern, isCron pattern = false) ∨
    ∃ endDate, schedule.endDate = some (.inl endDate) ∧ endDate ≤ clock

/-- The calls that the library documents to fail, with their code and status. -/
inductive Refused (isCron : String → Bool) (clock : ℚ) (workers : List String) :
    ExplorerCall L → QueueErrorCode → ℕ → Prop
  | upsert {name id : String} {schedule : JobSchedulerRepeatOptions}
      {template : Option JobTemplate} (h : RepeatInvalid isCron clock schedule) :
      Refused isCron clock workers (.queues (.upsertJobScheduler name id schedule template))
        .INVALID_REPEAT_OPTIONS 400
  | enqueueBulk {name : String} {jobs : List BulkJob} (h : MAX_BULK_SIZE < jobs.length) :
      Refused isCron clock workers (.enqueueBulk name jobs) .BULK_ENQUEUE_FAILED 500
  | forRoot {url : String} {drainTimeoutMs : ℚ} (h : drainTimeoutMs ≤ 0) :
      Refused isCron clock workers (.forRoot url drainTimeoutMs) .INVALID_OPTIONS 500
  | registerWorker {queueName : String} (h : queueName ∈ workers) :
      Refused isCron clock workers (.registerWorker queueName) .DUPLICATE_PROCESSOR 500

def ExplorerCall.queueName : ExplorerCall L → Option String
  | .queues call => call.queueName
  | .enqueueBulk name _ | .registerWorker name => some name
  | .forRoot .. => none

/-- The call names a managed queue, or the queue of the first registered worker
by registering a second one for it, and it is a lookup of a job or one that the
library documents to fail. -/
structure Harmless (isCron : String → Bool) (clock : ℚ) (workers : List String)
    (call : ExplorerCall L) : Prop where
  named : ∀ name ∈ call.queueName,
    name ∈ KNOWN_QUEUES ∨ call = .registerWorker name ∧ workers.head? = some name
  unperformed : (∃ name jobId, call = .queues (.getJob name jobId)) ∨
    ∃ code status, Refused isCron clock workers call code status

section Harmless

variable {codes : QueueErrorCodes} {isCron : String → Bool} {clock : ℚ} {moment : Moment}

theorem repeatInvalid_invalidRepeatVariant
    (hcron : isCron "not-a-valid-cron-expression" = false) (hclock : moment.now ≤ clock)
    (variant : ℚ) : RepeatInvalid isCron clock (invalidRepeatVariant moment.now variant) := by
  unfold invalidRepeatVariant
  split
  · exact .inr (.inl ⟨0, rfl, le_refl 0⟩)
  · split
    · exact .inr (.inr (.inl ⟨_, rfl, hcron⟩))
    · split
      · refine .inr (.inr (.inr ⟨moment.now - MINUTE_MS, rfl, ?_⟩))
        have hminute : 0 ≤ MINUTE_MS := by decide
        exact (sub_le_self moment.now hminute).trans hclock
      · exact .inl rfl

theorem callsOnly_ofHandler {α : Type} {P : ExplorerCall L → Prop} {handler : Handler L α}
    (h : handler.CallsOnly fun call ↦ P (.queues call)) :
    (ofHandler codes handler).CallsOnly P :=
  Program.CallsOnly.lift h

theorem callsOnly_invoke {P : ExplorerCall L → Prop} {call : ExplorerCall L} :
    (invoke call).CallsOnly P ↔ P call :=
  Program.callsOnly_call

theorem harmless_of_refused {workers : List String} {call : ExplorerCall L} {code : QueueErrorCode}
    {status : ℕ} (hnamed : ∀ name ∈ call.queueName,
      name ∈ KNOWN_QUEUES ∨ call = .registerWorker name ∧ workers.head? = some name)
    (h : Refused isCron clock workers call code status) : Harmless isCron clock workers call :=
  ⟨hnamed, .inr ⟨code, status, h⟩⟩

theorem named_probe {name : String} (h : name ∈ some PROBE_QUEUE) : name ∈ KNOWN_QUEUES := by
  obtain rfl := Option.mem_some_iff.mp h
  decide

theorem maxBulkSize_lt_oversizedBatch : MAX_BULK_SIZE < buildOversizedBatch.length := by
  rw [buildOversizedBatch, List.length_map, List.length_range]
  decide

theorem triggers_harmless (zod : Zod) (isEmail : String → Bool)
    (hcron : isCron "not-a-valid-cron-expression" = false) (hclock : moment.now ≤ clock)
    (variant : ℚ) (code : ReproducibleErrorCode) :
    (ErrorExplorerService.triggers codes zod isEmail moment variant code :
      Explorer L Unit).CallsOnly (Harmless isCron clock moment.workers) := by
  cases code with
  | QUEUE_NOT_FOUND =>
      refine .bind (callsOnly_ofHandler (.bind_done fun queue hqueue ↦ ?_)) fun _ ↦ trivial
      rw [assertKnownQueue_of_not_mem (by decide)] at hqueue
      cases hqueue
  | JOB_NOT_FOUND =>
      refine .bind (callsOnly_ofHandler (.bind_done fun queue hqueue ↦ .bind ?_ fun job ↦ ?_))
        fun _ ↦ trivial
      · have hnamed : (.getJob queue.1 MISSING_JOB_ID : Call L).NamesKnown :=
          Call.namesKnown_of_eq queue rfl
        exact Program.callsOnly_call.mpr
          ⟨fun name hname ↦ .inl (hnamed name hname), .inl ⟨queue.1, MISSING_JOB_ID, rfl⟩⟩
      · cases job with
        | none => trivial
        | some job => trivial
  | INVALID_JOB_DATA => exact .bind_done fun _ _ ↦ trivial
  | INVALID_REPEAT_OPTIONS =>
      refine .bind (callsOnly_invoke.mpr ?_) fun _ ↦ trivial
      exact harmless_of_refused (fun _ hname ↦ .inl (named_probe hname))
        (.upsert (repeatInvalid_invalidRepeatVariant hcron hclock variant))
  | BULK_ENQUEUE_FAILED =>
      refine .bind (callsOnly_invoke.mpr ?_) fun _ ↦ trivial
      exact harmless_of_refused (fun _ hname ↦ .inl (named_probe hname))
        (.enqueueBulk maxBulkSize_lt_oversizedBatch)
  | INVALID_OPTIONS =>
      apply callsOnly_invoke.mpr
      exact harmless_of_refused (by simp [ExplorerCall.queueName]) (.forRoot (le_refl 0))
  | DUPLICATE_PROCESSOR =>
      rw [ErrorExplorerService.triggers]
      cases moment.workers with
      | nil => trivial
      | cons registeredQueue rest =>
          apply callsOnly_invoke.mpr
          refine harmless_of_refused (fun name hname ↦ .inr ?_)
            (.registerWorker List.mem_cons_self)
          obtain rfl := Option.mem_some_iff.mp hname
          exact ⟨rfl, rfl⟩

theorem rejectNonReproducible_of_unknown {code : String}
    (h : ∀ known, codes.text known ≠ code) :
    ErrorExplorerController.rejectNonReproducible codes code =
      ErrorExplorerController.unknownCode := by
  have hnone : (ErrorExplorerService.catalog codes).find? (fun candidate ↦
      codes.text candidate.code = code) = none := by
    rw [List.find?_eq_none]
    intro entry _
    simpa using h entry.code
  rw [ErrorExplorerController.rejectNonReproducible, hnone]

/-- What a code of the library that is not provoked here is answered by. -/
def notReproducible (codes : QueueErrorCodes) (code : QueueErrorCode) : HttpException :=
  ⟨BAD_REQUEST, "errors.not_reproducible", "This code is covered outside the error explorer",
    .object [(.own "code", .string (codes.text code)),
      (.own "coveredBy", .string (COVERAGE_NOTES code))]⟩

theorem rejectNonReproducible_of_known {code : QueueErrorCode}
    (h : isReproducibleCode codes (codes.text code) = none) :
    ErrorExplorerController.rejectNonReproducible codes (codes.text code) =
      notReproducible codes code := by
  have hmem : catalogEntry codes (fun text ↦ some (codes.message text)) code ∈
      ErrorExplorerService.catalog codes :=
    List.mem_map_of_mem (codes.mem_values code)
  have hsome : ((ErrorExplorerService.catalog codes).find? fun candidate ↦
      codes.text candidate.code = codes.text code).isSome := by
    rw [List.find?_isSome]
    exact ⟨_, hmem, by simp [catalogEntry]⟩
  obtain ⟨entry, hentry⟩ := Option.isSome_iff_exists.mp hsome
  obtain ⟨known, -, rfl⟩ := List.mem_map.mp (List.mem_of_find?_eq_some hentry)
  have hfound := List.find?_some hentry
  obtain rfl : known = code := codes.text_injective (of_decide_eq_true hfound)
  rw [ErrorExplorerController.rejectNonReproducible, hentry]
  simp [catalogEntry, notReproducible, h]

/-- Whatever the library answers, a request makes no call that changes
anything, and a code that is not provoked here is rejected without a call by an
answer that depends on the code of the library alone. -/
theorem explorer_harmless (codes : QueueErrorCodes) (zod : Zod) (isEmail : String → Bool)
    (hcron : isCron "not-a-valid-cron-expression" = false) (hclock : moment.now ≤ clock)
    (code : String) (query : JsValue) :
    (ErrorExplorerController.trigger codes zod isEmail moment code query :
        Explorer L Empty).CallsOnly (Harmless isCron clock moment.workers) ∧
      (isReproducibleCode codes code = none → ∃ exception,
        ErrorExplorerController.trigger codes zod isEmail moment code query =
            (throwHttp exception : Explorer L Empty) ∧
          ((∃ known, codes.text known = code ∧ exception = notReproducible codes known) ∨
            (∀ known, codes.text known ≠ code) ∧
              exception = ErrorExplorerController.unknownCode)) := by
  constructor
  · unfold ErrorExplorerController.trigger
    split
    · next reproducible _ =>
        refine .bind (callsOnly_ofHandler ?_) fun variant ↦ .bind ?_ fun _ ↦ trivial
        · trivial
        · exact triggers_harmless zod isEmail hcron hclock variant reproducible
    · trivial
  · intro hnone
    refine ⟨ErrorExplorerController.rejectNonReproducible codes code, ?_, ?_⟩
    · rw [ErrorExplorerController.trigger, hnone]
    · by_cases hknown : ∃ known, codes.text known = code
      · obtain ⟨known, rfl⟩ := hknown
        exact .inl ⟨known, rfl, rejectNonReproducible_of_known hnone⟩
      · have hunknown : ∀ known, codes.text known ≠ code := fun known h ↦ hknown ⟨known, h⟩
        exact .inr ⟨hunknown, rejectNonReproducible_of_unknown hunknown⟩

/-- A process whose first worker is a tenant's, and a library without jobs. -/
def bulkTrigger : Explorer ⟨Unit, Unit, Unit, Empty, []⟩ Empty :=
  ErrorExplorerController.trigger (spelledCodes id) (Zod.ofParse fun _ ↦ none) (fun _ ↦ false)
    ⟨0, ["notifications.acme"]⟩ "queue.bulk_enqueue_failed" (.object [])

theorem explorer_harmless_bulk :
    (∃ next, bulkTrigger =
      .round (fun _ : Fin 1 ↦ .enqueueBulk PROBE_QUEUE buildOversizedBatch) next) ∧
      bulkTrigger.CallsOnly (Harmless (fun _ ↦ false) 0 ["notifications.acme"]) :=
  have hclock : (⟨0, ["notifications.acme"]⟩ : Moment).now ≤ 0 := le_refl 0
  ⟨⟨_, rfl⟩, (explorer_harmless (spelledCodes id) (Zod.ofParse fun _ ↦ none) (fun _ ↦ false) rfl
    hclock "queue.bulk_enqueue_failed" (.object [])).1⟩

end Harmless

end NestQueueExample.Errors
