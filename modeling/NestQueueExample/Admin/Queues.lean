import NestQueueExample.Queues.Services

/-!
# Administration of the queues

The service that guards admin access to the queues by name, and the
controllers over it: queues, jobs, deduplication keys and cached metrics.
-/

namespace NestQueueExample.Admin

open Http Queues
open Queues.Handler (sync invoke)

variable {L : Library}

def CLEAN_STATUSES : List String :=
  ["completed", "failed", "delayed", "wait", "active", "paused"]

structure JobView where
  id : Option String
  name : String
  data : JsValue
  timestamp : ℕ
  attemptsMade : ℕ
  delay : ℕ
  progress : JsValue
  returnValue : JsValue
  failedReason : Option String
  finishedOn : Option ℕ

def toJobView (job : Job) : JobView where
  id := job.id
  name := job.name
  data := job.data
  timestamp := job.timestamp
  attemptsMade := job.attemptsMade
  delay := job.delay
  progress := job.progress
  returnValue := job.returnvalue
  failedReason := job.failedReason
  finishedOn := job.finishedOn

/-! ## The service -/

namespace AdminQueuesService

def getManagedQueue (name : String) : Handler L L.Queue := do
  let queue ← sync (assertKnownQueue name)
  invoke (.getOrCreateQueue queue.1)

/-- All the metrics are asked for at once; the first failure is the answer. -/
def collectMetrics : Handler L (List L.QueueMetrics) := do
  let metrics ← Program.all fun i : Fin KNOWN_QUEUES.length ↦ .getMetrics (KNOWN_QUEUES.get i)
  pure (List.ofFn metrics)

def listJobs (name status : String) (start end_ : ℚ) : Handler L (List JobView) := do
  let queue ← sync (assertKnownQueue name)
  let jobs ← invoke (.getJobs queue.1 status start end_)
  pure (jobs.map toJobView)

def findJob (name jobId : String) : Handler L JobView := do
  let queue ← sync (assertKnownQueue name)
  match ← invoke (.getJob queue.1 jobId) with
  | none => sync (.error (.queue ⟨JOB_NOT_FOUND, NOT_FOUND,
      [("queue", queue.1), ("jobId", jobId)]⟩))
  | some job => pure (toJobView job)

def pause (name : String) : Handler L Unit := do
  let queue ← sync (assertKnownQueue name)
  invoke (.pauseQueue queue.1)

def resume (name : String) : Handler L Unit := do
  let queue ← sync (assertKnownQueue name)
  invoke (.resumeQueue queue.1)

def clean (name : String) (gracePeriodMs limit : ℚ) (status : String) :
    Handler L (List String) := do
  let queue ← sync (assertKnownQueue name)
  invoke (.cleanQueue queue.1 gracePeriodMs limit status)

end AdminQueuesService

/-! ## The controllers -/

variable (zod : Zod)

namespace QueuesController

structure JobsQuery (L : Library) where
  status : {value : String // value ∈ L.JOB_STATUS}
  start : ℚ
  end_ : ℚ

def jobsQuerySchema (L : Library) : Schema (JobsQuery L) :=
  .object
    (.cons "status" (.enum L.JOB_STATUS) <|
      .cons "start" (.default (.coerceNumber [.int, .nonnegative]) 0) <|
      .cons "end" (.default (.coerceNumber [.int, .nonnegative]) 50) .nil)
    fun (status, start, end_, _) ↦ ⟨status, start, end_⟩

structure CleanBody where
  gracePeriodMs : ℚ
  limit : ℚ
  status : {value : String // value ∈ CLEAN_STATUSES}

def cleanSchema : Schema CleanBody :=
  .object
    (.cons "gracePeriodMs" (.default (.number [.int, .nonnegative]) 0) <|
      .cons "limit" (.default (.number [.int, .nonnegative]) 0) <|
      .cons "status" (.default (.enum CLEAN_STATUSES) ⟨"completed", by decide⟩) .nil)
    fun (gracePeriodMs, limit, status, _) ↦ ⟨gracePeriodMs, limit, status⟩

def list : Handler L (List L.QueueMetrics) := AdminQueuesService.collectMetrics

def jobs (name : String) (query : JsValue) : Handler L (List JobView) := do
  let query ← sync (parseRequest zod (jobsQuerySchema L) query)
  AdminQueuesService.listJobs name query.status.1 query.start query.end_

def pause (name : String) : Handler L Unit := AdminQueuesService.pause name

def resume (name : String) : Handler L Unit := AdminQueuesService.resume name

def clean (name : String) (body : JsValue) : Handler L (List String) := do
  let body ← sync (parseRequest zod cleanSchema body)
  AdminQueuesService.clean name body.gracePeriodMs body.limit body.status.1

end QueuesController

namespace JobsController

def MAX_JOB_ID_LENGTH : ℕ := 128

def jobIdSchema : Schema String := .string [.min 1, .max MAX_JOB_ID_LENGTH]

def find (queue : String) (id : JsValue) : Handler L JobView := do
  let jobId ← sync (parseRequest zod jobIdSchema id)
  AdminQueuesService.findJob queue jobId

end JobsController

namespace DedupController

def MAX_DEDUP_KEY_LENGTH : ℕ := 256

def dedupKeySchema : Schema String := .string [.min 1, .max MAX_DEDUP_KEY_LENGTH]

def view (queue : String) (id : JsValue) : Handler L (Option String) := do
  let key ← sync (parseRequest zod dedupKeySchema id)
  let managed ← AdminQueuesService.getManagedQueue queue
  invoke (.getDeduplicationJobId managed key)

def clear (queue : String) (id : JsValue) : Handler L Bool := do
  let key ← sync (parseRequest zod dedupKeySchema id)
  let managed ← AdminQueuesService.getManagedQueue queue
  let removed ← invoke (.removeDeduplicationKey managed key)
  pure (0 < removed)

end DedupController

namespace MetricsController

def invalidateSchema : Schema (Option String) :=
  .default (.object (.cons "queue" (.optional (.string [.min 1])) .nil) Prod.fst) none

structure InvalidateResult where
  all : Bool
  queue : Option String

def all : Handler L (List L.QueueMetrics) := invoke .metricsGetAll

def one (queue : String) : Handler L L.QueueMetrics := do
  let known ← sync (assertKnownQueue queue)
  invoke (.metricsGet known.1)

def invalidate (body : JsValue) : Handler L InvalidateResult := do
  let queue ← sync (parseRequest zod invalidateSchema body)
  let known ← sync (match queue with
    | none => .ok none
    | some queue => (assertKnownQueue queue).map some)
  invoke (.metricsInvalidate (known.map Subtype.val))
  pure ⟨known.isNone, known.map Subtype.val⟩

end MetricsController

end NestQueueExample.Admin
