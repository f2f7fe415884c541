import NestQueueExample.Events.Feed
import NestQueueExample.Events.Redact
import NestQueueExample.Queues.Names

/-!
# Listeners that bridge queue events onto the feed

Every listener builds one entry of the feed from what the event carries. All of
them push it within the call, except the global `completed` listener of the
webhooks queue: it stamps its entry, looks the job up, and pushes when the
lookup has answered.
-/

namespace NestQueueExample.Processors

open Events Queues

structure Job where
  id : Option String
  data : JsValue
  attemptsMade : ℕ

/-! ## Email -/

namespace EmailProcessor

def onCompleted (job : Job) (returnValue : JsValue) (now : Timestamp) : FeedEntry where
  source := .worker
  queue := EMAIL_QUEUE
  event := "completed"
  jobId := job.id
  recordedAt := now
  data := some (redact job.data)
  returnvalue := some (redact returnValue)
  attemptsMade := some job.attemptsMade

/-- The job is absent when it failed before the worker fetched it. -/
def onFailed (job : Option Job) (message : String) (now : Timestamp) : FeedEntry :=
  let base : FeedEntry :=
    { source := .worker
      queue := EMAIL_QUEUE
      event := "failed"
      jobId := job.bind Job.id
      recordedAt := now
      failedReason := some message }
  match job with
  | some job =>
      { base with data := some (redact job.data), attemptsMade := some job.attemptsMade }
  | none => base

def onProgress (job : Job) (progress : JsValue) (now : Timestamp) : FeedEntry where
  source := .worker
  queue := EMAIL_QUEUE
  event := "progress"
  jobId := job.id
  recordedAt := now
  progress := some (redact progress)
  attemptsMade := some job.attemptsMade

def onActive (job : Job) (now : Timestamp) : FeedEntry where
  source := .worker
  queue := EMAIL_QUEUE
  event := "active"
  jobId := job.id
  recordedAt := now
  data := some (redact job.data)
  attemptsMade := some job.attemptsMade

end EmailProcessor

/-! ## Stall demo -/

namespace StallProcessor

def onActive (job : Job) (now : Timestamp) : FeedEntry where
  source := .worker
  queue := DEMOS_QUEUE
  event := "active"
  jobId := job.id
  recordedAt := now
  attemptsMade := some job.attemptsMade

def onStalled (jobId : String) (now : Timestamp) : FeedEntry where
  source := .worker
  queue := DEMOS_QUEUE
  event := "stalled"
  jobId := some jobId
  recordedAt := now

def onCompleted (job : Job) (returnValue : JsValue) (now : Timestamp) : FeedEntry where
  source := .worker
  queue := DEMOS_QUEUE
  event := "completed"
  jobId := job.id
  recordedAt := now
  returnvalue := some (redact returnValue)
  attemptsMade := some job.attemptsMade

end StallProcessor

/-! ## Webhooks -/

inductive GlobalEvent where
  | completed (jobId : String) (returnvalue : JsValue)
  | failed (jobId failedReason : String)
  | active (jobId : String)

namespace GlobalEvent

def name : GlobalEvent → String
  | .completed .. => "completed"
  | .failed .. => "failed"
  | .active .. => "active"

def jobId : GlobalEvent → String
  | .completed id _ | .failed id _ | .active id => id

end GlobalEvent

namespace WebhookProcessor

/-- The entry of `onGlobalCompleted` as it stands before the lookup. -/
def completedBase (jobId : String) (returnvalue : JsValue) (now : Timestamp) : FeedEntry where
  source := .global
  queue := WEBHOOKS_QUEUE
  event := "completed"
  jobId := some jobId
  recordedAt := now
  returnvalue := some (redact returnvalue)

def completedEntry (base : FeedEntry) (job : Option Job) : FeedEntry :=
  match job with
  | some job => { base with resolvedData := some (redact job.data) }
  | none => base

def onGlobalFailed (jobId failedReason : String) (now : Timestamp) : FeedEntry where
  source := .global
  queue := WEBHOOKS_QUEUE
  event := "failed"
  jobId := some jobId
  recordedAt := now
  failedReason := some failedReason

def onGlobalActive (jobId : String) (now : Timestamp) : FeedEntry where
  source := .global
  queue := WEBHOOKS_QUEUE
  event := "active"
  jobId := some jobId
  recordedAt := now

end WebhookProcessor

/-- What `getJob` answers: the job if it is still there, or a rejection. -/
inductive Lookup where
  | resolves (job : Option Job)
  | rejects

/-- A call of `onGlobalCompleted` that waits for its lookup. -/
structure PendingLookup where
  call : ℕ
  base : FeedEntry

/-- The listeners of the webhooks queue: how many events they were handed, and
the calls that have not returned, by age. -/
structure WebhookListeners where
  calls : ℕ := 0
  pending : List PendingLookup := []

inductive WebhookEvent where
  | hand (event : GlobalEvent) (now : Timestamp)
  | settle (lookup : ℕ) (answer : Lookup)

namespace WebhookListeners

def step (s : WebhookListeners) : WebhookEvent → WebhookListeners
  | .hand (.completed jobId returnvalue) now =>
      { calls := s.calls + 1
        pending := s.pending ++ [⟨s.calls, WebhookProcessor.completedBase jobId returnvalue now⟩] }
  | .hand _ _ => { s with calls := s.calls + 1 }
  | .settle lookup _ => { s with pending := s.pending.eraseIdx lookup }

def pushes (s : WebhookListeners) : WebhookEvent → List (ℕ × FeedEntry)
  | .hand (.completed _ _) _ => []
  | .hand (.failed jobId failedReason) now =>
      [(s.calls, WebhookProcessor.onGlobalFailed jobId failedReason now)]
  | .hand (.active jobId) now => [(s.calls, WebhookProcessor.onGlobalActive jobId now)]
  | .settle lookup (.resolves job) =>
      (s.pending[lookup]?).toList.map fun waiting ↦
        (waiting.call, WebhookProcessor.completedEntry waiting.base job)
  | .settle _ .rejects => []

end WebhookListeners

end NestQueueExample.Processors
