import NestQueueExample.Foundations.Program
import NestQueueExample.Queues.Names

/-!
# Calls of the queue library

The methods of `QueueService`, of `MetricsService` and of a queue object that
the HTTP surface calls, and what they answer. A call that throws answers its
round by a failure, so the answers of the library are left open.
-/

namespace NestQueueExample.Queues

open Http

/-- What the model leaves to the library: its types, and its job statuses. -/
structure Library where
  Queue : Type
  QueueMetrics : Type
  JobSchedulerJson : Type
  Error : Type
  JOB_STATUS : List String

structure Job where
  id : Option String
  name : String
  data : JsValue
  timestamp : ℕ
  attemptsMade : ℕ
  delay : ℕ
  progress : JsValue
  returnvalue : JsValue
  failedReason : Option String
  finishedOn : Option ℕ

/-- A schedule as it is handed to the library, which alone decides whether it
is valid. -/
structure JobSchedulerRepeatOptions where
  pattern : Option String
  tz : Option String
  every : Option ℚ
  offset : Option ℚ
  limit : Option ℚ
  startDate : Option (ℚ ⊕ String)
  endDate : Option (ℚ ⊕ String)

structure JobTemplate where
  name : Option String
  data : Option (List (String × JsValue))

inductive Call (L : Library) where
  | getOrCreateQueue (name : String)
  | getMetrics (name : String)
  | getJobs (name status : String) (start end_ : ℚ)
  | getJob (name jobId : String)
  | pauseQueue (name : String)
  | resumeQueue (name : String)
  | cleanQueue (name : String) (gracePeriodMs limit : ℚ) (status : String)
  | getJobSchedulers (name : String) (start end_ : ℚ) (asc : Bool)
  | upsertJobScheduler (name schedulerId : String) (repeat_ : JobSchedulerRepeatOptions)
      (template : Option JobTemplate)
  | removeJobScheduler (name schedulerId : String)
  | metricsGet (name : String)
  | metricsGetAll
  | metricsInvalidate (name : Option String)
  | getDeduplicationJobId (queue : L.Queue) (key : String)
  | removeDeduplicationKey (queue : L.Queue) (key : String)

namespace Call

variable {L : Library}

abbrev Answer : Call L → Type
  | .getOrCreateQueue _ => L.Queue
  | .getMetrics _ | .metricsGet _ => L.QueueMetrics
  | .getJobs .. => List Job
  | .getJob .. => Option Job
  | .pauseQueue _ | .resumeQueue _ | .metricsInvalidate _ => Unit
  | .cleanQueue .. => List String
  | .getJobSchedulers .. => List L.JobSchedulerJson
  | .upsertJobScheduler .. => Option Job
  | .removeJobScheduler .. => Bool
  | .metricsGetAll => List L.QueueMetrics
  | .getDeduplicationJobId .. => Option String
  | .removeDeduplicationKey .. => ℕ

/-- The queue name that the call hands to `QueueService` or `MetricsService`. -/
def queueName : Call L → Option String
  | .getOrCreateQueue name | .getMetrics name | .getJobs name .. | .getJob name _
  | .pauseQueue name | .resumeQueue name | .cleanQueue name .. | .getJobSchedulers name ..
  | .upsertJobScheduler name .. | .removeJobScheduler name _ | .metricsGet name => some name
  | .metricsInvalidate name => name
  | .metricsGetAll | .getDeduplicationJobId .. | .removeDeduplicationKey .. => none

def NamesKnown (c : Call L) : Prop := ∀ name ∈ c.queueName, name ∈ KNOWN_QUEUES

theorem namesKnown_of_eq {c : Call L} (queue : KnownQueue) (h : c.queueName = some queue.1) :
    c.NamesKnown := by
  intro name hname
  rw [h, Option.mem_some_iff] at hname
  exact hname ▸ queue.2

theorem namesKnown_of_none {c : Call L} (h : c.queueName = none) : c.NamesKnown := by
  simp [NamesKnown, h]

end Call

abbrev Handler (L : Library) (α : Type) : Type :=
  Program (Call L) Call.Answer (Rejection L.Error) α

namespace Handler

variable {L : Library} {α : Type}

abbrev sync (result : Except (Rejection L.Error) α) : Handler L α := .done result

abbrev invoke (c : Call L) : Handler L c.Answer := Program.call c

theorem sync_map {β : Type} (f : α → β) (result : Except (Rejection L.Error) α) :
    sync (result.map f) = f <$> sync result := by
  cases result <;> rfl

end Handler

end NestQueueExample.Queues
