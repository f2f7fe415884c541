import NestQueueExample.Common.BoundedRingBuffer
import NestQueueExample.Queues.Services

/-!
# Management of the job schedulers

List, upsert and remove schedulers on the queues that have them. The queue is
checked against an enumeration of its own; the schedule is checked for shape
and bounds only, and the library decides whether it is valid.
-/

namespace NestQueueExample.Schedulers

open Common Http Queues
open Queues.Handler (sync invoke)

def SCHEDULER_QUEUES : List String := [MAINTENANCE_QUEUE, MONITORING_QUEUE]

theorem mem_knownQueues {name : String} (h : name ∈ SCHEDULER_QUEUES) : name ∈ KNOWN_QUEUES := by
  have hsub : SCHEDULER_QUEUES ⊆ KNOWN_QUEUES := by decide
  exact hsub h

def MAX_SCHEDULER_ID_LENGTH : ℕ := 128
def MAX_PATTERN_LENGTH : ℕ := 120
def MAX_TZ_LENGTH : ℕ := 64
def MAX_TEMPLATE_NAME_LENGTH : ℕ := 128
def MAX_PAGE_INDEX : ℚ := 10000
def MAX_TEMPLATE_DATA_KEYS : ℕ := 32
def DEFAULT_PAGE_END : ℚ := 50
def MAX_DATE_STRING_LENGTH : ℕ := 40

/-! ## The schemas -/

def queueSchema : Schema {name : String // name ∈ SCHEDULER_QUEUES} := .enum SCHEDULER_QUEUES

def isAlphanumeric (c : Char) : Bool := c.isUpper || c.isLower || c.isDigit

/-- The pattern `^[A-Za-z0-9][A-Za-z0-9_-]*$`. -/
def matchesSchedulerId (s : String) : Bool :=
  match s.toList with
  | [] => false
  | first :: rest => isAlphanumeric first && rest.all fun c ↦ isAlphanumeric c || c = '_' || c = '-'

def schedulerIdSchema : Schema String :=
  .string [.min 1, .max MAX_SCHEDULER_ID_LENGTH, .regex matchesSchedulerId]

def dateSchema : Schema (ℚ ⊕ String) :=
  .union (.number [.int]) (.string [.min 1, .max MAX_DATE_STRING_LENGTH])

def repeatSchema : Schema JobSchedulerRepeatOptions :=
  .strictObject
    (.cons "pattern" (.optional (.string [.min 1, .max MAX_PATTERN_LENGTH])) <|
      .cons "tz" (.optional (.string [.min 1, .max MAX_TZ_LENGTH])) <|
      .cons "every" (.optional (.number [.int])) <|
      .cons "offset" (.optional (.number [.int])) <|
      .cons "limit" (.optional (.number [.int, .positive])) <|
      .cons "startDate" (.optional dateSchema) <|
      .cons "endDate" (.optional dateSchema) .nil)
    fun (pattern, tz, every, offset, limit, startDate, endDate, _) ↦
      ⟨pattern, tz, every, offset, limit, startDate, endDate⟩

structure TemplateBody where
  name : Option String
  data : Option (List (String × JsValue))

def templateSchema : Schema TemplateBody :=
  .strictObject
    (.cons "name" (.optional (.string [.min 1, .max MAX_TEMPLATE_NAME_LENGTH])) <|
      .cons "data" (.optional (.refine .record
        (fun value ↦ value.length ≤ MAX_TEMPLATE_DATA_KEYS)
        ("data must have at most " ++ toString MAX_TEMPLATE_DATA_KEYS ++ " keys"))) .nil)
    fun (name, data, _) ↦ ⟨name, data⟩

structure UpsertBody where
  repeat_ : JobSchedulerRepeatOptions
  template : Option TemplateBody

def upsertSchema : Schema UpsertBody :=
  .object (.cons "repeat" repeatSchema <| .cons "template" (.optional templateSchema) .nil)
    fun (repeat_, template, _) ↦ ⟨repeat_, template⟩

structure ListQuery where
  queue : {name : String // name ∈ SCHEDULER_QUEUES}
  start : ℚ
  end_ : ℚ
  asc : Bool

def listQuerySchema : Schema ListQuery :=
  .object
    (.cons "queue" queueSchema <|
      .cons "start" (.default (.coerceNumber [.int, .min 0, .max MAX_PAGE_INDEX]) 0) <|
      .cons "end"
        (.default (.coerceNumber [.int, .min 0, .max MAX_PAGE_INDEX]) DEFAULT_PAGE_END) <|
      .cons "asc" (.transform (.default (.enum ["true", "false"]) ⟨"true", by decide⟩)
        fun value ↦ value.1 == "true") .nil)
    fun (queue, start, end_, asc, _) ↦ ⟨queue, start, end_, asc⟩

def toJobTemplate (template : Option TemplateBody) : Option JobTemplate :=
  template.map fun template ↦ ⟨template.name, template.data⟩

/-! ## The controller -/

structure SchedulerTick where
  job : String
  atMs : ℕ
  deriving DecidableEq

def TICKS_CAPACITY : ℕ := 200

structure SchedulerUpserted where
  schedulerId : String
  firstJobId : Option String

namespace SchedulersController

variable {L : Library} (zod : Zod)

def list (query : JsValue) : Handler L (List L.JobSchedulerJson) := do
  let query ← sync (parseRequest zod listQuerySchema query)
  invoke (.getJobSchedulers query.queue.1 query.start query.end_ query.asc)

def readTicks (ticks : BoundedRingBuffer SchedulerTick TICKS_CAPACITY) :
    Handler L (List SchedulerTick) :=
  pure ticks.snapshot

def upsert (queue id body : JsValue) : Handler L SchedulerUpserted := do
  let queueName ← sync (parseRequest zod queueSchema queue)
  let schedulerId ← sync (parseRequest zod schedulerIdSchema id)
  let body ← sync (parseRequest zod upsertSchema body)
  let job ← invoke (.upsertJobScheduler queueName.1 schedulerId body.repeat_
    (toJobTemplate body.template))
  pure ⟨schedulerId, job.bind Job.id⟩

def remove (queue id : JsValue) : Handler L Bool := do
  let queueName ← sync (parseRequest zod queueSchema queue)
  let schedulerId ← sync (parseRequest zod schedulerIdSchema id)
  invoke (.removeJobScheduler queueName.1 schedulerId)

end SchedulersController

end NestQueueExample.Schedulers
