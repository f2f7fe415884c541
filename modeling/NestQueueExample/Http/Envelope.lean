import Mathlib.Data.List.Nodup
import NestQueueExample.Queues.Names

/-!
# Error envelopes

What the API answers when a handler throws: a status, and a body with a code, a
message and details. The codes are those of the library, which also has the
message of each.
-/

namespace NestQueueExample.Http

open Queues

inductive QueueErrorCode where
  | CONNECTION_INVALID
  | CONNECTION_REQUIRES_NULL_RETRIES
  | CONNECTION_TIMEOUT
  | QUEUE_NOT_FOUND
  | JOB_NOT_FOUND
  | INVALID_JOB_DATA
  | INVALID_REPEAT_OPTIONS
  | DUPLICATE_PROCESSOR
  | FLOW_DISABLED
  | METRICS_DISABLED
  | SHUTDOWN_TIMEOUT_EXCEEDED
  | BULK_ENQUEUE_FAILED
  | WORKER_REGISTRATION_FAILED
  | INVALID_OPTIONS
  deriving DecidableEq

/-- What the model leaves to the library of its codes: their order, their
spelling and their messages. -/
structure QueueErrorCodes where
  values : List QueueErrorCode
  text : QueueErrorCode → String
  message : String → String
  mem_values (code : QueueErrorCode) : code ∈ values
  nodup_values : values.Nodup
  text_injective : Function.Injective text
  text_spelling (code : QueueErrorCode) :
    ∃ name : String, text code = "queue." ++ name ∧ ∀ c ∈ name.toList, c.isLower ∨ c = '_'
  text_queueNotFound : text .QUEUE_NOT_FOUND = QUEUE_NOT_FOUND
  text_jobNotFound : text .JOB_NOT_FOUND = JOB_NOT_FOUND

/-- The codes as the tests and documents of the application spell them. -/
def QueueErrorCode.spelling : QueueErrorCode → String
  | .CONNECTION_INVALID => "queue.connection_invalid"
  | .CONNECTION_REQUIRES_NULL_RETRIES => "queue.connection_requires_null_retries"
  | .CONNECTION_TIMEOUT => "queue.connection_timeout"
  | .QUEUE_NOT_FOUND => "queue.queue_not_found"
  | .JOB_NOT_FOUND => "queue.job_not_found"
  | .INVALID_JOB_DATA => "queue.invalid_job_data"
  | .INVALID_REPEAT_OPTIONS => "queue.invalid_repeat_options"
  | .DUPLICATE_PROCESSOR => "queue.duplicate_processor"
  | .FLOW_DISABLED => "queue.flow_disabled"
  | .METRICS_DISABLED => "queue.metrics_disabled"
  | .SHUTDOWN_TIMEOUT_EXCEEDED => "queue.shutdown_timeout_exceeded"
  | .BULK_ENQUEUE_FAILED => "queue.bulk_enqueue_failed"
  | .WORKER_REGISTRATION_FAILED => "queue.worker_registration_failed"
  | .INVALID_OPTIONS => "queue.invalid_options"

def QueueErrorCode.all : List QueueErrorCode :=
  [.CONNECTION_INVALID, .CONNECTION_REQUIRES_NULL_RETRIES, .CONNECTION_TIMEOUT, .QUEUE_NOT_FOUND,
    .JOB_NOT_FOUND, .INVALID_JOB_DATA, .INVALID_REPEAT_OPTIONS, .DUPLICATE_PROCESSOR,
    .FLOW_DISABLED, .METRICS_DISABLED, .SHUTDOWN_TIMEOUT_EXCEEDED, .BULK_ENQUEUE_FAILED,
    .WORKER_REGISTRATION_FAILED, .INVALID_OPTIONS]

theorem QueueErrorCode.mem_all (code : QueueErrorCode) : code ∈ all := by
  cases code <;> decide

def isSpellingChar (c : Char) : Bool := c.isLower || c = '_'

def spelledCodes (message : String → String) : QueueErrorCodes where
  values := QueueErrorCode.all
  text := QueueErrorCode.spelling
  message := message
  mem_values := QueueErrorCode.mem_all
  nodup_values := by decide
  text_injective a b h := by
    have hnodup : (QueueErrorCode.all.map QueueErrorCode.spelling).Nodup := by decide +kernel
    exact List.inj_on_of_nodup_map hnodup a.mem_all b.mem_all h
  text_spelling code := by
    refine ⟨JsString.slice code.spelling 6, ?_, ?_⟩
    · cases code <;> decide +kernel
    · have hall : (JsString.slice code.spelling 6).toList.all isSpellingChar = true := by
        cases code <;> decide +kernel
      intro c hc
      simpa [isSpellingChar] using List.all_eq_true.mp hall c hc
  text_queueNotFound := rfl
  text_jobNotFound := rfl

def BAD_REQUEST : ℕ := 400
def INTERNAL_SERVER_ERROR : ℕ := 500
def SERVICE_UNAVAILABLE : ℕ := 503

/-! ## Exceptions -/

structure HttpException where
  status : ℕ
  code : String
  message : String
  details : JsValue

namespace HttpException

def error (e : HttpException) : JsValue :=
  .object [(.own "code", .string e.code), (.own "message", .string e.message),
    (.own "details", e.details)]

def body (e : HttpException) : JsValue := .object [(.own "error", e.error)]

@[simp] theorem read_error (e : HttpException) : e.body.read "error" = e.error :=
  JsValue.read_own

@[simp] theorem read_code (e : HttpException) : e.error.read "code" = .string e.code :=
  JsValue.read_own

@[simp] theorem read_message (e : HttpException) : e.error.read "message" = .string e.message := by
  rw [error, JsValue.read_own_of_ne (by decide), JsValue.read_own]

@[simp] theorem read_details (e : HttpException) : e.error.read "details" = e.details := by
  rw [error, JsValue.read_own_of_ne (by decide), JsValue.read_own_of_ne (by decide),
    JsValue.read_own]

end HttpException

def issueDetails (issues : List ValidationIssue) : JsValue :=
  .object [(.own "issues", .array (issues.map fun issue ↦
    .object [(.own "path", .string issue.path), (.own "message", .string issue.message)]))]

/-- An exception that the API renders itself, or an error of the library. -/
inductive Thrown (ε : Type) where
  | http (exception : HttpException)
  | library (error : ε)

variable (codes : QueueErrorCodes)

def queueException (code : QueueErrorCode) (status : ℕ) (details : JsValue) : HttpException :=
  ⟨status, codes.text code, codes.message (codes.text code), details⟩

def Rejection.thrown {ε : Type} : Rejection ε → Thrown ε
  | .badRequest ⟨code, message, issues⟩ => .http ⟨BAD_REQUEST, code, message, issueDetails issues⟩
  | .queue ⟨code, status, details⟩ =>
      .http ⟨status, code, codes.message code,
        .object (details.map fun detail ↦ (.own detail.1, .string detail.2))⟩
  | .library error => .library error

def parseJobData {α ε : Type} (zod : Zod) (schema : Schema α) (input : JsValue) :
    Except (Thrown ε) α :=
  match zod.safeParse schema input with
  | .ok data => .ok data
  | .error issues =>
      .error (.http (queueException codes .INVALID_JOB_DATA BAD_REQUEST
        (issueDetails (toIssues issues))))

theorem parseJobData_of_rejected {α ε : Type} {zod : Zod} {schema : Schema α} {input : JsValue}
    (h : ∀ data, zod.safeParse schema input ≠ .ok data) :
    ∃ details, (parseJobData codes zod schema input : Except (Thrown ε) α) =
      .error (.http (queueException codes .INVALID_JOB_DATA BAD_REQUEST details)) := by
  unfold parseJobData
  split
  · next data hdata => exact absurd hdata (h data)
  · next issues _ => exact ⟨issueDetails (toIssues issues), rfl⟩

end NestQueueExample.Http
