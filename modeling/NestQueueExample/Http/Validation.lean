import NestQueueExample.Foundations.Schema

/-!
# Validation at the trust boundary

Request payloads are parsed before they reach a service. A failed parse is
answered by an envelope that carries the paths and reasons of the problems.
-/

namespace NestQueueExample.Http

structure ValidationIssue where
  path : String
  message : String
  deriving DecidableEq

def toIssues (issues : List ZodIssue) : List ValidationIssue :=
  issues.map fun issue ↦ ⟨".".intercalate issue.path, issue.message⟩

structure BadRequestException where
  code : String
  message : String
  issues : List ValidationIssue

structure QueueException where
  code : String
  status : ℕ
  details : List (String × String)

/-- What a handler throws: an exception of the application, or one that a call
of the library has thrown. -/
inductive Rejection (ε : Type) where
  | badRequest (exception : BadRequestException)
  | queue (exception : QueueException)
  | library (error : ε)

def parseRequest {α ε : Type} (zod : Zod) (schema : Schema α) (input : JsValue) :
    Except (Rejection ε) α :=
  match zod.safeParse schema input with
  | .ok data => .ok data
  | .error issues =>
      .error (.badRequest ⟨"validation_failed", "Request validation failed", toIssues issues⟩)

theorem parseRequest_ok_iff {α ε : Type} {zod : Zod} {schema : Schema α} {input : JsValue}
    {data : α} : (parseRequest zod schema input : Except (Rejection ε) α) = .ok data ↔
      zod.safeParse schema input = .ok data := by
  unfold parseRequest
  split <;> simp_all

end NestQueueExample.Http
