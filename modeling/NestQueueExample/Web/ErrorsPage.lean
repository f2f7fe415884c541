import NestQueueExample.Errors.Explorer
import NestQueueExample.Web.Requests

/-!
# The API client and the errors page

A failed response is decoded against the error envelope and the codes of the
library. The row of a code that is reproducible triggers it through the API, and
the error that the page shows is the one that the row describes.
-/

namespace NestQueueExample.Web

open Errors Http Queues UrlPath

/-! ## The client -/

/-- A response, whose body is absent where it is no JSON text. -/
structure Response where
  status : ℕ
  contentLength : Option String
  json : Option JsValue

structure ApiError where
  code : String
  message : String
  status : ℕ
  details : JsValue

inductive RequestError where
  | api (error : ApiError)
  | notJson

def Response.ok (res : Response) : Bool := decide (200 ≤ res.status ∧ res.status ≤ 299)

variable (codes : QueueErrorCodes)

def KNOWN_CODES : List String := codes.values.map codes.text

def toCode (raw : String) : String := if raw ∈ KNOWN_CODES codes then raw else "UNKNOWN"

/-- The code, message and details of a body in the shape of the envelope. -/
def isErrorEnvelope (value : JsValue) : Option (String × String × JsValue) :=
  let candidate := value.read "error"
  match candidate.read "code", candidate.read "message" with
  | .string code, .string message => some (code, message, candidate.read "details")
  | _, _ => none

def parseError (res : Response) : ApiError :=
  match res.json.bind isErrorEnvelope with
  | some (code, message, details) => ⟨toCode codes code, message, res.status, details⟩
  | none => ⟨"UNKNOWN", "HTTP " ++ res.status.repr, res.status, .undefined⟩

def request (res : Response) : Except RequestError (Option JsValue) :=
  if !res.ok then .error (.api (parseError codes res))
  else if res.status = 204 || res.contentLength = some "0" then .ok none
  else match res.json with
    | some value => .ok (some value)
    | none => .error .notJson

def HttpException.response (e : HttpException) : Response := ⟨e.status, none, some e.body⟩

/-- The client reads every envelope with the status, message and details it was
thrown with, and with its code if the library has it. -/
theorem request_response (e : HttpException) (h : ¬ (200 ≤ e.status ∧ e.status ≤ 299)) :
    request codes (HttpException.response e) =
      .error (.api ⟨toCode codes e.code, e.message, e.status, e.details⟩) := by
  have hok : (HttpException.response e).ok = false := decide_eq_false h
  rw [request, hok]
  simp [parseError, HttpException.response, isErrorEnvelope]

theorem toCode_text (code : QueueErrorCode) : toCode codes (codes.text code) = codes.text code :=
  if_pos (List.mem_map_of_mem (codes.mem_values code))

theorem toCode_of_unknown {raw : String} (h : ∀ code, codes.text code ≠ raw) :
    toCode codes raw = "UNKNOWN" := by
  apply if_neg
  intro hmem
  obtain ⟨code, -, htext⟩ := List.mem_map.mp hmem
  exact h code htext

/-! ## The page -/

def triggerPath (code : String) : String := "/errors/trigger/" ++ code

def useTriggerError (code : String) : ApiRequest := ⟨.post, triggerPath code, .undefined⟩

def triggerRoute : List PatternSegment := [.literal "errors", .literal "trigger", .param]

variable {L : Library}

def Thrown.response (render : L.Error → Response) : Thrown L.Error → Response
  | .http exception => HttpException.response exception
  | .library error => render error

/-- The answer to a request without a query that is routed to a trigger. -/
def triggerResponse (zod : Zod) (isEmail : String → Bool) (moment : Moment)
    (render : L.Error → Response)
    (service : Program.Service (ExplorerCall L) ExplorerCall.Answer (Thrown L.Error))
    (log : List (ExplorerCall L)) (req : ApiRequest) : Option Response :=
  match req.method, route triggerRoute req.path with
  | .post, some [code] =>
      match ((ErrorExplorerController.trigger codes zod isEmail moment code
          (.object [])).run service log).2 with
      | .error thrown => some (Thrown.response render thrown)
  | _, _ => none

/-- The library keeps the checks that it documents, and has no job under the id
that the explorer looks up. -/
structure Keeps (isCron : String → Bool) (clock : ℚ) (workers : List String)
    (render : L.Error → Response)
    (service : Program.Service (ExplorerCall L) ExplorerCall.Answer (Thrown L.Error)) : Prop where
  absent (log : List (ExplorerCall L)) :
    service log (fun _ : Fin 1 ↦ .queues (.getJob AUDIT_QUEUE MISSING_JOB_ID)) = .ok fun _ ↦ none
  refuses (log : List (ExplorerCall L)) {call : ExplorerCall L} {code : QueueErrorCode}
    {status : ℕ} (h : Refused isCron clock workers call code status) :
    ∃ error details, service log (fun _ : Fin 1 ↦ call) = .error (.library error) ∧
      render error = HttpException.response (queueException codes code status details)

section Page

variable {codes : QueueErrorCodes} {isCron : String → Bool} {clock : ℚ} {moment : Moment}
  {render : L.Error → Response}
  {service : Program.Service (ExplorerCall L) ExplorerCall.Answer (Thrown L.Error)}

/-- The response is the envelope that the catalog has for the code. -/
def IsEnvelopeOf (codes : QueueErrorCodes) (code : QueueErrorCode) (res : Response) : Prop :=
  ∃ details, res =
    HttpException.response (queueException codes code (ERROR_HTTP_STATUS code) details)

theorem invoke_answers {workers : List String}
    (hkeeps : Keeps codes isCron clock workers render service) (log : List (ExplorerCall L))
    {call : ExplorerCall L} {code : QueueErrorCode}
    (h : Refused isCron clock workers call code (ERROR_HTTP_STATUS code)) :
    ∃ log' thrown, (invoke call).run service log = (log', .error thrown) ∧
      IsEnvelopeOf codes code (Thrown.response render thrown) := by
  obtain ⟨error, details, hservice, hrender⟩ := hkeeps.refuses log h
  exact ⟨_, .library error, Program.run_call_error hservice, details, hrender⟩

theorem triggerQueueNotFound_answers (render : L.Error → Response)
    (service : Program.Service (ExplorerCall L) ExplorerCall.Answer (Thrown L.Error))
    (log : List (ExplorerCall L)) :
    ∃ log' thrown, (ErrorExplorerService.triggerQueueNotFound codes).run service log =
        (log', .error thrown) ∧
      IsEnvelopeOf codes .QUEUE_NOT_FOUND (Thrown.response render thrown) := by
  have hunknown : UNKNOWN_QUEUE ∉ KNOWN_QUEUES := by decide
  have hfails : (Admin.AdminQueuesService.getManagedQueue UNKNOWN_QUEUE : Handler L L.Queue) =
      .done (.error (.queue ⟨QUEUE_NOT_FOUND, NOT_FOUND, [("queue", UNKNOWN_QUEUE)]⟩)) := by
    rw [Admin.AdminQueuesService.getManagedQueue, assertKnownQueue_of_not_mem hunknown]
    rfl
  rw [ErrorExplorerService.triggerQueueNotFound, hfails]
  refine ⟨log, _, rfl, .object [(.own "queue", .string UNKNOWN_QUEUE)], ?_⟩
  rw [queueException, codes.text_queueNotFound]
  rfl

theorem triggerJobNotFound_answers {workers : List String}
    (hkeeps : Keeps codes isCron clock workers render service) (log : List (ExplorerCall L)) :
    ∃ log' thrown, (ErrorExplorerService.triggerJobNotFound codes).run service log =
        (log', .error thrown) ∧
      IsEnvelopeOf codes .JOB_NOT_FOUND (Thrown.response render thrown) := by
  have hrun : (ofHandler codes
      (Admin.AdminQueuesService.findJob AUDIT_QUEUE MISSING_JOB_ID)).run service log =
        (log ++ [.queues (.getJob AUDIT_QUEUE MISSING_JOB_ID)],
          .error (Rejection.thrown codes (.queue ⟨JOB_NOT_FOUND, NOT_FOUND,
            [("queue", AUDIT_QUEUE), ("jobId", MISSING_JOB_ID)]⟩))) := by
    have hknown : (assertKnownQueue AUDIT_QUEUE : Except (Rejection L.Error) KnownQueue) =
        .ok ⟨AUDIT_QUEUE, by decide⟩ := dif_pos _
    have hround := hkeeps.absent log
    rw [Admin.AdminQueuesService.findJob, hknown]
    simp only [ofHandler, Program.lift, Program.run, Program.bind, bind, Program.call]
    rw [hround]
    rfl
  refine ⟨_, _, Program.run_bind_error hrun _, .object [(.own "queue", .string AUDIT_QUEUE),
    (.own "jobId", .string MISSING_JOB_ID)], ?_⟩
  rw [queueException, codes.text_jobNotFound]
  rfl

theorem triggerInvalidJobData_answers {zod : Zod} (hdocumented : zod.Documented)
    (hchecks : zod.Checks) {isEmail : String → Bool} (hemail : isEmail "not-an-email" = false)
    (render : L.Error → Response)
    (service : Program.Service (ExplorerCall L) ExplorerCall.Answer (Thrown L.Error))
    (log : List (ExplorerCall L)) :
    ∃ log' thrown, (ErrorExplorerService.triggerInvalidJobData codes zod isEmail).run service log =
        (log', .error thrown) ∧
      IsEnvelopeOf codes .INVALID_JOB_DATA (Thrown.response render thrown) := by
  have hrejected : ∀ data,
      zod.safeParse (PROBE_JOB_SCHEMA isEmail) INVALID_JOB_PAYLOAD ≠ .ok data := by
    intro data hdata
    obtain ⟨⟨address, _⟩, ⟨hto, -⟩, -⟩ := hdocumented.object_ok hdata
    obtain ⟨hread, hregex⟩ := hchecks.string_iff.mp hto
    obtain rfl : "not-an-email" = address := by
      rw [INVALID_JOB_PAYLOAD, JsValue.read_own] at hread
      exact JsValue.string.inj hread
    have hholds : isEmail "not-an-email" = true := hregex (.regex isEmail) (by simp)
    rw [hemail] at hholds
    exact Bool.noConfusion hholds
  obtain ⟨details, hfails⟩ := parseJobData_of_rejected (ε := L.Error) codes hrejected
  rw [ErrorExplorerService.triggerInvalidJobData, hfails]
  exact ⟨log, _, rfl, details, rfl⟩

theorem triggers_answer {zod : Zod} (hdocumented : zod.Documented) (hchecks : zod.Checks)
    {isEmail : String → Bool} (hemail : isEmail "not-an-email" = false)
    (hcron : isCron "not-a-valid-cron-expression" = false) (hclock : moment.now ≤ clock)
    (hkeeps : Keeps codes isCron clock moment.workers render service) (log : List (ExplorerCall L))
    (variant : ℚ) (code : ReproducibleErrorCode) :
    ∃ log' thrown,
      (ErrorExplorerService.triggers codes zod isEmail moment variant code).run service log =
        (log', .error thrown) ∧
      IsEnvelopeOf codes code.code (Thrown.response render thrown) := by
  cases code with
  | QUEUE_NOT_FOUND => exact triggerQueueNotFound_answers render service log
  | JOB_NOT_FOUND => exact triggerJobNotFound_answers hkeeps log
  | INVALID_JOB_DATA =>
      exact triggerInvalidJobData_answers hdocumented hchecks hemail render service log
  | INVALID_REPEAT_OPTIONS =>
      have hinvalid := repeatInvalid_invalidRepeatVariant hcron hclock variant
      obtain ⟨log', thrown, hrun, hanswer⟩ := invoke_answers hkeeps log (.upsert hinvalid)
      exact ⟨log', thrown, Program.run_bind_error hrun _, hanswer⟩
  | BULK_ENQUEUE_FAILED =>
      obtain ⟨log', thrown, hrun, hanswer⟩ :=
        invoke_answers hkeeps log (.enqueueBulk maxBulkSize_lt_oversizedBatch)
      exact ⟨log', thrown, Program.run_bind_error hrun _, hanswer⟩
  | INVALID_OPTIONS => exact invoke_answers hkeeps log (.forRoot (le_refl 0))
  | DUPLICATE_PROCESSOR =>
      rw [ErrorExplorerService.triggers]
      cases hworkers : moment.workers with
      | nil => exact ⟨log, _, rfl, _, rfl⟩
      | cons registeredQueue rest =>
          apply invoke_answers hkeeps log
          exact .registerWorker (by simp [hworkers])

/-- A reproducible code is answered by its envelope, unless the query is not
accepted. -/
theorem trigger_answers {zod : Zod} (hdocumented : zod.Documented) (hchecks : zod.Checks)
    {isEmail : String → Bool} (hemail : isEmail "not-an-email" = false)
    (hcron : isCron "not-a-valid-cron-expression" = false) (hclock : moment.now ≤ clock)
    (hkeeps : Keeps codes isCron clock moment.workers render service) (log : List (ExplorerCall L))
    (code : ReproducibleErrorCode) {query : JsValue} {variant : ℚ}
    (hquery : zod.safeParse ErrorExplorerController.triggerQuerySchema query = .ok variant) :
    ∃ log' thrown,
      (ErrorExplorerController.trigger codes zod isEmail moment (codes.text code.code) query).run
        service log = (log', .error thrown) ∧
      IsEnvelopeOf codes code.code (Thrown.response render thrown) := by
  have hreproducible : isReproducibleCode codes (codes.text code.code) = some code :=
    isReproducibleCode_eq_some_iff.mpr rfl
  obtain ⟨log', thrown, hrun, hanswer⟩ :=
    triggers_answer hdocumented hchecks hemail hcron hclock hkeeps log variant code
  refine ⟨log', thrown, ?_, hanswer⟩
  rw [ErrorExplorerController.trigger, hreproducible]
  simp only [parseRequest_ok_iff.mpr hquery]
  exact Program.run_bind_error hrun _

theorem route_triggerPath (code : QueueErrorCode) :
    route triggerRoute (triggerPath (codes.text code)) = some [codes.text code] := by
  obtain ⟨name, htext, hname⟩ := codes.text_spelling code
  have hpath : triggerPath (codes.text code) = String.ofList
      (pathText ["errors".toList, "trigger".toList, (codes.text code).toList]) := by
    apply String.toList_injective
    change ("/errors/trigger/" ++ codes.text code).toList = _
    simp [pathText]
  have hqueue : (codes.text code).toList = "queue.".toList ++ name.toList := by
    rw [htext, String.toList_append]
  have hunreserved : ∀ c ∈ (codes.text code).toList, PercentEncoding.isUnreserved c = true := by
    intro c hc
    rw [hqueue, List.mem_append] at hc
    rcases hc with hc | hc
    · exact List.all_eq_true.mp (by decide) c hc
    · have halphanum : c.isAlphanum = (c.isUpper || c.isLower || c.isDigit) := rfl
      rw [PercentEncoding.isUnreserved, halphanum]
      rcases hname c hc with hlower | rfl
      · simp [hlower]
      · decide
  have hpercent : '%' ∉ (codes.text code).toList := fun hmem ↦
    absurd (hunreserved '%' hmem) (by decide)
  have hplain : PlainSegment (codes.text code).toList := by
    apply plainSegment_of_unreserved fun c hc ↦ .inl (hunreserved c hc)
    rw [hqueue]
    simp
  have hsegments : ∀ s ∈ ["errors".toList, "trigger".toList, (codes.text code).toList],
      PlainSegment s ∧ '%' ∉ s := by
    rw [List.forall_mem_cons, List.forall_mem_cons, List.forall_mem_singleton]
    exact ⟨⟨plainSegment_of_all (by decide), by decide⟩,
      ⟨plainSegment_of_all (by decide), by decide⟩, hplain, hpercent⟩
  have hempty : (codes.text code).toList.isEmpty = false := by simp [hqueue]
  rw [hpath, route_plain hsegments, triggerRoute, matchRoute, if_pos (by decide), matchRoute,
    if_pos (by decide), matchRoute, hempty]
  simp [matchRoute]

theorem triggerQuery_empty {zod : Zod} (hfills : zod.Fills) :
    zod.safeParse ErrorExplorerController.triggerQuerySchema (.object []) = .ok 0 := by
  apply hfills.object_fields (a := ((0 : ℚ), ()))
  refine ⟨?_, trivial⟩
  rw [JsValue.read_nil]
  exact hfills.default_absent

theorem triggerResponse_eq {zod : Zod} {isEmail : String → Bool} {log log' : List (ExplorerCall L)}
    {code : QueueErrorCode} {thrown : Thrown L.Error}
    (h : (ErrorExplorerController.trigger codes zod isEmail moment (codes.text code)
      (.object [])).run service log = (log', .error thrown)) :
    triggerResponse codes zod isEmail moment render service log
      (useTriggerError (codes.text code)) = some (Thrown.response render thrown) := by
  simp only [triggerResponse, useTriggerError, route_triggerPath, h]

theorem text_ne_notReproducible (code : QueueErrorCode) :
    codes.text code ≠ "errors.not_reproducible" := by
  intro h
  obtain ⟨name, htext, -⟩ := codes.text_spelling code
  have hqueue : "queue.".toList <+: "errors.not_reproducible".toList := by
    rw [← h, htext, String.toList_append]
    exact List.prefix_append _ _
  exact absurd hqueue (by decide)

theorem not_success_ERROR_HTTP_STATUS (code : QueueErrorCode) :
    ¬ (200 ≤ ERROR_HTTP_STATUS code ∧ ERROR_HTTP_STATUS code ≤ 299) := by
  cases code <;> decide

/-- The error that the client reads off the answer to a row that is triggered. -/
def rowError (codes : QueueErrorCodes) (entry : CatalogEntry) (details : JsValue) : ApiError :=
  if entry.reproducibleHere then
    ⟨codes.text entry.code, entry.message, entry.httpStatus, details⟩
  else
    ⟨"UNKNOWN", "This code is covered outside the error explorer", BAD_REQUEST,
      .object [(.own "code", .string (codes.text entry.code)),
        (.own "coveredBy", .string entry.coveredBy)]⟩

/-- Triggering a row of the catalog, the page shows the code, message and status
of the row if it is reproducible, and else where the code is covered. -/
theorem errors_page_shows_row (codes : QueueErrorCodes) {zod : Zod} (hdocumented : zod.Documented)
    (hchecks : zod.Checks) (hfills : zod.Fills) {isEmail : String → Bool}
    (hemail : isEmail "not-an-email" = false)
    (hcron : isCron "not-a-valid-cron-expression" = false) (hclock : moment.now ≤ clock)
    (hkeeps : Keeps codes isCron clock moment.workers render service)
    (log : List (ExplorerCall L)) :
    ∀ entry ∈ ErrorExplorerService.catalog codes, ∃ res details,
      triggerResponse codes zod isEmail moment render service log
          (useTriggerError (codes.text entry.code)) = some res ∧
        request codes res = .error (.api (rowError codes entry details)) := by
  intro entry hentry
  obtain ⟨code, -, rfl⟩ := List.mem_map.mp hentry
  cases hcode : isReproducibleCode codes (codes.text code) with
  | some reproducible =>
      obtain rfl := codes.text_injective (isReproducibleCode_eq_some_iff.mp hcode)
      obtain ⟨log', thrown, hrun, details, hanswer⟩ := trigger_answers hdocumented hchecks hemail
        hcron hclock hkeeps log reproducible (triggerQuery_empty hfills)
      refine ⟨_, details, triggerResponse_eq hrun, ?_⟩
      rw [hanswer, request_response codes _ (not_success_ERROR_HTTP_STATUS reproducible.code)]
      simp [queueException, toCode_text, rowError, catalogEntry, hcode]
  | none =>
      have hrun : (ErrorExplorerController.trigger codes zod isEmail moment (codes.text code)
          (.object [])).run service log = (log, .error (.http (notReproducible codes code))) := by
        rw [ErrorExplorerController.trigger, hcode, rejectNonReproducible_of_known hcode]
        rfl
      have hstatus : ¬ (200 ≤ BAD_REQUEST ∧ BAD_REQUEST ≤ 299) := by decide
      refine ⟨_, .undefined, triggerResponse_eq hrun, ?_⟩
      rw [Thrown.response, request_response codes (notReproducible codes code) hstatus]
      simp [notReproducible, toCode_of_unknown codes text_ne_notReproducible, rowError,
        catalogEntry, hcode]

end Page

section Witness

def checkingLibrary : Library := ⟨Unit, Unit, Unit, HttpException, []⟩

/-- A library that keeps its checks by refusing all calls but lookups. -/
def checkingAnswer (codes : QueueErrorCodes) :
    (call : ExplorerCall checkingLibrary) →
      Except (Thrown checkingLibrary.Error) call.Answer
  | .queues (.getJob ..) => .ok none
  | .queues _ => .error (.library (queueException codes .INVALID_REPEAT_OPTIONS 400 .null))
  | .enqueueBulk .. => .error (.library (queueException codes .BULK_ENQUEUE_FAILED 500 .null))
  | .forRoot .. => .error (.library (queueException codes .INVALID_OPTIONS 500 .null))
  | .registerWorker _ => .error (.library (queueException codes .DUPLICATE_PROCESSOR 500 .null))

theorem keeps_checkingAnswer (codes : QueueErrorCodes) (isCron : String → Bool) (clock : ℚ)
    (workers : List String) :
    Keeps codes isCron clock workers HttpException.response
      (fun _ {_} calls ↦ Program.answerEach (checkingAnswer codes) calls) where
  absent log := Program.answerEach_one (checkingAnswer codes) _
  refuses log {call code status} h := by
    rw [Program.answerEach_one]
    cases h with
    | upsert h => exact ⟨_, .null, rfl, rfl⟩
    | enqueueBulk h => exact ⟨_, .null, rfl, rfl⟩
    | forRoot h => exact ⟨_, .null, rfl, rfl⟩
    | registerWorker h => exact ⟨_, .null, rfl, rfl⟩

def bulkMessages : QueueErrorCodes := spelledCodes fun _ ↦ "Bulk enqueue failed"

theorem errors_page_shows_row_bulk :
    ∃ res details,
      triggerResponse bulkMessages (Zod.ofParse fun _ ↦ none) (fun _ ↦ false) ⟨0, ["email"]⟩
          HttpException.response
          (fun _ {_} calls ↦ Program.answerEach (checkingAnswer bulkMessages) calls) []
          (useTriggerError "queue.bulk_enqueue_failed") = some res ∧
        request bulkMessages res =
          .error (.api ⟨"queue.bulk_enqueue_failed", "Bulk enqueue failed", 500, details⟩) := by
  have hclock : (⟨0, ["email"]⟩ : Moment).now ≤ 0 := le_refl 0
  have hkeeps := keeps_checkingAnswer bulkMessages (fun _ ↦ false) 0 ["email"]
  exact errors_page_shows_row bulkMessages (Zod.documented_ofParse _) (Zod.checks_ofParse _)
    (Zod.fills_ofParse _) rfl (by rfl) hclock hkeeps []
    (catalogEntry bulkMessages _ .BULK_ENQUEUE_FAILED)
    (List.mem_map_of_mem (bulkMessages.mem_values _))

end Witness

end NestQueueExample.Web
