import NestQueueExample.Flows.Fulfillment
import NestQueueExample.Orders.Mailing
import NestQueueExample.Search.Reindex
import NestQueueExample.Web.Requests
import NestQueueExample.Workers.Invoices
import NestQueueExample.Workers.TenantQueues

/-!
# The routes of a post

A typed string may lead the request to any route of the API that takes a `POST`.
The form sends no body, which most of the handlers reject; the others act on
what the path says. The request does what was typed exactly when the string is
accepted as a user id, or its path leads to no route that does without a body.
-/

namespace NestQueueExample.Web

open Admin Flows Http Orders Queues Schedulers Search UrlPath Workers

/-! ## Bodies -/

namespace FlowsController

def MAX_BULK_ORDERS : ℕ := 50

/-- The pattern `^[A-Za-z0-9][A-Za-z0-9_-]*$`, as for scheduler ids. -/
def orderIdSchema : Schema String :=
  .string [.min 1, .max MAX_ORDER_ID_LENGTH, .regex matchesSchedulerId]

def variantSchema : Schema FulfillmentVariant :=
  .default (.transform (.enum ["default", "stuck", "failParent", "ignoreDependency"]) fun value ↦
    if value.1 = "stuck" then .stuck
    else if value.1 = "failParent" then .failParent
    else if value.1 = "ignoreDependency" then .ignoreDependency
    else .default) .default

structure LaunchBody where
  orderId : String
  variant : FulfillmentVariant

structure BulkBody where
  orderIds : List String
  variant : FulfillmentVariant

def launchSchema : Schema LaunchBody :=
  .object (.cons "orderId" orderIdSchema <| .cons "variant" variantSchema .nil)
    fun (orderId, variant, _) ↦ ⟨orderId, variant⟩

def bulkSchema : Schema BulkBody :=
  .object (.cons "orderIds" (.array orderIdSchema 1 MAX_BULK_ORDERS) <|
    .cons "variant" variantSchema .nil) fun (orderIds, variant, _) ↦ ⟨orderIds, variant⟩

end FlowsController

def SmokeController.smokeBodySchema : Schema String :=
  .object (.cons "payload" (.string [.min 1, .max 1000]) .nil) Prod.fst

namespace InvoicesController

structure RenderBody where
  invoiceId : String
  lines : List String

def renderSchema : Schema RenderBody :=
  .object (.cons "invoiceId"
      (.string [.min 1, .max MAX_INVOICE_ID_LENGTH, .regex matchesSchedulerId]) <|
    .cons "lines" (.array (.string [.max MAX_LINE_LENGTH]) 1 MAX_INVOICE_LINES) .nil)
    fun (invoiceId, lines, _) ↦ ⟨invoiceId, lines⟩

end InvoicesController

/-! ## The table -/

inductive PostRoute where
  | invalidateMetrics
  | pauseQueue
  | resumeQueue
  | cleanQueue
  | campaignReceipts
  | placeOrder
  | remindOrder
  | welcomeUser
  | stallDemo
  | reindexTerm
  | launchFlow
  | launchFlows
  | smokeAudit
  | triggerError
  | generateReport
  | renderInvoice
  | registerTenant
  | notifyTenant
  deriving DecidableEq

def PostRoute.all : List PostRoute :=
  [.invalidateMetrics, .pauseQueue, .resumeQueue, .cleanQueue, .campaignReceipts, .placeOrder,
    .remindOrder, .welcomeUser, .stallDemo, .reindexTerm, .launchFlow, .launchFlows, .smokeAudit,
    .triggerError, .generateReport, .renderInvoice, .registerTenant, .notifyTenant]

def PostRoute.pattern : PostRoute → List PatternSegment
  | .invalidateMetrics => [.literal "admin", .literal "metrics", .literal "invalidate"]
  | .pauseQueue => [.literal "admin", .literal "queues", .param, .literal "pause"]
  | .resumeQueue => [.literal "admin", .literal "queues", .param, .literal "resume"]
  | .cleanQueue => [.literal "admin", .literal "queues", .param, .literal "clean"]
  | .campaignReceipts => [.literal "campaigns", .literal "receipts"]
  | .placeOrder => [.literal "orders"]
  | .remindOrder => [.literal "orders", .param, .literal "remind"]
  | .welcomeUser => onboardingRoute
  | .stallDemo => [.literal "demos", .literal "stall"]
  | .reindexTerm => [.literal "search", .literal "reindex"]
  | .launchFlow => [.literal "flows", .literal "fulfillment"]
  | .launchFlows => [.literal "flows", .literal "fulfillment", .literal "bulk"]
  | .smokeAudit => [.literal "smoke", .literal "audit"]
  | .triggerError => [.literal "errors", .literal "trigger", .param]
  | .generateReport => [.literal "reports"]
  | .renderInvoice => [.literal "workers", .literal "invoices", .literal "render"]
  | .registerTenant => [.literal "workers", .literal "tenants"]
  | .notifyTenant => [.literal "workers", .literal "tenants", .param, .literal "notify"]

variable (L : Library) (api : Orders.Api) (shop : Shop)

/-- The handler of the route gets past its own checks. An error is triggered by
a handler that never returns. -/
def PostRoute.accepts (body : JsValue) : PostRoute → List String → Bool
  | .invalidateMetrics, [] => (MetricsController.invalidate api.zod body : Handler L _).starts
  | .pauseQueue, [name] => (QueuesController.pause name : Handler L _).starts
  | .resumeQueue, [name] => (QueuesController.resume name : Handler L _).starts
  | .cleanQueue, [name] => (QueuesController.clean api.zod name body : Handler L _).starts
  | .campaignReceipts, [] =>
      (CampaignController.receipts api.codes api.zod none body shop.email).1.isOk
  | .placeOrder, [] =>
      (parseJobData api.codes api.zod (placeOrderSchema api.html5Email) body :
        Except (Thrown EnqueueError) _).isOk
  | .remindOrder, [id] => (OrdersController.remind api none (.string id) shop).1.isOk
  | .welcomeUser, [userId] =>
      (OnboardingController.welcome api.zod (.string userId) : Except (Rejection Empty) _).isOk
  | .stallDemo, [] => true
  | .reindexTerm, [] =>
      (parseJobData api.codes api.zod reindexSchema body : Except (Thrown Empty) _).isOk
  | .launchFlow, [] =>
      (parseRequest api.zod FlowsController.launchSchema body : Except (Rejection Empty) _).isOk
  | .launchFlows, [] =>
      (parseRequest api.zod FlowsController.bulkSchema body : Except (Rejection Empty) _).isOk
  | .smokeAudit, [] => (api.zod.safeParse SmokeController.smokeBodySchema body).isOk
  | .generateReport, [] => true
  | .renderInvoice, [] =>
      (parseRequest api.zod InvoicesController.renderSchema body : Except (Rejection Empty) _).isOk
  | .registerTenant, [] =>
      (TenantWorkersController.register api.zod body : Except (Rejection Empty) _).isOk
  | .notifyTenant, [tenantId] =>
      (TenantWorkersController.notify api.zod (.string tenantId) body :
        Except (Rejection Empty) _).isOk
  | _, _ => false

/-- The route that accepts a `POST`, and what it reads from the path. -/
def accepted (request : ApiRequest) : Option (PostRoute × List String) :=
  match request.method with
  | .post => (dispatch PostRoute.pattern PostRoute.all request.path).filter fun reached ↦
      reached.1.accepts L api shop request.body reached.2
  | _ => none

/-- The request welcomes no user but the typed one, and is accepted by no route
if the typed string is not accepted as a user id. -/
structure HitsUser (userId : String) : Prop where
  acted : ∀ params, accepted L api shop (onboard userId) = some (.welcomeUser, params) →
    params = [userId]
  rejected : isUserId userId = false → accepted L api shop (onboard userId) = none

/-- The routes that act without a body, on what the path says. -/
inductive Bodyless : PostRoute → List String → Prop
  | welcomeUser {userId : String} (h : isUserId userId = true) : Bodyless .welcomeUser [userId]
  | pauseQueue {name : String} (h : name ∈ KNOWN_QUEUES) : Bodyless .pauseQueue [name]
  | resumeQueue {name : String} (h : name ∈ KNOWN_QUEUES) : Bodyless .resumeQueue [name]
  | remindOrder {id : String} (hmin : 1 ≤ JsString.length id)
      (hmax : JsString.length id ≤ MAX_ORDER_ID_LENGTH)
      (hstored : (shop.repository.find id).isSome = true) : Bodyless .remindOrder [id]
  | stallDemo : Bodyless .stallDemo []
  | generateReport : Bodyless .generateReport []
  | invalidateMetrics : Bodyless .invalidateMetrics []

/-! ## What is accepted without a body -/

theorem all_exclusive : PostRoute.all.Pairwise fun r r' ↦
    conflict r.pattern r'.pattern = true := by
  decide

theorem mem_all (r : PostRoute) : r ∈ PostRoute.all := by
  cases r <;> decide

variable {L api shop}

theorem accepted_eq_some_iff {path : String} {body : JsValue} {r : PostRoute}
    {params : List String} : accepted L api shop ⟨.post, path, body⟩ = some (r, params) ↔
      route r.pattern path = some params ∧ r.accepts L api shop body params = true := by
  rw [accepted, Option.filter_eq_some_iff, dispatch_eq_some_iff all_exclusive]
  simp [mem_all]

theorem safeParse_object_undefined {zod : Zod} (hzod : zod.Objects) {α β : Type} (fields : Fields α)
    (make : α → β) : ∃ issues, zod.safeParse (.object fields make) .undefined = .error issues := by
  cases hparsed : zod.safeParse (.object fields make) .undefined with
  | error issues => exact ⟨issues, rfl⟩
  | ok b =>
      obtain ⟨slots, hslots⟩ := hzod.object_input hparsed
      contradiction

theorem parseRequest_object_undefined {zod : Zod} (hzod : zod.Objects) {α β ε : Type}
    (fields : Fields α) (make : α → β) :
    ∃ rejection, (parseRequest zod (.object fields make) .undefined : Except (Rejection ε) β) =
      .error rejection := by
  obtain ⟨issues, hissues⟩ := safeParse_object_undefined hzod fields make
  exact ⟨_, by rw [parseRequest, hissues]⟩

theorem isOk_parseRequest_object {zod : Zod} (hzod : zod.Objects) {α β ε : Type}
    (fields : Fields α) (make : α → β) :
    (parseRequest zod (.object fields make) .undefined : Except (Rejection ε) β).isOk = false := by
  obtain ⟨rejection, hrejection⟩ := parseRequest_object_undefined (ε := ε) hzod fields make
  rw [hrejection]
  rfl

theorem isOk_parseJobData_object {zod : Zod} (hzod : zod.Objects) (codes : QueueErrorCodes)
    {α β ε : Type} (fields : Fields α) (make : α → β) :
    (parseJobData codes zod (.object fields make) .undefined : Except (Thrown ε) β).isOk =
      false := by
  obtain ⟨issues, hissues⟩ := safeParse_object_undefined hzod fields make
  rw [parseJobData, hissues]
  rfl

theorem isOk_welcome_iff {zod : Zod} (hzod : zod.Checks) {ε : Type} {userId : String} :
    (OnboardingController.welcome zod (.string userId) : Except (Rejection ε) String).isOk = true ↔
      isUserId userId = true := by
  have hok (user : String) := @welcome_ok_iff ε zod hzod userId user
  cases hwelcome : (OnboardingController.welcome zod (.string userId) :
      Except (Rejection ε) String) with
  | error rejection =>
      refine iff_of_false (by simp [Except.isOk, Except.toBool]) fun h ↦ ?_
      rw [(hok userId).mpr ⟨rfl, h⟩] at hwelcome
      contradiction
  | ok user => exact iff_of_true rfl ((hok user).mp hwelcome).2

theorem starts_checked {α : Type} (name : String) (k : KnownQueue → Handler L α)
    (hk : ∀ queue, (k queue).starts = true) :
    (Queues.Handler.sync (assertKnownQueue name) >>= k : Handler L α).starts = true ↔
      name ∈ KNOWN_QUEUES := by
  by_cases hname : name ∈ KNOWN_QUEUES
  · refine iff_of_true ?_ hname
    rw [assertKnownQueue, dif_pos hname]
    exact hk ⟨name, hname⟩
  · refine iff_of_false ?_ hname
    rw [assertKnownQueue_of_not_mem hname]
    exact Bool.false_ne_true

theorem isOk_remind_iff (hzod : api.zod.Checks) {id : String} :
    (OrdersController.remind api none (.string id) shop).1.isOk = true ↔
      (1 ≤ JsString.length id ∧ JsString.length id ≤ MAX_ORDER_ID_LENGTH) ∧
        (shop.repository.find id).isSome = true := by
  have hbounds (orderId : String) : (parseRequest api.zod orderIdSchema (.string id) :
      Except (Rejection EnqueueError) String) = .ok orderId ↔
        id = orderId ∧ 1 ≤ JsString.length orderId ∧
          JsString.length orderId ≤ MAX_ORDER_ID_LENGTH := by
    rw [parseRequest_ok_iff, Orders.orderIdSchema, hzod.string_iff]
    simp [StringCheck.holds]
  unfold OrdersController.remind
  split
  · next orderId hparsed =>
      obtain ⟨rfl, hlength⟩ := (hbounds orderId).mp hparsed
      rw [and_iff_right hlength, OrdersService.remind, Action.exec_bind_ok (Action.exec_get shop)]
      cases hfind : shop.repository.find id with
      | none => exact iff_of_false Bool.false_ne_true (by simp)
      | some order =>
          simp only
          rw [Action.exec_bind_ok (OrdersService.enqueueEmail_accepts rfl rfl _ _ _)]
          exact iff_of_true rfl rfl
  · next rejection hparsed =>
      refine iff_of_false Bool.false_ne_true fun h ↦ ?_
      rw [(hbounds id).mpr ⟨rfl, h.1⟩] at hparsed
      contradiction

/-! ## Handlers that need a body -/

section NeedsBody

variable {zod : Zod}

theorem starts_clean (hzod : zod.Objects) (name : String) :
    (QueuesController.clean zod name .undefined : Handler L (List String)).starts = false := by
  refine Program.FailsAtOnce.starts_eq_false (.bind_done fun body hbody ↦ ?_)
  obtain ⟨slots, hslots⟩ := hzod.object_input (parseRequest_ok_iff.mp hbody)
  contradiction

theorem isOk_receipts (hzod : zod.Objects) (codes : QueueErrorCodes)
    (rejects : Option EnqueueError) (queue : JobQueue EmailJobData) :
    (CampaignController.receipts codes zod rejects .undefined queue).1.isOk = false := by
  obtain ⟨issues, hissues⟩ := safeParse_object_undefined hzod
    (.cons "count" (.number [.int, .positive, .max MAX_CAMPAIGN_SIZE]) .nil) Prod.fst
  rw [CampaignController.receipts, parseJobData, campaignSchema, hissues]
  rfl

theorem isOk_register {ε : Type} (hzod : zod.Objects) :
    (TenantWorkersController.register zod .undefined : Except (Rejection ε) TenantEvent).isOk =
      false := by
  rw [TenantWorkersController.register]
  cases hbody : (parseRequest zod registerSchema .undefined :
      Except (Rejection ε) RegisterBody) with
  | error rejection => rfl
  | ok body =>
      obtain ⟨slots, hslots⟩ := hzod.object_input (parseRequest_ok_iff.mp hbody)
      contradiction

theorem isOk_notify {ε : Type} (hzod : zod.Objects) (tenantId : JsValue) :
    (TenantWorkersController.notify zod tenantId .undefined :
      Except (Rejection ε) TenantEvent).isOk = false := by
  rw [TenantWorkersController.notify]
  cases (parseRequest zod tenantIdSchema tenantId : Except (Rejection ε) String) with
  | error rejection => rfl
  | ok id =>
      cases hbody : (parseRequest zod notifySchema .undefined :
          Except (Rejection ε) NotificationData) with
      | error rejection => rfl
      | ok body =>
          obtain ⟨slots, hslots⟩ := hzod.object_input (parseRequest_ok_iff.mp hbody)
          contradiction

end NeedsBody

theorem starts_invalidate (hfills : api.zod.Fills) :
    (MetricsController.invalidate api.zod .undefined :
      Handler L MetricsController.InvalidateResult).starts = true := by
  have hparsed : (parseRequest api.zod MetricsController.invalidateSchema .undefined :
      Except (Rejection L.Error) (Option String)) = .ok none :=
    parseRequest_ok_iff.mpr hfills.default_absent
  rw [MetricsController.invalidate, hparsed]
  rfl

/-- Without a body, exactly these requests get past the checks of their handler. -/
theorem accepts_undefined_iff (hzod : api.zod.Checks) (hobjects : api.zod.Objects)
    (hfills : api.zod.Fills) {r : PostRoute} {params : List String} :
    r.accepts L api shop .undefined params = true ↔ Bodyless shop r params := by
  constructor
  · intro h
    unfold PostRoute.accepts at h
    split at h
    · exact .invalidateMetrics
    · exact .pauseQueue ((starts_checked _ _ fun _ ↦ rfl).mp h)
    · exact .resumeQueue ((starts_checked _ _ fun _ ↦ rfl).mp h)
    · simp [starts_clean hobjects] at h
    · simp [isOk_receipts hobjects] at h
    · simp [placeOrderSchema, isOk_parseJobData_object hobjects] at h
    · obtain ⟨⟨hmin, hmax⟩, hstored⟩ := (isOk_remind_iff hzod).mp h
      exact .remindOrder hmin hmax hstored
    · exact .welcomeUser ((isOk_welcome_iff hzod).mp h)
    · exact .stallDemo
    · simp [reindexSchema, isOk_parseJobData_object hobjects] at h
    · simp [FlowsController.launchSchema, isOk_parseRequest_object hobjects] at h
    · simp [FlowsController.bulkSchema, isOk_parseRequest_object hobjects] at h
    · obtain ⟨issues, hissues⟩ := safeParse_object_undefined hobjects
        (.cons "payload" (.string [.min 1, .max 1000]) .nil) Prod.fst
      rw [SmokeController.smokeBodySchema, hissues] at h
      exact absurd h Bool.false_ne_true
    · exact .generateReport
    · simp [InvoicesController.renderSchema, isOk_parseRequest_object hobjects] at h
    · simp [isOk_register hobjects] at h
    · simp [isOk_notify hobjects] at h
    · exact absurd h Bool.false_ne_true
  · rintro (h | h | h | ⟨hmin, hmax, hstored⟩ | _ | _ | _)
    · exact (isOk_welcome_iff hzod).mpr h
    · exact (starts_checked _ _ fun _ ↦ rfl).mpr h
    · exact (starts_checked _ _ fun _ ↦ rfl).mpr h
    · exact (isOk_remind_iff hzod).mpr ⟨⟨hmin, hmax⟩, hstored⟩
    · rfl
    · rfl
    · exact starts_invalidate hfills

/-! ## What a typed string leads to -/

/-- The path leads to a route that acts without a body. -/
def TakenWithoutBody (shop : Shop) (path : String) : Prop :=
  ∃ r params, route r.pattern path = some params ∧ Bodyless shop r params

theorem hitsUser_iff (hzod : api.zod.Checks) (hobjects : api.zod.Objects)
    (hfills : api.zod.Fills) (userId : String) :
    HitsUser L api shop userId ↔
      isUserId userId = true ∨ ¬ TakenWithoutBody shop (onboardPath userId) := by
  have haccepted {r : PostRoute} {params : List String} :
      accepted L api shop (onboard userId) = some (r, params) ↔
        route r.pattern (onboardPath userId) = some params ∧ Bodyless shop r params := by
    rw [onboard, accepted_eq_some_iff, accepts_undefined_iff hzod hobjects hfills]
  constructor
  · intro h
    cases hid : isUserId userId with
    | true => exact .inl rfl
    | false =>
        refine .inr ?_
        rintro ⟨r, params, htaken⟩
        have hsome := haccepted.mpr htaken
        rw [h.rejected hid] at hsome
        contradiction
  · rintro (hid | hnone)
    · refine ⟨fun params hsome ↦ ?_, fun hnot ↦ by simp [hid] at hnot⟩
      obtain ⟨hne, hchars⟩ := idChars_of_isUserId hid
      have hroute := (haccepted.mp hsome).1
      rw [PostRoute.pattern, route_onboardPath hne (plainSegment_of_idChars hchars)
        (percent_notMem_idChars hchars)] at hroute
      exact (Option.some.inj hroute).symm
    · have hrejected : accepted L api shop (onboard userId) = none := by
        rw [Option.eq_none_iff_forall_ne_some]
        rintro ⟨r, params⟩ hsome
        exact hnone ⟨r, params, haccepted.mp hsome⟩
      exact ⟨fun params hsome ↦ absurd (hrejected.symm.trans hsome) (by simp), fun _ ↦ hrejected⟩

/-- A string that the path keeps as one segment without escapes reaches the API
as it was typed. -/
theorem hitsUser_of_plainSegment (hzod : api.zod.Checks) (hobjects : api.zod.Objects)
    (hfills : api.zod.Fills) {userId : String} (hne : userId ≠ "")
    (hplain : PlainSegment userId.toList) (hpercent : '%' ∉ userId.toList) :
    HitsUser L api shop userId := by
  refine (hitsUser_iff hzod hobjects hfills userId).mpr ?_
  cases hid : isUserId userId with
  | true => exact .inl rfl
  | false =>
      refine .inr ?_
      rintro ⟨r, params, hroute, hbodyless⟩
      have htyped := route_onboardPath hne hplain hpercent
      have hwelcome := (dispatch_eq_some_iff all_exclusive).mpr ⟨mem_all .welcomeUser, htyped⟩
      have hreached := (dispatch_eq_some_iff all_exclusive).mpr ⟨mem_all r, hroute⟩
      rw [hwelcome] at hreached
      obtain ⟨rfl, rfl⟩ := Prod.mk.injEq .. ▸ Option.some.inj hreached
      cases hbodyless with
      | welcomeUser hother =>
          rw [hid] at hother
          exact Bool.noConfusion hother

def plainApi : Orders.Api := ⟨spelledCodes id, Zod.ofParse fun _ ↦ none, fun _ ↦ false, 0⟩

/-- The dot segment leads to another route, which enqueues a report. -/
example : ¬ HitsUser ⟨Unit, Unit, Unit, Empty, []⟩ plainApi emptyShop "../reports" := by
  intro h
  have hsegments : segments (onboardPath "../reports").toList = ["reports".toList] := by decide
  have hroute : route PostRoute.generateReport.pattern (onboardPath "../reports") = some [] := by
    rw [route, hsegments]
    rfl
  rcases (hitsUser_iff (Zod.checks_ofParse _) (Zod.objects_ofParse _) (Zod.fills_ofParse _)
    "../reports").mp h with haccepted | hnone
  · exact absurd haccepted (by decide)
  · exact hnone ⟨.generateReport, [], hroute, .generateReport⟩

end NestQueueExample.Web
