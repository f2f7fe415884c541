import NestQueueExample.Config.QueueConfig
import NestQueueExample.Foundations.Retries
import NestQueueExample.Orders.Placement

/-!
# Injected failures of the webhook

The webhook handler fails while fewer attempts were made than the environment
asks for, and then records the delivery. The environment bounds this number
from below only, and the module gives a job four attempts: with more injected
failures than that leaves room for, no attempt ever succeeds.
-/

namespace NestQueueExample.Processors

open Config Orders Queues Retries SlidingWindow

structure WebhookDelivery where
  orderId : String
  attempts : ℕ
  deliveredAt : String
  deriving DecidableEq

def WEBHOOK_LOG_CAPACITY : ℕ := 500

structure WebhookLog where
  deliveries : List WebhookDelivery := []

namespace WebhookLog

def record (log : WebhookLog) (delivery : WebhookDelivery) : WebhookLog :=
  ⟨pushBounded WEBHOOK_LOG_CAPACITY log.deliveries delivery⟩

def list (log : WebhookLog) : List WebhookDelivery := log.deliveries

/-- The deliveries that the log holds for an order. -/
def deliveriesOf (log : WebhookLog) (orderId : String) : List WebhookDelivery :=
  log.list.filter fun delivery ↦ delivery.orderId = orderId

theorem deliveriesOf_eq_nil_iff {log : WebhookLog} {orderId : String} :
    log.deliveriesOf orderId = [] ↔ ∀ delivery ∈ log.list, delivery.orderId ≠ orderId := by
  simp [deliveriesOf]

theorem deliveriesOf_record_other {log : WebhookLog} {orderId : String}
    (h : log.deliveriesOf orderId = []) {delivery : WebhookDelivery}
    (hother : delivery.orderId ≠ orderId) :
    (log.record delivery).deliveriesOf orderId = [] := by
  rw [deliveriesOf_eq_nil_iff] at h ⊢
  intro d hd
  rcases mem_of_mem_pushBounded hd with hold | rfl
  · exact h d hold
  · exact hother

theorem deliveriesOf_record_self {log : WebhookLog} {delivery : WebhookDelivery}
    (h : log.deliveriesOf delivery.orderId = []) :
    (log.record delivery).deliveriesOf delivery.orderId = [delivery] := by
  have hnone : ∀ ds : List WebhookDelivery, (∀ d ∈ ds, d.orderId ≠ delivery.orderId) →
      (ds ++ [delivery]).filter (fun d ↦ d.orderId = delivery.orderId) = [delivery] := by
    intro ds hds
    have hfilter : ds.filter (fun d ↦ d.orderId = delivery.orderId) = [] := by
      simpa using hds
    simp [List.filter_append, hfilter]
  rw [deliveriesOf_eq_nil_iff] at h
  rw [deliveriesOf, list, record]
  rcases Nat.lt_or_ge log.deliveries.length WEBHOOK_LOG_CAPACITY with hroom | hfull
  · rw [pushBounded_of_lt hroom]
    exact hnone _ h
  · rw [pushBounded_of_le hfull]
    cases hds : log.deliveries with
    | nil =>
        rw [hds] at hfull
        exact absurd hfull (by decide)
    | cons d ds =>
        rw [List.cons_append, List.tail_cons]
        exact hnone ds fun d' hd' ↦ h d' (by simp [list, hds, hd'])

theorem deliveriesOf_foldl_record {log : WebhookLog} {orderId : String}
    (h : log.deliveriesOf orderId = []) {others : List WebhookDelivery}
    (hothers : ∀ delivery ∈ others, delivery.orderId ≠ orderId) :
    (others.foldl record log).deliveriesOf orderId = [] := by
  induction others generalizing log with
  | nil => exact h
  | cons delivery others ih =>
      rw [List.forall_mem_cons] at hothers
      exact ih (deliveriesOf_record_other h hothers.1) hothers.2

end WebhookLog

structure OrderCreatedWebhookJobResult where
  orderId : String
  attempts : ℕ
  deriving DecidableEq

namespace WebhookProcessor

def deliver (env : AppEnv) (attemptsMade : ℕ) (data : OrderCreatedWebhookJobData) (now : String)
    (log : WebhookLog) : Except String OrderCreatedWebhookJobResult × WebhookLog :=
  if (attemptsMade : ℚ) < env.WEBHOOK_FAILURES then
    (.error ("injected failure " ++ attemptsMade.repr), log)
  else
    (.ok ⟨data.orderId, attemptsMade + 1⟩, log.record ⟨data.orderId, attemptsMade + 1, now⟩)

/-- The attempts of one job, among the deliveries of other jobs that are
recorded before each of them. -/
def deliverAmong (others : ℕ → List WebhookDelivery) (env : AppEnv)
    (data : OrderCreatedWebhookJobData) (clock : ℕ → String) :
    Handler WebhookLog String OrderCreatedWebhookJobResult :=
  fun attemptsMade log ↦
    deliver env attemptsMade data (clock attemptsMade)
      ((others attemptsMade).foldl WebhookLog.record log)

end WebhookProcessor

/-- The options of a job stand before the defaults of the module. -/
def attemptsBudget (defaults : DefaultJobOptions) (opts : JobsOptions) : ℕ :=
  opts.attempts.getD defaults.attempts

/-- The job failed exactly `n` times and then succeeded, and the log holds one
delivery for its order, with one attempt more. -/
structure FailedThenDelivered (n : ℚ) (orderId : String)
    (run : List (Except String OrderCreatedWebhookJobResult) × WebhookLog) : Prop where
  attempts : ∃ failures : ℕ, (failures : ℚ) = n ∧ SucceedsAfter failures run.1
  delivery : ∃ delivery, run.2.deliveriesOf orderId = [delivery] ∧ (delivery.attempts : ℚ) = n + 1

section Runs

variable {env : AppEnv} {n : ℕ} {data : OrderCreatedWebhookJobData} {clock : ℕ → String}
  {others : ℕ → List WebhookDelivery}

theorem failsTimes_deliverAmong (hn : env.WEBHOOK_FAILURES = n)
    (hothers : ∀ k, ∀ delivery ∈ others k, delivery.orderId ≠ data.orderId) :
    FailsTimes (WebhookProcessor.deliverAmong others env data clock)
      (fun log ↦ log.deliveriesOf data.orderId = []) n where
  fails := by
    intro made hmade log hlog
    have hlt : (made : ℚ) < env.WEBHOOK_FAILURES := by
      rw [hn]
      exact_mod_cast hmade
    refine ⟨"injected failure " ++ made.repr, (others made).foldl WebhookLog.record log, ?_,
      WebhookLog.deliveriesOf_foldl_record hlog (hothers made)⟩
    rw [WebhookProcessor.deliverAmong, WebhookProcessor.deliver, if_pos hlt]
  returns := by
    intro log _
    have hnot : ¬ (n : ℚ) < env.WEBHOOK_FAILURES := by
      rw [hn]
      exact lt_irrefl _
    rw [WebhookProcessor.deliverAmong, WebhookProcessor.deliver, if_neg hnot]
    exact ⟨_, _, rfl⟩

/-- The job ends in its delivery exactly when the budget leaves an attempt after
the injected failures. -/
theorem failedThenDelivered_iff (hn : env.WEBHOOK_FAILURES = n)
    (hothers : ∀ k, ∀ delivery ∈ others k, delivery.orderId ≠ data.orderId) {log : WebhookLog}
    (hlog : log.deliveriesOf data.orderId = []) {budget : ℕ} (hbudget : 0 < budget) :
    FailedThenDelivered env.WEBHOOK_FAILURES data.orderId
      (Retries.run (WebhookProcessor.deliverAmong others env data clock) budget log) ↔
        n < budget := by
  have hfails : FailsTimes (WebhookProcessor.deliverAmong others env data clock)
      (fun log ↦ log.deliveriesOf data.orderId = []) n := failsTimes_deliverAmong hn hothers
  rw [hn, ← hfails.run_succeedsAfter_iff hlog hbudget]
  constructor
  · rintro ⟨⟨failures, hfailures, hsucceeds⟩, -⟩
    obtain rfl : failures = n := by exact_mod_cast hfailures
    exact hsucceeds
  · intro hsucceeds
    have hlt := (hfails.run_succeedsAfter_iff hlog hbudget).mp hsucceeds
    have henough : n ≤ 0 + (budget - 1) := by omega
    obtain ⟨-, last, result, hlast, hreturns⟩ :=
      hfails.attempts_return hlog (Nat.zero_le n) henough
    have hnot : ¬ (n : ℚ) < env.WEBHOOK_FAILURES := by
      rw [hn]
      exact lt_irrefl _
    rw [WebhookProcessor.deliverAmong, WebhookProcessor.deliver, if_neg hnot] at hreturns
    have hlog' := (Prod.mk.inj hreturns).2
    refine ⟨⟨n, rfl, hsucceeds⟩, ⟨data.orderId, n + 1, clock n⟩, ?_, by simp⟩
    rw [Retries.run, ← hlog']
    have hbefore := WebhookLog.deliveriesOf_foldl_record hlast (hothers n)
    exact WebhookLog.deliveriesOf_record_self hbefore

end Runs

/-- With a checked environment and the options built from it, the job of a
placed order fails as often as the environment says and is then delivered
exactly when at most three failures are injected. -/
theorem webhook_delivered_iff {platform : Platform} (hzod : platform.zod.Documented)
    (hchecks : platform.zod.Checks) {source : JsValue} {env : AppEnv}
    (henv : parseEnv platform source = .ok env) {Redis Telemetry : Type}
    {sharedClient : Option Redis} {buildTelemetry : Except ConfigError Telemetry}
    {options : BymaxQueueModuleOptions Redis Telemetry}
    (hoptions : buildQueueOptions platform.newURL env sharedClient buildTelemetry = .ok options)
    {shop : Shop} {rejections : OrdersService.Rejections} {id createdAt : String}
    {input : PlaceOrderInput} {jobId : String} {job : QueuedJob OrderCreatedWebhookJobData}
    (hjob : (jobId, job) ∈
      ((OrdersService.place rejections id createdAt input).exec shop).2.webhooks.jobs.entries)
    (hnew : (jobId, job) ∉ shop.webhooks.jobs.entries)
    {others : ℕ → List WebhookDelivery}
    (hothers : ∀ k, ∀ delivery ∈ others k, delivery.orderId ≠ id) {log : WebhookLog}
    (hlog : ∀ delivery ∈ log.list, delivery.orderId ≠ id) (clock : ℕ → String) :
    FailedThenDelivered env.WEBHOOK_FAILURES id
      (Retries.run (WebhookProcessor.deliverAmong others env job.data clock)
        (attemptsBudget options.defaultJobOptions job.opts) log) ↔ env.WEBHOOK_FAILURES ≤ 3 := by
  obtain ⟨n, hn⟩ := webhookFailures_natural hzod hchecks henv
  obtain rfl := place_webhook_new hjob hnew
  have hbudget : attemptsBudget options.defaultJobOptions
      (webhookJob (input.order id createdAt)).opts = 4 := by
    rw [(buildQueueOptions_ok hoptions).2]
    rfl
  rw [hbudget]
  have hiff : FailedThenDelivered env.WEBHOOK_FAILURES id
      (Retries.run (WebhookProcessor.deliverAmong others env ⟨id⟩ clock) 4 log) ↔ n < 4 :=
    failedThenDelivered_iff hn hothers (WebhookLog.deliveriesOf_eq_nil_iff.mpr hlog) (by decide)
  rw [show (webhookJob (input.order id createdAt)).data = ⟨id⟩ from rfl, hiff, hn]
  constructor
  · intro hlt
    exact_mod_cast Nat.le_of_lt_succ hlt
  · intro hle
    exact Nat.lt_succ_of_le (by exact_mod_cast hle)

/-! ## Environments that set the failures only -/

def failuresSource (n : ℕ) : JsValue := .object [(.own "WEBHOOK_FAILURES", .string n.repr)]

def failuresEnv (n : ℕ) : AppEnv := { defaultEnv with WEBHOOK_FAILURES := n }

theorem parseEnv_failures {n : ℕ} (h : n < 2 ^ 53) :
    parseEnv defaultPlatform (failuresSource n) = .ok (failuresEnv n) := by
  have hchecks : ([.int, .min 0] : List NumberCheck).all (fun check ↦ check.holds n) = true := by
    have hmax : (n : ℚ) ≤ MAX_SAFE_INTEGER := by
      have hcast : ((2 ^ 53 - 1 : ℕ) : ℚ) = MAX_SAFE_INTEGER := by norm_num [MAX_SAFE_INTEGER]
      rw [← hcast]
      exact_mod_cast Nat.le_pred_of_lt h
    have hmin : -MAX_SAFE_INTEGER ≤ (n : ℚ) :=
      (neg_nonpos.mpr (n.cast_nonneg.trans hmax)).trans n.cast_nonneg
    simp [NumberCheck.holds, hmax, hmin]
  rw [parseEnv_ok_iff]
  simp (disch := decide) only [defaultPlatform, Zod.ofParse, envSchema, failuresSource,
    Schema.parse, Fields.parse, JsValue.read_nil, JsValue.read_own, JsValue.read_own_of_ne,
    webhookFailuresSchema, JsNumber.toFinite_repr h, hchecks, webOriginSchema, booleanFlag, if_true,
    Except.map, defaultOrigin, failuresEnv, defaultEnv]

def failuresOptions (n : ℕ) : BymaxQueueModuleOptions Unit Unit where
  connection := .url "redis://localhost:6379/0"
  keyPrefix := "nqex"
  defaultJobOptions := ⟨4, ⟨"exponential", 1500⟩⟩
  flowsEnabled := true
  metricsEnabled := true
  cacheTtlMs := 3000
  drainTimeoutMs := (failuresEnv n).QUEUE_DRAIN_TIMEOUT_MS
  drainOnShutdown := false
  telemetry := none

theorem buildQueueOptions_failures (n : ℕ) :
    buildQueueOptions defaultPlatform.newURL (failuresEnv n) none (.ok ()) =
      .ok (failuresOptions n) := rfl

def sampleOrder : StoredOrder := sampleInput.order "order-1" "2026-07-09T00:00:00.000Z"

theorem webhookJob_sampleOrder :
    (autoId 1, webhookJob sampleOrder) ∈
      ((OrdersService.place {} "order-1" "2026-07-09T00:00:00.000Z" sampleInput).exec
        emptyShop).2.webhooks.jobs.entries := by
  rw [OrdersService.place_receipt_accepts rfl,
    Action.exec_bind_ok (OrdersService.enqueueWebhook_accepts rfl rfl _ _ _)]
  exact List.mem_singleton.mpr rfl

theorem two_failures_delivered :
    FailedThenDelivered (failuresEnv 2).WEBHOOK_FAILURES "order-1"
      (Retries.run (WebhookProcessor.deliverAmong (fun _ ↦ []) (failuresEnv 2) ⟨"order-1"⟩
        fun _ ↦ "2026-07-09T00:00:01.000Z") 4 {}) := by
  have hothers : ∀ k : ℕ, ∀ delivery ∈ (fun _ ↦ [] : ℕ → List WebhookDelivery) k,
      delivery.orderId ≠ "order-1" := by simp
  have hlog : ∀ delivery ∈ ({} : WebhookLog).list, delivery.orderId ≠ "order-1" := by
    simp [WebhookLog.list]
  have hiff := webhook_delivered_iff (Zod.documented_ofParse _) (Zod.checks_ofParse _)
    (parseEnv_failures (n := 2) (by norm_num)) (buildQueueOptions_failures 2)
    webhookJob_sampleOrder List.not_mem_nil hothers hlog fun _ ↦ "2026-07-09T00:00:01.000Z"
  exact hiff.mpr (by norm_num [failuresEnv])

/-- Four failures are accepted, and use up the budget. -/
theorem four_failures_not_delivered :
    parseEnv defaultPlatform (failuresSource 4) = .ok (failuresEnv 4) ∧
      buildQueueOptions defaultPlatform.newURL (failuresEnv 4) none (.ok ()) =
        .ok (failuresOptions 4) ∧
      (autoId 1, webhookJob sampleOrder) ∈
        ((OrdersService.place {} "order-1" "2026-07-09T00:00:00.000Z" sampleInput).exec
          emptyShop).2.webhooks.jobs.entries ∧
      ¬ FailedThenDelivered (failuresEnv 4).WEBHOOK_FAILURES "order-1"
        (Retries.run (WebhookProcessor.deliverAmong (fun _ ↦ []) (failuresEnv 4)
            (webhookJob sampleOrder).data fun _ ↦ "2026-07-09T00:00:01.000Z")
          (attemptsBudget (failuresOptions 4).defaultJobOptions (webhookJob sampleOrder).opts)
          {}) := by
  refine ⟨parseEnv_failures (by norm_num), buildQueueOptions_failures 4, webhookJob_sampleOrder,
    ?_⟩
  intro h
  have hfailures : (failuresEnv 4).WEBHOOK_FAILURES = (4 : ℕ) := rfl
  have hlt := (failedThenDelivered_iff hfailures (by simp) rfl (by decide)).mp h
  exact absurd hlt (by decide)

end NestQueueExample.Processors
