import NestQueueExample.Orders.Repository
import NestQueueExample.Processors.EmailProcessor
import NestQueueExample.Queues.JobQueue

/-!
# Placing an order

`place` stores the order, enqueues its receipt on the `email` queue and then
the webhook on the `webhooks` queue. Nothing is undone when an enqueue rejects:
the order stays stored, whatever it evicted stays evicted, and a receipt that
was enqueued stays enqueued.
-/

namespace NestQueueExample.Orders

open Processors Queues

def ORDER_CREATED_JOB : String := "order-created"

def VIP_PRIORITY : ℕ := 1

structure WelcomeEmailJobData where
  userId : String
  deriving DecidableEq

inductive EmailJobData where
  | receipt (data : ReceiptEmailJobData)
  | welcome (data : WelcomeEmailJobData)

structure OrderCreatedWebhookJobData where
  orderId : String
  deriving DecidableEq

structure PlaceOrderInput where
  recipient : String
  total : ℚ
  vip : Bool

def PlaceOrderInput.order (input : PlaceOrderInput) (id createdAt : String) : StoredOrder :=
  ⟨id, input.recipient, input.total, input.vip, createdAt⟩

structure PlacedOrder where
  orderId : String
  jobId : Option String
  deriving DecidableEq

structure NotFoundException where
  code : String
  message : String
  orderId : String
  deriving DecidableEq

inductive OrdersError where
  | enqueue (error : EnqueueError)
  | notFound (exception : NotFoundException)
  deriving DecidableEq

/-- The stores the service acts on: the orders, and the `email` and `webhooks`
queues. -/
structure Shop where
  repository : OrdersRepository
  email : JobQueue EmailJobData
  webhooks : JobQueue OrderCreatedWebhookJobData

/-- A method of the service; what it has done to the stores stays when it
rejects. -/
abbrev Action (α : Type) : Type := ExceptT OrdersError (StateM Shop) α

namespace OrdersService

def save (order : StoredOrder) : Action StoredOrder := do
  modify fun shop ↦ { shop with repository := shop.repository.save order }
  pure order

def settle {δ : Type} (rejects : Option EnqueueError)
    (added : Except EnqueueError (Enqueued δ)) : Action (Enqueued δ) :=
  match rejects, added with
  | some error, _ => throw (.enqueue error)
  | none, .ok enqueued => pure enqueued
  | none, .error error => throw (.enqueue error)

/-- An enqueue on the `email` queue; it rejects where `rejects` says so. -/
def enqueueEmail (rejects : Option EnqueueError) (name : String) (data : EmailJobData)
    (opts : JobsOptions) : Action String := do
  let shop ← get
  let enqueued ← settle rejects (shop.email.enqueue name data opts false)
  set { shop with email := enqueued.queue }
  pure enqueued.jobId

def enqueueWebhook (rejects : Option EnqueueError) (name : String)
    (data : OrderCreatedWebhookJobData) (opts : JobsOptions) : Action String := do
  let shop ← get
  let enqueued ← settle rejects (shop.webhooks.enqueue name data opts false)
  set { shop with webhooks := enqueued.queue }
  pure enqueued.jobId

def receiptData (order : StoredOrder) : ReceiptEmailJobData :=
  ⟨order.id, order.recipient, order.total⟩

/-- Which of the two enqueue calls of `place` reject. -/
structure Rejections where
  receipt : Option EnqueueError := none
  webhook : Option EnqueueError := none

/-- `id` and `createdAt` are what the id generator and the clock give. -/
def place (rejections : Rejections) (id createdAt : String) (input : PlaceOrderInput) :
    Action PlacedOrder := do
  let order ← save (input.order id createdAt)
  let jobId ← enqueueEmail rejections.receipt RECEIPT_JOB (.receipt (receiptData order))
    (if input.vip then { priority := some VIP_PRIORITY } else {})
  let _ ← enqueueWebhook rejections.webhook ORDER_CREATED_JOB ⟨order.id⟩ {}
  pure ⟨order.id, some jobId⟩

def remind (rejects : Option EnqueueError) (REMINDER_DELAY_MS : ℚ) (orderId : String) :
    Action PlacedOrder := do
  let shop ← get
  match shop.repository.find orderId with
  | none => throw (.notFound ⟨"order_not_found", "Order not found", orderId⟩)
  | some order =>
      let jobId ← enqueueEmail rejects RECEIPT_JOB (.receipt (receiptData order))
        { delay := some REMINDER_DELAY_MS }
      pure ⟨order.id, some jobId⟩

end OrdersService

/-! ## What each enqueue leaves behind -/

def Action.exec {α : Type} (action : Action α) (shop : Shop) : Except OrdersError α × Shop :=
  action.run.run shop

namespace Action

variable {α β : Type} (shop : Shop)

theorem exec_get : (get : Action Shop).exec shop = (.ok shop, shop) := rfl

theorem exec_bind (action : Action α) (k : α → Action β) :
    (action >>= k).exec shop =
      match action.exec shop with
      | (.ok a, after) => (k a).exec after
      | (.error error, after) => (.error error, after) := by
  unfold exec
  rw [ExceptT.run_bind, StateT.run_bind]
  rcases action.run.run shop with ⟨_ | a, after⟩ <;> rfl

theorem exec_bind_ok {action : Action α} {k : α → Action β} {shop after : Shop} {a : α}
    (h : action.exec shop = (.ok a, after)) : (action >>= k).exec shop = (k a).exec after := by
  rw [exec_bind, h]

theorem exec_bind_error {action : Action α} {k : α → Action β} {shop after : Shop}
    {error : OrdersError} (h : action.exec shop = (.error error, after)) :
    (action >>= k).exec shop = (.error error, after) := by
  rw [exec_bind, h]

end Action

namespace OrdersService

theorem exec_save (order : StoredOrder) (shop : Shop) :
    (save order).exec shop =
      (.ok order, { shop with repository := shop.repository.save order }) := rfl

theorem enqueueEmail_rejects (error : EnqueueError) (name : String) (data : EmailJobData)
    (opts : JobsOptions) (shop : Shop) :
    (enqueueEmail (some error) name data opts).exec shop = (.error (.enqueue error), shop) := rfl

theorem enqueueEmail_accepts {opts : JobsOptions} (hid : opts.jobId = none)
    (hkey : opts.deduplication = none) (name : String) (data : EmailJobData) (shop : Shop) :
    (enqueueEmail none name data opts).exec shop =
      (.ok (autoId shop.email.nextId),
        { shop with email := shop.email.insertAuto ⟨name, data, opts⟩ }) := by
  have hadd : shop.email.enqueue name data opts false =
      .ok ⟨shop.email.insertAuto ⟨name, data, opts⟩, autoId shop.email.nextId, true⟩ :=
    JobQueue.enqueue_plain hid hkey
  rw [enqueueEmail, Action.exec_bind_ok (Action.exec_get shop), hadd]
  rfl

theorem enqueueWebhook_rejects (error : EnqueueError) (name : String)
    (data : OrderCreatedWebhookJobData) (opts : JobsOptions) (shop : Shop) :
    (enqueueWebhook (some error) name data opts).exec shop = (.error (.enqueue error), shop) :=
  rfl

theorem enqueueWebhook_accepts {opts : JobsOptions} (hid : opts.jobId = none)
    (hkey : opts.deduplication = none) (name : String) (data : OrderCreatedWebhookJobData)
    (shop : Shop) :
    (enqueueWebhook none name data opts).exec shop =
      (.ok (autoId shop.webhooks.nextId),
        { shop with webhooks := shop.webhooks.insertAuto ⟨name, data, opts⟩ }) := by
  have hadd : shop.webhooks.enqueue name data opts false =
      .ok ⟨shop.webhooks.insertAuto ⟨name, data, opts⟩, autoId shop.webhooks.nextId, true⟩ :=
    JobQueue.enqueue_plain hid hkey
  rw [enqueueWebhook, Action.exec_bind_ok (Action.exec_get shop), hadd]
  rfl

end OrdersService

/-! ## What a placement leaves behind -/

/-- Exactly one job was added to the queue. -/
def AddsOne {δ : Type} (before after : JobQueue δ) (jobId : String) (job : QueuedJob δ) : Prop :=
  after.jobs.entries = before.jobs.entries ++ [(jobId, job)]

theorem addsOne_insertAuto {δ : Type} (q : JobQueue δ) (job : QueuedJob δ) :
    AddsOne q (q.insertAuto job) (autoId q.nextId) job :=
  q.entries_insertAuto job

def receiptJob (order : StoredOrder) : QueuedJob EmailJobData :=
  ⟨RECEIPT_JOB, .receipt (OrdersService.receiptData order),
    if order.vip then { priority := some VIP_PRIORITY } else {}⟩

def webhookJob (order : StoredOrder) : QueuedJob OrderCreatedWebhookJobData :=
  ⟨ORDER_CREATED_JOB, ⟨order.id⟩, {}⟩

/-- The order is stored, and one receipt and one webhook were added for it. -/
structure Placed (before after : Shop) (order : StoredOrder) (placed : PlacedOrder) : Prop where
  orderId : placed.orderId = order.id
  found : after.repository.find placed.orderId = some order
  receipt : ∃ jobId, placed.jobId = some jobId ∧
    AddsOne before.email after.email jobId (receiptJob order)
  webhook : ∃ jobId, AddsOne before.webhooks after.webhooks jobId (webhookJob order)

/-- A placement that rejects leaves every store as it was, and one that resolves
has done all it says. -/
def AllOrNothing (before : Shop) (order : StoredOrder)
    (outcome : Except OrdersError PlacedOrder × Shop) : Prop :=
  match outcome with
  | (.error _, after) => after = before
  | (.ok placed, after) => Placed before after order placed

namespace OrdersService

theorem place_receipt_rejects {rejections : Rejections} {error : EnqueueError}
    (h : rejections.receipt = some error) (id createdAt : String) (input : PlaceOrderInput)
    (shop : Shop) :
    (place rejections id createdAt input).exec shop =
      (.error (.enqueue error),
        { shop with repository := shop.repository.save (input.order id createdAt) }) := by
  rw [place, Action.exec_bind_ok (exec_save _ _), h,
    Action.exec_bind_error (enqueueEmail_rejects _ _ _ _ _)]

theorem place_receipt_accepts {rejections : Rejections} (h : rejections.receipt = none)
    (id createdAt : String) (input : PlaceOrderInput) (shop : Shop) :
    (place rejections id createdAt input).exec shop =
      (enqueueWebhook rejections.webhook ORDER_CREATED_JOB ⟨id⟩ {} >>= fun _ ↦
        pure ⟨id, some (autoId shop.email.nextId)⟩).exec
          { shop with
            repository := shop.repository.save (input.order id createdAt)
            email := shop.email.insertAuto (receiptJob (input.order id createdAt)) } := by
  have hid : (if input.vip then { priority := some VIP_PRIORITY } else {} : JobsOptions).jobId =
      none := by split <;> rfl
  have hkey : (if input.vip then { priority := some VIP_PRIORITY } else {} :
      JobsOptions).deduplication = none := by split <;> rfl
  rw [place, Action.exec_bind_ok (exec_save _ _), h,
    Action.exec_bind_ok (enqueueEmail_accepts hid hkey _ _ _)]
  rfl

end OrdersService

/-- The only job that a placement adds to the `webhooks` queue is the one of its
order. -/
theorem place_webhook_new {shop : Shop} {rejections : OrdersService.Rejections}
    {id createdAt : String} {input : PlaceOrderInput} {jobId : String}
    {job : QueuedJob OrderCreatedWebhookJobData}
    (hjob : (jobId, job) ∈
      ((OrdersService.place rejections id createdAt input).exec shop).2.webhooks.jobs.entries)
    (hnew : (jobId, job) ∉ shop.webhooks.jobs.entries) :
    job = webhookJob (input.order id createdAt) := by
  cases hreceipt : rejections.receipt with
  | some error =>
      rw [OrdersService.place_receipt_rejects hreceipt] at hjob
      exact absurd hjob hnew
  | none =>
      rw [OrdersService.place_receipt_accepts hreceipt] at hjob
      cases hwebhook : rejections.webhook with
      | some error =>
          rw [hwebhook, Action.exec_bind_error (OrdersService.enqueueWebhook_rejects _ _ _ _ _)]
            at hjob
          exact absurd hjob hnew
      | none =>
          rw [hwebhook, Action.exec_bind_ok (OrdersService.enqueueWebhook_accepts rfl rfl _ _ _)]
            at hjob
          change (jobId, job) ∈ (shop.webhooks.insertAuto _).jobs.entries at hjob
          rw [JobQueue.entries_insertAuto] at hjob
          rcases List.mem_append.mp hjob with hold | hadded
          · exact absurd hold hnew
          · exact (Prod.mk.inj (List.mem_singleton.mp hadded)).2

/-- Whatever rejects, the order is stored as `save` stores it; a receipt that
rejects leaves both queues as they were, a webhook that rejects leaves the
receipt behind, and without a rejection the order is placed. -/
theorem place_effects (shop : Shop) (rejections : OrdersService.Rejections)
    (id createdAt : String) (input : PlaceOrderInput) :
    let order := input.order id createdAt
    let (result, after) := (OrdersService.place rejections id createdAt input).exec shop
    after.repository = shop.repository.save order ∧ after.repository.find id = some order ∧
      match rejections.receipt, rejections.webhook with
      | some error, _ => result = .error (.enqueue error) ∧
          after.email = shop.email ∧ after.webhooks = shop.webhooks
      | none, some error => result = .error (.enqueue error) ∧
          (∃ jobId, AddsOne shop.email after.email jobId (receiptJob order)) ∧
          after.webhooks = shop.webhooks
      | none, none => ∃ placed, result = .ok placed ∧ Placed shop after order placed := by
  have hfound : (shop.repository.save (input.order id createdAt)).find id =
      some (input.order id createdAt) := by
    rw [OrdersRepository.find_save]
    exact if_pos rfl
  dsimp only
  cases hreceipt : rejections.receipt with
  | some error =>
      rw [OrdersService.place_receipt_rejects hreceipt]
      exact ⟨rfl, hfound, rfl, rfl, rfl⟩
  | none =>
      have hreceipts := addsOne_insertAuto shop.email (receiptJob (input.order id createdAt))
      rw [OrdersService.place_receipt_accepts hreceipt]
      cases hwebhook : rejections.webhook with
      | some error =>
          rw [Action.exec_bind_error (OrdersService.enqueueWebhook_rejects _ _ _ _ _)]
          exact ⟨rfl, hfound, rfl, ⟨_, hreceipts⟩, rfl⟩
      | none =>
          rw [Action.exec_bind_ok (OrdersService.enqueueWebhook_accepts rfl rfl _ _ _)]
          exact ⟨rfl, hfound, _, rfl, rfl, hfound, ⟨_, rfl, hreceipts⟩,
            _, addsOne_insertAuto shop.webhooks (webhookJob (input.order id createdAt))⟩

/-- A reminder that rejects leaves every store as it was, and one that resolves
adds one delayed receipt. -/
theorem remind_effects (shop : Shop) (rejects : Option EnqueueError) (REMINDER_DELAY_MS : ℚ)
    (orderId : String) :
    match (OrdersService.remind rejects REMINDER_DELAY_MS orderId).exec shop with
    | (.error _, after) => after = shop
    | (.ok placed, after) => ∃ order jobId, shop.repository.find orderId = some order ∧
        placed = ⟨order.id, some jobId⟩ ∧ after.repository = shop.repository ∧
        AddsOne shop.email after.email jobId ⟨RECEIPT_JOB,
          .receipt (OrdersService.receiptData order), { delay := some REMINDER_DELAY_MS }⟩ ∧
        after.webhooks = shop.webhooks := by
  rw [OrdersService.remind, Action.exec_bind_ok (Action.exec_get shop)]
  cases hfind : shop.repository.find orderId with
  | none => rfl
  | some order =>
      cases rejects with
      | some error =>
          rw [Action.exec_bind_error (OrdersService.enqueueEmail_rejects _ _ _ _ _)]
      | none =>
          rw [Action.exec_bind_ok (OrdersService.enqueueEmail_accepts rfl rfl _ _ _)]
          exact ⟨order, _, rfl, rfl, rfl, addsOne_insertAuto _ _, rfl⟩

def emptyShop : Shop := ⟨.empty, .empty, .empty⟩

def sampleInput : PlaceOrderInput := ⟨"a@b.co", 42, false⟩

/-- The webhook rejects: the order and its receipt stay. -/
theorem rejected_placement_leaves_receipt :
    ¬ AllOrNothing emptyShop (sampleInput.order "order-1" "2026-07-09T00:00:00.000Z")
      ((OrdersService.place { webhook := some (.unavailable "Connection is closed.") } "order-1"
        "2026-07-09T00:00:00.000Z" sampleInput).exec emptyShop) := by
  intro h
  rw [OrdersService.place_receipt_accepts rfl,
    Action.exec_bind_error (OrdersService.enqueueWebhook_rejects _ _ _ _ _)] at h
  have hemail := congrArg (fun shop : Shop ↦ shop.email.nextId) h
  exact absurd hemail (by decide)

end NestQueueExample.Orders
