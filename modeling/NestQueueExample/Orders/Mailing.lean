import NestQueueExample.Orders.Campaign

/-!
# Receipts from the request to the mail

Orders, reminders and campaigns put receipts on the `email` queue, onboarding
puts welcome mails there, and the worker takes each job at least once. What a
request asks for is stated apart from how it is enqueued and handled.
-/

namespace NestQueueExample.Orders

open Events Http Processors Queues Runs

/-! ## Requests about orders -/

def MAX_ORDER_TOTAL : ℚ := 1000000
def MAX_ORDER_ID_LENGTH : ℕ := 128

def orderIdSchema : Schema String := .string [.min 1, .max MAX_ORDER_ID_LENGTH]

/-- `html5Email` is the pattern of the schema library for an address. -/
def placeOrderSchema (html5Email : String → Bool) : Schema PlaceOrderInput :=
  .object (.cons "to" (.string [.regex html5Email])
    (.cons "total" (.number [.positive, .max MAX_ORDER_TOTAL])
      (.cons "vip" (.default .boolean false) .nil)))
    fun (recipient, total, vip, _) ↦ ⟨recipient, total, vip⟩

def OrdersError.thrown : OrdersError → Thrown EnqueueError
  | .enqueue error => .library error
  | .notFound ⟨code, message, orderId⟩ =>
      .http ⟨NOT_FOUND, code, message, .object [(.own "orderId", .string orderId)]⟩

/-- What the application leaves to its libraries and its environment. -/
structure Api where
  codes : QueueErrorCodes
  zod : Zod
  html5Email : String → Bool
  REMINDER_DELAY_MS : ℚ

variable (api : Api)

namespace OrdersController

def place (rejections : OrdersService.Rejections) (id createdAt : String) (body : JsValue)
    (shop : Shop) : Except (Thrown EnqueueError) PlacedOrder × Shop :=
  match parseJobData api.codes api.zod (placeOrderSchema api.html5Email) body with
  | .ok input =>
      let (placed, after) := (OrdersService.place rejections id createdAt input).exec shop
      (placed.mapError OrdersError.thrown, after)
  | .error error => (.error error, shop)

def remind (rejects : Option EnqueueError) (id : JsValue) (shop : Shop) :
    Except (Thrown EnqueueError) PlacedOrder × Shop :=
  match parseRequest api.zod orderIdSchema id with
  | .ok orderId =>
      let (placed, after) :=
        (OrdersService.remind rejects api.REMINDER_DELAY_MS orderId).exec shop
      (placed.mapError OrdersError.thrown, after)
  | .error rejection => (.error (rejection.thrown api.codes), shop)

end OrdersController

/-! ## The worker -/

inductive EmailHandler where
  | sendWelcome
  | sendReceipt
  | handleUnknown
  deriving DecidableEq

/-- A named handler takes precedence over the one for every other name. -/
def handlerOf (name : String) : EmailHandler :=
  if name = WELCOME_JOB then .sendWelcome
  else if name = RECEIPT_JOB then .sendReceipt
  else .handleUnknown

def sendWelcome (p : EmailProcessor) (data : WelcomeEmailJobData) (now : Timestamp)
    (uuid : String) : List MailRecord × EmailProcessor :=
  ([⟨data.userId, WELCOME_JOB, now⟩],
    { p with mailer := (p.mailer.send data.userId WELCOME_JOB now uuid).2 })

/-- What a delivery of the job mails, and the processor after it. -/
def process (p : EmailProcessor) (jobId : String) (job : QueuedJob EmailJobData)
    (now : Timestamp) (uuid : String) : List MailRecord × EmailProcessor :=
  match handlerOf job.name, job.data with
  | .sendWelcome, .welcome data => sendWelcome p data now uuid
  | .sendReceipt, .receipt data =>
      let (outcome, after) := p.sendReceipt ⟨some jobId, data, now, uuid⟩
      (outcome.sends, after)
  | _, _ => ([], p)

/-! ## Runs -/

structure Mailing where
  shop : Shop
  processor : EmailProcessor := {}

/-- A request is answered, a job of the `email` queue is delivered, for the first
time or again, or one is removed. -/
inductive MailEvent where
  | place (rejections : OrdersService.Rejections) (id createdAt : String) (body : JsValue)
  | remind (rejects : Option EnqueueError) (id : JsValue)
  | receipts (rejects : Option EnqueueError) (body : JsValue)
  | welcome (userId : String) (existing : Option (QueuedJob EmailJobData))
  | deliver (jobId : String) (now : Timestamp) (uuid : String)
  | remove (jobId : String)

structure Mail where
  jobId : String
  record : MailRecord
  deriving DecidableEq

namespace Mailing

def onEmail (s : Mailing) (email : JobQueue EmailJobData) : Mailing :=
  { s with shop := { s.shop with email } }

def step (s : Mailing) : MailEvent → Mailing
  | .place rejections id createdAt body =>
      { s with shop := (OrdersController.place api rejections id createdAt body s.shop).2 }
  | .remind rejects id => { s with shop := (OrdersController.remind api rejects id s.shop).2 }
  | .receipts rejects body =>
      s.onEmail (CampaignController.receipts api.codes api.zod rejects body s.shop.email).2
  | .welcome userId existing => s.onEmail (OnboardingService.act s.shop.email userId existing).1
  | .deliver jobId now uuid =>
      match s.shop.email.jobs.get? jobId with
      | some job => { s with processor := (process s.processor jobId job now uuid).2 }
      | none => s
  | .remove jobId => s.onEmail (s.shop.email.remove jobId)

def sent (s : Mailing) : MailEvent → List Mail
  | .deliver jobId now uuid =>
      match s.shop.email.jobs.get? jobId with
      | some job => (process s.processor jobId job now uuid).1.map (Mail.mk jobId)
      | none => []
  | _ => []

def receiptsSent (s : Mailing) (e : MailEvent) : List Mail :=
  (s.sent e).filter fun mail ↦ mail.record.template = RECEIPT_JOB

end Mailing

/-! ## What is asked for -/

/-- The receipt that a job asks for. -/
def receiptOf (job : QueuedJob EmailJobData) : Option ReceiptEmailJobData :=
  match handlerOf job.name, job.data with
  | .sendReceipt, .receipt data => some data
  | _, _ => none

/-- The receipts that wait in the queue, by job id. -/
def waiting (email : JobQueue EmailJobData) : List (String × ReceiptEmailJobData) :=
  email.jobs.entries.filterMap fun entry ↦ (receiptOf entry.2).map fun data ↦ (entry.1, data)

/-- The receipts under the numbers from `n` on. -/
def numbered (n : ℕ) : List ReceiptEmailJobData → List (String × ReceiptEmailJobData)
  | [] => []
  | data :: rest => (autoId n, data) :: numbered (n + 1) rest

namespace Mailing

/-- The receipts that a request asks for, where the queue accepts them. -/
def receiptsOf (s : Mailing) : MailEvent → List ReceiptEmailJobData
  | .place rejections id _ body =>
      match parseJobData (ε := EnqueueError) api.codes api.zod (placeOrderSchema api.html5Email)
        body, rejections.receipt with
      | .ok input, none => [⟨id, input.recipient, input.total⟩]
      | _, _ => []
  | .remind none id =>
      match parseRequest (ε := EnqueueError) api.zod orderIdSchema id with
      | .ok orderId => (s.shop.repository.find orderId).toList.map OrdersService.receiptData
      | .error _ => []
  | .receipts none body =>
      match parseJobData (ε := EnqueueError) api.codes api.zod campaignSchema body with
      | .ok count =>
          if count ≤ Errors.MAX_BULK_SIZE then
            (List.range count.ceil.toNat).map CampaignService.receiptFor
          else []
      | .error _ => []
  | _ => []

/-- A receipt is known by the id of its job. -/
def commissioned (s : Mailing) (e : MailEvent) : List (String × ReceiptEmailJobData) :=
  numbered s.shop.email.nextId (s.receiptsOf api e)

/-- The job whose receipt a delivery is about. -/
def delivered (s : Mailing) : MailEvent → List String
  | .deliver jobId _ _ =>
      if ((s.shop.email.jobs.get? jobId).bind receiptOf).isSome then [jobId] else []
  | _ => []

end Mailing

def commissions (shop : Shop) (events : List MailEvent) : List (String × ReceiptEmailJobData) :=
  waiting shop.email ++ emitted (Mailing.step api) (Mailing.commissioned api) ⟨shop, {}⟩ events

def mails (shop : Shop) (events : List MailEvent) : List Mail :=
  emitted (Mailing.step api) Mailing.sent ⟨shop, {}⟩ events

def receiptMails (shop : Shop) (events : List MailEvent) : List Mail :=
  emitted (Mailing.step api) Mailing.receiptsSent ⟨shop, {}⟩ events

def deliveredReceipts (shop : Shop) (events : List MailEvent) : List String :=
  emitted (Mailing.step api) Mailing.delivered ⟨shop, {}⟩ events

end NestQueueExample.Orders
