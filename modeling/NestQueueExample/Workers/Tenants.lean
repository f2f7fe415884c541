import NestQueueExample.Common.BoundedRingBuffer
import NestQueueExample.Foundations.InsertionMap
import NestQueueExample.Foundations.JsValue
import NestQueueExample.Foundations.Runs

/-!
# Dynamic per-tenant notification workers

The service registers a worker per tenant in the library's registry, keeps the
tier of each tenant in a map of its own, and records what the workers deliver.
A call of `unregister` waits for the registry in the middle, so it is three
events here: its start, the moment the registry settles, and the rest of the
method after the await. Of the library we use that `register` throws exactly
when the queue name is present and adds it otherwise, that `unregister`
removes the name between its call and its resolution or else rejects and
leaves it, and that a worker receives only jobs of its own queue.
-/

namespace NestQueueExample.Workers

open Common Runs

def TENANT_QUEUE_PREFIX : String := "notifications."

def NOTIFY_JOB : String := "notify"

def DELIVERIES_CAPACITY : ℕ := 500

instance : NeZero DELIVERIES_CAPACITY := ⟨by decide⟩

inductive TenantTier where
  | premium
  | free
  deriving DecidableEq

def TIER_CONCURRENCY : TenantTier → ℕ
  | .premium => 10
  | .free => 2

def tenantQueueName (tenantId : String) : String := TENANT_QUEUE_PREFIX ++ tenantId

theorem tenantQueueName_inj {t u : String} : tenantQueueName t = tenantQueueName u ↔ t = u := by
  simp [tenantQueueName]

structure NotificationData where
  message : String
  deriving DecidableEq

structure TenantDelivery where
  tenantId : String
  notification : String
  deliveredAt : ℕ
  deriving DecidableEq

structure TenantWorkerView where
  tenantId : String
  queue : String
  tier : Option TenantTier
  deriving DecidableEq

/-- A worker of the library: the tenant its handler closes over, if it is one of
this service, and its concurrency. -/
structure Worker where
  handlerTenant : Option String
  concurrency : ℕ

structure EnqueuedJob where
  queueName : String
  name : String
  data : NotificationData

/-- A call of `unregister` that has not returned: what it found before the
await, and whether the registry has settled. -/
structure UnregisterCall where
  existed : Bool
  settled : Bool

/-- The service and what it uses of the library: the registry by queue name,
every worker ever started, and every job enqueued. Calls of `unregister` in
progress are told apart by a tenant and a number. -/
structure TenantWorkers where
  registry : InsertionMap String Worker
  started : List (String × Worker) := []
  enqueued : List EnqueuedJob := []
  tiers : InsertionMap String TenantTier := .empty
  deliveries : Trail TenantDelivery DELIVERIES_CAPACITY := .empty
  calls : InsertionMap (String × ℕ) UnregisterCall := .empty

inductive TenantEvent where
  | register (tenantId : String) (tier : TenantTier)
  | unregister (tenantId : String) (call : ℕ)
  | registryRemoves (tenantId : String) (call : ℕ)
  | registryRejects (tenantId : String) (call : ℕ)
  | resume (tenantId : String) (call : ℕ)
  | notify (tenantId : String) (message : String)
  | deliver (tenantId : String) (worker job : ℕ) (now : ℕ)

def TenantEvent.tenantId : TenantEvent → String
  | .register t _ | .unregister t _ | .registryRemoves t _ | .registryRejects t _
  | .resume t _ | .notify t _ | .deliver t _ _ _ => t

namespace TenantWorkers

def register (s : TenantWorkers) (tenantId : String) (tier : TenantTier) : TenantWorkers :=
  let queueName := tenantQueueName tenantId
  let worker : Worker := ⟨some tenantId, TIER_CONCURRENCY tier⟩
  if s.registry.has queueName then s
  else
    { s with
      registry := s.registry.set queueName worker
      started := s.started ++ [(queueName, worker)]
      tiers := s.tiers.set tenantId tier }

def unregister (s : TenantWorkers) (tenantId : String) (call : ℕ) : TenantWorkers :=
  if s.calls.has (tenantId, call) then s
  else
    { s with
      calls := s.calls.set (tenantId, call)
        ⟨s.registry.has (tenantQueueName tenantId), false⟩ }

def registryRemoves (s : TenantWorkers) (tenantId : String) (call : ℕ) : TenantWorkers :=
  match s.calls.get? (tenantId, call) with
  | some ⟨existed, false⟩ =>
      { s with
        registry := s.registry.delete (tenantQueueName tenantId)
        calls := s.calls.set (tenantId, call) ⟨existed, true⟩ }
  | _ => s

def registryRejects (s : TenantWorkers) (tenantId : String) (call : ℕ) : TenantWorkers :=
  match s.calls.get? (tenantId, call) with
  | some ⟨_, false⟩ => { s with calls := s.calls.delete (tenantId, call) }
  | _ => s

/-- `unregister` after the await: drop the tier and return. -/
def resume (s : TenantWorkers) (tenantId : String) (call : ℕ) : TenantWorkers :=
  match s.calls.get? (tenantId, call) with
  | some ⟨_, true⟩ =>
      { s with
        tiers := s.tiers.delete tenantId
        calls := s.calls.delete (tenantId, call) }
  | _ => s

def notify (s : TenantWorkers) (tenantId message : String) : TenantWorkers :=
  { s with
    enqueued := s.enqueued ++ [⟨tenantQueueName tenantId, NOTIFY_JOB, ⟨message⟩⟩] }

def workersOf (s : TenantWorkers) (queueName : String) : List Worker :=
  (s.started.filter fun entry ↦ entry.1 = queueName).map Prod.snd

def jobsOf (s : TenantWorkers) (queueName : String) : List EnqueuedJob :=
  s.enqueued.filter fun job ↦ job.queueName = queueName

/-- What the handler of a worker records for a job of its queue. Delivery is at
least once, so any job may be delivered any number of times. -/
def delivery (s : TenantWorkers) : TenantEvent → List TenantDelivery
  | .deliver tenantId worker job now =>
      match (s.workersOf (tenantQueueName tenantId))[worker]?,
        (s.jobsOf (tenantQueueName tenantId))[job]? with
      | some ⟨some handlerTenant, _⟩, some job => [⟨handlerTenant, job.data.message, now⟩]
      | _, _ => []
  | _ => []

def record (s : TenantWorkers) (recorded : List TenantDelivery) : TenantWorkers :=
  { s with deliveries := recorded.foldl Trail.push s.deliveries }

def step (s : TenantWorkers) (e : TenantEvent) : TenantWorkers :=
  match e with
  | .register t tier => s.register t tier
  | .unregister t call => s.unregister t call
  | .registryRemoves t call => s.registryRemoves t call
  | .registryRejects t call => s.registryRejects t call
  | .resume t call => s.resume t call
  | .notify t message => s.notify t message
  | .deliver .. => s.record (s.delivery e)

def start (registry : InsertionMap String Worker) : TenantWorkers := { registry }

def view (s : TenantWorkers) (queue : String) : TenantWorkerView :=
  let id := JsString.slice queue TENANT_QUEUE_PREFIX.toList.length
  { tenantId := id, queue, tier := s.tiers.get? id }

def list (s : TenantWorkers) (tenantId : Option String) : List TenantWorkerView :=
  let views := (s.registry.keys.filter (JsString.startsWith · TENANT_QUEUE_PREFIX)).map s.view
  match tenantId with
  | none => views
  | some t => views.filter fun view ↦ view.tenantId = t

def listDeliveries (s : TenantWorkers) (tenantId : Option String) : List TenantDelivery :=
  match tenantId with
  | none => s.deliveries.snapshot
  | some t => s.deliveries.snapshot.filter fun entry ↦ entry.tenantId = t

theorem view_tenantId_iff (s : TenantWorkers) (t queue : String) :
    (JsString.startsWith queue TENANT_QUEUE_PREFIX = true ∧ (s.view queue).tenantId = t) ↔
      queue = tenantQueueName t := by
  constructor
  · rintro ⟨hstart, hid⟩
    obtain ⟨rest, rfl⟩ := JsString.startsWith_iff.mp hstart
    simp only [view, JsString.slice_append] at hid
    rw [hid, tenantQueueName]
  · rintro rfl
    simp [tenantQueueName, view]

theorem view_tenantQueueName (s : TenantWorkers) (t : String) :
    s.view (tenantQueueName t) = ⟨t, tenantQueueName t, s.tiers.get? t⟩ := by
  simp [view, tenantQueueName]

theorem list_some (s : TenantWorkers) (t : String) :
    s.list (some t) =
      if s.registry.has (tenantQueueName t) then
        [⟨t, tenantQueueName t, s.tiers.get? t⟩] else [] := by
  have hfilter : ((s.registry.keys.filter
      (JsString.startsWith · TENANT_QUEUE_PREFIX)).filter
        fun queue ↦ (s.view queue).tenantId = t) =
      s.registry.keys.filter fun queue ↦ queue = tenantQueueName t := by
    rw [List.filter_filter]
    apply List.filter_congr
    intro queue _
    rw [Bool.eq_iff_iff]
    simpa [and_comm] using s.view_tenantId_iff t queue
  rw [list, List.filter_map, Function.comp_def, hfilter, InsertionMap.keys_filter_eq]
  split
  · simp [view_tenantQueueName]
  · rfl

end TenantWorkers

end NestQueueExample.Workers
