import NestQueueExample.Http.Validation

/-!
# Queue names

The names registered at boot, and the guard that turns an arbitrary string
into one of them or rejects it.
-/

namespace NestQueueExample.Queues

open Http

def EMAIL_QUEUE : String := "email"
def SEARCH_QUEUE : String := "search"
def AUDIT_QUEUE : String := "audit"
def WEBHOOKS_QUEUE : String := "webhooks"
def REPORTS_QUEUE : String := "reports"
def DEMOS_QUEUE : String := "demos"
def MAINTENANCE_QUEUE : String := "maintenance"
def MONITORING_QUEUE : String := "monitoring"
def FULFILLMENT_QUEUE : String := "fulfillment"
def STOCK_QUEUE : String := "stock"
def PAYMENTS_QUEUE : String := "payments"
def INVOICES_DATA_QUEUE : String := "invoices-data"
def INVOICES_QUEUE : String := "invoices"

/-- Every queue name the application registers at boot. -/
def KNOWN_QUEUES : List String :=
  [EMAIL_QUEUE, SEARCH_QUEUE, AUDIT_QUEUE, WEBHOOKS_QUEUE, REPORTS_QUEUE, DEMOS_QUEUE,
    MAINTENANCE_QUEUE, MONITORING_QUEUE, FULFILLMENT_QUEUE, STOCK_QUEUE, PAYMENTS_QUEUE,
    INVOICES_DATA_QUEUE, INVOICES_QUEUE]

def KnownQueue : Type := {name : String // name ∈ KNOWN_QUEUES}

def QUEUE_NOT_FOUND : String := "queue.queue_not_found"
def JOB_NOT_FOUND : String := "queue.job_not_found"

def NOT_FOUND : ℕ := 404

def assertKnownQueue {ε : Type} (name : String) : Except (Rejection ε) KnownQueue :=
  if hname : name ∈ KNOWN_QUEUES then .ok ⟨name, hname⟩
  else .error (.queue ⟨QUEUE_NOT_FOUND, NOT_FOUND, [("queue", name)]⟩)

theorem assertKnownQueue_of_not_mem {ε : Type} {name : String} (h : name ∉ KNOWN_QUEUES) :
    (assertKnownQueue name : Except (Rejection ε) KnownQueue) =
      .error (.queue ⟨QUEUE_NOT_FOUND, NOT_FOUND, [("queue", name)]⟩) := by
  rw [assertKnownQueue, dif_neg h]

end NestQueueExample.Queues
