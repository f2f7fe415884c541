import NestQueueExample.Common.BoundedRingBuffer
import NestQueueExample.Processors.EmailProcessor
import NestQueueExample.Processors.WebhookRetry

/-!
# The bounded stores of the processors

The audit trail, the sent mails and the webhook log append an entry and shift
the list when it has become longer than its capacity. A ring buffer of the
same capacity holds the same entries in the same order after any pushes.
-/

namespace NestQueueExample.Processors

open Common SlidingWindow

def RING_BUFFER_CAPACITY : ℕ := 100

structure AuditEntry where
  recordedAt : String
  payload : String
  deriving DecidableEq

structure AuditTrail where
  entries : List AuditEntry := []

namespace AuditTrail

def append (trail : AuditTrail) (entry : AuditEntry) : AuditTrail :=
  ⟨pushBounded RING_BUFFER_CAPACITY trail.entries entry⟩

def list (trail : AuditTrail) : List AuditEntry := trail.entries

theorem list_foldl_append (entries : List AuditEntry) :
    (entries.foldl append {}).list = entries.foldl (pushBounded RING_BUFFER_CAPACITY) [] :=
  (List.foldl_hom list fun _ _ ↦ rfl).symm

end AuditTrail

namespace MailerStub

def list (mailer : MailerStub) : List MailRecord := mailer.sent

/-- The mailer after sends that are recorded as the first components, under the
message ids that are the second ones. -/
def sendAll (mailer : MailerStub) (sends : List (MailRecord × String)) : MailerStub :=
  sends.foldl (fun mailer (record, uuid) ↦
    (mailer.send record.recipient record.template record.recordedAt uuid).2) mailer

theorem list_sendAll (sends : List (MailRecord × String)) :
    (sendAll {} sends).list =
      (sends.map Prod.fst).foldl (pushBounded SENT_BUFFER_CAPACITY) [] := by
  rw [List.foldl_map]
  exact (List.foldl_hom list fun _ _ ↦ rfl).symm

end MailerStub

theorem WebhookLog.list_foldl_record (deliveries : List WebhookDelivery) :
    (deliveries.foldl record {}).list =
      deliveries.foldl (pushBounded WEBHOOK_LOG_CAPACITY) [] :=
  (List.foldl_hom list fun _ _ ↦ rfl).symm

/-- What a store that appends and then shifts holds after the pushes `items`. -/
def boundedList {α : Type*} (capacity : ℕ) (items : List α) : List α :=
  items.foldl (pushBounded capacity) []

/-- What a ring buffer holds after the pushes `items`. -/
def ringBuffer {α : Type*} (capacity : ℕ) (items : List α) : BoundedRingBuffer α capacity :=
  items.foldl .push {}

section Refinement

variable {α : Type*} {capacity : ℕ}

theorem boundedList_eq_rtake (items : List α) :
    boundedList capacity items = items.rtake (min items.length capacity) := by
  rw [boundedList, foldl_pushBounded, min_comm, rtake_min_length]

theorem wellFormed_ringBuffer (hpos : 1 ≤ capacity) (items : List α) :
    (ringBuffer capacity items).WellFormed := by
  have : NeZero capacity := ⟨by omega⟩
  exact BoundedRingBuffer.wellFormed_empty.foldl_push items

theorem snapshot_ringBuffer (hpos : 1 ≤ capacity) (items : List α) :
    (ringBuffer capacity items).snapshot = boundedList capacity items := by
  have : NeZero capacity := ⟨by omega⟩
  have hempty : ({} : BoundedRingBuffer α capacity).snapshot = [] := Trail.snapshot_empty
  rw [ringBuffer, BoundedRingBuffer.wellFormed_empty.snapshot_foldl_push, hempty, boundedList]

/-- After any pushes the ring buffer holds what the shifted list of its capacity
holds, which is the last of the pushed items; each store of the processors is
such a list at its own capacity. -/
theorem ringBuffer_refines_boundedList (hpos : 1 ≤ capacity) (items : List α) :
    ((ringBuffer capacity items).snapshot = boundedList capacity items ∧
      boundedList capacity items = items.rtake (min items.length capacity)) ∧
    ((ringBuffer capacity items).items.length ≤ capacity ∧
      (ringBuffer capacity items).head < capacity ∧
      ((ringBuffer capacity items).items.length < capacity →
        (ringBuffer capacity items).head = 0)) ∧
    (∀ entries, (entries.foldl AuditTrail.append {}).list =
      (ringBuffer RING_BUFFER_CAPACITY entries).snapshot) ∧
    (∀ sends, (MailerStub.sendAll {} sends).list =
      (ringBuffer SENT_BUFFER_CAPACITY (sends.map Prod.fst)).snapshot) ∧
    (∀ deliveries, (deliveries.foldl WebhookLog.record {}).list =
      (ringBuffer WEBHOOK_LOG_CAPACITY deliveries).snapshot) := by
  have hwellFormed := wellFormed_ringBuffer hpos items
  refine ⟨⟨snapshot_ringBuffer hpos items, boundedList_eq_rtake items⟩,
    ⟨hwellFormed.length_le, hwellFormed.head_lt, hwellFormed.head_eq_zero⟩, ?_, ?_, ?_⟩
  · intro entries
    rw [snapshot_ringBuffer (by decide), AuditTrail.list_foldl_append, boundedList]
  · intro sends
    rw [snapshot_ringBuffer (by decide), MailerStub.list_sendAll, boundedList]
  · intro deliveries
    rw [snapshot_ringBuffer (by decide), WebhookLog.list_foldl_record, boundedList]

theorem ringBuffer_two_refines :
    (ringBuffer 2 ["a", "b", "c"]).snapshot = boundedList 2 ["a", "b", "c"] :=
  (ringBuffer_refines_boundedList (by decide) ["a", "b", "c"]).1.1

end Refinement

end NestQueueExample.Processors
