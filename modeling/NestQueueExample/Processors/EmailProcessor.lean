import NestQueueExample.Events.Feed
import NestQueueExample.Foundations.BoundedMap

/-!
# Receipt emails and their idempotency markers

The handler of `send-receipt` keeps the result of the latest sends by job id.
A send of a remembered id never happens, so the markers are the window of the
last 1000 sends with an id, and a delivery is answered from that window
exactly when the latest send of its id is still in it.
-/

namespace NestQueueExample.Processors

open Events Runs SlidingWindow

def RECEIPT_JOB : String := "send-receipt"

def SENT_BUFFER_CAPACITY : ℕ := 500

def IDEMPOTENCY_MARKER_CAPACITY : ℕ := 1000

structure MailRecord where
  recipient : String
  template : String
  recordedAt : Timestamp
  deriving DecidableEq

structure MailResult where
  messageId : String
  deriving DecidableEq

structure MailerStub where
  sent : List MailRecord := []

def MailerStub.send (m : MailerStub) (recipient template : String) (now : Timestamp)
    (uuid : String) : MailResult × MailerStub :=
  (⟨uuid⟩, ⟨pushBounded SENT_BUFFER_CAPACITY m.sent ⟨recipient, template, now⟩⟩)

/-- The mailer after these sends. -/
def MailerStub.record (m : MailerStub) (records : List MailRecord) : MailerStub :=
  ⟨records.foldl (pushBounded SENT_BUFFER_CAPACITY) m.sent⟩

theorem MailerStub.record_append (m : MailerStub) (xs ys : List MailRecord) :
    m.record (xs ++ ys) = (m.record xs).record ys := by
  simp [record]

structure ReceiptEmailJobData where
  orderId : String
  recipient : String
  total : ℚ

/-- A delivery of a receipt job: the id and the data of the job, and what the
clock and the id generator show when its handler runs. -/
structure ReceiptDelivery where
  jobId : Option String
  data : ReceiptEmailJobData
  now : Timestamp
  uuid : String

structure EmailProcessor where
  mailer : MailerStub := {}
  processedReceipts : InsertionMap String MailResult := .empty

/-- What a delivery answers, and its calls of `MailerStub.send`. -/
structure ReceiptOutcome where
  result : MailResult
  sends : List MailRecord
  deriving DecidableEq

namespace EmailProcessor

def evictOldestMarkerWhenFull (markers : InsertionMap String MailResult) :
    InsertionMap String MailResult :=
  if markers.size ≤ IDEMPOTENCY_MARKER_CAPACITY then markers else markers.deleteOldest

/-- Record a receipt as processed; skipped when the job has no id. -/
def rememberReceipt (p : EmailProcessor) (jobId : Option String) (result : MailResult) :
    EmailProcessor :=
  match jobId with
  | none => p
  | some id =>
      { p with processedReceipts := evictOldestMarkerWhenFull (p.processedReceipts.set id result) }

def sendReceipt (p : EmailProcessor) (d : ReceiptDelivery) : ReceiptOutcome × EmailProcessor :=
  match d.jobId.bind p.processedReceipts.get? with
  | some marker => (⟨marker, []⟩, p)
  | none =>
      let (result, mailer) := p.mailer.send d.data.recipient RECEIPT_JOB d.now d.uuid
      (⟨result, [⟨d.data.recipient, RECEIPT_JOB, d.now⟩]⟩,
        { p with mailer }.rememberReceipt d.jobId result)

def step (p : EmailProcessor) (d : ReceiptDelivery) : EmailProcessor := (p.sendReceipt d).2

def handle (deliveries : List ReceiptDelivery) : EmailProcessor := exec step {} deliveries

def outcomes (p : EmailProcessor) (deliveries : List ReceiptDelivery) : List ReceiptOutcome :=
  emitted step (fun p d ↦ [(p.sendReceipt d).1]) p deliveries

def sendOf (p : EmailProcessor) (d : ReceiptDelivery) : List (Option String × MailResult) :=
  (p.sendReceipt d).1.sends.map fun _ ↦ (d.jobId, (p.sendReceipt d).1.result)

def sends (deliveries : List ReceiptDelivery) : List (Option String × MailResult) :=
  emitted step sendOf {} deliveries

end EmailProcessor

/-- The latest send under `id` gave `result`, and fewer than 1000 sends with an
id followed it. -/
def Memoized (sends : List (Option String × MailResult)) (id : String) (result : MailResult) :
    Prop :=
  ∃ before after, sends = before ++ (some id, result) :: after ∧
    (∀ send ∈ after, send.1 ≠ some id) ∧
    (after.filter fun send ↦ send.1.isSome).length < IDEMPOTENCY_MARKER_CAPACITY

def withId (sends : List (Option String × MailResult)) : List (String × MailResult) :=
  sends.filterMap fun send ↦ send.1.map fun id ↦ (id, send.2)

/-! ## The markers are a window of the sends -/

@[simp] theorem withId_append (xs ys : List (Option String × MailResult)) :
    withId (xs ++ ys) = withId xs ++ withId ys := List.filterMap_append

@[simp] theorem withId_cons_some (id : String) (result : MailResult)
    (xs : List (Option String × MailResult)) :
    withId ((some id, result) :: xs) = (id, result) :: withId xs := rfl

theorem length_withId (xs : List (Option String × MailResult)) :
    (withId xs).length = (xs.filter fun send ↦ send.1.isSome).length := by
  induction xs with
  | nil => rfl
  | cons send xs ih =>
      obtain ⟨_ | id, result⟩ := send
      · simpa [withId] using ih
      · simpa [withId] using ih

theorem mem_keys_withId {xs : List (Option String × MailResult)} {id : String} :
    id ∈ (withId xs).map Prod.fst ↔ ∃ send ∈ xs, send.1 = some id := by
  simp [withId]

/-- Seen among the sends with an id, being memoized is being the latest entry
of a window. -/
theorem memoized_iff {xs : List (Option String × MailResult)} {id : String}
    {result : MailResult} :
    Memoized xs id result ↔
      ∃ before after, withId xs = before ++ (id, result) :: after ∧
        id ∉ after.map Prod.fst ∧ after.length < IDEMPOTENCY_MARKER_CAPACITY := by
  constructor
  · rintro ⟨before, after, rfl, hlatest, hfew⟩
    refine ⟨withId before, withId after, by simp, ?_, by rwa [length_withId]⟩
    intro hmem
    obtain ⟨send, hsend, hid⟩ := mem_keys_withId.mp hmem
    exact hlatest send hsend hid
  · rintro ⟨before, after, hxs, hlatest, hfew⟩
    obtain ⟨before', rest, rfl, -, hrest⟩ := List.filterMap_eq_append_iff.mp hxs
    obtain ⟨skipped, send, after', rfl, hskipped, hsend, hafter⟩ :=
      List.filterMap_eq_cons_iff.mp hrest
    obtain ⟨_ | id', result'⟩ := send
    · simp at hsend
    · obtain ⟨rfl, rfl⟩ : id' = id ∧ result' = result := by simpa using hsend
      have hafter' : withId after' = after := hafter
      refine ⟨before' ++ skipped, after', by simp, ?_, ?_⟩
      · intro send hmem hid
        exact hlatest (hafter' ▸ mem_keys_withId.mpr ⟨send, hmem, hid⟩)
      · rw [← length_withId, hafter']
        exact hfew

namespace EmailProcessor

theorem entries_remember {p : EmailProcessor} {log : List (String × MailResult)}
    (hwindow : p.processedReceipts.entries = log.rtake IDEMPOTENCY_MARKER_CAPACITY)
    {id : String} (hnew : p.processedReceipts.get? id = none) (result : MailResult) :
    (p.rememberReceipt (some id) result).processedReceipts.entries =
      (log ++ [(id, result)]).rtake IDEMPOTENCY_MARKER_CAPACITY := by
  rw [← pushBounded_rtake, ← hwindow]
  exact InsertionMap.entries_evictOver_set (InsertionMap.get?_eq_none_iff.mp hnew) result

theorem sendReceipt_marked {p : EmailProcessor} {d : ReceiptDelivery} {marker : MailResult}
    (h : d.jobId.bind p.processedReceipts.get? = some marker) :
    p.sendReceipt d = (⟨marker, []⟩, p) := by
  simp [sendReceipt, h]

theorem sendReceipt_unmarked {p : EmailProcessor} {d : ReceiptDelivery}
    (h : d.jobId.bind p.processedReceipts.get? = none) :
    p.sendReceipt d =
      (⟨⟨d.uuid⟩, [⟨d.data.recipient, RECEIPT_JOB, d.now⟩]⟩,
        { p with mailer := (p.mailer.send d.data.recipient RECEIPT_JOB d.now d.uuid).2
          }.rememberReceipt d.jobId ⟨d.uuid⟩) := by
  simp [sendReceipt, h, MailerStub.send]

theorem handle_append (deliveries : List ReceiptDelivery) (d : ReceiptDelivery) :
    handle (deliveries ++ [d]) = (handle deliveries).step d := by
  simp [handle]

theorem sends_append (deliveries : List ReceiptDelivery) (d : ReceiptDelivery) :
    sends (deliveries ++ [d]) = sends deliveries ++ (handle deliveries).sendOf d := by
  simp [sends, handle, emitted_append, emitted]

theorem entries_step {p : EmailProcessor} {xs : List (Option String × MailResult)}
    (hwindow : p.processedReceipts.entries = (withId xs).rtake IDEMPOTENCY_MARKER_CAPACITY)
    (d : ReceiptDelivery) :
    (p.step d).processedReceipts.entries =
      (withId (xs ++ p.sendOf d)).rtake IDEMPOTENCY_MARKER_CAPACITY := by
  cases hmarker : d.jobId.bind p.processedReceipts.get? with
  | some marker => simp [step, sendOf, sendReceipt_marked hmarker, hwindow]
  | none =>
      have hlog : p.sendOf d = [(d.jobId, ⟨d.uuid⟩)] := by
        simp [sendOf, sendReceipt_unmarked hmarker]
      rw [hlog, step, sendReceipt_unmarked hmarker, withId_append]
      cases hid : d.jobId with
      | none => simpa [rememberReceipt, withId] using hwindow
      | some id =>
          have hnew : p.processedReceipts.get? id = none := by simpa [hid] using hmarker
          exact entries_remember (p := { p with mailer := _ }) hwindow hnew ⟨d.uuid⟩

theorem entries_handle (deliveries : List ReceiptDelivery) :
    (handle deliveries).processedReceipts.entries =
      (withId (sends deliveries)).rtake IDEMPOTENCY_MARKER_CAPACITY := by
  induction deliveries using List.reverseRecOn with
  | nil => rfl
  | append_singleton deliveries d ih =>
      rw [handle_append, sends_append]
      exact entries_step ih d

theorem get?_handle_iff {deliveries : List ReceiptDelivery} {id : String}
    {result : MailResult} :
    (handle deliveries).processedReceipts.get? id = some result ↔
      Memoized (sends deliveries) id result := by
  have hnodup := (handle deliveries).processedReceipts.nodup
  rw [entries_handle] at hnodup
  rw [InsertionMap.get?_eq_some_iff, entries_handle, mem_rtake_iff_latest hnodup, memoized_iff]

theorem outcomes_congr {p q : EmailProcessor} (h : p.processedReceipts = q.processedReceipts)
    (later : List ReceiptDelivery) : p.outcomes later = q.outcomes later := by
  have houtcome : ∀ p q : EmailProcessor, p.processedReceipts = q.processedReceipts →
      ∀ d, (p.sendReceipt d).1 = (q.sendReceipt d).1 ∧
        (p.step d).processedReceipts = (q.step d).processedReceipts := by
    intro p q h d
    cases hmarker : d.jobId.bind p.processedReceipts.get? with
    | some marker =>
        have hmarker' := hmarker
        rw [h] at hmarker'
        simp [step, sendReceipt_marked hmarker, sendReceipt_marked hmarker', h]
    | none =>
        have hmarker' := hmarker
        rw [h] at hmarker'
        rw [step, step, sendReceipt_unmarked hmarker, sendReceipt_unmarked hmarker']
        cases d.jobId <;> simp [rememberReceipt, h]
  exact emitted_related (fun p q d hpq ↦ (houtcome p q hpq d).2)
    (fun p q d hpq ↦ by rw [(houtcome p q hpq d).1]) h later

/-! ## The mails that went out -/

@[simp] theorem mailer_rememberReceipt (p : EmailProcessor) (jobId : Option String)
    (result : MailResult) : (p.rememberReceipt jobId result).mailer = p.mailer := by
  cases jobId <;> rfl

theorem mailer_sendReceipt (p : EmailProcessor) (d : ReceiptDelivery) :
    (p.step d).mailer = p.mailer.record (p.sendReceipt d).1.sends := by
  cases hmarker : d.jobId.bind p.processedReceipts.get? with
  | some marker =>
      rw [step, sendReceipt_marked hmarker]
      rfl
  | none =>
      rw [step, sendReceipt_unmarked hmarker, mailer_rememberReceipt]
      rfl

/-- The mailer holds what the deliveries of a run have sent. -/
theorem mailer_exec (p : EmailProcessor) (deliveries : List ReceiptDelivery) :
    (exec step p deliveries).mailer =
      p.mailer.record ((p.outcomes deliveries).flatMap ReceiptOutcome.sends) := by
  induction deliveries generalizing p with
  | nil => rfl
  | cons d deliveries ih =>
      have houtcomes : p.outcomes (d :: deliveries) =
          (p.sendReceipt d).1 :: (p.step d).outcomes deliveries := rfl
      rw [exec_cons, ih, mailer_sendReceipt, houtcomes, List.flatMap_cons, MailerStub.record_append]

end EmailProcessor

/-- A delivery returns the result of the latest send under its id, sending
nothing, exactly when fewer than 1000 sends with an id came after that send;
otherwise it sends once and returns the fresh result. A delivery without an id
leaves every later outcome as it was, and at most 1000 markers are held. The
mailer has recorded exactly the sends of the run. -/
theorem sendReceipt_idempotency_window (deliveries : List ReceiptDelivery)
    (d : ReceiptDelivery) :
    (∀ result, ((EmailProcessor.handle deliveries).sendReceipt d).1 = ⟨result, []⟩ ↔
      ∃ id, d.jobId = some id ∧ Memoized (EmailProcessor.sends deliveries) id result) ∧
    ((∀ id result, d.jobId = some id →
        ¬ Memoized (EmailProcessor.sends deliveries) id result) →
      ((EmailProcessor.handle deliveries).sendReceipt d).1 =
        ⟨⟨d.uuid⟩, [⟨d.data.recipient, RECEIPT_JOB, d.now⟩]⟩) ∧
    (d.jobId = none → ∀ later,
      (EmailProcessor.handle (deliveries ++ [d])).outcomes later =
        (EmailProcessor.handle deliveries).outcomes later) ∧
    (EmailProcessor.handle deliveries).processedReceipts.size ≤ IDEMPOTENCY_MARKER_CAPACITY ∧
    (EmailProcessor.handle deliveries).mailer = ({} : MailerStub).record
      ((EmailProcessor.outcomes {} deliveries).flatMap ReceiptOutcome.sends) := by
  refine ⟨?_, ?_, ?_, ?_, EmailProcessor.mailer_exec {} deliveries⟩
  · intro result
    simp only [← EmailProcessor.get?_handle_iff, ← Option.bind_eq_some_iff]
    cases hmarker : d.jobId.bind (EmailProcessor.handle deliveries).processedReceipts.get? with
    | some marker => simp [EmailProcessor.sendReceipt_marked hmarker]
    | none => simp [EmailProcessor.sendReceipt_unmarked hmarker]
  · intro hnone
    have hmarker : d.jobId.bind (EmailProcessor.handle deliveries).processedReceipts.get? =
        none := by
      rw [Option.bind_eq_none_iff]
      intro id hid
      rw [Option.eq_none_iff_forall_ne_some]
      exact fun result hget ↦ hnone id result hid (EmailProcessor.get?_handle_iff.mp hget)
    rw [EmailProcessor.sendReceipt_unmarked hmarker]
  · intro hid later
    apply EmailProcessor.outcomes_congr
    rw [EmailProcessor.handle_append, EmailProcessor.step,
      EmailProcessor.sendReceipt_unmarked (by simp [hid]), hid]
    rfl
  · rw [InsertionMap.size, EmailProcessor.entries_handle, length_rtake]
    exact Nat.min_le_left _ _

end NestQueueExample.Processors
