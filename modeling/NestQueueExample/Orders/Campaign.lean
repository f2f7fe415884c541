import Mathlib.Tactic.Linarith
import NestQueueExample.Errors.Explorer
import NestQueueExample.Orders.Onboarding

/-!
# Receipt campaigns

A campaign enqueues a receipt for each of its users in one bulk call. The bound
of the request lies above the one of the library, so a batch between the two is
refused by the library, which enqueues all of a batch or nothing of it.
-/

namespace NestQueueExample.Orders

open Errors Http Processors Queues

def MAX_CAMPAIGN_SIZE : ℚ := 1200

def campaignSchema : Schema ℚ :=
  .object (.cons "count" (.number [.int, .positive, .max MAX_CAMPAIGN_SIZE]) .nil) Prod.fst

structure CampaignResult where
  enqueued : ℕ
  jobIds : List (Option String)
  deriving DecidableEq

variable (codes : QueueErrorCodes) (zod : Zod)

def bulkRefusal (received : ℕ) : HttpException :=
  queueException codes .BULK_ENQUEUE_FAILED INTERNAL_SERVER_ERROR
    (.object [(.own "reason", .string "batch size exceeds limit"),
      (.own "limit", .number MAX_BULK_SIZE), (.own "received", .number received)])

/-- The bulk enqueue of the library; it rejects where `rejects` says so. -/
def enqueueBulk {δ : Type} (rejects : Option EnqueueError) (jobs : List (QueuedJob δ))
    (queue : JobQueue δ) : Except (Thrown EnqueueError) (List String) × JobQueue δ :=
  if jobs.length ≤ MAX_BULK_SIZE then
    match rejects with
    | some error => (.error (.library error), queue)
    | none =>
        let (ids, after) := queue.insertAll jobs
        (.ok ids, after)
  else (.error (.http (bulkRefusal codes jobs.length)), queue)

namespace CampaignService

def receiptFor (index : ℕ) : ReceiptEmailJobData :=
  ⟨"campaign-" ++ index.repr, "user-" ++ index.repr ++ "@example.com", 0⟩

/-- A job for each index below the count. -/
def buildJobs (count : ℚ) : List (QueuedJob EmailJobData) :=
  (List.range count.ceil.toNat).map fun index ↦ ⟨RECEIPT_JOB, .receipt (receiptFor index), {}⟩

def sendReceipts (rejects : Option EnqueueError) (count : ℚ) (queue : JobQueue EmailJobData) :
    Except (Thrown EnqueueError) CampaignResult × JobQueue EmailJobData :=
  match enqueueBulk codes rejects (buildJobs count) queue with
  | (.ok created, after) => (.ok ⟨created.length, created.map some⟩, after)
  | (.error error, after) => (.error error, after)

end CampaignService

def CampaignController.receipts (rejects : Option EnqueueError) (body : JsValue)
    (queue : JobQueue EmailJobData) :
    Except (Thrown EnqueueError) CampaignResult × JobQueue EmailJobData :=
  match parseJobData codes zod campaignSchema body with
  | .ok count => CampaignService.sendReceipts codes rejects count queue
  | .error error => (.error error, queue)

namespace CampaignService

theorem length_buildJobs (count : ℚ) : (buildJobs count).length = count.ceil.toNat := by
  simp [buildJobs]

theorem length_buildJobs_le {count : ℚ} :
    (buildJobs count).length ≤ MAX_BULK_SIZE ↔ count ≤ MAX_BULK_SIZE := by
  rw [length_buildJobs, Int.toNat_le, Rat.ceil_le_iff]
  rfl

variable {rejects : Option EnqueueError} {count : ℚ} {queue : JobQueue EmailJobData}

theorem sendReceipts_accepted (h : count ≤ MAX_BULK_SIZE) :
    sendReceipts codes none count queue =
      (.ok ⟨(queue.insertAll (buildJobs count)).1.length,
        (queue.insertAll (buildJobs count)).1.map some⟩,
        (queue.insertAll (buildJobs count)).2) := by
  unfold sendReceipts enqueueBulk
  rw [if_pos (length_buildJobs_le.mpr h)]

theorem sendReceipts_rejected (h : count ≤ MAX_BULK_SIZE) (error : EnqueueError) :
    sendReceipts codes (some error) count queue = (.error (.library error), queue) := by
  unfold sendReceipts enqueueBulk
  rw [if_pos (length_buildJobs_le.mpr h)]

theorem sendReceipts_refused (h : ¬ count ≤ MAX_BULK_SIZE) :
    sendReceipts codes rejects count queue =
      (.error (.http (bulkRefusal codes (buildJobs count).length)), queue) := by
  unfold sendReceipts enqueueBulk
  rw [if_neg (length_buildJobs_le.not.mpr h)]

end CampaignService

/-! ## What a campaign answers -/

theorem campaignSchema_ok_iff {zod : Zod} (hdocumented : zod.Documented) (hfills : zod.Fills)
    (hnumbers : zod.Numbers) {body : JsValue} {count : ℚ} :
    zod.safeParse campaignSchema body = .ok count ↔
      ∃ n : ℕ, count = n ∧ body.read "count" = .number n ∧ 0 < n ∧ n ≤ 1200 := by
  constructor
  · intro h
    obtain ⟨⟨q, _⟩, ⟨hparsed, -⟩, rfl⟩ := hdocumented.object_ok h
    obtain ⟨hread, hchecks⟩ := hnumbers.number_iff.mp hparsed
    have hint : q.den = 1 ∧ -MAX_SAFE_INTEGER ≤ q ∧ q ≤ MAX_SAFE_INTEGER := by
      simpa [NumberCheck.holds] using hchecks .int (by simp)
    have hpos : 0 < q := by simpa [NumberCheck.holds] using hchecks .positive (by simp)
    have hmax : q ≤ MAX_CAMPAIGN_SIZE := by
      simpa [NumberCheck.holds] using hchecks (.max MAX_CAMPAIGN_SIZE) (by simp)
    have hq : ((q.num.toNat : ℕ) : ℚ) = q := by
      have hnum : ((q.num.toNat : ℕ) : ℤ) = q.num := Int.toNat_of_nonneg (Rat.num_pos.mpr hpos).le
      rw [← Int.cast_natCast, hnum, Rat.coe_int_num_of_den_eq_one hint.1]
    rw [← hq] at hpos hmax
    refine ⟨q.num.toNat, hq.symm, by rw [hread, hq], ?_, ?_⟩
    · exact_mod_cast hpos
    · rw [MAX_CAMPAIGN_SIZE] at hmax
      exact_mod_cast hmax
  · rintro ⟨n, rfl, hread, hpos, hmax⟩
    have hcount : zod.safeParse (.number [.int, .positive, .max MAX_CAMPAIGN_SIZE])
        (body.read "count") = .ok (n : ℚ) := by
      have hle : (n : ℚ) ≤ 1200 := by exact_mod_cast hmax
      have hlt : (0 : ℚ) < n := by exact_mod_cast hpos
      refine hnumbers.number_iff.mpr ⟨hread, fun check hcheck ↦ ?_⟩
      rcases List.mem_cons.mp hcheck with rfl | hcheck
      · have hsafe : -MAX_SAFE_INTEGER ≤ (n : ℚ) ∧ (n : ℚ) ≤ MAX_SAFE_INTEGER := by
          rw [MAX_SAFE_INTEGER]
          constructor <;> linarith
        simpa [NumberCheck.holds] using hsafe
      · rcases List.mem_cons.mp hcheck with rfl | hcheck
        · simpa [NumberCheck.holds] using hpos
        · obtain rfl := List.mem_singleton.mp hcheck
          simpa [NumberCheck.holds, MAX_CAMPAIGN_SIZE] using hle
    cases body with
    | object slots =>
        have hfields : zod.FieldsParsed (.object slots)
            (.cons "count" (.number [.int, .positive, .max MAX_CAMPAIGN_SIZE]) .nil)
            ((n : ℚ), ()) := ⟨hcount, trivial⟩
        exact hfills.object_fields hfields
    | _ => simp [JsValue.read] at hread

theorem jobIds_buildJobs (queue : JobQueue EmailJobData) (n : ℕ) :
    (queue.insertAll (CampaignService.buildJobs n)).1 =
      (List.range n).map fun i ↦ autoId (queue.nextId + i) := by
  have hlen : (CampaignService.buildJobs n).length = n := by
    rw [CampaignService.length_buildJobs, ← Int.cast_natCast, Rat.ceil_intCast, Int.toNat_natCast]
  rw [JobQueue.ids_insertAll, hlen]

theorem receipts_accepted {codes : QueueErrorCodes} {zod : Zod} (hdocumented : zod.Documented)
    (hfills : zod.Fills) (hnumbers : zod.Numbers) {body : JsValue} {n : ℕ}
    (hread : body.read "count" = .number n) (hpos : 0 < n) (hfits : n ≤ MAX_BULK_SIZE)
    (queue : JobQueue EmailJobData) :
    CampaignController.receipts codes zod none body queue =
      (.ok ⟨n, (List.range n).map fun i ↦ some (autoId (queue.nextId + i))⟩,
        (queue.insertAll (CampaignService.buildJobs n)).2) := by
  have hmax : n ≤ 1200 := hfits.trans (by decide)
  have hcount : zod.safeParse campaignSchema body = .ok (n : ℚ) :=
    (campaignSchema_ok_iff hdocumented hfills hnumbers).mpr ⟨n, rfl, hread, hpos, hmax⟩
  have hle : (n : ℚ) ≤ MAX_BULK_SIZE := by exact_mod_cast hfits
  have hparse : (parseJobData codes zod campaignSchema body :
      Except (Thrown EnqueueError) ℚ) = .ok n := by
    unfold parseJobData
    rw [hcount]
  rw [CampaignController.receipts, hparse]
  dsimp only
  rw [CampaignService.sendReceipts_accepted _ hle, jobIds_buildJobs, List.length_map,
    List.length_range, List.map_map]
  rfl

/-- An accepted campaign is of a whole number of users within the bound of the
library, and is answered with the next ids of the queue. -/
theorem receipts_ok {codes : QueueErrorCodes} {zod : Zod} (hdocumented : zod.Documented)
    (hfills : zod.Fills) (hnumbers : zod.Numbers) {rejects : Option EnqueueError}
    {body : JsValue} {queue : JobQueue EmailJobData} {result : CampaignResult}
    (h : (CampaignController.receipts codes zod rejects body queue).1 = .ok result) :
    ∃ n : ℕ, rejects = none ∧
      (parseJobData codes zod campaignSchema body : Except (Thrown EnqueueError) ℚ) = .ok n ∧
      body.read "count" = .number n ∧ 0 < n ∧ n ≤ MAX_BULK_SIZE ∧
      result = ⟨n, (List.range n).map fun i ↦ some (autoId (queue.nextId + i))⟩ := by
  rw [CampaignController.receipts] at h
  cases hparse : (parseJobData codes zod campaignSchema body :
      Except (Thrown EnqueueError) ℚ) with
  | error error =>
      rw [hparse] at h
      contradiction
  | ok count =>
      have hcount : zod.safeParse campaignSchema body = .ok count := by
        unfold parseJobData at hparse
        split at hparse
        · next hok => rwa [Except.ok.inj hparse] at hok
        · contradiction
      obtain ⟨n, rfl, hread, hpos, -⟩ :=
        (campaignSchema_ok_iff hdocumented hfills hnumbers).mp hcount
      rw [hparse] at h
      dsimp only at h
      by_cases hfits : (n : ℚ) ≤ MAX_BULK_SIZE
      · cases rejects with
        | some error =>
            rw [CampaignService.sendReceipts_rejected _ hfits] at h
            contradiction
        | none =>
            rw [CampaignService.sendReceipts_accepted _ hfits, jobIds_buildJobs] at h
            refine ⟨n, rfl, rfl, hread, hpos, by exact_mod_cast hfits, ?_⟩
            rw [← Except.ok.inj h, List.length_map, List.length_range, List.map_map]
            rfl
      · rw [CampaignService.sendReceipts_refused _ hfits] at h
        contradiction

end NestQueueExample.Orders
