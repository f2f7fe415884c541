import NestQueueExample.Orders.MailedOnce

/-!
# The mails of a campaign

The ids that a campaign is answered with are those of its receipts, in the order
of its users, whatever was enqueued before and is enqueued after it. Once each
of them was delivered, every user of the campaign has had exactly one mail.
-/

namespace NestQueueExample.Orders

open Http Processors Queues Runs

/-! ## Receipts by their ids -/

/-- Where no key is repeated, the keys of a part select that part. -/
theorem filter_keys_middle {β : Type} {before part after : List (String × β)}
    (h : ((before ++ (part ++ after)).map Prod.fst).Nodup) :
    ((before ++ (part ++ after)).filter fun entry ↦ entry.1 ∈ part.map Prod.fst) = part := by
  simp only [List.map_append, List.nodup_append] at h
  obtain ⟨-, ⟨-, -, hafter⟩, hbefore⟩ := h
  have hnone : ∀ others : List (String × β),
      (∀ id ∈ others.map Prod.fst, id ∉ part.map Prod.fst) →
      (others.filter fun entry ↦ entry.1 ∈ part.map Prod.fst) = [] := by
    intro others hothers
    rw [List.filter_eq_nil_iff]
    intro entry hentry hmem
    exact hothers entry.1 (List.mem_map_of_mem hentry) (of_decide_eq_true hmem)
  have hpart : (part.filter fun entry ↦ entry.1 ∈ part.map Prod.fst) = part := by
    rw [List.filter_eq_self]
    intro entry hentry
    exact decide_eq_true (List.mem_map_of_mem hentry)
  rw [List.filter_append, List.filter_append, hpart, hnone before, hnone after]
  · simp
  · intro id hid hmem
    exact hafter id hmem id hid rfl
  · intro id hid hmem
    exact hbefore id hid id (List.mem_append_left _ hmem) rfl

theorem numbered_eq_zip (n : ℕ) (receipts : List ReceiptEmailJobData) :
    numbered n receipts =
      ((List.range receipts.length).map fun i ↦ autoId (n + i)).zip receipts := by
  induction receipts generalizing n with
  | nil => rfl
  | cons data rest ih =>
      have hnext : (fun i ↦ autoId (n + (i + 1))) = fun i ↦ autoId (n + 1 + i) := by
        funext i
        congr 1
        omega
      rw [numbered, ih, List.length_cons, List.range_succ_eq_map, List.map_cons, List.map_map,
        List.zip_cons_cons]
      simp only [Function.comp_def, Nat.succ_eq_add_one, hnext, Nat.add_zero]

/-- The mails for a part of what was asked for, all of it delivered. -/
theorem Ledger.part_perm {before part after : List (String × ReceiptEmailJobData)}
    {mails : List Mail} {delivered : List String} {s : Mailing}
    (h : Ledger (before ++ (part ++ after)) mails delivered s)
    (hfew : (before ++ (part ++ after)).length ≤ IDEMPOTENCY_MARKER_CAPACITY)
    (hdelivered : ∀ id ∈ part.map Prod.fst, id ∈ delivered) :
    ((mails.filter fun mail ↦ mail.jobId ∈ part.map Prod.fst).map Mail.address).Perm
      (part.map addressOf) := by
  have hall := (h.mails_perm hfew).filter fun address ↦ address.1 ∈ part.map Prod.fst
  rw [List.filter_map, List.filter_map, List.filter_filter] at hall
  have hselect : ((before ++ (part ++ after)).filter fun receipt ↦
      receipt.1 ∈ part.map Prod.fst ∧ receipt.1 ∈ delivered) = part := by
    refine (List.filter_congr ?_).trans (filter_keys_middle h.booked.nodup)
    intro receipt _
    simp only [decide_eq_decide, and_iff_left_iff_imp]
    exact hdelivered receipt.1
  have hsame : (fun receipt : String × ReceiptEmailJobData ↦
      ((fun address : String × String ↦ decide (address.1 ∈ part.map Prod.fst)) ∘ addressOf)
        receipt && decide (receipt.1 ∈ delivered)) =
      fun receipt ↦ decide (receipt.1 ∈ part.map Prod.fst ∧ receipt.1 ∈ delivered) := by
    funext receipt
    exact (Bool.decide_and _ _).symm
  rw [hsame, hselect] at hall
  exact hall

/-! ## A campaign in a run -/

/-- The mails for the jobs that a campaign was answered with. -/
def mailsOf (result : CampaignResult) (mails : List Mail) : List Mail :=
  mails.filter fun mail ↦ result.jobIds.contains (some mail.jobId)

def campaignUser (index : ℕ) : String := (CampaignService.receiptFor index).recipient

variable (api : Api)

theorem commissions_append (shop : Shop) (before after : List MailEvent) (e : MailEvent) :
    ∃ later, commissions api shop (before ++ e :: after) =
      commissions api shop before ++
        ((exec (Mailing.step api) ⟨shop, {}⟩ before).commissioned api e ++ later) := by
  refine ⟨emitted (Mailing.step api) (Mailing.commissioned api)
    ((exec (Mailing.step api) ⟨shop, {}⟩ before).step api e) after, ?_⟩
  rw [commissions, emitted_append, ← List.append_assoc]
  rfl

/-- The receipts of a campaign of `n` users whose first job has the number `next`. -/
def campaignReceipts (next n : ℕ) : List (String × ReceiptEmailJobData) :=
  ((List.range n).map fun i ↦ autoId (next + i)).zip
    ((List.range n).map CampaignService.receiptFor)

def campaignResult (next n : ℕ) : CampaignResult :=
  ⟨n, (List.range n).map fun i ↦ some (autoId (next + i))⟩

theorem keys_campaignReceipts (next n : ℕ) :
    (campaignReceipts next n).map Prod.fst = (List.range n).map fun i ↦ autoId (next + i) := by
  rw [campaignReceipts, List.map_fst_zip]
  simp

theorem mem_jobIds_campaignResult {next n : ℕ} {jobId : String} :
    some jobId ∈ (campaignResult next n).jobIds ↔
      jobId ∈ (campaignReceipts next n).map Prod.fst := by
  rw [keys_campaignReceipts]
  simp [campaignResult]

theorem contains_jobIds_campaignResult {next n : ℕ} {jobId : String} :
    (campaignResult next n).jobIds.contains (some jobId) =
      decide (jobId ∈ (campaignReceipts next n).map Prod.fst) := by
  rw [Bool.eq_iff_iff, List.contains_iff_mem, decide_eq_true_eq]
  exact mem_jobIds_campaignResult

/-- An accepted campaign asks for the receipts of its users under the ids of the
answer. -/
theorem commissioned_receipts {api : Api} {s : Mailing} {body : JsValue} {n : ℕ}
    (hparse : (parseJobData api.codes api.zod campaignSchema body :
      Except (Thrown EnqueueError) ℚ) = .ok n) (hfits : n ≤ Errors.MAX_BULK_SIZE) :
    s.commissioned api (.receipts none body) = campaignReceipts s.shop.email.nextId n := by
  have hle : (n : ℚ) ≤ Errors.MAX_BULK_SIZE := by exact_mod_cast hfits
  have hceil : (n : ℚ).ceil.toNat = n := by
    rw [← Int.cast_natCast, Rat.ceil_intCast, Int.toNat_natCast]
  have hreceipts : s.receiptsOf api (.receipts none body) =
      (List.range n).map CampaignService.receiptFor := by
    simp only [Mailing.receiptsOf, hparse, hle, if_true, hceil]
  rw [Mailing.commissioned, hreceipts, numbered_eq_zip, List.length_map, List.length_range,
    campaignReceipts]

/-- While no more than a thousand receipts are asked for, an accepted campaign
all of whose jobs are delivered, in any order and any number of times, mails
each of its users exactly once, as the mailer has recorded it. -/
theorem campaign_mails_each_user_once (hdocumented : api.zod.Documented)
    (hfills : api.zod.Fills) (hnumbers : api.zod.Numbers) (shop : Shop)
    (before after : List MailEvent) (rejects : Option EnqueueError) (body : JsValue)
    {result : CampaignResult}
    (hanswer : (CampaignController.receipts api.codes api.zod rejects body
      (exec (Mailing.step api) ⟨shop, {}⟩ before).shop.email).1 = .ok result)
    (hfew : (commissions api shop (before ++ .receipts rejects body :: after)).length ≤
      IDEMPOTENCY_MARKER_CAPACITY)
    (hdelivered : ∀ jobId, some jobId ∈ result.jobIds →
      jobId ∈ deliveredReceipts api shop (before ++ .receipts rejects body :: after)) :
    body.read "count" = .number result.enqueued ∧
    ((mailsOf result (receiptMails api shop (before ++ .receipts rejects body :: after))).map
      fun mail ↦ (some mail.jobId, mail.record.recipient)).Perm
        (result.jobIds.zip ((List.range result.enqueued).map campaignUser)) ∧
    receiptMails api shop (before ++ .receipts rejects body :: after) =
      (mails api shop (before ++ .receipts rejects body :: after)).filter
        (fun mail ↦ mail.record.template = RECEIPT_JOB) ∧
    (exec (Mailing.step api) ⟨shop, {}⟩
      (before ++ .receipts rejects body :: after)).processor.mailer =
        ({} : MailerStub).record
          ((mails api shop (before ++ .receipts rejects body :: after)).map Mail.record) := by
  obtain ⟨n, rfl, hparse, hread, -, hfits, hresult⟩ :=
    receipts_ok hdocumented hfills hnumbers hanswer
  obtain rfl : result = campaignResult _ n := hresult
  refine ⟨hread, ?_, receiptMails_eq_filter api shop _, mailer_run api shop _⟩
  have hledger := ledger api shop (before ++ .receipts none body :: after)
  obtain ⟨later, hasked⟩ := commissions_append api shop before after (.receipts none body)
  rw [commissioned_receipts hparse hfits] at hasked
  rw [hasked] at hledger hfew
  have hperm := hledger.part_perm hfew fun jobId hjob ↦
    hdelivered jobId (mem_jobIds_campaignResult.mpr hjob)
  have hmapped := hperm.map fun address ↦ (some address.1, address.2)
  rw [List.map_map, List.map_map] at hmapped
  simp only [mailsOf, contains_jobIds_campaignResult]
  refine hmapped.trans (List.Perm.of_eq ?_)
  rw [campaignReceipts, campaignResult, List.zip_map', List.map_map, List.zip_map']
  rfl

def sampleApi : Api := ⟨spelledCodes id, .ofParse fun _ ↦ none, fun _ ↦ true, 5000⟩

def twoUsers : JsValue := .object [(.own "count", .number (2 : ℕ))]

/-- The second receipt is delivered twice, and before the first one. -/
def twoReceipts : List MailEvent :=
  [.deliver "2" 1 "m1", .deliver "1" 2 "m2", .deliver "2" 3 "m3"]

theorem campaign_mails_two_users :
    twoUsers.read "count" = .number (campaignResult 1 2).enqueued ∧
    ((mailsOf (campaignResult 1 2) (receiptMails sampleApi emptyShop
      (.receipts none twoUsers :: twoReceipts))).map
        fun mail ↦ (some mail.jobId, mail.record.recipient)).Perm
          ((campaignResult 1 2).jobIds.zip
            ((List.range (campaignResult 1 2).enqueued).map campaignUser)) := by
  have hdelivered : (campaignReceipts 1 2).map Prod.fst ⊆ deliveredReceipts sampleApi emptyShop
      (.receipts none twoUsers :: twoReceipts) := by decide +kernel
  have hread : twoUsers.read "count" = .number (2 : ℕ) := JsValue.read_own
  have haccepted : CampaignController.receipts sampleApi.codes sampleApi.zod none twoUsers
      emptyShop.email = (.ok (campaignResult 1 2), _) :=
    receipts_accepted (Zod.documented_ofParse _) (Zod.fills_ofParse _) (Zod.numbers_ofParse _)
      hread Nat.two_pos (by decide) emptyShop.email
  obtain ⟨hcount, hmails, -⟩ := campaign_mails_each_user_once sampleApi
    (Zod.documented_ofParse _) (Zod.fills_ofParse _) (Zod.numbers_ofParse _) emptyShop []
    twoReceipts none twoUsers (congrArg Prod.fst haccepted) (by decide +kernel)
    fun jobId hjob ↦ hdelivered (mem_jobIds_campaignResult.mp hjob)
  exact ⟨hcount, hmails⟩

end NestQueueExample.Orders
