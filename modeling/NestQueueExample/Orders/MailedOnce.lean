import NestQueueExample.Orders.Mailing
import NestQueueExample.Processors.ReceiptMarkers

/-!
# Receipts are mailed once

Every receipt in the queue was asked for under its own id, and a receipt is
mailed again only after a thousand other mails. While at most a thousand
receipts are asked for, each one that is delivered is mailed exactly once, to
the recipient it was asked for.
-/

namespace NestQueueExample.Orders

open Events Http Processors Queues Runs SlidingWindow

variable (api : Api)

/-! ## The queue holds only what was asked for -/

/-- Every receipt in the queue was asked for, and no receipt has a number from
the next one on. -/
structure Booked (asked : List (String × ReceiptEmailJobData)) (email : JobQueue EmailJobData) :
    Prop where
  nodup : (asked.map Prod.fst).Nodup
  unissued : ∀ n, email.nextId ≤ n → autoId n ∉ asked.map Prod.fst
  queued : ∀ id job data, email.jobs.get? id = some job → receiptOf job = some data →
    (id, data) ∈ asked

theorem mem_waiting {email : JobQueue EmailJobData} {id : String} {data : ReceiptEmailJobData} :
    (id, data) ∈ waiting email ↔
      ∃ job, email.jobs.get? id = some job ∧ receiptOf job = some data := by
  simp only [waiting, List.mem_filterMap, Option.map_eq_some_iff, Prod.mk.injEq,
    InsertionMap.get?_eq_some_iff]
  constructor
  · rintro ⟨⟨_, job⟩, hentry, _, hdata, rfl, rfl⟩
    exact ⟨job, hentry, hdata⟩
  · rintro ⟨job, hentry, hdata⟩
    exact ⟨(id, job), hentry, data, hdata, rfl, rfl⟩

theorem keys_waiting_sublist (email : JobQueue EmailJobData) :
    ((waiting email).map Prod.fst).Sublist email.jobs.keys := by
  rw [waiting, InsertionMap.keys]
  induction email.jobs.entries with
  | nil => exact List.Sublist.refl []
  | cons entry entries ih =>
      cases hreceipt : receiptOf entry.2 with
      | none => simpa [hreceipt] using ih.trans (List.sublist_cons_self _ _)
      | some data => simpa [hreceipt] using ih

theorem booked_waiting (email : JobQueue EmailJobData) : Booked (waiting email) email where
  nodup := (keys_waiting_sublist email).nodup email.jobs.nodup
  unissued n hn hmem := email.fresh n hn ((keys_waiting_sublist email).subset hmem)
  queued _ job _ hjob hdata := mem_waiting.mpr ⟨job, hjob, hdata⟩

section Booked

variable {asked : List (String × ReceiptEmailJobData)} {email : JobQueue EmailJobData}

theorem Booked.insertAuto (h : Booked asked email) {job : QueuedJob EmailJobData}
    {data : ReceiptEmailJobData} (hdata : receiptOf job = some data) :
    Booked (asked ++ [(autoId email.nextId, data)]) (email.insertAuto job) := by
  refine ⟨?_, ?_, ?_⟩
  · rw [List.map_append, List.nodup_append]
    refine ⟨h.nodup, List.nodup_singleton _, ?_⟩
    rintro id hid _ hnew rfl
    have hnumber : id = autoId email.nextId := by simpa using hnew
    exact h.unissued _ le_rfl (hnumber ▸ hid)
  · intro n hn hmem
    have hlater : email.nextId + 1 ≤ n := hn
    rw [List.map_append, List.mem_append, List.map_singleton, List.mem_singleton, autoId_inj]
      at hmem
    rcases hmem with hold | rfl
    · exact h.unissued n (by omega) hold
    · omega
  · intro id queued receipt hjob hreceipt
    rw [JobQueue.jobs_insertAuto, InsertionMap.get?_set] at hjob
    rw [List.mem_append, List.mem_singleton]
    split at hjob
    · next hid =>
        obtain rfl := Option.some.inj hjob
        obtain rfl := Option.some.inj (hdata.symm.trans hreceipt)
        exact .inr (by rw [hid])
    · exact .inl (h.queued id queued receipt hjob hreceipt)

theorem Booked.insertAll {jobs : List (QueuedJob EmailJobData)}
    {receipts : List ReceiptEmailJobData} (h : Booked asked email)
    (hjobs : jobs.map receiptOf = receipts.map some) :
    Booked (asked ++ numbered email.nextId receipts) (email.insertAll jobs).2 := by
  induction jobs generalizing email asked receipts with
  | nil =>
      obtain rfl : receipts = [] := by simpa using hjobs.symm
      simpa [numbered, JobQueue.insertAll] using h
  | cons job jobs ih =>
      cases receipts with
      | nil => simp at hjobs
      | cons data rest =>
          obtain ⟨hdata, hrest⟩ := List.cons.inj hjobs
          have hnext : (email.insertAuto job).nextId = email.nextId + 1 := rfl
          have hall := ih (h.insertAuto hdata) hrest
          rwa [hnext, List.append_assoc, List.singleton_append] at hall

theorem Booked.remove (h : Booked asked email) (jobId : String) :
    Booked asked (email.remove jobId) := by
  refine ⟨h.nodup, h.unissued, ?_⟩
  intro id job data hjob hdata
  have hremoved : (email.remove jobId).jobs = email.jobs.delete jobId := rfl
  rw [hremoved, InsertionMap.get?_delete] at hjob
  split at hjob
  · exact absurd hjob (by simp)
  · exact h.queued id job data hjob hdata

theorem receiptOf_welcomeJob (userId : String) : receiptOf (welcomeJob userId) = none := rfl

theorem Booked.insertCustom (h : Booked asked email) {id : String} (hid : isCustomId id = true)
    {job : QueuedJob EmailJobData} (hjob : receiptOf job = none) :
    Booked asked (email.insertCustom id hid job) := by
  refine ⟨h.nodup, h.unissued, ?_⟩
  intro other queued data hget hdata
  rw [JobQueue.jobs_insertCustom, InsertionMap.get?_set] at hget
  split at hget
  · obtain rfl := Option.some.inj hget
    rw [hjob] at hdata
    exact absurd hdata (by simp)
  · exact h.queued other queued data hget hdata

theorem Booked.act (h : Booked asked email) (userId : String)
    (existing : Option (QueuedJob EmailJobData)) :
    Booked asked (OnboardingService.act email userId existing).1 := by
  cases hid : isCustomId (welcomeJobId userId) with
  | false => rwa [OnboardingService.act_invalid hid]
  | true =>
      rw [OnboardingService.act_custom hid]
      cases email.jobs.has (welcomeJobId userId) with
      | true => exact h
      | false => exact h.insertCustom hid (receiptOf_welcomeJob userId)

end Booked

theorem email_place (rejections : OrdersService.Rejections) (id createdAt : String)
    (input : PlaceOrderInput) (shop : Shop) :
    ((OrdersService.place rejections id createdAt input).exec shop).2.email =
      match rejections.receipt with
      | none => shop.email.insertAuto (receiptJob (input.order id createdAt))
      | some _ => shop.email := by
  cases hreceipt : rejections.receipt with
  | some error => rw [OrdersService.place_receipt_rejects hreceipt]
  | none =>
      rw [OrdersService.place_receipt_accepts hreceipt]
      cases rejections.webhook with
      | some error =>
          rw [Action.exec_bind_error (OrdersService.enqueueWebhook_rejects _ _ _ _ _)]
      | none =>
          rw [Action.exec_bind_ok (OrdersService.enqueueWebhook_accepts rfl rfl _ _ _)]
          rfl

theorem email_remind (rejects : Option EnqueueError) (REMINDER_DELAY_MS : ℚ) (orderId : String)
    (shop : Shop) :
    ((OrdersService.remind rejects REMINDER_DELAY_MS orderId).exec shop).2.email =
      match rejects, shop.repository.find orderId with
      | none, some order => shop.email.insertAuto ⟨RECEIPT_JOB,
          .receipt (OrdersService.receiptData order), { delay := some REMINDER_DELAY_MS }⟩
      | _, _ => shop.email := by
  rw [OrdersService.remind, Action.exec_bind_ok (Action.exec_get shop)]
  cases shop.repository.find orderId with
  | none => cases rejects <;> rfl
  | some order =>
      cases rejects with
      | some error =>
          rw [Action.exec_bind_error (OrdersService.enqueueEmail_rejects _ _ _ _ _)]
      | none =>
          rw [Action.exec_bind_ok (OrdersService.enqueueEmail_accepts rfl rfl _ _ _)]
          rfl

theorem email_receipts (rejects : Option EnqueueError) (body : JsValue)
    (email : JobQueue EmailJobData) :
    (CampaignController.receipts api.codes api.zod rejects body email).2 =
      match parseJobData (ε := EnqueueError) api.codes api.zod campaignSchema body, rejects with
      | .ok count, none =>
          if count ≤ Errors.MAX_BULK_SIZE then
            (email.insertAll (CampaignService.buildJobs count)).2
          else email
      | _, _ => email := by
  rw [CampaignController.receipts]
  cases parseJobData (ε := EnqueueError) api.codes api.zod campaignSchema body with
  | error error => cases rejects <;> rfl
  | ok count =>
      dsimp only
      by_cases hfits : count ≤ Errors.MAX_BULK_SIZE
      · cases rejects with
        | some error => rw [CampaignService.sendReceipts_rejected _ hfits]
        | none =>
            rw [CampaignService.sendReceipts_accepted _ hfits]
            exact (if_pos hfits).symm
      · rw [CampaignService.sendReceipts_refused _ hfits]
        cases rejects with
        | some error => rfl
        | none => exact (if_neg hfits).symm

theorem receiptOf_receipt {data : ReceiptEmailJobData} {opts : JobsOptions} :
    receiptOf ⟨RECEIPT_JOB, .receipt data, opts⟩ = some data := rfl

/-- Every request books what it asks for. -/
theorem Booked.step {asked : List (String × ReceiptEmailJobData)} {s : Mailing}
    (h : Booked asked s.shop.email) (e : MailEvent) :
    Booked (asked ++ s.commissioned api e) (s.step api e).shop.email := by
  have hnone : Booked (asked ++ numbered s.shop.email.nextId []) s.shop.email := by
    simpa [numbered] using h
  cases e with
  | place rejections id createdAt body =>
      simp only [Mailing.commissioned, Mailing.receiptsOf, Mailing.step, OrdersController.place]
      cases parseJobData (ε := EnqueueError) api.codes api.zod (placeOrderSchema api.html5Email)
        body with
      | error error => exact hnone
      | ok input =>
          simp only [email_place]
          cases rejections.receipt with
          | some error => exact hnone
          | none => exact h.insertAuto receiptOf_receipt
  | remind rejects id =>
      simp only [Mailing.commissioned, Mailing.step, OrdersController.remind]
      cases rejects with
      | some error =>
          cases parseRequest (ε := EnqueueError) api.zod orderIdSchema id with
          | error rejection => exact hnone
          | ok orderId =>
              simp only [email_remind]
              exact hnone
      | none =>
          simp only [Mailing.receiptsOf]
          cases parseRequest (ε := EnqueueError) api.zod orderIdSchema id with
          | error rejection => exact hnone
          | ok orderId =>
              simp only [email_remind]
              cases s.shop.repository.find orderId with
              | none => exact hnone
              | some order => exact h.insertAuto receiptOf_receipt
  | receipts rejects body =>
      simp only [Mailing.commissioned, Mailing.step, Mailing.onEmail, email_receipts]
      cases rejects with
      | some error =>
          split
          · next hrejects => cases hrejects
          · exact hnone
      | none =>
          simp only [Mailing.receiptsOf]
          cases parseJobData (ε := EnqueueError) api.codes api.zod campaignSchema body with
          | error error => exact hnone
          | ok count =>
              by_cases hfits : count ≤ Errors.MAX_BULK_SIZE
              · simp only [hfits, if_true]
                apply h.insertAll
                simp only [CampaignService.buildJobs, List.map_map]
                rfl
              · simpa only [hfits, if_false] using hnone
  | welcome userId existing =>
      have hact : Booked (asked ++ []) (OnboardingService.act s.shop.email userId existing).1 := by
        simpa using h.act userId existing
      exact hact
  | deliver jobId now uuid =>
      have hshop : (s.step api (.deliver jobId now uuid)).shop = s.shop := by
        rw [Mailing.step]
        split <;> rfl
      rw [hshop]
      exact hnone
  | remove jobId =>
      have hremove : Booked (asked ++ []) (s.shop.email.remove jobId) := by
        simpa using h.remove jobId
      exact hremove

/-! ## Mails are far apart -/

/-- Each receipt mailed so far was asked for and delivered, the markers are of
the latest thousand of them, and no job is mailed twice in any thousand and one. -/
structure Posted (asked : List (String × ReceiptEmailJobData)) (mails : List Mail)
    (delivered : List String) (p : EmailProcessor) : Prop where
  window : p.processedReceipts.keys =
    (mails.map Mail.jobId).rtake IDEMPOTENCY_MARKER_CAPACITY
  spaced : Spaced IDEMPOTENCY_MARKER_CAPACITY (mails.map Mail.jobId)
  addressed : ∀ mail ∈ mails, ∃ data, (mail.jobId, data) ∈ asked ∧
    mail.record.recipient = data.recipient
  mem_iff : ∀ id, id ∈ mails.map Mail.jobId ↔ id ∈ delivered

section Posted

variable {asked : List (String × ReceiptEmailJobData)} {mails : List Mail}
  {delivered : List String} {p : EmailProcessor}

theorem posted_nil : Posted asked [] [] {} := by
  refine ⟨rfl, Spaced.nil _, ?_, fun id ↦ Iff.rfl⟩
  intro mail hmail
  exact absurd hmail List.not_mem_nil

theorem Posted.mono (h : Posted asked mails delivered p)
    (more : List (String × ReceiptEmailJobData)) : Posted (asked ++ more) mails delivered p := by
  refine ⟨h.window, h.spaced, ?_, h.mem_iff⟩
  intro mail hmail
  obtain ⟨data, hasked, hrecipient⟩ := h.addressed mail hmail
  exact ⟨data, List.mem_append_left _ hasked, hrecipient⟩

theorem Posted.of_markers {q : EmailProcessor} (h : Posted asked mails delivered p)
    (hmarkers : q.processedReceipts = p.processedReceipts) : Posted asked mails delivered q :=
  ⟨by rw [hmarkers, h.window], h.spaced, h.addressed, h.mem_iff⟩

theorem Posted.again (h : Posted asked mails delivered p) {id : String}
    (hid : id ∈ p.processedReceipts.keys) : Posted asked mails (delivered ++ [id]) p := by
  refine ⟨h.window, h.spaced, h.addressed, fun other ↦ ?_⟩
  have hmailed : id ∈ mails.map Mail.jobId := by
    rw [h.window] at hid
    exact (rtake_suffix _ _).subset hid
  rw [h.mem_iff, List.mem_append, List.mem_singleton]
  constructor
  · exact .inl
  · rintro (hold | rfl)
    · exact hold
    · exact (h.mem_iff _).mp hmailed

theorem Posted.mail (h : Posted asked mails delivered p) {d : ReceiptDelivery} {id : String}
    (hid : d.jobId = some id) (hasked : (id, d.data) ∈ asked)
    (hnew : p.processedReceipts.get? id = none) :
    Posted asked (mails ++ [⟨id, ⟨d.data.recipient, RECEIPT_JOB, d.now⟩⟩]) (delivered ++ [id])
      (p.step d) := by
  have hfar : id ∉ (mails.map Mail.jobId).rtake IDEMPOTENCY_MARKER_CAPACITY := by
    rw [← h.window]
    exact InsertionMap.get?_eq_none_iff.mp hnew
  refine ⟨?_, ?_, ?_, fun other ↦ ?_⟩
  · rw [EmailProcessor.keys_step hid hnew, h.window, pushBounded_rtake, List.map_append]
    rfl
  · rw [List.map_append]
    exact h.spaced.append_singleton hfar
  · intro mail hmail
    rcases List.mem_append.mp hmail with hold | hlast
    · exact h.addressed mail hold
    · obtain rfl := List.mem_singleton.mp hlast
      exact ⟨d.data, hasked, rfl⟩
  · rw [List.map_append, List.mem_append, List.mem_append, h.mem_iff]
    rfl

end Posted

theorem process_receipt {job : QueuedJob EmailJobData} {data : ReceiptEmailJobData}
    (h : receiptOf job = some data) (p : EmailProcessor) (jobId : String) (now : Timestamp)
    (uuid : String) :
    process p jobId job now uuid =
      ((p.sendReceipt ⟨some jobId, data, now, uuid⟩).1.sends,
        p.step ⟨some jobId, data, now, uuid⟩) := by
  unfold receiptOf at h
  split at h
  · next receipt hhandler hdata =>
      obtain rfl := Option.some.inj h
      rw [process, hhandler, hdata]
      rfl
  · contradiction

theorem process_other {job : QueuedJob EmailJobData} (h : receiptOf job = none)
    (p : EmailProcessor) (jobId : String) (now : Timestamp) (uuid : String) :
    (∀ record ∈ (process p jobId job now uuid).1, record.template = WELCOME_JOB) ∧
      (process p jobId job now uuid).2.processedReceipts = p.processedReceipts := by
  unfold receiptOf at h
  unfold process
  split
  · next data hhandler hdata =>
      refine ⟨?_, rfl⟩
      intro record hrecord
      rw [List.mem_singleton.mp hrecord]
  · next data hhandler hdata =>
      rw [hhandler, hdata] at h
      contradiction
  · exact ⟨fun _ hrecord ↦ absurd hrecord List.not_mem_nil, rfl⟩

theorem Posted.deliver {asked : List (String × ReceiptEmailJobData)} {mails : List Mail}
    {delivered : List String} {s : Mailing} (h : Posted asked mails delivered s.processor)
    (hbooked : Booked asked s.shop.email) (jobId : String) (now : Timestamp) (uuid : String) :
    Posted asked (mails ++ s.receiptsSent (.deliver jobId now uuid))
      (delivered ++ s.delivered (.deliver jobId now uuid))
      (s.step api (.deliver jobId now uuid)).processor := by
  simp only [Mailing.receiptsSent, Mailing.sent, Mailing.delivered, Mailing.step]
  cases hjob : s.shop.email.jobs.get? jobId with
  | none => simpa using h
  | some job =>
      cases hreceipt : receiptOf job with
      | none =>
          obtain ⟨hwelcome, hmarkers⟩ := process_other hreceipt s.processor jobId now uuid
          have hnone : ((process s.processor jobId job now uuid).1.map (Mail.mk jobId)).filter
              (fun mail ↦ mail.record.template = RECEIPT_JOB) = [] := by
            rw [List.filter_eq_nil_iff]
            intro mail hmail
            obtain ⟨record, hrecord, rfl⟩ := List.mem_map.mp hmail
            rw [hwelcome record hrecord]
            decide
          simpa [hnone, hreceipt] using h.of_markers hmarkers
      | some data =>
          have hid : (some jobId).bind s.processor.processedReceipts.get? =
              s.processor.processedReceipts.get? jobId := rfl
          simp only [process_receipt hreceipt, Option.bind_some, hreceipt, Option.isSome_some,
            if_true]
          cases hmarker : s.processor.processedReceipts.get? jobId with
          | some marker =>
              rw [EmailProcessor.step, EmailProcessor.sendReceipt_marked (hid.trans hmarker)]
              have hmem : jobId ∈ s.processor.processedReceipts.keys :=
                InsertionMap.has_iff.mp (by simp [InsertionMap.has, hmarker])
              simpa using h.again hmem
          | none =>
              have hasked := hbooked.queued jobId job data hjob hreceipt
              rw [EmailProcessor.sendReceipt_unmarked (hid.trans hmarker)]
              exact h.mail rfl hasked hmarker

theorem Posted.step {asked : List (String × ReceiptEmailJobData)} {mails : List Mail}
    {delivered : List String} {s : Mailing} (h : Posted asked mails delivered s.processor)
    (hbooked : Booked asked s.shop.email) (e : MailEvent) :
    Posted asked (mails ++ s.receiptsSent e) (delivered ++ s.delivered e)
      (s.step api e).processor := by
  have hsame : Posted asked (mails ++ []) (delivered ++ []) s.processor := by simpa using h
  cases e with
  | deliver jobId now uuid => exact h.deliver api hbooked jobId now uuid
  | _ => exact hsame

/-- What was asked for, mailed and delivered so far, at the state of a run. -/
structure Ledger (asked : List (String × ReceiptEmailJobData)) (mails : List Mail)
    (delivered : List String) (s : Mailing) : Prop where
  booked : Booked asked s.shop.email
  posted : Posted asked mails delivered s.processor

theorem ledger (shop : Shop) (events : List MailEvent) :
    Ledger (commissions api shop events) (receiptMails api shop events)
      (deliveredReceipts api shop events) (exec (Mailing.step api) ⟨shop, {}⟩ events) := by
  induction events using List.reverseRecOn with
  | nil =>
      refine ⟨?_, posted_nil⟩
      simpa [commissions, emitted] using booked_waiting shop.email
  | append_singleton events e ih =>
      simp only [commissions, receiptMails, deliveredReceipts, emitted_append, exec_append,
        ← List.append_assoc]
      have hlast : ∀ {ω : Type} (emit : Mailing → MailEvent → List ω) (s : Mailing),
          emitted (Mailing.step api) emit s [e] = emit s e := by simp [emitted]
      simp only [hlast]
      exact ⟨ih.booked.step api e, (ih.posted.step api ih.booked e).mono _⟩

/-! ## The mails that went out -/

theorem mailer_process (p : EmailProcessor) (jobId : String) (job : QueuedJob EmailJobData)
    (now : Timestamp) (uuid : String) :
    (process p jobId job now uuid).2.mailer =
      p.mailer.record (process p jobId job now uuid).1 := by
  unfold process
  split
  · rfl
  · exact p.mailer_sendReceipt _
  · rfl

theorem mailer_step (s : Mailing) (e : MailEvent) :
    (s.step api e).processor.mailer = s.processor.mailer.record ((s.sent e).map Mail.record) := by
  cases e with
  | deliver jobId now uuid =>
      simp only [Mailing.step, Mailing.sent]
      cases s.shop.email.jobs.get? jobId with
      | none => rfl
      | some job => simp [mailer_process, Function.comp_def]
  | _ => rfl

/-- The mailer holds what a run has mailed. -/
theorem mailer_run (shop : Shop) (events : List MailEvent) :
    (exec (Mailing.step api) ⟨shop, {}⟩ events).processor.mailer =
      ({} : MailerStub).record ((mails api shop events).map Mail.record) := by
  induction events using List.reverseRecOn with
  | nil => rfl
  | append_singleton events e ih =>
      simp [mails, emitted_append, mailer_step, ih, MailerStub.record_append, emitted]

theorem receiptMails_eq_filter (shop : Shop) (events : List MailEvent) :
    receiptMails api shop events =
      (mails api shop events).filter fun mail ↦ mail.record.template = RECEIPT_JOB := by
  induction events using List.reverseRecOn with
  | nil => rfl
  | append_singleton events e ih =>
      rw [receiptMails, mails, emitted_append, emitted_append, List.filter_append]
      exact congrArg₂ _ ih (by simp [emitted, Mailing.receiptsSent])

/-- What a mail says of the receipt it is for. -/
def Mail.address (mail : Mail) : String × String := (mail.jobId, mail.record.recipient)

def addressOf (asked : String × ReceiptEmailJobData) : String × String :=
  (asked.1, asked.2.recipient)

theorem Ledger.mails_perm {asked : List (String × ReceiptEmailJobData)} {mails : List Mail}
    {delivered : List String} {s : Mailing} (h : Ledger asked mails delivered s)
    (hfew : asked.length ≤ IDEMPOTENCY_MARKER_CAPACITY) :
    (mails.map Mail.address).Perm
      ((asked.filter fun receipt ↦ receipt.1 ∈ delivered).map addressOf) := by
  have hknown : mails.map Mail.jobId ⊆ asked.map Prod.fst := by
    intro id hid
    obtain ⟨mail, hmail, rfl⟩ := List.mem_map.mp hid
    obtain ⟨data, hasked, -⟩ := h.posted.addressed mail hmail
    exact List.mem_map_of_mem hasked
  have hmails : (mails.map Mail.jobId).Nodup := by
    apply h.posted.spaced.nodup hknown
    rwa [List.length_map]
  have hleft : (mails.map Mail.address).Nodup := by
    apply List.Nodup.of_map Prod.fst
    rwa [List.map_map]
  have hright : ((asked.filter fun receipt ↦ receipt.1 ∈ delivered).map addressOf).Nodup := by
    apply List.Nodup.of_map Prod.fst
    rw [List.map_map]
    exact (List.filter_sublist.map Prod.fst).nodup h.booked.nodup
  rw [List.perm_ext_iff_of_nodup hleft hright]
  rintro ⟨id, recipient⟩
  simp only [List.mem_map, List.mem_filter, decide_eq_true_eq]
  constructor
  · rintro ⟨mail, hmail, haddress⟩
    obtain ⟨rfl, rfl⟩ := Prod.mk.inj haddress
    obtain ⟨data, hasked, hrecipient⟩ := h.posted.addressed mail hmail
    refine ⟨(mail.jobId, data), ⟨hasked, ?_⟩, by rw [addressOf, hrecipient]⟩
    exact (h.posted.mem_iff _).mp (List.mem_map_of_mem hmail)
  · rintro ⟨⟨other, data⟩, ⟨hasked, hdelivered⟩, haddress⟩
    obtain ⟨rfl, rfl⟩ := Prod.mk.inj haddress
    obtain ⟨mail, hmail, hid⟩ := List.mem_map.mp ((h.posted.mem_iff _).mpr hdelivered)
    obtain ⟨found, hfound, hrecipient⟩ := h.posted.addressed mail hmail
    have hsame := List.inj_on_of_nodup_map h.booked.nodup hfound hasked hid
    obtain rfl := (Prod.mk.inj hsame).2
    exact ⟨mail, hmail, by rw [Mail.address, hid, hrecipient]⟩

/-- In every run each receipt is mailed to the recipient it was asked for, two
mails of one job have a thousand others between them, and while no more than a
thousand receipts are asked for, the mails are, each once and in some order, for
those whose job was delivered. These are the receipts among the mails that the
mailer has recorded. -/
theorem receipts_mailed_once (shop : Shop) (events : List MailEvent) :
    ((commissions api shop events).map Prod.fst).Nodup ∧
    (∀ mail ∈ receiptMails api shop events, ∃ data,
      (mail.jobId, data) ∈ commissions api shop events ∧
        mail.record.recipient = data.recipient) ∧
    Spaced IDEMPOTENCY_MARKER_CAPACITY ((receiptMails api shop events).map Mail.jobId) ∧
    ((commissions api shop events).length ≤ IDEMPOTENCY_MARKER_CAPACITY →
      ((receiptMails api shop events).map Mail.address).Perm
        (((commissions api shop events).filter fun receipt ↦
          receipt.1 ∈ deliveredReceipts api shop events).map addressOf)) ∧
    receiptMails api shop events =
      (mails api shop events).filter (fun mail ↦ mail.record.template = RECEIPT_JOB) ∧
    (exec (Mailing.step api) ⟨shop, {}⟩ events).processor.mailer =
      ({} : MailerStub).record ((mails api shop events).map Mail.record) :=
  ⟨(ledger api shop events).booked.nodup, (ledger api shop events).posted.addressed,
    (ledger api shop events).posted.spaced, (ledger api shop events).mails_perm,
    receiptMails_eq_filter api shop events, mailer_run api shop events⟩

end NestQueueExample.Orders
