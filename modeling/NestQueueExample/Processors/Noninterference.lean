import NestQueueExample.Events.Stream
import NestQueueExample.Processors.Listeners

/-!
# No secret reaches the event feed

The listeners and the server of the feed run together. Two runs whose events
differ only in what payloads store under sensitive keys go through the same
states, since nothing of a payload is kept that has not been redacted.
-/

namespace NestQueueExample.Processors

open Events Runs

inductive EmailEvent where
  | completed (job : Job) (returnValue : JsValue)
  | failed (job : Option Job) (message : String)
  | progress (job : Job) (reported : JsValue)
  | active (job : Job)

inductive StallEvent where
  | active (job : Job)
  | stalled (jobId : String)
  | completed (job : Job) (returnValue : JsValue)

def EmailEvent.entry (now : Timestamp) : EmailEvent → FeedEntry
  | .completed job returnValue => EmailProcessor.onCompleted job returnValue now
  | .failed job message => EmailProcessor.onFailed job message now
  | .progress job reported => EmailProcessor.onProgress job reported now
  | .active job => EmailProcessor.onActive job now

def StallEvent.entry (now : Timestamp) : StallEvent → FeedEntry
  | .active job => StallProcessor.onActive job now
  | .stalled jobId => StallProcessor.onStalled jobId now
  | .completed job returnValue => StallProcessor.onCompleted job returnValue now

/-- The listeners with calls in progress, and the server their pushes go to. -/
structure FeedSystem where
  webhooks : WebhookListeners := {}
  server : SseServer FeedEntry := {}

inductive FeedEvent where
  | email (event : EmailEvent) (now : Timestamp)
  | stall (event : StallEvent) (now : Timestamp)
  | webhook (event : WebhookEvent)
  | stream
  | subscribe (handle : ℕ)
  | unsubscribe (subscription : ℕ)

namespace FeedSystem

def pushAll (s : FeedSystem) (entries : List FeedEntry) : FeedSystem :=
  { s with server := entries.foldl SseServer.push s.server }

def step (s : FeedSystem) : FeedEvent → FeedSystem
  | .email event now => s.pushAll [event.entry now]
  | .stall event now => s.pushAll [event.entry now]
  | .webhook event =>
      { s with webhooks := s.webhooks.step event }.pushAll
        ((s.webhooks.pushes event).map Prod.snd)
  | .stream => { s with server := s.server.step .stream }
  | .subscribe handle => { s with server := s.server.step (.subscribe handle) }
  | .unsubscribe subscription => { s with server := s.server.step (.unsubscribe subscription) }

def run (es : List FeedEvent) : FeedSystem := exec step {} es

end FeedSystem

/-! ## Agreement outside the sensitive keys -/

structure Job.Agree (j k : Job) : Prop where
  id : j.id = k.id
  data : Events.Agree j.data k.data
  attemptsMade : j.attemptsMade = k.attemptsMade

inductive EmailEvent.Agree : EmailEvent → EmailEvent → Prop
  | completed {j k : Job} {x y : JsValue} (hjob : j.Agree k) (hvalue : Events.Agree x y) :
      Agree (.completed j x) (.completed k y)
  | failed {j k : Option Job} {message : String} (hjob : Option.Rel Job.Agree j k) :
      Agree (.failed j message) (.failed k message)
  | progress {j k : Job} {x y : JsValue} (hjob : j.Agree k) (hvalue : Events.Agree x y) :
      Agree (.progress j x) (.progress k y)
  | active {j k : Job} (hjob : j.Agree k) : Agree (.active j) (.active k)

inductive StallEvent.Agree : StallEvent → StallEvent → Prop
  | active {j k : Job} (hjob : j.Agree k) : Agree (.active j) (.active k)
  | stalled {jobId : String} : Agree (.stalled jobId) (.stalled jobId)
  | completed {j k : Job} {x y : JsValue} (hjob : j.Agree k) (hvalue : Events.Agree x y) :
      Agree (.completed j x) (.completed k y)

inductive WebhookEvent.Agree : WebhookEvent → WebhookEvent → Prop
  | completed {jobId : String} {x y : JsValue} {now : Timestamp} (hvalue : Events.Agree x y) :
      Agree (.hand (.completed jobId x) now) (.hand (.completed jobId y) now)
  | failed {jobId failedReason : String} {now : Timestamp} :
      Agree (.hand (.failed jobId failedReason) now) (.hand (.failed jobId failedReason) now)
  | active {jobId : String} {now : Timestamp} :
      Agree (.hand (.active jobId) now) (.hand (.active jobId) now)
  | resolves {lookup : ℕ} {j k : Option Job} (hjob : Option.Rel Job.Agree j k) :
      Agree (.settle lookup (.resolves j)) (.settle lookup (.resolves k))
  | rejects {lookup : ℕ} : Agree (.settle lookup .rejects) (.settle lookup .rejects)

inductive FeedEvent.Agree : FeedEvent → FeedEvent → Prop
  | email {x y : EmailEvent} {now : Timestamp} (hevent : x.Agree y) :
      Agree (.email x now) (.email y now)
  | stall {x y : StallEvent} {now : Timestamp} (hevent : x.Agree y) :
      Agree (.stall x now) (.stall y now)
  | webhook {x y : WebhookEvent} (hevent : x.Agree y) : Agree (.webhook x) (.webhook y)
  | stream : Agree .stream .stream
  | subscribe {handle : ℕ} : Agree (.subscribe handle) (.subscribe handle)
  | unsubscribe {subscription : ℕ} :
      Agree (.unsubscribe subscription) (.unsubscribe subscription)

/-! ## Agreeing events have the same effect -/

theorem EmailEvent.Agree.entry_eq {x y : EmailEvent} (h : x.Agree y) (now : Timestamp) :
    x.entry now = y.entry now := by
  cases h with
  | completed hjob hvalue =>
      simp [EmailEvent.entry, EmailProcessor.onCompleted, hjob.id, hjob.attemptsMade,
        redact_congr hjob.data, redact_congr hvalue]
  | failed hjob =>
      cases hjob with
      | none => rfl
      | some hjob =>
          simp [EmailEvent.entry, EmailProcessor.onFailed, hjob.id, hjob.attemptsMade,
            redact_congr hjob.data]
  | progress hjob hvalue =>
      simp [EmailEvent.entry, EmailProcessor.onProgress, hjob.id, hjob.attemptsMade,
        redact_congr hvalue]
  | active hjob =>
      simp [EmailEvent.entry, EmailProcessor.onActive, hjob.id, hjob.attemptsMade,
        redact_congr hjob.data]

theorem StallEvent.Agree.entry_eq {x y : StallEvent} (h : x.Agree y) (now : Timestamp) :
    x.entry now = y.entry now := by
  cases h with
  | active hjob => simp [StallEvent.entry, StallProcessor.onActive, hjob.id, hjob.attemptsMade]
  | stalled => rfl
  | completed hjob hvalue =>
      simp [StallEvent.entry, StallProcessor.onCompleted, hjob.id, hjob.attemptsMade,
        redact_congr hvalue]

theorem completedEntry_congr {j k : Option Job} (h : Option.Rel Job.Agree j k)
    (base : FeedEntry) :
    WebhookProcessor.completedEntry base j = WebhookProcessor.completedEntry base k := by
  cases h with
  | none => rfl
  | some hjob => simp [WebhookProcessor.completedEntry, redact_congr hjob.data]

theorem WebhookEvent.Agree.step_eq {x y : WebhookEvent} (h : x.Agree y)
    (s : WebhookListeners) : s.step x = s.step y ∧ s.pushes x = s.pushes y := by
  cases h with
  | completed hvalue =>
      simp [WebhookListeners.step, WebhookListeners.pushes, WebhookProcessor.completedBase,
        redact_congr hvalue]
  | failed => exact ⟨rfl, rfl⟩
  | active => exact ⟨rfl, rfl⟩
  | resolves hjob =>
      exact ⟨rfl, by simp [WebhookListeners.pushes, completedEntry_congr hjob]⟩
  | rejects => exact ⟨rfl, rfl⟩

theorem FeedEvent.Agree.step_eq {e f : FeedEvent} (h : e.Agree f) (s : FeedSystem) :
    s.step e = s.step f := by
  cases h with
  | email hevent => rw [FeedSystem.step, FeedSystem.step, hevent.entry_eq]
  | stall hevent => rw [FeedSystem.step, FeedSystem.step, hevent.entry_eq]
  | webhook hevent =>
      rw [FeedSystem.step, FeedSystem.step, (hevent.step_eq s.webhooks).1,
        (hevent.step_eq s.webhooks).2]
  | stream => rfl
  | subscribe => rfl
  | unsubscribe => rfl

theorem FeedSystem.run_congr {es fs : List FeedEvent}
    (h : List.Forall₂ FeedEvent.Agree es fs) : run es = run fs := by
  apply exec_related (R := Eq) _ h rfl
  rintro s _ e f rfl hef
  exact hef.step_eq s

/-- Two runs that differ only under sensitive keys push the same entries, and
the read surface serves the same: the snapshot, the stream a new request is
answered with, and everything each open stream has received. -/
theorem feed_noninterference {es fs : List FeedEvent}
    (h : List.Forall₂ FeedEvent.Agree es fs) :
    (FeedSystem.run es).server.pushed = (FeedSystem.run fs).server.pushed ∧
    EventsController.recent (FeedSystem.run es).server.feed =
      EventsController.recent (FeedSystem.run fs).server.feed ∧
    EventsController.stream (FeedSystem.run es).server.feed =
      EventsController.stream (FeedSystem.run fs).server.feed ∧
    (FeedSystem.run es).server.subscriptions.map Subscription.received =
      (FeedSystem.run fs).server.subscriptions.map Subscription.received := by
  rw [FeedSystem.run_congr h]
  exact ⟨rfl, rfl, rfl, rfl⟩

def receiptJob (address : String) : Job where
  id := some "1"
  data := .object [(.own "orderId", .string "o1"), (.own "to", .string address)]
  attemptsMade := 0

theorem receiptJob_agree (x y : String) : (receiptJob x).Agree (receiptJob y) where
  id := rfl
  data := .object (.cons (.refl _) (.secret (by decide) .nil))
  attemptsMade := rfl

theorem feed_noninterference_receipt :
    (FeedSystem.run [.email (.active (receiptJob "a@x")) 0]).server.pushed =
      (FeedSystem.run [.email (.active (receiptJob "b@x")) 0]).server.pushed :=
  (feed_noninterference (.cons (.email (.active (receiptJob_agree "a@x" "b@x"))) .nil)).1

end NestQueueExample.Processors
