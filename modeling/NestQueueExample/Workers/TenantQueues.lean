import NestQueueExample.Schedulers.Controller
import NestQueueExample.Workers.Tenants

/-!
# The lifetime of the tenant queues

`QueueService` creates the queue of a job that is enqueued, if it does not
exist, and keeps it. `notify` enqueues whether or not the tenant has a worker:
a job without one waits until a worker is registered. `unregister` leaves the
queue behind. The tenant queues are therefore those of the notified tenants, and
each of them has a worker only as long as every notification comes while the
worker is registered and no notified worker is removed.
-/

namespace NestQueueExample.Workers

open Http Queues Runs

def MAX_TENANT_ID_LENGTH : ℕ := 64
def MAX_MESSAGE_LENGTH : ℕ := 512

/-- The pattern `^[A-Za-z0-9][A-Za-z0-9_-]*$`, as for scheduler ids. -/
def matchesTenantId (s : String) : Bool := Schedulers.matchesSchedulerId s

def tenantIdSchema : Schema String :=
  .string [.min 1, .max MAX_TENANT_ID_LENGTH, .regex matchesTenantId]

def tierSchema : Schema TenantTier :=
  .transform (.enum ["premium", "free"]) fun value ↦
    if value.1 = "premium" then .premium else .free

structure RegisterBody where
  tenantId : String
  tier : TenantTier

def registerSchema : Schema RegisterBody :=
  .object (.cons "tenantId" tenantIdSchema <| .cons "tier" tierSchema .nil)
    fun (tenantId, tier, _) ↦ ⟨tenantId, tier⟩

def notifySchema : Schema NotificationData :=
  .object (.cons "message" (.string [.min 1, .max MAX_MESSAGE_LENGTH]) .nil)
    fun (message, _) ↦ ⟨message⟩

/-! ## The requests -/

namespace TenantWorkersController

variable {ε : Type} (zod : Zod)

/-- What a request asks of the service once its input is accepted. -/
def register (body : JsValue) : Except (Rejection ε) TenantEvent := do
  let { tenantId, tier } ← parseRequest zod registerSchema body
  pure (.register tenantId tier)

def notify (tenantId body : JsValue) : Except (Rejection ε) TenantEvent := do
  let id ← parseRequest zod tenantIdSchema tenantId
  let { message } ← parseRequest zod notifySchema body
  pure (.notify id message)

def remove (tenantId : JsValue) (call : ℕ) : Except (Rejection ε) TenantEvent := do
  let id ← parseRequest zod tenantIdSchema tenantId
  pure (.unregister id call)

end TenantWorkersController

/-- A request, the registry's answer to a call of `unregister` and the rest of
that call, a delivery, or the creation of a known queue elsewhere. -/
inductive PlaneEvent where
  | register (body : JsValue)
  | notify (tenantId body : JsValue)
  | remove (tenantId : JsValue) (call : ℕ)
  | registryRemoves (tenantId : String) (call : ℕ)
  | registryRejects (tenantId : String) (call : ℕ)
  | resume (tenantId : String) (call : ℕ)
  | deliver (tenantId : String) (worker job : ℕ) (now : ℕ)
  | createQueue (queue : KnownQueue)

def PlaneEvent.tenantEvent (zod : Zod) : PlaneEvent → Option TenantEvent
  | .register body => (TenantWorkersController.register (ε := Empty) zod body).toOption
  | .notify tenantId body =>
      (TenantWorkersController.notify (ε := Empty) zod tenantId body).toOption
  | .remove tenantId call =>
      (TenantWorkersController.remove (ε := Empty) zod tenantId call).toOption
  | .registryRemoves tenantId call => some (.registryRemoves tenantId call)
  | .registryRejects tenantId call => some (.registryRejects tenantId call)
  | .resume tenantId call => some (.resume tenantId call)
  | .deliver tenantId worker job now => some (.deliver tenantId worker job now)
  | .createQueue _ => none

/-! ## The queues -/

/-- The service with the queues that `QueueService` has created. -/
structure TenantPlane where
  workers : TenantWorkers
  queues : List String

namespace TenantPlane

def createQueue (p : TenantPlane) (name : String) : TenantPlane :=
  { p with queues := p.queues.insert name }

def apply (p : TenantPlane) (e : TenantEvent) : TenantPlane :=
  let p := match e with
    | .notify tenantId _ => p.createQueue (tenantQueueName tenantId)
    | _ => p
  { p with workers := p.workers.step e }

def step (zod : Zod) (p : TenantPlane) (e : PlaneEvent) : TenantPlane :=
  let p := match e with
    | .createQueue queue => p.createQueue queue.1
    | _ => p
  match e.tenantEvent zod with
  | some event => p.apply event
  | none => p

def start (boot : List KnownQueue) (registry : InsertionMap String Worker) : TenantPlane :=
  { workers := .start registry, queues := boot.map Subtype.val }

def registered (p : TenantPlane) (tenantId : String) : Bool :=
  p.workers.registry.has (tenantQueueName tenantId)

/-- Every queue is a known one or the queue of a tenant with a worker. -/
def QueuesLive (p : TenantPlane) : Prop :=
  ∀ name ∈ p.queues, name ∈ KNOWN_QUEUES ∨
    ∃ tenantId, name = tenantQueueName tenantId ∧ p.registered tenantId = true

def Removes (p : TenantPlane) (tenantId : String) (call : ℕ) : Prop :=
  ∃ existed, p.workers.calls.get? (tenantId, call) = some ⟨existed, false⟩

/-- A notification comes while its tenant has a worker, and the registry removes
no worker whose tenant has been notified. -/
def Keeps (p : TenantPlane) : TenantEvent → Prop
  | .notify tenantId _ => p.registered tenantId = true
  | .registryRemoves tenantId call =>
      p.Removes tenantId call → tenantQueueName tenantId ∉ p.queues
  | _ => True

def KeepsQueues (zod : Zod) (p : TenantPlane) (e : PlaneEvent) : Prop :=
  ∀ event ∈ e.tenantEvent zod, p.Keeps event

theorem tenantQueueName_notMem_known (tenantId : String) :
    tenantQueueName tenantId ∉ KNOWN_QUEUES := by
  have hother : ∀ name ∈ KNOWN_QUEUES, JsString.startsWith name TENANT_QUEUE_PREFIX = false := by
    decide
  intro hmem
  have hstart := hother _ hmem
  simp [tenantQueueName] at hstart

theorem mem_queues_apply {p : TenantPlane} {e : TenantEvent} {name : String} :
    name ∈ (p.apply e).queues ↔
      (∃ tenantId message, e = .notify tenantId message ∧ name = tenantQueueName tenantId) ∨
        name ∈ p.queues := by
  cases e <;> simp [apply, createQueue]

/-- A worker stays registered unless the registry removes it. -/
theorem registered_apply {p : TenantPlane} {e : TenantEvent} {t : String}
    (ht : p.registered t = true)
    (hkept : ∀ call, e = .registryRemoves t call → ¬ p.Removes t call) :
    (p.apply e).registered t = true := by
  unfold registered at ht ⊢
  cases e with
  | register u tier =>
      simp only [apply, TenantWorkers.step, TenantWorkers.register]
      split
      · exact ht
      · simp [InsertionMap.has_set, ht]
  | unregister u call =>
      simp only [apply, TenantWorkers.step, TenantWorkers.unregister]
      split <;> exact ht
  | registryRemoves u call =>
      simp only [apply, TenantWorkers.step, TenantWorkers.registryRemoves]
      split
      · next existed hcall =>
          have htu : t ≠ u := by
            rintro rfl
            exact hkept call rfl ⟨existed, hcall⟩
          simp [InsertionMap.has_delete, tenantQueueName_inj, htu, ht]
      · exact ht
  | registryRejects u call =>
      simp only [apply, TenantWorkers.step, TenantWorkers.registryRejects]
      split <;> exact ht
  | resume u call =>
      simp only [apply, TenantWorkers.step, TenantWorkers.resume]
      split <;> exact ht
  | notify u message => exact ht
  | deliver u worker job now => exact ht

theorem registered_registryRemoves {p : TenantPlane} {t : String} {call : ℕ}
    (h : p.Removes t call) : (p.apply (.registryRemoves t call)).registered t = false := by
  obtain ⟨existed, hcall⟩ := h
  simp [registered, apply, TenantWorkers.step, TenantWorkers.registryRemoves, hcall,
    InsertionMap.has_delete]

theorem QueuesLive.apply {p : TenantPlane} (h : p.QueuesLive) {e : TenantEvent}
    (he : p.Keeps e) : (p.apply e).QueuesLive := by
  intro name hname
  rcases mem_queues_apply.mp hname with ⟨t, message, rfl, rfl⟩ | hold
  · exact Or.inr ⟨t, rfl, registered_apply he (by simp)⟩
  · rcases h name hold with hknown | ⟨t, rfl, ht⟩
    · exact Or.inl hknown
    · refine Or.inr ⟨t, rfl, registered_apply ht ?_⟩
      rintro call rfl hremoves
      exact he hremoves hold

theorem keeps_of_live_apply {p : TenantPlane} {e : TenantEvent} (h : (p.apply e).QueuesLive) :
    p.Keeps e := by
  have hlive : ∀ t, tenantQueueName t ∈ (p.apply e).queues → (p.apply e).registered t = true := by
    intro t hmem
    rcases h _ hmem with hknown | ⟨u, hu, hregistered⟩
    · exact absurd hknown (tenantQueueName_notMem_known t)
    · rw [tenantQueueName_inj.mp hu]
      exact hregistered
  cases e with
  | notify t message =>
      exact hlive t (mem_queues_apply.mpr (Or.inl ⟨t, message, rfl, rfl⟩))
  | registryRemoves t call =>
      intro hremoves hmem
      have hregistered := hlive t (mem_queues_apply.mpr (Or.inr hmem))
      rw [registered_registryRemoves hremoves] at hregistered
      exact Bool.false_ne_true hregistered
  | _ => trivial

/-! ## Runs -/

variable {zod : Zod}

theorem live_createQueue_iff {p : TenantPlane} (queue : KnownQueue) :
    (p.createQueue queue.1).QueuesLive ↔ p.QueuesLive := by
  constructor
  · intro h name hname
    exact h name (by simp [createQueue, hname])
  · intro h name hname
    rcases List.mem_insert_iff.mp hname with rfl | hold
    · exact Or.inl queue.2
    · exact h name hold

theorem QueuesLive.step {p : TenantPlane} (h : p.QueuesLive) {e : PlaneEvent}
    (he : p.KeepsQueues zod e) : (p.step zod e).QueuesLive := by
  unfold TenantPlane.step
  cases e with
  | createQueue queue => exact (live_createQueue_iff queue).mpr h
  | _ =>
      dsimp only
      split
      · next event hevent => exact h.apply (he event hevent)
      · exact h

theorem keepsQueues_of_live_step {p : TenantPlane} {e : PlaneEvent}
    (h : (p.step zod e).QueuesLive) : p.KeepsQueues zod e := by
  intro event hevent
  unfold TenantPlane.step at h
  rw [Option.mem_def] at hevent
  cases e with
  | createQueue queue => simp [PlaneEvent.tenantEvent] at hevent
  | _ =>
      rw [hevent] at h
      exact keeps_of_live_apply h

/-- What a request adds to the queues: a known one, or that of a notified tenant. -/
def Creates (zod : Zod) (name : String) (e : PlaneEvent) : Prop :=
  (∃ queue, e = .createQueue queue ∧ name = queue.1) ∨
    ∃ tenantId message, e.tenantEvent zod = some (.notify tenantId message) ∧
      name = tenantQueueName tenantId

theorem mem_queues_step {p : TenantPlane} {e : PlaneEvent} {name : String} :
    name ∈ (p.step zod e).queues ↔ name ∈ p.queues ∨ Creates zod name e := by
  unfold TenantPlane.step
  cases e with
  | createQueue queue =>
      simp [Creates, PlaneEvent.tenantEvent, createQueue, or_comm]
  | _ =>
      dsimp only
      split
      · next event hevent =>
          rw [mem_queues_apply, or_comm]
          simp [Creates, hevent]
      · next hnone => simp [Creates, hnone]

theorem mem_queues_exec {p : TenantPlane} {es : List PlaneEvent} {name : String} :
    name ∈ (exec (step zod) p es).queues ↔ name ∈ p.queues ∨ ∃ e ∈ es, Creates zod name e := by
  induction es generalizing p with
  | nil => simp
  | cons e es ih =>
      rw [exec_cons, ih, mem_queues_step, or_assoc]
      simp

theorem live_start (boot : List KnownQueue) (registry : InsertionMap String Worker) :
    (start boot registry).QueuesLive := by
  intro name hname
  obtain ⟨queue, -, rfl⟩ := List.mem_map.mp hname
  exact Or.inl queue.2

end TenantPlane

/-- The queues of a run are those created for known names and those of the
tenants that an accepted notification has named. In every state of the run each
of them is a known one or belongs to a tenant with a worker, exactly when every
notification of the run comes while its tenant has a worker and no worker is
removed whose tenant has a queue. -/
theorem tenantQueues_live_iff (zod : Zod) (boot : List KnownQueue)
    (registry : InsertionMap String Worker) (es : List PlaneEvent) :
    (∀ name, name ∈ (exec (TenantPlane.step zod) (.start boot registry) es).queues ↔
      (∃ queue : KnownQueue, name = queue.1 ∧ (queue ∈ boot ∨ .createQueue queue ∈ es)) ∨
      ∃ e ∈ es, ∃ tenantId message, e.tenantEvent zod = some (.notify tenantId message) ∧
        name = tenantQueueName tenantId) ∧
    (Throughout (TenantPlane.step zod) TenantPlane.QueuesLive (.start boot registry) es ↔
      AllSteps (TenantPlane.step zod) (TenantPlane.KeepsQueues zod) (.start boot registry) es) := by
  constructor
  · intro name
    rw [TenantPlane.mem_queues_exec]
    constructor
    · rintro (hboot | ⟨e, he, ⟨queue, rfl, rfl⟩ | hnotified⟩)
      · obtain ⟨queue, hqueue, rfl⟩ := List.mem_map.mp hboot
        exact .inl ⟨queue, rfl, .inl hqueue⟩
      · exact .inl ⟨queue, rfl, .inr he⟩
      · exact .inr ⟨e, he, hnotified⟩
    · rintro (⟨queue, rfl, hboot | hcreated⟩ | ⟨e, he, hnotified⟩)
      · exact .inl (List.mem_map_of_mem hboot)
      · exact .inr ⟨_, hcreated, .inl ⟨queue, rfl, rfl⟩⟩
      · exact .inr ⟨e, he, .inr hnotified⟩
  · exact throughout_iff_allSteps (fun _ _ h he ↦ h.step he) (fun _ h ↦ h)
      (fun _ _ _ h ↦ TenantPlane.keepsQueues_of_live_step h)
      (TenantPlane.live_start boot registry)

/-- A notification for a tenant that was never registered. -/
def notifyStranger : PlaneEvent :=
  .notify (.string "acme") (.object [(.own "message", .string "ping")])

theorem notifyStranger_event :
    notifyStranger.tenantEvent (Zod.ofParse fun _ ↦ none) = some (.notify "acme" "ping") := by
  have hread : JsValue.read (.object [(.own "message", .string "ping")]) "message" =
      .string "ping" := JsValue.read_own
  have hid : (Zod.ofParse fun _ ↦ none).safeParse tenantIdSchema (.string "acme") =
      .ok "acme" := by
    simp only [Zod.ofParse, tenantIdSchema, Schema.parse]
    rfl
  have hbody : (Zod.ofParse fun _ ↦ none).safeParse notifySchema
      (.object [(.own "message", .string "ping")]) = .ok ⟨"ping"⟩ := by
    simp only [Zod.ofParse, notifySchema, Schema.parse, Fields.parse, hread]
    rfl
  simp only [notifyStranger, PlaneEvent.tenantEvent, TenantWorkersController.notify,
    parseRequest, hid, hbody]
  rfl

theorem stranger_has_queue :
    ¬ Throughout (TenantPlane.step (Zod.ofParse fun _ ↦ none)) TenantPlane.QueuesLive
      (.start [] .empty) [notifyStranger] := by
  intro h
  have hlive : (TenantPlane.step (Zod.ofParse fun _ ↦ none) (.start [] .empty)
      notifyStranger).QueuesLive := h _ List.prefix_rfl
  have hregistered : (TenantPlane.start [] .empty).registered "acme" = true :=
    TenantPlane.keepsQueues_of_live_step hlive _ notifyStranger_event
  exact absurd hregistered (by decide)

end NestQueueExample.Workers
