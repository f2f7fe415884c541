import NestQueueExample.Admin.Queues
import NestQueueExample.Schedulers.Controller

/-!
# The queue allow-list

Every request to the admin and scheduler controllers, with any name, body,
query and id. A handler can only issue calls that name known queues, because
each of its calls takes the name from a guard; and a request that names
another queue ends before its first call.
-/

namespace NestQueueExample.Admin

open Common Http Queues Schedulers
open Queues.Handler (sync invoke)

inductive AdminRequest where
  | listQueues
  | listJobs (name : String) (query : JsValue)
  | pause (name : String)
  | resume (name : String)
  | clean (name : String) (body : JsValue)
  | findJob (queue : String) (id : JsValue)
  | viewDedup (queue : String) (id : JsValue)
  | clearDedup (queue : String) (id : JsValue)
  | allMetrics
  | oneMetrics (queue : String)
  | invalidateMetrics (body : JsValue)
  | listSchedulers (query : JsValue)
  | readTicks
  | upsertScheduler (queue id body : JsValue)
  | removeScheduler (queue id : JsValue)

namespace AdminRequest

/-- What the request has where the endpoint reads a queue name; `undefined`
where there is none. -/
def queue : AdminRequest → JsValue
  | .listJobs name _ | .pause name | .resume name | .clean name _ | .findJob name _
  | .viewDedup name _ | .clearDedup name _ | .oneMetrics name => .string name
  | .upsertScheduler queue .. | .removeScheduler queue _ => queue
  | .invalidateMetrics body => body.read "queue"
  | .listSchedulers query => query.read "queue"
  | .listQueues | .allMetrics | .readTicks => .undefined

end AdminRequest

variable {L : Library}

inductive AdminResponse (L : Library) where
  | metrics (snapshots : List L.QueueMetrics)
  | jobs (views : List JobView)
  | paused
  | resumed
  | removedJobs (ids : List String)
  | job (view : JobView)
  | dedup (jobId : Option String)
  | removed (done : Bool)
  | metricsOf (snapshot : L.QueueMetrics)
  | invalidated (result : MetricsController.InvalidateResult)
  | schedulers (page : List L.JobSchedulerJson)
  | ticks (recorded : List SchedulerTick)
  | upserted (result : SchedulerUpserted)

def handle (zod : Zod) (ticks : BoundedRingBuffer SchedulerTick TICKS_CAPACITY) :
    AdminRequest → Handler L (AdminResponse L)
  | .listQueues => .metrics <$> QueuesController.list
  | .listJobs name query => .jobs <$> QueuesController.jobs zod name query
  | .pause name => (fun _ ↦ .paused) <$> QueuesController.pause name
  | .resume name => (fun _ ↦ .resumed) <$> QueuesController.resume name
  | .clean name body => .removedJobs <$> QueuesController.clean zod name body
  | .findJob queue id => .job <$> JobsController.find zod queue id
  | .viewDedup queue id => .dedup <$> DedupController.view zod queue id
  | .clearDedup queue id => .removed <$> DedupController.clear zod queue id
  | .allMetrics => .metrics <$> MetricsController.all
  | .oneMetrics queue => .metricsOf <$> MetricsController.one queue
  | .invalidateMetrics body => .invalidated <$> MetricsController.invalidate zod body
  | .listSchedulers query => .schedulers <$> SchedulersController.list zod query
  | .readTicks => .ticks <$> SchedulersController.readTicks ticks
  | .upsertScheduler queue id body => .upserted <$> SchedulersController.upsert zod queue id body
  | .removeScheduler queue id => .removed <$> SchedulersController.remove zod queue id

/-! ## Guarded handlers -/

/-- The value names something else than a known queue. -/
def NamesOther (named : JsValue) : Prop :=
  named ≠ .undefined ∧ ∀ name ∈ KNOWN_QUEUES, named ≠ .string name

/-- Under a request that has `named` for its queue, the handler calls the
library with known names only, and not at all if `named` is something else. -/
structure Guarded {α : Type} (named : JsValue) (p : Handler L α) : Prop where
  callsOnly : p.CallsOnly Call.NamesKnown
  failsAtOnce (h : NamesOther named) : p.FailsAtOnce

namespace Guarded

variable {α β : Type} {named : JsValue} {result : Except (Rejection L.Error) α}
  {p : Handler L α} {k : α → Handler L β}

theorem of_undefined (hp : p.CallsOnly Call.NamesKnown) : Guarded .undefined p :=
  ⟨hp, fun h ↦ absurd rfl h.1⟩

theorem of_check (h : ∀ a, result = .ok a → ¬ NamesOther named) :
    Guarded named (sync result) :=
  ⟨trivial, fun hother ↦ Program.failsAtOnce_done fun a ha ↦ h a ha hother⟩

theorem bind (hp : Guarded named p) (hk : ∀ a, (k a).CallsOnly Call.NamesKnown) :
    Guarded named (p >>= k) :=
  ⟨hp.callsOnly.bind hk, fun h ↦ (hp.failsAtOnce h).bind k⟩

theorem bind_check (hk : ∀ a, result = .ok a → Guarded named (k a)) :
    Guarded named (sync result >>= k) :=
  ⟨.bind_done fun a ha ↦ (hk a ha).callsOnly,
    fun h ↦ .bind_done fun a ha ↦ (hk a ha).failsAtOnce h⟩

theorem map (hp : Guarded named p) (f : α → β) : Guarded named (f <$> p) :=
  hp.bind fun _ ↦ trivial

end Guarded

theorem not_namesOther_of_mem {name : String} (h : name ∈ KNOWN_QUEUES) :
    ¬ NamesOther (.string name) :=
  fun hother ↦ hother.2 name h rfl

theorem callsOnly_invoke {c : Call L} (queue : KnownQueue) (h : c.queueName = some queue.1) :
    (invoke c).CallsOnly Call.NamesKnown :=
  Program.callsOnly_call.mpr (Call.namesKnown_of_eq queue h)

/-! ## The guards -/

theorem assertKnownQueue_guarded (name : String) :
    Guarded (L := L) (.string name) (sync (assertKnownQueue name)) := by
  refine .of_check fun queue h ↦ ?_
  by_cases hname : name ∈ KNOWN_QUEUES
  · exact not_namesOther_of_mem hname
  · rw [assertKnownQueue_of_not_mem hname] at h
    contradiction

theorem getManagedQueue_guarded (name : String) :
    Guarded (L := L) (.string name) (AdminQueuesService.getManagedQueue name) :=
  (assertKnownQueue_guarded name).bind fun known ↦ callsOnly_invoke known rfl

variable {zod : Zod}

theorem queueSchema_guarded (hzod : zod.Documented) (queue : JsValue) :
    Guarded (L := L) queue (sync (parseRequest zod queueSchema queue)) := by
  refine .of_check fun name h ↦ ?_
  rw [hzod.enum_ok (parseRequest_ok_iff.mp h)]
  exact not_namesOther_of_mem (mem_knownQueues name.2)

theorem listQuerySchema_guarded (hzod : zod.Documented) (query : JsValue) :
    Guarded (L := L) (query.read "queue") (sync (parseRequest zod listQuerySchema query)) := by
  refine .of_check fun parsed h ↦ ?_
  obtain ⟨⟨queue, start, end_, asc, rest⟩, ⟨hqueue, -⟩, -⟩ :=
    hzod.object_ok (parseRequest_ok_iff.mp h)
  rw [hzod.enum_ok hqueue]
  exact not_namesOther_of_mem (mem_knownQueues queue.2)

theorem invalidateSchema_ok (hzod : zod.Documented) {body : JsValue} {queue : Option String}
    (h : zod.safeParse MetricsController.invalidateSchema body = .ok queue) :
    body.read "queue" = (queue.map JsValue.string).getD .undefined := by
  rcases hzod.default_ok h with ⟨rfl, rfl⟩ | h
  · rfl
  obtain ⟨⟨parsed, rest⟩, ⟨hqueue, -⟩, rfl⟩ := hzod.object_ok h
  cases parsed with
  | none => exact hzod.optional_none hqueue
  | some name => exact hzod.string_ok (hzod.optional_some hqueue)

/-! ## The endpoints -/

theorem QueuesController.list_guarded :
    Guarded .undefined (QueuesController.list : Handler L (List L.QueueMetrics)) := by
  refine .of_undefined ((Program.callsOnly_all.mpr fun i ↦ ?_).bind fun _ ↦ trivial)
  exact Call.namesKnown_of_eq ⟨_, KNOWN_QUEUES.get_mem i⟩ rfl

theorem QueuesController.jobs_guarded (name : String) (query : JsValue) :
    Guarded (L := L) (.string name) (QueuesController.jobs zod name query) :=
  .bind_check fun _ _ ↦ (assertKnownQueue_guarded name).bind fun known ↦
    (callsOnly_invoke known rfl).bind fun _ ↦ trivial

theorem QueuesController.pause_guarded (name : String) :
    Guarded (L := L) (.string name) (QueuesController.pause name) :=
  (assertKnownQueue_guarded name).bind fun known ↦ callsOnly_invoke known rfl

theorem QueuesController.resume_guarded (name : String) :
    Guarded (L := L) (.string name) (QueuesController.resume name) :=
  (assertKnownQueue_guarded name).bind fun known ↦ callsOnly_invoke known rfl

theorem QueuesController.clean_guarded (name : String) (body : JsValue) :
    Guarded (L := L) (.string name) (QueuesController.clean zod name body) :=
  .bind_check fun _ _ ↦ (assertKnownQueue_guarded name).bind fun known ↦ callsOnly_invoke known rfl

theorem JobsController.find_guarded (queue : String) (id : JsValue) :
    Guarded (L := L) (.string queue) (JobsController.find zod queue id) := by
  refine .bind_check fun _ _ ↦ (assertKnownQueue_guarded queue).bind fun known ↦ ?_
  refine (callsOnly_invoke known rfl).bind fun job ↦ ?_
  cases job <;> trivial

theorem DedupController.view_guarded (queue : String) (id : JsValue) :
    Guarded (L := L) (.string queue) (DedupController.view zod queue id) :=
  .bind_check fun _ _ ↦ (getManagedQueue_guarded queue).bind fun _ ↦
    Program.callsOnly_call.mpr (Call.namesKnown_of_none rfl)

theorem DedupController.clear_guarded (queue : String) (id : JsValue) :
    Guarded (L := L) (.string queue) (DedupController.clear zod queue id) :=
  .bind_check fun _ _ ↦ (getManagedQueue_guarded queue).bind fun _ ↦
    (Program.callsOnly_call.mpr (Call.namesKnown_of_none rfl)).bind fun _ ↦ trivial

theorem MetricsController.all_guarded :
    Guarded .undefined (MetricsController.all : Handler L (List L.QueueMetrics)) :=
  .of_undefined (Program.callsOnly_call.mpr (Call.namesKnown_of_none rfl))

theorem MetricsController.one_guarded (queue : String) :
    Guarded (L := L) (.string queue) (MetricsController.one queue) :=
  (assertKnownQueue_guarded queue).bind fun known ↦ callsOnly_invoke known rfl

theorem MetricsController.invalidate_guarded (hzod : zod.Documented) (body : JsValue) :
    Guarded (L := L) (body.read "queue") (MetricsController.invalidate zod body) := by
  refine .bind_check fun queue h ↦ ?_
  rw [invalidateSchema_ok hzod (parseRequest_ok_iff.mp h)]
  cases queue with
  | none =>
      refine .of_undefined (Program.CallsOnly.bind_done fun known hknown ↦ ?_)
      obtain rfl : known = none := (Except.ok.inj hknown).symm
      exact (Program.callsOnly_call.mpr (Call.namesKnown_of_none rfl)).bind fun _ ↦ trivial
  | some name =>
      have hcheck : Guarded (L := L) (.string name) (sync ((assertKnownQueue name).map some)) :=
        Handler.sync_map some _ ▸ (assertKnownQueue_guarded name).map some
      refine hcheck.bind fun known ↦ ?_
      refine (Program.callsOnly_call.mpr ?_).bind fun _ ↦ trivial
      cases known with
      | none => exact Call.namesKnown_of_none rfl
      | some known => exact Call.namesKnown_of_eq known rfl

theorem SchedulersController.list_guarded (hzod : zod.Documented) (query : JsValue) :
    Guarded (L := L) (query.read "queue") (SchedulersController.list zod query) :=
  (listQuerySchema_guarded hzod query).bind fun parsed ↦
    callsOnly_invoke ⟨parsed.queue.1, mem_knownQueues parsed.queue.2⟩ rfl

theorem SchedulersController.upsert_guarded (hzod : zod.Documented) (queue id body : JsValue) :
    Guarded (L := L) queue (SchedulersController.upsert zod queue id body) := by
  refine (queueSchema_guarded hzod queue).bind fun name ↦ ?_
  refine .bind_done fun schedulerId _ ↦ .bind_done fun parsed _ ↦ ?_
  exact (callsOnly_invoke ⟨name.1, mem_knownQueues name.2⟩ rfl).bind fun _ ↦ trivial

theorem SchedulersController.remove_guarded (hzod : zod.Documented) (queue id : JsValue) :
    Guarded (L := L) queue (SchedulersController.remove zod queue id) := by
  refine (queueSchema_guarded hzod queue).bind fun name ↦ .bind_done fun schedulerId _ ↦ ?_
  exact callsOnly_invoke ⟨name.1, mem_knownQueues name.2⟩ rfl

/-! ## Every request -/

theorem handle_guarded (hzod : zod.Documented)
    (ticks : BoundedRingBuffer SchedulerTick TICKS_CAPACITY) (request : AdminRequest) :
    Guarded (L := L) request.queue (handle zod ticks request) := by
  cases request with
  | listQueues => exact QueuesController.list_guarded.map _
  | listJobs name query => exact (QueuesController.jobs_guarded name query).map _
  | pause name => exact (QueuesController.pause_guarded name).map _
  | resume name => exact (QueuesController.resume_guarded name).map _
  | clean name body => exact (QueuesController.clean_guarded name body).map _
  | findJob queue id => exact (JobsController.find_guarded queue id).map _
  | viewDedup queue id => exact (DedupController.view_guarded queue id).map _
  | clearDedup queue id => exact (DedupController.clear_guarded queue id).map _
  | allMetrics => exact MetricsController.all_guarded.map _
  | oneMetrics queue => exact (MetricsController.one_guarded queue).map _
  | invalidateMetrics body => exact (MetricsController.invalidate_guarded hzod body).map _
  | listSchedulers query => exact (SchedulersController.list_guarded hzod query).map _
  | readTicks => exact .of_undefined trivial
  | upsertScheduler queue id body =>
      exact (SchedulersController.upsert_guarded hzod queue id body).map _
  | removeScheduler queue id => exact (SchedulersController.remove_guarded hzod queue id).map _

/-- Whatever the library answers, the queue names it receives are known ones,
and a request that names another queue is rejected before it receives a call. -/
theorem allowList_airtight (hzod : zod.Documented)
    (ticks : BoundedRingBuffer SchedulerTick TICKS_CAPACITY) (request : AdminRequest)
    (service : Program.Service (Call L) Call.Answer (Rejection L.Error)) :
    (∀ c ∈ ((handle zod ticks request).run service []).1, ∀ name ∈ c.queueName,
        name ∈ KNOWN_QUEUES) ∧
      (NamesOther request.queue →
        ∃ rejection, (handle zod ticks request).run service [] = ([], .error rejection)) := by
  have hguarded := handle_guarded (L := L) hzod ticks request
  refine ⟨hguarded.callsOnly.run service (by simp), fun hother ↦ ?_⟩
  exact (hguarded.failsAtOnce hother).run service []

def emptyLibrary : Library where
  Queue := Unit
  QueueMetrics := Unit
  JobSchedulerJson := Unit
  Error := Unit
  JOB_STATUS := []

theorem allowList_airtight_sessions :
    ∃ rejection, (handle (L := emptyLibrary) (Zod.ofParse fun _ ↦ none) ⟨[], 0⟩
      (.invalidateMetrics (.object [(.own "queue", .string "sessions")]))).run
        (fun _ _ _ ↦ .error (.library ())) [] = ([], .error rejection) := by
  refine (allowList_airtight (Zod.documented_ofParse _) _ _ _).2 ?_
  have hread : JsValue.read (.object [(.own "queue", .string "sessions")]) "queue" =
      .string "sessions" := JsValue.read_own
  have hother : "sessions" ∉ KNOWN_QUEUES := by decide
  refine ⟨by simp [AdminRequest.queue, hread], fun name hname heq ↦ hother ?_⟩
  rw [AdminRequest.queue, hread] at heq
  exact JsValue.string.inj heq ▸ hname

/-- With any number of requests in progress and any order of the answers, the
library receives only known queue names. -/
theorem server_calls_known (hzod : zod.Documented)
    (ticks : BoundedRingBuffer SchedulerTick TICKS_CAPACITY)
    (es : List (Program.ServerEvent (Call L) Call.Answer (Rejection L.Error) AdminRequest)) :
    ∀ c ∈ Runs.emitted (Program.serve (handle zod ticks)) (Program.issued (handle zod ticks)) []
      es, c.NamesKnown :=
  Program.server_callsOnly (fun request ↦ (handle_guarded hzod ticks request).callsOnly) es

end NestQueueExample.Admin
