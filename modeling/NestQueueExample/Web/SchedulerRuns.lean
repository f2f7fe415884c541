import NestQueueExample.Schedulers.Boot
import NestQueueExample.Web.Requests

/-!
# Schedulers over whole runs

Boots and arbitrary requests put calls in flight, and the library carries each
out or fails it, in any order. Whatever the run, each scheduler in the store was
declared by a boot or asked for by a request, and the delete button of its row
removes it and no other.
-/

namespace NestQueueExample.Web

open Http Queues Runs Schedulers UrlPath
open Queues.Handler (sync invoke)

/-- The request of the delete button in the row of a scheduler. -/
def removeScheduler (queue : SchedulerQueue) (id : String) : ApiRequest :=
  ⟨.delete, upsertPath queue.1 id, .undefined⟩

section Runs

variable {L : Library} (zod : Zod) (carryOut : CarryOut L)

/-- The handler that may remove a scheduler, where the request reaches it. -/
def removeHandler (request : ApiRequest) : Option (Handler L Bool) :=
  match request.method, route schedulerRoute request.path with
  | .delete, some [queue, id] =>
      some (SchedulersController.remove zod (.string queue) (.string id))
  | _, _ => none

/-- The calls that a request puts in flight. -/
def requestCalls (request : ApiRequest) : List (Call L) :=
  ((upsertHandler zod request).map Program.pending).getD [] ++
    ((removeHandler zod request).map Program.pending).getD []

inductive SchedulerEvent where
  | boot
  | request (request : ApiRequest)
  | carryOut (i : ℕ)
  | fail (i : ℕ)

structure SchedulerRun (L : Library) where
  store : SchedulerStore := fun _ ↦ none
  inFlight : List (Call L) := []

def SchedulerRun.step (s : SchedulerRun L) : SchedulerEvent → SchedulerRun L
  | .boot =>
      { s with inFlight := s.inFlight ++
          (BootSchedulersService.onApplicationBootstrap : Handler L Unit).pending }
  | .request request => { s with inFlight := s.inFlight ++ requestCalls zod request }
  | .carryOut i =>
      match s.inFlight[i]? with
      | some call => ⟨carryOut s.store call, s.inFlight.eraseIdx i⟩
      | none => s
  | .fail i => { s with inFlight := s.inFlight.eraseIdx i }

def runSchedulers (es : List SchedulerEvent) : SchedulerRun L :=
  exec (SchedulerRun.step zod carryOut) {} es

/-! ## Where a schedule comes from -/

/-- A call that a boot or a request of the run has put in flight. -/
def Issued (es : List SchedulerEvent) (call : Call L) : Prop :=
  call ∈ bootCalls L ∨ ∃ request, .request request ∈ es ∧ call ∈ requestCalls zod request

variable {zod carryOut} {valid : JobSchedulerRepeatOptions → Bool}

theorem Issued.append {es : List SchedulerEvent} {call : Call L} (h : Issued zod es call)
    (e : SchedulerEvent) : Issued zod (es ++ [e]) call := by
  rcases h with hboot | ⟨request, hmem, hcall⟩
  · exact Or.inl hboot
  · exact Or.inr ⟨request, List.mem_append_left _ hmem, hcall⟩

structure Traced (zod : Zod) (es : List SchedulerEvent) (s : SchedulerRun L) : Prop where
  inFlight : ∀ call ∈ s.inFlight, Issued zod es call
  store : ∀ key schedule, s.store key = some schedule → ∃ call : Call L,
    Issued zod es call ∧ written call = some (key, some schedule)

theorem Traced.step (hcarry : CarriesOut valid carryOut) {es : List SchedulerEvent}
    {s : SchedulerRun L} (h : Traced zod es s) (e : SchedulerEvent) :
    Traced zod (es ++ [e]) (s.step zod carryOut e) := by
  have hstore : ∀ key schedule, s.store key = some schedule → ∃ call : Call L,
      Issued zod (es ++ [e]) call ∧ written call = some (key, some schedule) := by
    intro key schedule hkey
    obtain ⟨call, hissued, hwritten⟩ := h.store key schedule hkey
    exact ⟨call, hissued.append e, hwritten⟩
  have hflight : ∀ call ∈ s.inFlight, Issued zod (es ++ [e]) call := fun call hcall ↦
    (h.inFlight call hcall).append e
  cases e with
  | boot =>
      refine ⟨fun call hcall ↦ ?_, hstore⟩
      rcases List.mem_append.mp hcall with hold | hnew
      · exact hflight call hold
      · rw [pending_onApplicationBootstrap] at hnew
        exact Or.inl hnew
  | request request =>
      refine ⟨fun call hcall ↦ ?_, hstore⟩
      rcases List.mem_append.mp hcall with hold | hnew
      · exact hflight call hold
      · exact Or.inr ⟨request, List.mem_append_right _ (List.mem_singleton_self _), hnew⟩
  | carryOut i =>
      simp only [SchedulerRun.step]
      cases hcall : s.inFlight[i]? with
      | none => exact ⟨hflight, hstore⟩
      | some call =>
          refine ⟨fun other hother ↦ hflight other (List.mem_of_mem_eraseIdx hother), ?_⟩
          intro key schedule hkey
          rcases carryOut_eq_some hcarry hkey with hold | hnew
          · exact hstore key schedule hold
          · exact ⟨call, hflight call (List.mem_of_getElem? hcall), hnew⟩
  | fail i => exact ⟨fun call hcall ↦ hflight call (List.mem_of_mem_eraseIdx hcall), hstore⟩

theorem traced_runSchedulers (zod : Zod) (hcarry : CarriesOut valid carryOut)
    (es : List SchedulerEvent) : Traced zod es (runSchedulers zod carryOut es) := by
  induction es using List.reverseRecOn with
  | nil => exact ⟨by simp [runSchedulers], by simp [runSchedulers]⟩
  | append_singleton es e ih =>
      rw [runSchedulers, exec_append]
      exact ih.step hcarry e

/-! ## Which schedulers there are -/

def Managed (key : SchedulerKey) : Prop :=
  key.queue ∈ SCHEDULER_QUEUES ∧ isSchedulerId key.id = true

theorem pending_failsAtOnce {α : Type} {handler : Handler L α} (h : handler.FailsAtOnce) :
    handler.pending = [] := by
  obtain ⟨error, rfl⟩ := h
  rfl

theorem mem_pending_upsert (hzod : zod.Checks) {queue id : String} {body : JsValue} {call : Call L}
    (h : call ∈ (SchedulersController.upsert zod (.string queue) (.string id) body :
      Handler L SchedulerUpserted).pending) : ∃ data, Upsertable zod queue id body data ∧
        call = .upsertJobScheduler queue id data.repeat_ (toJobTemplate data.template) := by
  by_cases hbody : ∃ data, Upsertable zod queue id body data
  · obtain ⟨data, hdata⟩ := hbody
    rw [upsert_calls hzod hdata] at h
    exact ⟨data, hdata, by simpa [Program.call, bind, Program.bind, Program.pending] using h⟩
  · rw [pending_failsAtOnce (upsert_fails hzod (not_exists.mp hbody))] at h
    exact absurd h List.not_mem_nil

theorem remove_calls (hzod : zod.Checks) {queue id : String} (h : Managed ⟨queue, id⟩) :
    (SchedulersController.remove zod (.string queue) (.string id) : Handler L Bool) =
      invoke (.removeJobScheduler queue id) := by
  have hnamed : (parseRequest zod queueSchema (.string queue) :
      Except (Rejection L.Error) SchedulerQueue) = .ok ⟨queue, h.1⟩ := (queue_ok_iff hzod).mpr rfl
  rw [SchedulersController.remove, hnamed, (schedulerId_ok_iff hzod).mpr ⟨rfl, h.2⟩]
  rfl

theorem remove_fails (hzod : zod.Checks) {queue id : String} (h : ¬ Managed ⟨queue, id⟩) :
    (SchedulersController.remove zod (.string queue) (.string id) :
      Handler L Bool).FailsAtOnce := by
  refine .bind_done fun named hnamed ↦ .bind_done fun schedulerId hid ↦ absurd ⟨?_, ?_⟩ h
  · rw [(queue_ok_iff hzod).mp hnamed]
    exact named.2
  · exact ((schedulerId_ok_iff hzod).mp hid).2

theorem pending_remove (hzod : zod.Checks) {queue id : String} (h : Managed ⟨queue, id⟩) :
    (SchedulersController.remove zod (.string queue) (.string id) : Handler L Bool).pending =
      [.removeJobScheduler queue id] := by
  rw [remove_calls hzod h]
  rfl

theorem mem_pending_remove (hzod : zod.Checks) {queue id : String} {call : Call L}
    (h : call ∈ (SchedulersController.remove zod (.string queue) (.string id) :
      Handler L Bool).pending) :
    Managed ⟨queue, id⟩ ∧ call = .removeJobScheduler queue id := by
  by_cases hmanaged : Managed ⟨queue, id⟩
  · rw [pending_remove hzod hmanaged] at h
    exact ⟨hmanaged, List.mem_singleton.mp h⟩
  · rw [pending_failsAtOnce (remove_fails hzod hmanaged)] at h
    exact absurd h List.not_mem_nil

/-- Boots and requests write only to queues and ids that the API accepts. -/
theorem managed_of_issued (hzod : zod.Checks) {es : List SchedulerEvent} {call : Call L}
    (h : Issued zod es call) {key : SchedulerKey} {write : Option Schedule}
    (hwritten : written call = some (key, write)) : Managed key := by
  rcases h with hboot | ⟨request, -, hcall⟩
  · simp only [bootCalls, List.mem_cons, List.not_mem_nil, or_false] at hboot
    rcases hboot with rfl | rfl | rfl
    all_goals
      obtain ⟨rfl, -⟩ := Prod.mk.inj (Option.some.inj hwritten)
      exact ⟨by decide, by decide +kernel⟩
  · rcases List.mem_append.mp hcall with hupsert | hremove
    · unfold upsertHandler at hupsert
      split at hupsert
      · obtain ⟨data, hdata, rfl⟩ := mem_pending_upsert hzod hupsert
        obtain ⟨rfl, -⟩ := Prod.mk.inj (Option.some.inj hwritten)
        exact ⟨hdata.queue, hdata.id⟩
      · simp at hupsert
    · unfold removeHandler at hremove
      split at hremove
      · obtain ⟨hmanaged, rfl⟩ := mem_pending_remove hzod hremove
        obtain ⟨rfl, -⟩ := Prod.mk.inj (Option.some.inj hwritten)
        exact hmanaged
      · simp at hremove

/-- The request of a delete button puts the removal of its scheduler in flight,
and nothing else. -/
theorem requestCalls_removeScheduler (hzod : zod.Checks) (queue : SchedulerQueue) {id : String}
    (hid : isSchedulerId id = true) :
    (requestCalls zod (removeScheduler queue id) : List (Call L)) =
      [.removeJobScheduler queue.1 id] := by
  obtain ⟨hne, hchars⟩ := idChars_of_isSchedulerId hid
  have hroute := route_upsertPath queue hne (plainSegment_of_idChars hchars)
    (percent_notMem_idChars hchars)
  have hupsert : (upsertHandler zod (removeScheduler queue id) :
      Option (Handler L SchedulerUpserted)) = none := by
    simp [upsertHandler, removeScheduler]
  have hremove : (removeHandler zod (removeScheduler queue id) : Option (Handler L Bool)) =
      some (SchedulersController.remove zod (.string queue.1) (.string id)) := by
    simp [removeHandler, removeScheduler, hroute]
  rw [requestCalls, hupsert, hremove, Option.map_none, Option.getD_none, List.nil_append,
    Option.map_some, Option.getD_some, pending_remove hzod ⟨queue.2, hid⟩]

end Runs

/-- In every run, a scheduler in the store is on a queue of the dashboard, and
its delete button removes it and no other scheduler. -/
theorem scheduler_rows_removable {zod : Zod} (hzod : zod.Checks) {L : Library}
    {valid : JobSchedulerRepeatOptions → Bool} {carryOut : CarryOut L}
    (hcarry : CarriesOut valid carryOut) (es : List SchedulerEvent) (key : SchedulerKey)
    (hstored : (runSchedulers zod carryOut es).store key ≠ none) :
    ∃ queue : SchedulerQueue, queue.1 = key.queue ∧
      (runSchedulers zod carryOut (es ++ [.request (removeScheduler queue key.id),
        .carryOut (runSchedulers zod carryOut es).inFlight.length])).store =
        Function.update (runSchedulers zod carryOut es).store key none := by
  have htraced := traced_runSchedulers zod hcarry es
  obtain ⟨schedule, hschedule⟩ := Option.ne_none_iff_exists'.mp hstored
  obtain ⟨call, hissued, hwritten⟩ := htraced.store key schedule hschedule
  obtain ⟨hqueue, hid⟩ := managed_of_issued hzod hissued hwritten
  refine ⟨⟨key.queue, hqueue⟩, rfl, ?_⟩
  rw [runSchedulers, exec_append, ← runSchedulers]
  have hremoved : carryOut (runSchedulers zod carryOut es).store
      (.removeJobScheduler key.queue key.id) =
        Function.update (runSchedulers zod carryOut es).store key none := hcarry.removed rfl
  simp [SchedulerRun.step, requestCalls_removeScheduler hzod ⟨key.queue, hqueue⟩ hid, hremoved]

/-- In every run whose requests leave the ids of the boot alone, a scheduler of
the boot is not registered or exactly as declared; every other scheduler was
asked for by a request; and the calls of a further boot, in any order, register
what is declared and change nothing else. -/
theorem boot_schedulers_declared (zod : Zod) {L : Library}
    {valid : JobSchedulerRepeatOptions → Bool} {carryOut : CarryOut L}
    (hcarry : CarriesOut valid carryOut)
    (hvalid : ∀ entry ∈ declared, valid entry.2.repeat_ = true) (es : List SchedulerEvent)
    (hforeign : ∀ request, .request request ∈ es →
      ∀ call ∈ (requestCalls zod request : List (Call L)), ∀ key write,
        written call = some (key, write) → key ∉ bootKeys) :
    (∀ key ∈ bootKeys, (runSchedulers zod carryOut es).store key = none ∨
      (runSchedulers zod carryOut es).store key = declaredFor key) ∧
    (∀ key schedule, key ∉ bootKeys →
      (runSchedulers zod carryOut es).store key = some schedule →
        ∃ request, .request request ∈ es ∧ ∃ call ∈ (requestCalls zod request : List (Call L)),
          written call = some (key, some schedule)) ∧
    ∀ calls : List (Call L), calls.Perm (bootCalls L) → ∀ key,
      calls.foldl carryOut (runSchedulers zod carryOut es).store key =
        (declaredFor key).or ((runSchedulers zod carryOut es).store key) := by
  have htraced := traced_runSchedulers zod hcarry es
  have hboot : ∀ call ∈ bootCalls L, ∀ key schedule, written call = some (key, some schedule) →
      key ∈ bootKeys ∧ declaredFor key = some schedule := by
    intro call hcall key schedule hwritten
    simp only [bootCalls, List.mem_cons, List.not_mem_nil, or_false] at hcall
    rcases hcall with rfl | rfl | rfl
    all_goals
      obtain ⟨rfl, hschedule⟩ := Prod.mk.inj (Option.some.inj hwritten)
      obtain rfl := Option.some.inj hschedule
      exact ⟨by decide, rfl⟩
  refine ⟨?_, ?_, fun calls hcalls key ↦ foldl_bootCalls hcarry hvalid hcalls key⟩
  · intro key hkey
    cases hstored : (runSchedulers zod carryOut es).store key with
    | none => exact Or.inl rfl
    | some schedule =>
        obtain ⟨call, hcall | ⟨request, hrequest, hcall⟩, hwritten⟩ := htraced.store key _ hstored
        · exact Or.inr (hboot call hcall key schedule hwritten).2.symm
        · exact absurd hkey (hforeign request hrequest call hcall key _ hwritten)
  · intro key schedule hkey hstored
    obtain ⟨call, hcall | ⟨request, hrequest, hcall⟩, hwritten⟩ := htraced.store key _ hstored
    · exact absurd (hboot call hcall key schedule hwritten).1 hkey
    · exact ⟨request, hrequest, call, hcall, hwritten⟩

section Witnesses

def plainLibrary : Library := ⟨Unit, Unit, Unit, Empty, []⟩

/-- A library that finds every schedule valid. -/
def plainCarryOut : CarryOut plainLibrary := fun store call ↦
  match written call with
  | some (key, write) => Function.update store key write
  | none => store

theorem carriesOut_plainCarryOut : CarriesOut (fun _ ↦ true) plainCarryOut where
  upserted h _ := by rw [plainCarryOut, h]
  rejected _ h := Bool.noConfusion h
  removed h := by rw [plainCarryOut, h]
  kept h := by rw [plainCarryOut, h]

def bootedRun : List SchedulerEvent := [.boot, .carryOut 0]

theorem scheduler_rows_removable_booted : ∃ queue : SchedulerQueue, queue.1 = MAINTENANCE_QUEUE ∧
    (runSchedulers (Zod.ofParse fun _ ↦ none) plainCarryOut
      (bootedRun ++ [.request (removeScheduler queue NIGHTLY_CLEANUP_ID), .carryOut 2])).store =
      Function.update (runSchedulers (Zod.ofParse fun _ ↦ none) plainCarryOut bootedRun).store
        ⟨MAINTENANCE_QUEUE, NIGHTLY_CLEANUP_ID⟩ none :=
  scheduler_rows_removable (Zod.checks_ofParse _) carriesOut_plainCarryOut bootedRun
    ⟨MAINTENANCE_QUEUE, NIGHTLY_CLEANUP_ID⟩ (by
      change some _ ≠ none
      exact Option.some_ne_none _)

def weeklyRepeat : JobSchedulerRepeatOptions where
  pattern := some "0 0 * * 0"
  tz := none
  every := none
  offset := none
  limit := none
  startDate := none
  endDate := none

def weekly : ApiRequest :=
  upsert ⟨MONITORING_QUEUE, by decide⟩ "weekly" (.object [(.own "pattern", .string "0 0 * * 0")])

theorem requestCalls_weekly :
    (requestCalls (Zod.ofParse fun _ ↦ none) weekly : List (Call plainLibrary)) =
      [.upsertJobScheduler MONITORING_QUEUE "weekly" weeklyRepeat none] := by
  have hmethod : weekly.method = .put := rfl
  have hroute : route schedulerRoute weekly.path = some [MONITORING_QUEUE, "weekly"] := by
    decide +kernel
  have hid : isSchedulerId "weekly" = true := by decide +kernel
  have hbody : (Zod.ofParse fun _ ↦ none).safeParse upsertSchema weekly.body =
      .ok ⟨weeklyRepeat, none⟩ := by rfl
  have hupsert : (SchedulersController.upsert (Zod.ofParse fun _ ↦ none)
      (.string MONITORING_QUEUE) (.string "weekly") weekly.body :
        Handler plainLibrary SchedulerUpserted) =
          invoke (.upsertJobScheduler MONITORING_QUEUE "weekly" weeklyRepeat none) >>=
            fun job ↦ pure ⟨"weekly", job.bind Job.id⟩ :=
    upsert_calls (Zod.checks_ofParse _) ⟨by decide, hid, hbody⟩
  rw [requestCalls, upsertHandler, removeHandler, hmethod, hroute]
  dsimp only
  rw [hupsert]
  rfl

/-- A boot of which one call is carried out, and a scheduler that somebody asks
for. -/
def weeklyRun : List SchedulerEvent := [.boot, .carryOut 0, .request weekly, .carryOut 2]

/-- A further boot registers its schedulers and leaves the other one alone. -/
theorem boot_schedulers_declared_weekly :
    let store := (bootCalls plainLibrary).reverse.foldl plainCarryOut
      (runSchedulers (Zod.ofParse fun _ ↦ none) plainCarryOut weeklyRun).store
    store ⟨MONITORING_QUEUE, DEMO_HEARTBEAT_ID⟩ =
        declaredFor ⟨MONITORING_QUEUE, DEMO_HEARTBEAT_ID⟩ ∧
      store ⟨MONITORING_QUEUE, "weekly"⟩ = some ⟨weeklyRepeat, none⟩ := by
  have hforeign : ∀ request, .request request ∈ weeklyRun →
      ∀ call ∈ (requestCalls (Zod.ofParse fun _ ↦ none) request : List (Call plainLibrary)),
        ∀ key write, written call = some (key, write) → key ∉ bootKeys := by
    intro request hrequest call hcall key write hwritten
    obtain rfl : request = weekly := by simpa [weeklyRun] using hrequest
    rw [requestCalls_weekly, List.mem_singleton] at hcall
    subst hcall
    obtain ⟨rfl, -⟩ := Prod.mk.inj (Option.some.inj hwritten)
    decide
  have hboots := (boot_schedulers_declared (Zod.ofParse fun _ ↦ none) carriesOut_plainCarryOut
    (fun _ _ ↦ rfl) weeklyRun hforeign).2.2 _ (List.reverse_perm _)
  have hweekly : (runSchedulers (Zod.ofParse fun _ ↦ none) plainCarryOut weeklyRun).store
      ⟨MONITORING_QUEUE, "weekly"⟩ = some ⟨weeklyRepeat, none⟩ := by
    simp [runSchedulers, weeklyRun, SchedulerRun.step, requestCalls_weekly,
      pending_onApplicationBootstrap, bootCalls, plainCarryOut, written]
  refine ⟨?_, ?_⟩
  · rw [hboots]
    rfl
  · rw [hboots, hweekly]
    rfl

end Witnesses

end NestQueueExample.Web
