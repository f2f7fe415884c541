import NestQueueExample.Workers.Tenants

/-!
# Tenant isolation

One tenant alone is a small machine: its worker, its tier, its calls of
`unregister` and its jobs. The service is a product of these machines, each
driven by the events of its own tenant; only the trail of deliveries is shared,
and sharing it can only trim the old end of what a tenant sees.
-/

namespace NestQueueExample.Workers

open Common Runs SlidingWindow

/-- The state of one tenant, as if there were no others. -/
structure Tenant where
  registered : Bool
  tier : Option TenantTier
  calls : ℕ → Option UnregisterCall
  workers : List Worker
  jobs : List EnqueuedJob

namespace Tenant

variable (tenantId : String)

def step (t : Tenant) : TenantEvent → Tenant
  | .register _ tier =>
      if t.registered then t
      else
        { t with
          registered := true
          tier := some tier
          workers := t.workers ++ [⟨some tenantId, TIER_CONCURRENCY tier⟩] }
  | .unregister _ call =>
      if (t.calls call).isSome then t
      else { t with calls := Function.update t.calls call (some ⟨t.registered, false⟩) }
  | .registryRemoves _ call =>
      match t.calls call with
      | some ⟨existed, false⟩ =>
          { t with
            registered := false
            calls := Function.update t.calls call (some ⟨existed, true⟩) }
      | _ => t
  | .registryRejects _ call =>
      match t.calls call with
      | some ⟨_, false⟩ => { t with calls := Function.update t.calls call none }
      | _ => t
  | .resume _ call =>
      match t.calls call with
      | some ⟨_, true⟩ =>
          { t with tier := none, calls := Function.update t.calls call none }
      | _ => t
  | .notify _ message =>
      { t with jobs := t.jobs ++ [⟨tenantQueueName tenantId, NOTIFY_JOB, ⟨message⟩⟩] }
  | .deliver .. => t

def delivery (t : Tenant) : TenantEvent → List TenantDelivery
  | .deliver _ worker job now =>
      match t.workers[worker]?, t.jobs[job]? with
      | some ⟨some handlerTenant, _⟩, some job => [⟨handlerTenant, job.data.message, now⟩]
      | _, _ => []
  | _ => []

end Tenant

namespace TenantWorkers

def tenant (s : TenantWorkers) (tenantId : String) : Tenant where
  registered := s.registry.has (tenantQueueName tenantId)
  tier := s.tiers.get? tenantId
  calls := fun call ↦ s.calls.get? (tenantId, call)
  workers := s.workersOf (tenantQueueName tenantId)
  jobs := s.jobsOf (tenantQueueName tenantId)

theorem calls_set (s : TenantWorkers) (t : String) (call : ℕ) (state : UnregisterCall) :
    (fun n ↦ (s.calls.set (t, call) state).get? (t, n)) =
      Function.update (fun n ↦ s.calls.get? (t, n)) call (some state) := by
  funext n
  by_cases hn : n = call <;> simp [InsertionMap.get?_set, hn]

theorem calls_delete (s : TenantWorkers) (t : String) (call : ℕ) :
    (fun n ↦ (s.calls.delete (t, call)).get? (t, n)) =
      Function.update (fun n ↦ s.calls.get? (t, n)) call none := by
  funext n
  by_cases hn : n = call <;> simp [InsertionMap.get?_delete, hn]

theorem tenant_step_own (s : TenantWorkers) {t : String} {e : TenantEvent}
    (he : e.tenantId = t) : (s.step e).tenant t = (s.tenant t).step t e := by
  subst he
  cases e with
  | register t tier =>
      simp only [step, register, TenantEvent.tenantId, Tenant.step]
      cases hhas : s.registry.has (tenantQueueName t) with
      | true => simp [tenant, hhas]
      | false =>
          simp [tenant, hhas, InsertionMap.has_set, InsertionMap.get?_set, workersOf, jobsOf]
  | unregister t call =>
      have hcalls : ((s.tenant t).calls call).isSome = s.calls.has (t, call) := rfl
      simp only [step, unregister, TenantEvent.tenantId, Tenant.step, hcalls]
      cases hcall : s.calls.has (t, call) with
      | true => rfl
      | false => simp [tenant, calls_set, workersOf, jobsOf]
  | registryRemoves t call =>
      have hcalls : (s.tenant t).calls call = s.calls.get? (t, call) := rfl
      simp only [step, registryRemoves, TenantEvent.tenantId, Tenant.step, hcalls]
      rcases hcall : s.calls.get? (t, call) with _ | ⟨existed, _ | _⟩
      · rfl
      · simp [tenant, calls_set, InsertionMap.has_delete, workersOf, jobsOf]
      · rfl
  | registryRejects t call =>
      have hcalls : (s.tenant t).calls call = s.calls.get? (t, call) := rfl
      simp only [step, registryRejects, TenantEvent.tenantId, Tenant.step, hcalls]
      rcases hcall : s.calls.get? (t, call) with _ | ⟨existed, _ | _⟩
      · rfl
      · simp [tenant, calls_delete, workersOf, jobsOf]
      · rfl
  | resume t call =>
      have hcalls : (s.tenant t).calls call = s.calls.get? (t, call) := rfl
      simp only [step, resume, TenantEvent.tenantId, Tenant.step, hcalls]
      rcases hcall : s.calls.get? (t, call) with _ | ⟨existed, _ | _⟩
      · rfl
      · rfl
      · have htier : (s.tiers.delete t).get? t = none := by simp [InsertionMap.get?_delete]
        simp [tenant, calls_delete, htier, workersOf, jobsOf]
  | notify t message =>
      simp [step, notify, TenantEvent.tenantId, Tenant.step, tenant, workersOf, jobsOf]
  | deliver t worker job now => rfl

theorem tenant_step_other (s : TenantWorkers) {t : String} {e : TenantEvent}
    (he : e.tenantId ≠ t) : (s.step e).tenant t = s.tenant t := by
  have hne : t ≠ e.tenantId := Ne.symm he
  cases e with
  | register u tier =>
      simp only [TenantEvent.tenantId] at he hne
      simp only [step, register]
      split
      · rfl
      · simp [tenant, InsertionMap.has_set, InsertionMap.get?_set, workersOf, jobsOf,
          tenantQueueName_inj, he, hne]
  | unregister u call =>
      simp only [TenantEvent.tenantId] at hne
      simp only [step, unregister]
      split
      · rfl
      · simp [tenant, InsertionMap.get?_set, workersOf, jobsOf, hne]
  | registryRemoves u call =>
      simp only [TenantEvent.tenantId] at hne
      simp only [step, registryRemoves]
      split
      · simp [tenant, InsertionMap.get?_set, InsertionMap.has_delete, workersOf, jobsOf,
          tenantQueueName_inj, hne]
      · rfl
  | registryRejects u call =>
      simp only [TenantEvent.tenantId] at hne
      simp only [step, registryRejects]
      split
      · simp [tenant, InsertionMap.get?_delete, workersOf, jobsOf, hne]
      · rfl
  | resume u call =>
      simp only [TenantEvent.tenantId] at hne
      simp only [step, resume]
      split
      · simp [tenant, InsertionMap.get?_delete, workersOf, jobsOf, hne]
      · rfl
  | notify u message =>
      simp only [TenantEvent.tenantId] at he
      simp [step, notify, tenant, workersOf, jobsOf, tenantQueueName_inj, he]
  | deliver u worker job now => rfl

/-! ## What a step adds to the shared lists -/

def enqueues : TenantEvent → List EnqueuedJob
  | .notify t message => [⟨tenantQueueName t, NOTIFY_JOB, ⟨message⟩⟩]
  | _ => []

/-- All that a step does to the lists that the tenants share. -/
theorem shared_step (s : TenantWorkers) (e : TenantEvent) :
    ((s.step e).started = s.started ∨
      ∃ concurrency, (s.step e).started =
        s.started ++ [(tenantQueueName e.tenantId, ⟨some e.tenantId, concurrency⟩)]) ∧
    (s.step e).enqueued = s.enqueued ++ enqueues e ∧
    (s.step e).deliveries = (s.delivery e).foldl Trail.push s.deliveries := by
  have hnone : s.enqueued = s.enqueued ++ [] := (List.append_nil _).symm
  cases e with
  | register t tier =>
      simp only [step, register]
      split
      · exact ⟨Or.inl rfl, hnone, rfl⟩
      · exact ⟨Or.inr ⟨_, rfl⟩, hnone, rfl⟩
  | unregister t call =>
      simp only [step, unregister]
      split <;> exact ⟨Or.inl rfl, hnone, rfl⟩
  | registryRemoves t call =>
      simp only [step, registryRemoves]
      split <;> exact ⟨Or.inl rfl, hnone, rfl⟩
  | registryRejects t call =>
      simp only [step, registryRejects]
      split <;> exact ⟨Or.inl rfl, hnone, rfl⟩
  | resume t call =>
      simp only [step, resume]
      split <;> exact ⟨Or.inl rfl, hnone, rfl⟩
  | notify t message => exact ⟨Or.inl rfl, rfl, rfl⟩
  | deliver t worker job now => exact ⟨Or.inl rfl, hnone, rfl⟩

/-! ## What every run keeps -/

def HandlersOwn (s : TenantWorkers) : Prop :=
  ∀ entry ∈ s.started, ∃ t, entry.1 = tenantQueueName t ∧ entry.2.handlerTenant = some t

theorem handlersOwn_start (registry : InsertionMap String Worker) :
    (start registry).HandlersOwn := by
  simp [HandlersOwn, start]

theorem HandlersOwn.step {s : TenantWorkers} (h : s.HandlersOwn) (e : TenantEvent) :
    (s.step e).HandlersOwn := by
  rcases (s.shared_step e).1 with hsame | ⟨concurrency, hadded⟩
  · rw [HandlersOwn, hsame]
    exact h
  · rw [HandlersOwn, hadded]
    intro entry hmem
    rcases List.mem_append.mp hmem with hold | hnew
    · exact h entry hold
    · obtain rfl := List.mem_singleton.mp hnew
      exact ⟨e.tenantId, rfl, rfl⟩

/-- Where a record comes from: a worker and a job of the queue of its tenant. -/
theorem HandlersOwn.mem_delivery {s : TenantWorkers} (h : s.HandlersOwn) {e : TenantEvent}
    {d : TenantDelivery} (hd : d ∈ s.delivery e) :
    d.tenantId = e.tenantId ∧
      ∃ job ∈ s.jobsOf (tenantQueueName e.tenantId), d.notification = job.data.message := by
  cases e with
  | deliver t worker job now =>
      simp only [delivery] at hd
      split at hd
      · next handlerTenant concurrency job' hworker hjob =>
          obtain rfl := List.mem_singleton.mp hd
          obtain ⟨entry, hentry, hown⟩ := List.mem_map.mp (List.mem_of_getElem? hworker)
          obtain ⟨hstarted, hqueue⟩ := List.mem_filter.mp hentry
          obtain ⟨u, hu, hhandler⟩ := h entry hstarted
          have htu : u = t := by
            rw [← tenantQueueName_inj, ← hu]
            simpa using hqueue
          rw [hown, htu] at hhandler
          exact ⟨Option.some.inj hhandler, job', List.mem_of_getElem? hjob, rfl⟩
      · simp at hd
  | _ => simp [delivery] at hd

theorem enqueued_exec (s : TenantWorkers) (es : List TenantEvent) :
    (exec step s es).enqueued = s.enqueued ++ es.flatMap enqueues := by
  induction es generalizing s with
  | nil => simp
  | cons e es ih =>
      rw [exec_cons, ih, (s.shared_step e).2.1, List.flatMap_cons, List.append_assoc]

theorem snapshot_exec {s : TenantWorkers} {log : List TenantDelivery}
    (h : s.deliveries.snapshot = log.rtake DELIVERIES_CAPACITY) (es : List TenantEvent) :
    (exec step s es).deliveries.snapshot =
      (log ++ emitted step delivery s es).rtake DELIVERIES_CAPACITY := by
  induction es generalizing s log with
  | nil => simpa [emitted] using h
  | cons e es ih =>
      have hnow : (s.step e).deliveries.snapshot =
          (log ++ s.delivery e).rtake DELIVERIES_CAPACITY := by
        rw [(s.shared_step e).2.2, Trail.snapshot_foldl_push_eq_rtake h]
      rw [exec_cons, ih hnow, emitted, List.append_assoc]

def recorded (registry : InsertionMap String Worker) (es : List TenantEvent) :
    List TenantDelivery := emitted step delivery (start registry) es

theorem listDeliveries_exec (registry : InsertionMap String Worker) (es : List TenantEvent)
    (t : String) :
    (exec step (start registry) es).listDeliveries (some t) =
      ((recorded registry es).rtake DELIVERIES_CAPACITY).filter fun d ↦ d.tenantId = t := by
  have hstart : (start registry).deliveries.snapshot =
      ([] : List TenantDelivery).rtake DELIVERIES_CAPACITY := by simp [start]
  rw [listDeliveries, snapshot_exec hstart, List.nil_append, recorded]

theorem notified_of_mem_recorded {registry : InsertionMap String Worker}
    {es : List TenantEvent} {d : TenantDelivery} (hd : d ∈ recorded registry es) :
    (∃ e ∈ es, e.tenantId = d.tenantId) ∧ TenantEvent.notify d.tenantId d.notification ∈ es := by
  obtain ⟨pre, e, post, rfl, hmem⟩ := exists_of_mem_emitted hd
  have hown : (exec step (start registry) pre).HandlersOwn :=
    exec_invariant (I := HandlersOwn) step (fun _ e h ↦ h.step e) (handlersOwn_start registry) pre
  obtain ⟨htenant, job, hjob, hmessage⟩ := hown.mem_delivery hmem
  refine ⟨⟨e, by simp, htenant.symm⟩, ?_⟩
  obtain ⟨henqueued, hqueue⟩ := List.mem_filter.mp hjob
  rw [enqueued_exec, start, List.nil_append, List.mem_flatMap] at henqueued
  obtain ⟨notification, hpre, hnotification⟩ := henqueued
  cases notification with
  | notify u message =>
      obtain rfl := List.mem_singleton.mp hnotification
      have hu : u = e.tenantId := by
        rw [← tenantQueueName_inj]
        simpa using hqueue
      rw [hmessage, htenant, ← hu]
      exact List.mem_append_left _ hpre
  | _ => simp [enqueues] at hnotification

/-! ## The service as a product of its tenants -/

theorem delivery_eq_tenant (s : TenantWorkers) {t : String} {e : TenantEvent}
    (he : e.tenantId = t) : s.delivery e = (s.tenant t).delivery e := by
  subst he
  cases e <;> rfl

/-- One tenant's part of a run is its own machine, run on its own events; and
what the run records for the tenant is what that machine records. -/
theorem tenant_exec (registry : InsertionMap String Worker) (t : String)
    (es : List TenantEvent) :
    (exec step (start registry) es).tenant t =
      exec (Tenant.step t) ((start registry).tenant t) (es.filter fun e ↦ e.tenantId = t) ∧
    (recorded registry es).filter (fun d ↦ d.tenantId = t) =
      emitted (Tenant.step t) Tenant.delivery ((start registry).tenant t)
        (es.filter fun e ↦ e.tenantId = t) := by
  let R : TenantWorkers → Tenant → Prop := fun s own ↦ s.HandlersOwn ∧ s.tenant t = own
  have hkeep : ∀ s own e, decide (TenantEvent.tenantId e = t) = true → R s own →
      R (s.step e) (own.step t e) := by
    rintro s own e he ⟨hown, rfl⟩
    exact ⟨hown.step e, s.tenant_step_own (by simpa using he)⟩
  have hdrop : ∀ s own e, decide (TenantEvent.tenantId e = t) = false → R s own →
      R (s.step e) own := by
    rintro s own e he ⟨hown, rfl⟩
    exact ⟨hown.step e, s.tenant_step_other (by simpa using he)⟩
  have hstart : R (start registry) ((start registry).tenant t) :=
    ⟨handlersOwn_start registry, rfl⟩
  refine ⟨(exec_filter_related hkeep hdrop hstart es).2, ?_⟩
  apply emitted_filter_related hkeep hdrop _ _ hstart
  · rintro s own e he ⟨hown, rfl⟩
    have htenant : e.tenantId = t := by simpa using he
    rw [← delivery_eq_tenant s htenant, List.filter_eq_self]
    intro d hd
    simpa [htenant] using (hown.mem_delivery hd).1
  · rintro s own e he ⟨hown, rfl⟩
    rw [List.filter_eq_nil_iff]
    intro d hd
    simpa [(hown.mem_delivery hd).1] using he

theorem recorded_filter_self (registry : InsertionMap String Worker) (t : String)
    (es : List TenantEvent) {d : TenantDelivery}
    (hd : d ∈ recorded registry (es.filter fun e ↦ e.tenantId = t)) : d.tenantId = t := by
  obtain ⟨⟨e, hmem, htenant⟩, -⟩ := notified_of_mem_recorded hd
  rw [← htenant]
  simpa using (List.mem_filter.mp hmem).2

theorem list_some_eq_tenant (s : TenantWorkers) (t : String) :
    s.list (some t) =
      if (s.tenant t).registered then [⟨t, tenantQueueName t, (s.tenant t).tier⟩] else [] :=
  s.list_some t

end TenantWorkers

open TenantWorkers in
/-- Deleting the events of all other tenants from a run leaves what a tenant
sees of its worker as it was. Of its deliveries the full run shows a suffix of
what the reduced run shows; they stand in the order in which they were
recorded, and each was notified to the tenant. -/
theorem tenant_isolation (registry : InsertionMap String Worker) (t : String)
    (es : List TenantEvent) :
    (exec step (start registry) es).list (some t) =
      (exec step (start registry) (es.filter fun e ↦ e.tenantId = t)).list (some t) ∧
    (exec step (start registry) es).listDeliveries (some t) <:+
      (exec step (start registry) (es.filter fun e ↦ e.tenantId = t)).listDeliveries (some t) ∧
    (exec step (start registry) es).listDeliveries (some t) <:+
      (recorded registry es).filter (fun d ↦ d.tenantId = t) ∧
    ∀ d ∈ (exec step (start registry) es).listDeliveries (some t),
      d.tenantId = t ∧ TenantEvent.notify t d.notification ∈ es := by
  have hfull := tenant_exec registry t es
  have halone := tenant_exec registry t (es.filter fun e ↦ e.tenantId = t)
  simp only [List.filter_filter, Bool.and_self] at halone
  have hself : (recorded registry (es.filter fun e ↦ e.tenantId = t)).filter
      (fun d ↦ d.tenantId = t) = recorded registry (es.filter fun e ↦ e.tenantId = t) :=
    List.filter_eq_self.mpr fun d hd ↦ by simpa using recorded_filter_self registry t es hd
  refine ⟨?_, ?_, ?_, ?_⟩
  · rw [list_some_eq_tenant, list_some_eq_tenant, hfull.1, halone.1]
  · have hwindow : ((recorded registry (es.filter fun e ↦ e.tenantId = t)).rtake
        DELIVERIES_CAPACITY).filter (fun d ↦ d.tenantId = t) =
          (recorded registry (es.filter fun e ↦ e.tenantId = t)).rtake DELIVERIES_CAPACITY :=
      List.filter_eq_self.mpr fun d hd ↦ by
        simpa using recorded_filter_self registry t es ((rtake_suffix _ _).subset hd)
    rw [listDeliveries_exec, listDeliveries_exec, hwindow, ← hself, halone.2, ← hfull.2]
    exact filter_rtake_suffix _ _ _
  · rw [listDeliveries_exec]
    exact (rtake_suffix _ _).filter _
  · intro d hd
    rw [listDeliveries_exec, List.mem_filter] at hd
    have htenant : d.tenantId = t := by simpa using hd.2
    have hnotified := (notified_of_mem_recorded ((rtake_suffix _ _).subset hd.1)).2
    exact ⟨htenant, htenant ▸ hnotified⟩

end NestQueueExample.Workers
