import NestQueueExample.Workers.Tenants

/-!
# The registry and the tier map

`unregister` drops the tier after the await. A registration of the same tenant
that succeeds between the registry's removal and that point loses its tier
although its worker stays. The audited run below notes at every successful
registration whether it fell into such a window; between calls, the two stores
agree exactly when the latest registration of no registered tenant did.
-/

namespace NestQueueExample.Workers

open Runs

/-- A successful registration: its tier, and whether a call of `unregister` for
the tenant was past the registry's answer at that moment. -/
structure Registration where
  tier : TenantTier
  overlapped : Bool

structure Audited where
  service : TenantWorkers
  latest : String → Option Registration

namespace TenantWorkers

def registered (s : TenantWorkers) (tenantId : String) : Bool :=
  s.registry.has (tenantQueueName tenantId)

def removing (s : TenantWorkers) (tenantId : String) : Bool :=
  s.calls.entries.any fun entry ↦ entry.1.1 = tenantId && entry.2.settled

def Quiescent (s : TenantWorkers) : Prop := s.calls.entries = []

theorem removing_iff {s : TenantWorkers} {t : String} :
    s.removing t = true ↔
      ∃ call state, s.calls.get? (t, call) = some state ∧ state.settled = true := by
  simp only [removing, List.any_eq_true, Bool.and_eq_true, decide_eq_true_eq,
    InsertionMap.get?_eq_some_iff]
  constructor
  · rintro ⟨⟨⟨u, call⟩, state⟩, hmem, rfl, hsettled⟩
    exact ⟨call, state, hmem, hsettled⟩
  · rintro ⟨call, state, hmem, hsettled⟩
    exact ⟨((t, call), state), hmem, rfl, hsettled⟩

theorem removing_of_quiescent {s : TenantWorkers} (h : s.Quiescent) (t : String) :
    s.removing t = false := by
  have hcalls : s.calls.entries = [] := h
  simp [removing, hcalls]

theorem removing_congr {s s' : TenantWorkers} {t : String}
    (h : ∀ call state, state.settled = true →
      (s'.calls.get? (t, call) = some state ↔ s.calls.get? (t, call) = some state)) :
    s'.removing t = s.removing t := by
  rw [Bool.eq_iff_iff, removing_iff, removing_iff]
  constructor
  · rintro ⟨call, state, hget, hsettled⟩
    exact ⟨call, state, (h call state hsettled).mp hget, hsettled⟩
  · rintro ⟨call, state, hget, hsettled⟩
    exact ⟨call, state, (h call state hsettled).mpr hget, hsettled⟩

end TenantWorkers

namespace Audited

def noteRegistration (a : Audited) : TenantEvent → String → Option Registration
  | .register t tier =>
      if a.service.registered t then a.latest
      else Function.update a.latest t (some ⟨tier, a.service.removing t⟩)
  | _ => a.latest

def step (a : Audited) (e : TenantEvent) : Audited :=
  ⟨a.service.step e, a.noteRegistration e⟩

def start (registry : InsertionMap String Worker) : Audited :=
  ⟨TenantWorkers.start registry, fun _ ↦ none⟩

structure TenantFacts where
  registered : Bool
  tier : Option TenantTier
  removing : Bool
  latest : Option Registration

def facts (a : Audited) (t : String) : TenantFacts where
  registered := a.service.registered t
  tier := a.service.tiers.get? t
  removing := a.service.removing t
  latest := a.latest t

/-- Between calls: a tenant registered through the service and still in the
registry is listed with the tier of its latest registration, and no tier is
kept for a tenant without a worker. -/
def Consistent (a : Audited) : Prop :=
  (∀ t registration, a.latest t = some registration → a.service.registered t = true →
    (a.service.list none).filter (fun view ↦ view.tenantId = t) =
      [⟨t, tenantQueueName t, some registration.tier⟩]) ∧
  ∀ t, a.service.tiers.has t = true → a.service.registered t = true

/-- A registration that the registry accepts comes while no call of
`unregister` for the tenant is past the registry's answer. -/
def NoOverlap (a : Audited) : TenantEvent → Prop
  | .register t _ => a.service.registered t = false → a.service.removing t = false
  | _ => True

end Audited

/-! ## What one step can do to a tenant -/

namespace Audited

theorem facts_register (a : Audited) (t u : String) (tier : TenantTier) :
    (a.step (.register u tier)).facts t = a.facts t ∨
      u = t ∧ a.service.registered t = false ∧
        (a.step (.register u tier)).facts t =
          ⟨true, some tier, a.service.removing t, some ⟨tier, a.service.removing t⟩⟩ := by
  cases hhas : a.service.registry.has (tenantQueueName u) with
  | true =>
      left
      simp [step, TenantWorkers.step, TenantWorkers.register, noteRegistration, facts,
        TenantWorkers.registered, hhas]
  | false =>
      by_cases htu : t = u
      · subst u
        right
        refine ⟨rfl, hhas, ?_⟩
        simp [step, TenantWorkers.step, TenantWorkers.register, noteRegistration, facts,
          TenantWorkers.registered, TenantWorkers.removing, hhas, InsertionMap.has_set,
          InsertionMap.get?_set]
      · left
        simp [step, TenantWorkers.step, TenantWorkers.register, noteRegistration, facts,
          TenantWorkers.registered, TenantWorkers.removing, hhas, InsertionMap.has_set,
          InsertionMap.get?_set, tenantQueueName_inj, htu]

theorem facts_unregister (a : Audited) (t u : String) (call : ℕ) :
    (a.step (.unregister u call)).facts t = a.facts t := by
  cases hcall : a.service.calls.has (u, call) with
  | true =>
      simp [step, TenantWorkers.step, TenantWorkers.unregister, hcall, facts, noteRegistration]
  | false =>
      have hnone : a.service.calls.get? (u, call) = none := by
        simpa [InsertionMap.has] using hcall
      have hremoving : (a.service.unregister u call).removing t = a.service.removing t := by
        apply TenantWorkers.removing_congr
        intro call' state hsettled
        rw [TenantWorkers.unregister, hcall]
        by_cases heq : (t, call') = (u, call)
        · simp only [Bool.false_eq_true, if_false, InsertionMap.get?_set, heq, if_true, hnone]
          constructor
          · intro hstate
            rw [← Option.some.inj hstate] at hsettled
            exact absurd hsettled (by simp)
          · intro hstate
            exact absurd hstate (by simp)
        · simp [InsertionMap.get?_set, heq]
      simp only [facts, step, TenantWorkers.step, hremoving, noteRegistration]
      simp [TenantWorkers.unregister, hcall, TenantWorkers.registered]

theorem facts_registryRemoves (a : Audited) (t u : String) (call : ℕ) :
    (a.step (.registryRemoves u call)).facts t = a.facts t ∨
      (a.step (.registryRemoves u call)).facts t =
        ⟨false, a.service.tiers.get? t, true, a.latest t⟩ := by
  simp only [step, TenantWorkers.step, TenantWorkers.registryRemoves, noteRegistration]
  rcases hcall : a.service.calls.get? (u, call) with _ | ⟨existed, _ | _⟩
  · exact Or.inl rfl
  · by_cases htu : t = u
    · subst u
      right
      have hremoving : ({ a.service with
          registry := a.service.registry.delete (tenantQueueName t)
          calls := a.service.calls.set (t, call) ⟨existed, true⟩ } : TenantWorkers).removing t =
            true :=
        TenantWorkers.removing_iff.mpr ⟨call, ⟨existed, true⟩, by simp [InsertionMap.get?_set], rfl⟩
      simp [facts, hremoving, TenantWorkers.registered, InsertionMap.has_delete]
    · left
      have hremoving : ({ a.service with
          registry := a.service.registry.delete (tenantQueueName u)
          calls := a.service.calls.set (u, call) ⟨existed, true⟩ } : TenantWorkers).removing t =
            a.service.removing t :=
        TenantWorkers.removing_congr fun call' state _ ↦ by
          simp [InsertionMap.get?_set, htu]
      simp [facts, hremoving, TenantWorkers.registered, InsertionMap.has_delete,
        tenantQueueName_inj, htu]
  · exact Or.inl rfl

theorem facts_registryRejects (a : Audited) (t u : String) (call : ℕ) :
    (a.step (.registryRejects u call)).facts t = a.facts t := by
  simp only [step, TenantWorkers.step, TenantWorkers.registryRejects, noteRegistration]
  rcases hcall : a.service.calls.get? (u, call) with _ | ⟨existed, _ | _⟩
  · rfl
  · have hremoving : ({ a.service with
        calls := a.service.calls.delete (u, call) } : TenantWorkers).removing t =
          a.service.removing t := by
      apply TenantWorkers.removing_congr
      intro call' state hsettled
      by_cases heq : (t, call') = (u, call)
      · simp only [InsertionMap.get?_delete, heq, if_true, hcall, reduceCtorEq, false_iff,
          Option.some.injEq]
        rintro rfl
        exact absurd hsettled (by simp)
      · simp [InsertionMap.get?_delete, heq]
    simp [facts, hremoving, TenantWorkers.registered]
  · rfl

theorem facts_resume (a : Audited) (t u : String) (call : ℕ) :
    (a.step (.resume u call)).facts t = a.facts t ∨
      a.service.removing t = true ∧ ∃ removing,
        (a.step (.resume u call)).facts t =
          ⟨a.service.registered t, none, removing, a.latest t⟩ := by
  simp only [step, TenantWorkers.step, TenantWorkers.resume, noteRegistration]
  rcases hcall : a.service.calls.get? (u, call) with _ | ⟨existed, _ | _⟩
  · exact Or.inl rfl
  · exact Or.inl rfl
  · by_cases htu : t = u
    · subst u
      right
      refine ⟨TenantWorkers.removing_iff.mpr ⟨call, _, hcall, rfl⟩,
        ({ a.service with calls := a.service.calls.delete (t, call) } : TenantWorkers).removing t,
        ?_⟩
      simp [facts, TenantWorkers.registered, TenantWorkers.removing, InsertionMap.get?_delete]
    · left
      have hremoving : ({ a.service with
          tiers := a.service.tiers.delete u
          calls := a.service.calls.delete (u, call) } : TenantWorkers).removing t =
            a.service.removing t :=
        TenantWorkers.removing_congr fun call' state _ ↦ by
          simp [InsertionMap.get?_delete, htu]
      simp [facts, hremoving, TenantWorkers.registered, InsertionMap.get?_delete, htu]

theorem facts_step (a : Audited) (e : TenantEvent) (t : String) :
    (a.step e).facts t = a.facts t ∨
    (∃ tier, e = .register t tier ∧ a.service.registered t = false ∧
      (a.step e).facts t =
        ⟨true, some tier, a.service.removing t, some ⟨tier, a.service.removing t⟩⟩) ∨
    (a.step e).facts t = ⟨false, a.service.tiers.get? t, true, a.latest t⟩ ∨
    (a.service.removing t = true ∧ ∃ removing,
      (a.step e).facts t = ⟨a.service.registered t, none, removing, a.latest t⟩) := by
  cases e with
  | register u tier =>
      rcases a.facts_register t u tier with hsame | ⟨rfl, hfree, hnew⟩
      · exact Or.inl hsame
      · exact Or.inr (Or.inl ⟨tier, rfl, hfree, hnew⟩)
  | unregister u call => exact Or.inl (a.facts_unregister t u call)
  | registryRemoves u call =>
      rcases a.facts_registryRemoves t u call with hsame | hgone
      · exact Or.inl hsame
      · exact Or.inr (Or.inr (Or.inl hgone))
  | registryRejects u call => exact Or.inl (a.facts_registryRejects t u call)
  | resume u call =>
      rcases a.facts_resume t u call with hsame | hdropped
      · exact Or.inl hsame
      · exact Or.inr (Or.inr (Or.inr hdropped))
  | notify u message => exact Or.inl rfl
  | deliver u worker job now => exact Or.inl rfl

/-! ## What every run keeps -/

/-- Where the tier of a tenant stands: without a worker it is gone or about to
go, and behind a worker it is the tier of the latest registration, unless that
registration overlapped a removal. -/
structure TenantFacts.Tracked (f : TenantFacts) : Prop where
  unregistered : f.registered = false → f.tier = none ∨ f.removing = true
  kept : ∀ registration, f.latest = some registration → f.registered = true →
    registration.overlapped = false → f.tier = some registration.tier ∧ f.removing = false
  lost : ∀ registration, f.latest = some registration → f.registered = true →
    registration.overlapped = true → f.tier = none ∨ f.removing = true

def Tracked (a : Audited) : Prop := ∀ t, (a.facts t).Tracked

theorem tracked_start (registry : InsertionMap String Worker) : (start registry).Tracked :=
  fun _ ↦ ⟨fun _ ↦ Or.inl rfl, by simp [facts, start], by simp [facts, start]⟩

theorem Tracked.step {a : Audited} (h : a.Tracked) (e : TenantEvent) : (a.step e).Tracked := by
  intro t
  have hold := h t
  rcases a.facts_step e t with hsame | ⟨tier, -, -, hnew⟩ | hgone | ⟨hremoving, removing, hdropped⟩
  · rw [hsame]
    exact hold
  · rw [hnew]
    refine ⟨by simp, ?_, ?_⟩
    · rintro registration heq - hoverlapped
      obtain rfl := Option.some.inj heq
      exact ⟨rfl, hoverlapped⟩
    · rintro registration heq - hoverlapped
      obtain rfl := Option.some.inj heq
      exact Or.inr hoverlapped
  · rw [hgone]
    exact ⟨fun _ ↦ Or.inr rfl, by simp, by simp⟩
  · rw [hdropped]
    refine ⟨fun _ ↦ Or.inl rfl, ?_, fun _ _ _ _ ↦ Or.inl rfl⟩
    intro registration hlatest hregistered hoverlapped
    have hidle := (hold.kept registration hlatest hregistered hoverlapped).2
    exact absurd hremoving (by simpa [facts] using hidle)

theorem tracked_exec (registry : InsertionMap String Worker) (es : List TenantEvent) :
    (exec step (start registry) es).Tracked :=
  exec_invariant _ (fun _ e h ↦ h.step e) (tracked_start registry) es

def Clean (a : Audited) : Prop :=
  ∀ t registration, a.latest t = some registration → registration.overlapped = false

theorem Clean.step {a : Audited} (h : a.Clean) {e : TenantEvent} (he : a.NoOverlap e) :
    (a.step e).Clean := by
  intro t registration hlatest
  have hlatest' : ((a.step e).facts t).latest = some registration := hlatest
  rcases a.facts_step e t with hsame | ⟨tier, rfl, hfree, hnew⟩ | hgone | ⟨-, removing, hdropped⟩
  · rw [hsame] at hlatest'
    exact h t registration hlatest'
  · rw [hnew] at hlatest'
    obtain rfl := Option.some.inj hlatest'
    exact he hfree
  · rw [hgone] at hlatest'
    exact h t registration hlatest'
  · rw [hdropped] at hlatest'
    exact h t registration hlatest'

theorem clean_exec {registry : InsertionMap String Worker} {es : List TenantEvent}
    (h : AllSteps step NoOverlap (start registry) es) : (exec step (start registry) es).Clean :=
  exec_invariant_of_allSteps (fun _ _ hclean he ↦ hclean.step he)
    (by simp [Clean, start]) h

/-! ## The two stores between calls -/

theorem list_none_filter (s : TenantWorkers) (t : String) :
    (s.list none).filter (fun view ↦ view.tenantId = t) = s.list (some t) := rfl

/-- With no call in progress, the stores agree exactly when the latest
registration of every registered tenant overlapped no removal. -/
theorem Tracked.consistent_iff {a : Audited} (h : a.Tracked) (hquiet : a.service.Quiescent) :
    a.Consistent ↔ ∀ t registration, a.latest t = some registration →
      a.service.registered t = true → registration.overlapped = false := by
  have hidle := TenantWorkers.removing_of_quiescent hquiet
  have hlist : ∀ t, a.service.registered t = true →
      (a.service.list none).filter (fun view ↦ view.tenantId = t) =
        [⟨t, tenantQueueName t, a.service.tiers.get? t⟩] := by
    intro t hregistered
    have hhas : a.service.registry.has (tenantQueueName t) = true := hregistered
    rw [list_none_filter, TenantWorkers.list_some, if_pos hhas]
  constructor
  · rintro ⟨hlisted, -⟩ t registration hlatest hregistered
    by_contra hoverlapped
    have htier := hlisted t registration hlatest hregistered
    rw [hlist t hregistered] at htier
    rcases (h t).lost registration hlatest hregistered (by simpa using hoverlapped) with
      hnone | hremoving
    · have hnone' : a.service.tiers.get? t = none := hnone
      simp [hnone'] at htier
    · exact absurd (hidle t) (by simpa [facts] using hremoving)
  · intro hclean
    refine ⟨?_, ?_⟩
    · intro t registration hlatest hregistered
      have hkept := (h t).kept registration hlatest hregistered
        (hclean t registration hlatest hregistered)
      have htier : a.service.tiers.get? t = some registration.tier := hkept.1
      rw [hlist t hregistered, htier]
    · intro t htier
      by_contra hfree
      rcases (h t).unregistered (by simpa [facts] using hfree) with hnone | hremoving
      · have hnone' : a.service.tiers.get? t = none := hnone
        simp [InsertionMap.has, hnone'] at htier
      · exact absurd (hidle t) (by simpa [facts] using hremoving)

end Audited

/-- In a run whose registrations all come outside a removal of the same tenant,
the registry and the tier map agree whenever no call is in progress; and after
any run at all they agree then exactly when the latest registration of every
tenant that is still registered came outside one. -/
theorem registry_agrees_with_tiers (registry : InsertionMap String Worker)
    (es : List TenantEvent) :
    (AllSteps Audited.step Audited.NoOverlap (Audited.start registry) es →
      Throughout Audited.step (fun a ↦ a.service.Quiescent → a.Consistent)
        (Audited.start registry) es) ∧
    ((exec Audited.step (Audited.start registry) es).service.Quiescent →
      ((exec Audited.step (Audited.start registry) es).Consistent ↔
        ∀ t registration,
          (exec Audited.step (Audited.start registry) es).latest t = some registration →
          (exec Audited.step (Audited.start registry) es).service.registered t = true →
          registration.overlapped = false)) := by
  constructor
  · intro hgood pre hpre hquiet
    have hclean := Audited.clean_exec (hgood.of_prefix hpre)
    exact ((Audited.tracked_exec registry pre).consistent_iff hquiet).mpr
      fun t registration hlatest _ ↦ hclean t registration hlatest
  · intro hquiet
    exact (Audited.tracked_exec registry es).consistent_iff hquiet

theorem audited_service (registry : InsertionMap String Worker) (es : List TenantEvent) :
    (exec Audited.step (Audited.start registry) es).service =
      exec TenantWorkers.step (TenantWorkers.start registry) es := by
  have hrun : ∀ a : Audited,
      (exec Audited.step a es).service = exec TenantWorkers.step a.service es := by
    induction es with
    | nil => intro a; rfl
    | cons e es ih => intro a; exact ih (a.step e)
  exact hrun _

def removedThenRegistered : List TenantEvent :=
  [.register "acme" .premium, .unregister "acme" 0, .registryRemoves "acme" 0,
    .resume "acme" 0, .register "acme" .free]

theorem registry_agrees_with_tiers_sequential :
    (exec Audited.step (Audited.start .empty) removedThenRegistered).Consistent :=
  (registry_agrees_with_tiers .empty removedThenRegistered).1
    ⟨fun _ ↦ rfl, trivial, trivial, trivial, fun _ ↦ rfl, trivial⟩ _ List.prefix_rfl rfl

/-- The same calls with the free worker registered before the removal returns:
the tenant is listed without a tier. -/
def registeredWhileRemoving : List TenantEvent :=
  [.register "acme" .premium, .unregister "acme" 0, .registryRemoves "acme" 0,
    .register "acme" .free, .resume "acme" 0]

theorem registered_tenant_without_tier :
    ¬ ((exec Audited.step (Audited.start .empty) registeredWhileRemoving).service.Quiescent →
      (exec Audited.step (Audited.start .empty) registeredWhileRemoving).Consistent) := by
  intro hquiet
  have hconsistent := hquiet rfl
  have hlisted := hconsistent.1 "acme" ⟨.free, true⟩ rfl rfl
  exact absurd hlisted (by decide)

end NestQueueExample.Workers
