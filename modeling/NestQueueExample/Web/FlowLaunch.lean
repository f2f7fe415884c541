import NestQueueExample.Flows.FulfillmentEnd

/-!
# Launching flows from the dashboard

The page warns when the chosen variant would not show its failure, since the
order lacks the prefix that the payment fails for. What it says is compared
with the ends of the flows that its two buttons launch.
-/

namespace NestQueueExample.Web

open Flows JobFlows Runs

def BULK_DEMO_ORDER_COUNT : ℕ := 3

def needsPrefix (orderId : String) (variant : FulfillmentVariant) : Bool :=
  (variant = .failParent || variant = .ignoreDependency || variant = .stuck) &&
    !JsString.startsWith orderId ORDER_FAILURE_PREFIX

/-- The orders of the bulk button. -/
def bulkOrderIds (orderId : String) : List String :=
  (List.range BULK_DEMO_ORDER_COUNT).map fun index ↦ orderId ++ "-" ++ toString (index + 1)

/-- Every job of a flow has completed. -/
def AllCompleted (s : JobQueues FulfillmentNodeData) (flow : ℕ) (orderId : String)
    (variant : FulfillmentVariant) : Prop :=
  ∀ path job, (path, job) ∈ flowNodes orderId variant → s.status ⟨flow, path⟩ = .completed

/-! ## The orders of the bulk button -/

theorem append_singleton_prefix_iff {α : Type*} {c : α} {p l t : List α} (h : c ∉ p) :
    p ++ [c] <+: l ++ c :: t ↔ p ++ [c] <+: l ∨ l = p := by
  induction p generalizing l with
  | nil =>
      cases l with
      | nil => simp
      | cons a l => simp
  | cons a p ih =>
      have hne : a ≠ c := fun heq ↦ h (heq ▸ List.mem_cons_self)
      cases l with
      | nil => simp [List.cons_prefix_cons, hne]
      | cons b l =>
          have hrest := ih (l := l) fun hmem ↦ h (List.mem_cons_of_mem _ hmem)
          simp only [List.cons_append, List.cons_prefix_cons, hrest, List.cons.injEq]
          constructor
          · rintro ⟨rfl, hprefix | rfl⟩
            · exact Or.inl ⟨rfl, hprefix⟩
            · exact Or.inr ⟨rfl, rfl⟩
          · rintro (⟨rfl, hprefix⟩ | ⟨rfl, rfl⟩)
            · exact ⟨rfl, Or.inl hprefix⟩
            · exact ⟨rfl, Or.inr rfl⟩

theorem declines_suffixed (orderId suffix : String) :
    declines (orderId ++ "-" ++ suffix) = true ↔ declines orderId = true ∨ orderId = "fail" := by
  have hprefix : ORDER_FAILURE_PREFIX.toList = "fail".toList ++ ['-'] := rfl
  have hdash : '-' ∉ "fail".toList := by decide
  have htext : (orderId ++ "-" ++ suffix).toList = orderId.toList ++ '-' :: suffix.toList := by
    simp
  simp only [declines, JsString.startsWith, List.isPrefixOf_iff_prefix, hprefix, htext,
    append_singleton_prefix_iff hdash, String.toList_inj]

/-! ## What the page says -/

section Launched

variable (defaultAttempts : ℕ)

theorem flows_prefix (es fs : List FulfillmentEvent) :
    (fulfill defaultAttempts es).flows <+: (fulfill defaultAttempts (es ++ fs)).flows := by
  have hrun : fulfill defaultAttempts (es ++ fs) =
      exec (fun s e ↦ s.step (workers defaultAttempts) e.toFlowEvent)
        (fulfill defaultAttempts es) fs := exec_append ..
  rw [hrun]
  generalize fulfill defaultAttempts es = s
  have hkept : ∀ (t : JobQueues FulfillmentNodeData) e, s.flows <+: t.flows →
      s.flows <+: (t.step (workers defaultAttempts) (FulfillmentEvent.toFlowEvent e)).flows := by
    intro t e h
    cases e with
    | run orderId variant => exact h.trans (List.prefix_append _ _)
    | runBulk orderIds variant => exact h.trans (List.prefix_append _ _)
    | job r action =>
        rw [FulfillmentEvent.toFlowEvent, JobQueues.flows_job]
        exact h
  exact exec_invariant (I := fun t : JobQueues FulfillmentNodeData ↦ s.flows <+: t.flows) _ hkept
    List.prefix_rfl fs

theorem flow_of_launch {es fs : List FulfillmentEvent} {e : FulfillmentEvent}
    {trees : List (FlowJob FulfillmentNodeData)} (he : e.toFlowEvent = .launch trees) {i : ℕ}
    {tree : FlowJob FulfillmentNodeData} (htree : trees[i]? = some tree) :
    (fulfill defaultAttempts
      (es ++ e :: fs)).flows[(fulfill defaultAttempts es).flows.length + i]? = some tree := by
  have hlaunched : (fulfill defaultAttempts (es ++ [e])).flows =
      (fulfill defaultAttempts es).flows ++ trees := by
    simp [fulfill, he, JobQueues.step, JobQueues.launch]
  have hprefix := flows_prefix defaultAttempts (es ++ [e]) fs
  rw [List.append_assoc, List.singleton_append, hlaunched] at hprefix
  obtain ⟨rest, hrest⟩ := hprefix
  rw [← hrest, List.append_assoc, List.getElem?_append_right (by omega), Nat.add_sub_cancel_left]
  have hlt := (List.getElem?_eq_some_iff.mp htree).1
  rw [List.getElem?_append_left hlt, htree]

/-- In the final state of a flow all jobs have completed exactly if the payment
is not declined. -/
theorem allCompleted_iff {es : List FulfillmentEvent} {flow : ℕ} {orderId : String}
    {variant : FulfillmentVariant}
    (hflow : (fulfill defaultAttempts es).flows[flow]? =
      some (buildFulfillmentFlow orderId variant))
    (hhalted : (fulfill defaultAttempts es).Halted (workers defaultAttempts)) :
    AllCompleted (fulfill defaultAttempts es) flow orderId variant ↔ declines orderId = false := by
  have hstatus : ∀ path job, (path, job) ∈ flowNodes orderId variant →
      (fulfill defaultAttempts es).status ⟨flow, path⟩ = finalStatus orderId variant path := by
    intro path job hmem
    rw [JobQueues.status, jobs_of_halted (valid_fulfill _ es) (tallied_fulfill _ es) hhalted
      hflow hmem]
    rfl
  constructor
  · intro hall
    have hpayment := hall [1] _ (payment_mem_flowNodes orderId variant)
    rw [hstatus [1] _ (payment_mem_flowNodes orderId variant), finalStatus] at hpayment
    cases hdeclines : declines orderId with
    | false => rfl
    | true => simp [hdeclines] at hpayment
  · intro hdeclines path job hmem
    rw [hstatus path job hmem, finalStatus, hdeclines]
    rfl

end Launched

theorem needsPrefix_iff {orderId : String} {variant : FulfillmentVariant}
    (hvariant : variant ≠ .default) :
    needsPrefix orderId variant = true ↔ declines orderId = false := by
  cases variant <;> simp_all [needsPrefix, declines]

/-- For a variant that is to show a failure, the page warns exactly if the
launched flow would end with all jobs completed; for the flows of the bulk
button it does so unless the order is `fail`. -/
theorem launch_warning_exact (defaultAttempts : ℕ) (es fs : List FulfillmentEvent)
    (orderId : String) (variant : FulfillmentVariant) (hvariant : variant ≠ .default) :
    ((fulfill defaultAttempts (es ++ .run orderId variant :: fs)).Halted
        (workers defaultAttempts) →
      (needsPrefix orderId variant = true ↔
        AllCompleted (fulfill defaultAttempts (es ++ .run orderId variant :: fs))
          (fulfill defaultAttempts es).flows.length orderId variant)) ∧
    ((fulfill defaultAttempts (es ++ .runBulk (bulkOrderIds orderId) variant :: fs)).Halted
        (workers defaultAttempts) →
      ∀ i id, (bulkOrderIds orderId)[i]? = some id →
        ((needsPrefix orderId variant = true ↔
          AllCompleted (fulfill defaultAttempts
            (es ++ .runBulk (bulkOrderIds orderId) variant :: fs))
            ((fulfill defaultAttempts es).flows.length + i) id variant) ↔ orderId ≠ "fail")) := by
  rw [needsPrefix_iff hvariant]
  constructor
  · intro hhalted
    have hflow : (fulfill defaultAttempts (es ++ .run orderId variant :: fs)).flows[
        (fulfill defaultAttempts es).flows.length]? = some (buildFulfillmentFlow orderId variant) :=
      flow_of_launch defaultAttempts rfl (i := 0) rfl
    rw [allCompleted_iff defaultAttempts hflow hhalted]
  · intro hhalted i id hid
    have htree : ((bulkOrderIds orderId).map fun id ↦ buildFulfillmentFlow id variant)[i]? =
        some (buildFulfillmentFlow id variant) := by simp [hid]
    rw [allCompleted_iff defaultAttempts (flow_of_launch defaultAttempts rfl htree) hhalted]
    obtain ⟨index, -, rfl⟩ := List.mem_map.mp (List.mem_of_getElem? hid)
    have hsuffixed := declines_suffixed orderId (toString (index + 1))
    by_cases hfail : orderId = "fail"
    · subst hfail
      have hdeclines : declines ("fail" ++ "-" ++ toString (index + 1)) = true :=
        hsuffixed.mpr (Or.inr rfl)
      have hnone : declines "fail" = false := by decide +kernel
      rw [hdeclines, hnone]
      decide
    · have hsame : declines (orderId ++ "-" ++ toString (index + 1)) = declines orderId := by
        rw [Bool.eq_iff_iff, hsuffixed]
        simp [hfail]
      rw [hsame]
      simp [hfail]

def stuckShippedRun : List FulfillmentEvent := .run "o1" .stuck :: shippedRun.tail

theorem launch_warning_exact_stuck : AllCompleted (fulfill 4 stuckShippedRun) 0 "o1" .stuck :=
  ((launch_warning_exact 4 [] shippedRun.tail "o1" .stuck (by decide)).1
    (halted_of_allTerminal (by decide +kernel))).mp (by decide +kernel)

end NestQueueExample.Web
