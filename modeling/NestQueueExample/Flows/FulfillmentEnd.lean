import NestQueueExample.Flows.Fulfillment
import NestQueueExample.Flows.TreeRead
import NestQueueExample.Foundations.FlowEndings

/-!
# Where fulfillment flows end

What each job of a flow has come to once no worker can move anything any more:
its status and the attempts it made, for every order and variant, with the tree
that the client then reads and whether it goes on polling. Flows come to such an
end whenever no execution is lost.
-/

namespace NestQueueExample.Flows

open JobFlows Queues Runs

/-! ## The end of a flow -/

def declines (orderId : String) : Bool := JsString.startsWith orderId ORDER_FAILURE_PREFIX

/-- Where the root of a flow ends when its payment has been declined. -/
def declinedStatus : FulfillmentVariant → Status
  | .default | .stuck => .waitingChildren
  | .failParent => .failedByChild
  | .ignoreDependency => .completed

/-- Where the job at a place of a flow ends. -/
def finalStatus (orderId : String) (variant : FulfillmentVariant) (path : List ℕ) : Status :=
  if declines orderId && path = [1] then .failed
  else if declines orderId && path = [] then declinedStatus variant
  else .completed

section Ending

variable (orderId : String) (variant : FulfillmentVariant)

theorem consistent_of_mem_flowNodes {path : List ℕ} {job : FlowJob FulfillmentNodeData}
    (h : (path, job) ∈ flowNodes orderId variant) : job.Consistent := by
  apply FlowJob.consistent_of_places
  intro rest below hsub hparent
  have hmem : (path ++ rest, below) ∈ flowNodes orderId variant := by
    rw [← sub?_buildFulfillmentFlow, FlowJob.sub?_append,
      (sub?_buildFulfillmentFlow orderId variant).mpr h]
    exact hsub
  obtain ⟨hpath, rfl⟩ := failParent_of_mem_flowNodes _ _ hmem hparent
  rw [opts_of_mem_flowNodes _ _ hmem, hpath]
  rfl

theorem ending_reserve (defaultAttempts : ℕ) :
    FlowJob.ending (workers defaultAttempts)
      { name := RESERVE_STOCK_JOB, queueName := STOCK_QUEUE, data := ⟨orderId⟩ } = .completed := by
  rw [FlowJob.ending_leaf _ rfl]
  rfl

theorem ending_fetchLines (defaultAttempts : ℕ) :
    FlowJob.ending (workers defaultAttempts)
      { name := FETCH_LINES_JOB, queueName := INVOICES_DATA_QUEUE, data := ⟨orderId⟩ } =
        .completed := by
  rw [FlowJob.ending_leaf _ rfl]
  rfl

theorem ending_fetchCustomer (defaultAttempts : ℕ) :
    FlowJob.ending (workers defaultAttempts)
      { name := FETCH_CUSTOMER_JOB, queueName := INVOICES_DATA_QUEUE, data := ⟨orderId⟩ } =
        .completed := by
  rw [FlowJob.ending_leaf _ rfl]
  rfl

theorem ending_payment (defaultAttempts : ℕ) :
    (buildPaymentChild orderId variant).ending (workers defaultAttempts) =
      if declines orderId then .failed else .completed := by
  have hthrows : (workers defaultAttempts).throws (buildPaymentChild orderId variant) =
      declines orderId := by
    rw [throws_of_mem_flowNodes _ _ (payment_mem_flowNodes orderId variant)]
    simp [declines]
  rw [FlowJob.ending_leaf _ (children_buildPaymentChild orderId variant), hthrows]

theorem ending_invoice (defaultAttempts : ℕ) :
    (buildInvoiceChild orderId).ending (workers defaultAttempts) = .completed := by
  have hfails : FlowJob.anyFailsParent (workers defaultAttempts)
      (buildInvoiceChild orderId).children = false := by
    simp [buildInvoiceChild, FlowJob.anyFailsParent]
  have hsettle : FlowJob.allSettle (workers defaultAttempts)
      (buildInvoiceChild orderId).children = true := by
    simp [buildInvoiceChild, FlowJob.allSettle, FlowJob.settles, ending_fetchLines,
      ending_fetchCustomer]
  rw [FlowJob.ending_eq, hfails, hsettle]
  rfl

theorem ending_root (defaultAttempts : ℕ) :
    (buildFulfillmentFlow orderId variant).ending (workers defaultAttempts) =
      finalStatus orderId variant [] := by
  have hthrows : (workers defaultAttempts).throws (buildFulfillmentFlow orderId variant) = false :=
    rfl
  have hopts : (buildPaymentChild orderId variant).opts = (paymentChildOpts variant).getD {} := by
    cases variant <;> rfl
  have hfails : FlowJob.anyFailsParent (workers defaultAttempts)
      (buildFulfillmentFlow orderId variant).children =
        (declines orderId && ((paymentChildOpts variant).getD {}).failParentOnFailure) := by
    cases hdeclines : declines orderId <;>
      simp [buildFulfillmentFlow, FlowJob.anyFailsParent, ending_reserve, ending_payment,
        ending_invoice, hopts, hdeclines, Status.isFailed]
  have hsettle : FlowJob.allSettle (workers defaultAttempts)
      (buildFulfillmentFlow orderId variant).children =
        (!declines orderId || ((paymentChildOpts variant).getD {}).ignoreDependencyOnFailure) := by
    cases hdeclines : declines orderId <;>
      simp [buildFulfillmentFlow, FlowJob.allSettle, FlowJob.settles, ending_reserve,
        ending_payment, ending_invoice, hopts, hdeclines, Status.isFailed]
  rw [FlowJob.ending_eq, hfails, hsettle, hthrows, finalStatus]
  cases declines orderId <;> cases variant <;> rfl

theorem ending_of_mem_flowNodes (defaultAttempts : ℕ) {path : List ℕ}
    {job : FlowJob FulfillmentNodeData} (h : (path, job) ∈ flowNodes orderId variant) :
    job.ending (workers defaultAttempts) = finalStatus orderId variant path := by
  simp only [flowNodes, List.mem_cons, Prod.mk.injEq, List.not_mem_nil, or_false] at h
  rcases h with ⟨rfl, rfl⟩ | ⟨rfl, rfl⟩ | ⟨rfl, rfl⟩ | ⟨rfl, rfl⟩ | ⟨rfl, rfl⟩ | ⟨rfl, rfl⟩
  · exact ending_root orderId variant defaultAttempts
  · simp [ending_reserve, finalStatus]
  · simp [ending_payment, finalStatus]
  · simp [ending_invoice, finalStatus]
  · simp [ending_fetchLines, finalStatus]
  · simp [ending_fetchCustomer, finalStatus]

end Ending

/-- The attempts of a payment that is declined. -/
def declinedAttempts (defaultAttempts : ℕ) : FulfillmentVariant → ℕ
  | .default => max 1 defaultAttempts
  | .stuck | .failParent | .ignoreDependency => DEMO_FAILURE_ATTEMPTS

def finalState (defaultAttempts : ℕ) (orderId : String) (variant : FulfillmentVariant)
    (path : List ℕ) : JobState where
  status := finalStatus orderId variant path
  attemptsMade :=
    match finalStatus orderId variant path with
    | .completed => 1
    | .failed => declinedAttempts defaultAttempts variant
    | _ => 0

theorem limit_of_mem_flowNodes (defaultAttempts : ℕ) {orderId : String}
    {variant : FulfillmentVariant} {path : List ℕ} {job : FlowJob FulfillmentNodeData}
    (h : (path, job) ∈ flowNodes orderId variant) :
    (workers defaultAttempts).limit job =
      if declines orderId && path = [1] then declinedAttempts defaultAttempts variant else 1 := by
  have hthrows : (workers defaultAttempts).throws job = (path = [1] && declines orderId) :=
    throws_of_mem_flowNodes _ _ h
  rw [Workers.limit, hthrows, opts_of_mem_flowNodes _ _ h]
  by_cases hpath : path = [1]
  · cases declines orderId
    · simp
    · cases variant <;>
        simp [hpath, paymentChildOpts, declinedAttempts, workers, DEMO_FAILURE_ATTEMPTS]
  · simp [hpath]

section Halted

variable {defaultAttempts : ℕ} {s : JobQueues FulfillmentNodeData} {flow : ℕ}
  {orderId : String} {variant : FulfillmentVariant}

/-- Every job of a flow in which nothing can move is in its final state. -/
theorem jobs_of_halted (hvalid : s.Valid (workers defaultAttempts))
    (htallied : s.Tallied (workers defaultAttempts)) (hhalted : s.Halted (workers defaultAttempts))
    (hflow : s.flows[flow]? = some (buildFulfillmentFlow orderId variant)) {path : List ℕ}
    {job : FlowJob FulfillmentNodeData} (hmem : (path, job) ∈ flowNodes orderId variant) :
    s.jobs ⟨flow, path⟩ = finalState defaultAttempts orderId variant path := by
  have hnode := (node?_flow hflow).mpr hmem
  have hstatus : s.status ⟨flow, path⟩ = finalStatus orderId variant path := by
    rw [JobQueues.status_eq_ending (consistent_of_mem_flowNodes _ _ hmem) hvalid hhalted hnode,
      ending_of_mem_flowNodes _ _ _ hmem]
  have htally := htallied _ job hnode
  rw [JobQueues.status] at hstatus
  rw [Workers.Tally, hstatus, limit_of_mem_flowNodes _ hmem] at htally
  generalize s.jobs ⟨flow, path⟩ = state at hstatus htally ⊢
  obtain ⟨status, made⟩ := state
  obtain rfl : status = finalStatus orderId variant path := hstatus
  rw [finalState]
  by_cases hpayment : (declines orderId && path = [1]) = true
  · rw [show finalStatus orderId variant path = .failed from if_pos hpayment] at htally ⊢
    rw [if_pos hpayment] at htally
    exact congrArg _ htally
  · rw [if_neg hpayment] at htally
    by_cases hroot : (declines orderId && path = []) = true
    · rw [finalStatus, if_neg hpayment, if_pos hroot] at htally ⊢
      cases variant <;> exact congrArg _ htally
    · rw [finalStatus, if_neg hpayment, if_neg hroot] at htally ⊢
      exact congrArg _ htally

end Halted

/-! ## What the client reads -/

/-- The name under which the queue reports a status. -/
def getState : Status → String
  | .waitingChildren => "waiting-children"
  | .waiting => "waiting"
  | .delayed => "delayed"
  | .active => "active"
  | .completed => "completed"
  | .failed | .failedByChild => "failed"

theorem isTerminal_getState (status : Status) :
    isTerminal (getState status) = status.isTerminal := by
  cases status <;> decide

/-- The tree that the producer returns for a flow: the root, over jobs of the
flow in any order. -/
structure Lists (node : JobNode JobRef) (flow : ℕ) (orderId : String)
    (variant : FulfillmentVariant) : Prop where
  root : node.job.key = ⟨flow, []⟩
  jobs : ∀ place below, node.at? place = some below → ∃ path job,
    below.job.key = ⟨flow, path⟩ ∧ (path, job) ∈ flowNodes orderId variant

/-- `readTree`, where no job moves between its lookups. -/
def readTree (s : JobQueues FulfillmentNodeData) (node : JobNode JobRef) : Option FlowTreeNode :=
  projectNode (fun place ↦ (node.at? place).map fun below ↦ getState (s.status below.job.key))
    node []

mutual

theorem projectNode_isSome {κ : Type*} {answers : List ℕ → Option String} :
    ∀ (node : JobNode κ) (place : List ℕ),
      (∀ rest, (node.at? rest).isSome = true → (answers (place ++ rest)).isSome = true) →
      (projectNode answers node place).isSome = true
  | ⟨job, none⟩, place, h => by
      simpa [projectNode] using h [] rfl
  | ⟨job, some nodes⟩, place, h => by
      obtain ⟨status, hstatus⟩ := Option.isSome_iff_exists.mp (h [] rfl)
      have hnodes : (projectNodes answers nodes place 0).isSome = true := by
        apply projectNodes_isSome
        intro i node rest hnode hrest
        rw [Nat.zero_add]
        exact h (i :: rest) (by simpa [JobNode.at?, hnode] using hrest)
      rw [List.append_nil] at hstatus
      simpa [projectNode, hstatus] using hnodes

theorem projectNodes_isSome {κ : Type*} {answers : List ℕ → Option String} :
    ∀ (nodes : List (JobNode κ)) (place : List ℕ) (k : ℕ),
      (∀ (i : ℕ) (node : JobNode κ) rest, nodes[i]? = some node →
        (node.at? rest).isSome = true → (answers (place ++ (k + i) :: rest)).isSome = true) →
      (projectNodes answers nodes place k).isSome = true
  | [], _, _, _ => rfl
  | node :: nodes, place, k, h => by
      have hnode := projectNode_isSome node (place ++ [k]) fun rest hrest ↦ by
        simpa using h 0 node rest rfl hrest
      have hnodes := projectNodes_isSome nodes place (k + 1) fun i next rest hnext hrest ↦ by
        rw [show k + 1 + i = k + (i + 1) by omega]
        exact h (i + 1) next rest (by simpa using hnext) hrest
      obtain ⟨child, hchild⟩ := Option.isSome_iff_exists.mp hnode
      simpa [projectNodes, hchild] using hnodes

end

theorem readTree_spec (s : JobQueues FulfillmentNodeData) (node : JobNode JobRef) :
    ∃ tree, readTree s node = some tree ∧ tree.status = getState (s.status node.job.key) ∧
      (isTreeFinal tree = true ↔ ∀ place below, node.at? place = some below →
        (s.status below.job.key).isTerminal = true) := by
  have hread : (readTree s node).isSome = true :=
    projectNode_isSome node [] fun rest hrest ↦ by simpa using hrest
  obtain ⟨tree, htree⟩ := Option.isSome_iff_exists.mp hread
  have hroot := (at?_projectNode htree []).2 tree rfl
  refine ⟨tree, htree, ?_, ?_⟩
  · simpa [JobNode.at?, eq_comm] using hroot
  rw [isTreeFinal_iff]
  constructor
  · intro hall place below hbelow
    obtain ⟨hlabel, hanswers⟩ := at?_projectNode htree place
    rw [hbelow, Option.map_some] at hlabel
    obtain ⟨sub, hsub, -⟩ := Option.map_eq_some_iff.mp hlabel
    have hstatus : getState (s.status below.job.key) = sub.status := by
      simpa [hbelow] using hanswers sub hsub
    rw [← isTerminal_getState, hstatus]
    exact hall place sub hsub
  · intro hall place sub hsub
    obtain ⟨below, hbelow, hstatus⟩ :=
      Option.map_eq_some_iff.mp ((at?_projectNode htree place).2 sub hsub)
    rw [← hstatus, isTerminal_getState]
    exact hall place below (by simpa using hbelow)

/-! ## The end of every run -/

theorem fulfill_eq_exec (defaultAttempts : ℕ) (es : List FulfillmentEvent) :
    fulfill defaultAttempts es =
      exec (JobQueues.step (workers defaultAttempts)) {} (es.map FulfillmentEvent.toFlowEvent) := by
  simp [fulfill, exec, List.foldl_map]

theorem tallied_fulfill (defaultAttempts : ℕ) (es : List FulfillmentEvent) :
    (fulfill defaultAttempts es).Tallied (workers defaultAttempts) := by
  rw [fulfill_eq_exec]
  apply JobQueues.tallied_exec

theorem isTerminal_finalStatus (orderId : String) (variant : FulfillmentVariant)
    (path : List ℕ) : (finalStatus orderId variant path).isTerminal =
      !(declines orderId && path = [] && (variant = .default || variant = .stuck)) := by
  rw [finalStatus]
  by_cases hpath : path = []
  · cases declines orderId <;> cases variant <;> simp [hpath, declinedStatus, Status.isTerminal]
  · split
    · simp [hpath, Status.isTerminal]
    · simp [hpath, Status.isTerminal]

/-- Once nothing can move any more, every job of every flow is in its final
state, and the client that reads the tree goes on polling only where a declined
payment holds the root back. -/
theorem fulfillment_flow_ends (defaultAttempts : ℕ) (es : List FulfillmentEvent) (flow : ℕ)
    (orderId : String) (variant : FulfillmentVariant)
    (hflow : (fulfill defaultAttempts es).flows[flow]? =
      some (buildFulfillmentFlow orderId variant))
    (hhalted : (fulfill defaultAttempts es).Halted (workers defaultAttempts)) :
    (∀ path job, (path, job) ∈ flowNodes orderId variant →
      (fulfill defaultAttempts es).jobs ⟨flow, path⟩ =
        finalState defaultAttempts orderId variant path) ∧
    ∀ node, Lists node flow orderId variant → ∃ tree,
      readTree (fulfill defaultAttempts es) node = some tree ∧
      tree.status = getState (finalStatus orderId variant []) ∧
      (refetchInterval (some tree) = none ↔
        ¬ (declines orderId = true ∧ (variant = .default ∨ variant = .stuck))) := by
  have hvalid := valid_fulfill defaultAttempts es
  have htallied := tallied_fulfill defaultAttempts es
  generalize fulfill defaultAttempts es = s at hflow hhalted hvalid htallied ⊢
  have hstatus : ∀ path job, (path, job) ∈ flowNodes orderId variant →
      s.status ⟨flow, path⟩ = finalStatus orderId variant path := by
    intro path job hmem
    rw [JobQueues.status, jobs_of_halted hvalid htallied hhalted hflow hmem]
    rfl
  refine ⟨fun path job hmem ↦ jobs_of_halted hvalid htallied hhalted hflow hmem, ?_⟩
  intro node hlists
  obtain ⟨tree, htree, hroot, hfinal⟩ := readTree_spec s node
  have hrootStatus := hstatus [] _ (root_mem_flowNodes orderId variant)
  refine ⟨tree, htree, by rw [hroot, hlists.root, hrootStatus], ?_⟩
  have hstops : refetchInterval (some tree) = none ↔ isTreeFinal tree = true := by
    simp [refetchInterval]
  rw [hstops, hfinal]
  constructor
  · intro hall
    have hterminal := hall [] node rfl
    rw [hlists.root, hrootStatus, isTerminal_finalStatus] at hterminal
    cases hdeclines : declines orderId with
    | false => simp
    | true => simpa [hdeclines] using hterminal
  · intro hends place below hbelow
    obtain ⟨path, job, hkey, hmem⟩ := hlists.jobs place below hbelow
    rw [hkey, hstatus path job hmem, isTerminal_finalStatus]
    cases hdeclines : declines orderId with
    | false => simp
    | true =>
        have hvariant : variant ≠ .default ∧ variant ≠ .stuck := by
          simpa [hdeclines] using hends
        simp [hvariant.1, hvariant.2]

theorem halted_of_allTerminal {defaultAttempts : ℕ} {es : List FulfillmentEvent}
    (h : ((fulfill defaultAttempts es).nodes.all fun node ↦
      ((fulfill defaultAttempts es).status node.1).isTerminal) = true) :
    (fulfill defaultAttempts es).Halted (workers defaultAttempts) := by
  apply JobQueues.halted_of_terminal
  intro r job hnode
  exact List.all_eq_true.mp h (r, job) (JobQueues.mem_nodes_iff.mpr hnode)

theorem fulfillment_flow_ends_shipped :
    (fulfill 4 shippedRun).jobs ⟨0, [1]⟩ = ⟨.completed, 1⟩ :=
  (fulfillment_flow_ends 4 shippedRun 0 "o1" .default rfl
    (halted_of_allTerminal (by decide +kernel))).1 [1] _
    (payment_mem_flowNodes "o1" .default)

/-- A bound on the moves that are left, for each flow that was launched. -/
def movesPerFlow (defaultAttempts : ℕ) : ℕ := 21 + 3 * max 1 defaultAttempts

theorem places_buildFulfillmentFlow (orderId : String) (variant : FulfillmentVariant) :
    (buildFulfillmentFlow orderId variant).places [] = flowNodes orderId variant := by
  cases variant <;> rfl

theorem work_fulfill_le (defaultAttempts : ℕ) (es : List FulfillmentEvent) :
    (fulfill defaultAttempts es).work (workers defaultAttempts) ≤
      (fulfill defaultAttempts es).flows.length * movesPerFlow defaultAttempts := by
  apply JobQueues.work_le
  intro tree hmem
  obtain ⟨orderId, variant, rfl⟩ := allBuilt_fulfill defaultAttempts es tree hmem
  rw [places_buildFulfillmentFlow]
  have hlimit : ∀ path job, (path, job) ∈ flowNodes orderId variant →
      (workers defaultAttempts).limit job ≤ if path = [1] then max 1 defaultAttempts else 1 := by
    intro path job hmem
    rw [limit_of_mem_flowNodes _ hmem]
    by_cases hpath : path = [1]
    · cases declines orderId <;> cases variant <;>
        simp [hpath, declinedAttempts, DEMO_FAILURE_ATTEMPTS]
    · simp [hpath]
  have hsum : ((flowNodes orderId variant).map fun node ↦
      3 * (if node.1 = [1] then max 1 defaultAttempts else 1) + 1).sum =
        movesPerFlow defaultAttempts := by
    simp [flowNodes, movesPerFlow]
    omega
  rw [← hsum]
  apply List.sum_le_sum
  rintro ⟨path, job⟩ hmem
  exact Nat.add_le_add_right (Nat.mul_le_mul_left 3 (hlimit path job hmem)) 1

/-- Flows end: however a run went so far, workers that lose no execution can
bring it to a state in which nothing moves, and they cannot go on for longer
than a bound that grows with the number of flows. -/
theorem fulfillment_flows_end (defaultAttempts : ℕ) (es : List FulfillmentEvent) :
    (∃ ms : List JobQueues.Move, (∀ m ∈ ms, m.2.keeps = true) ∧
      (fulfill defaultAttempts (es ++ ms.map fun m ↦ .job m.1 m.2)).Halted
        (workers defaultAttempts)) ∧
    ∀ ms : List JobQueues.Move,
      AllSteps (JobQueues.move (workers defaultAttempts))
        (fun s m ↦ m.2.keeps = true ∧ s.move (workers defaultAttempts) m ≠ s)
        (fulfill defaultAttempts es) ms →
      ms.length ≤ (fulfill defaultAttempts es).flows.length * movesPerFlow defaultAttempts := by
  have htallied := tallied_fulfill defaultAttempts es
  constructor
  · obtain ⟨ms, hkeeps, -, hhalted⟩ := JobQueues.exists_halted htallied
    refine ⟨ms, hkeeps, ?_⟩
    rw [fulfill, exec_append, ← fulfill, exec, List.foldl_map]
    exact hhalted
  · intro ms hms
    have hlength := JobQueues.length_le_work htallied hms
    have hwork := work_fulfill_le defaultAttempts es
    omega

end NestQueueExample.Flows
