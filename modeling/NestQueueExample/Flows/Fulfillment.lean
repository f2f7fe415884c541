import NestQueueExample.Common.BoundedRingBuffer
import NestQueueExample.Foundations.JobFlows
import NestQueueExample.Foundations.JsValue
import NestQueueExample.Queues.Names

/-!
# Fulfillment flows

The tree of six jobs that an order launches, the processors of its nodes, and
any number of such flows run by any workers. The order of the trace, the
failures that reach the root and the flows that end by shipping are read off
the semantics of dependent jobs.
-/

namespace NestQueueExample.Flows

open Common JobFlows Queues Runs

/-! ## The tree -/

def ORDER_FAILURE_PREFIX : String := "fail-"

def SHIP_ORDER_JOB : String := "ship-order"
def RESERVE_STOCK_JOB : String := "reserve-stock"
def CHARGE_PAYMENT_JOB : String := "charge-payment"
def RENDER_INVOICE_JOB : String := "render-invoice"
def FETCH_LINES_JOB : String := "fetch-lines"
def FETCH_CUSTOMER_JOB : String := "fetch-customer"

def DEMO_FAILURE_ATTEMPTS : ℕ := 1

structure FulfillmentNodeData where
  orderId : String

inductive FulfillmentVariant where
  | default
  | stuck
  | failParent
  | ignoreDependency
  deriving DecidableEq

def paymentChildOpts : FulfillmentVariant → Option JobOpts
  | .default => none
  | .stuck => some { attempts := some DEMO_FAILURE_ATTEMPTS }
  | .failParent =>
      some { attempts := some DEMO_FAILURE_ATTEMPTS, failParentOnFailure := true }
  | .ignoreDependency =>
      some { attempts := some DEMO_FAILURE_ATTEMPTS, ignoreDependencyOnFailure := true }

def buildPaymentChild (orderId : String) (variant : FulfillmentVariant) :
    FlowJob FulfillmentNodeData :=
  let base : FlowJob FulfillmentNodeData :=
    { name := CHARGE_PAYMENT_JOB, queueName := PAYMENTS_QUEUE, data := ⟨orderId⟩ }
  match paymentChildOpts variant with
  | some opts => { base with opts }
  | none => base

def buildInvoiceChild (orderId : String) : FlowJob FulfillmentNodeData :=
  let data : FulfillmentNodeData := ⟨orderId⟩
  { name := RENDER_INVOICE_JOB
    queueName := FULFILLMENT_QUEUE
    data
    children :=
      [{ name := FETCH_LINES_JOB, queueName := INVOICES_DATA_QUEUE, data },
        { name := FETCH_CUSTOMER_JOB, queueName := INVOICES_DATA_QUEUE, data }] }

def buildFulfillmentFlow (orderId : String) (variant : FulfillmentVariant := .default) :
    FlowJob FulfillmentNodeData :=
  let data : FulfillmentNodeData := ⟨orderId⟩
  { name := SHIP_ORDER_JOB
    queueName := FULFILLMENT_QUEUE
    data
    children :=
      [{ name := RESERVE_STOCK_JOB, queueName := STOCK_QUEUE, data },
        buildPaymentChild orderId variant, buildInvoiceChild orderId] }

/-! ## The processors -/

structure FulfillmentNodeResult where
  node : String

/-- What a handler does: the nodes it records on the trace, and whether it
returns or throws. -/
structure Handled where
  recorded : List String
  result : Except String FulfillmentNodeResult

def recordNode (job : FlowJob FulfillmentNodeData) : Handled := ⟨[job.name], .ok ⟨job.name⟩⟩

def FulfillmentProcessor.ship : FlowJob FulfillmentNodeData → Handled := recordNode
def FulfillmentProcessor.renderInvoice : FlowJob FulfillmentNodeData → Handled := recordNode
def StockProcessor.reserve : FlowJob FulfillmentNodeData → Handled := recordNode
def InvoicesDataProcessor.fetchLines : FlowJob FulfillmentNodeData → Handled := recordNode
def InvoicesDataProcessor.fetchCustomer : FlowJob FulfillmentNodeData → Handled := recordNode

/-- The payment handler records before it throws. -/
def PaymentsProcessor.charge (job : FlowJob FulfillmentNodeData) : Handled where
  recorded := [job.name]
  result :=
    if JsString.startsWith job.data.orderId ORDER_FAILURE_PREFIX then
      .error "payment declined (injected failure)"
    else .ok ⟨job.name⟩

/-- The handler registered for the queue and name of a job; a job without one
fails. -/
def process (job : FlowJob FulfillmentNodeData) : Handled :=
  if job.queueName = FULFILLMENT_QUEUE ∧ job.name = SHIP_ORDER_JOB then
    FulfillmentProcessor.ship job
  else if job.queueName = FULFILLMENT_QUEUE ∧ job.name = RENDER_INVOICE_JOB then
    FulfillmentProcessor.renderInvoice job
  else if job.queueName = STOCK_QUEUE ∧ job.name = RESERVE_STOCK_JOB then
    StockProcessor.reserve job
  else if job.queueName = PAYMENTS_QUEUE ∧ job.name = CHARGE_PAYMENT_JOB then
    PaymentsProcessor.charge job
  else if job.queueName = INVOICES_DATA_QUEUE ∧ job.name = FETCH_LINES_JOB then
    InvoicesDataProcessor.fetchLines job
  else if job.queueName = INVOICES_DATA_QUEUE ∧ job.name = FETCH_CUSTOMER_JOB then
    InvoicesDataProcessor.fetchCustomer job
  else ⟨[], .error "no handler"⟩

/-- The workers of the application; the attempts of a job without options are
left open. -/
def workers (defaultAttempts : ℕ) : Workers FulfillmentNodeData where
  defaultAttempts
  throws := fun job ↦ !(process job).result.isOk

/-! ## Runs -/

inductive FulfillmentEvent where
  | run (orderId : String) (variant : FulfillmentVariant)
  | runBulk (orderIds : List String) (variant : FulfillmentVariant)
  | job (ref : JobRef) (action : JobAction)

def FulfillmentEvent.toFlowEvent : FulfillmentEvent → FlowEvent FulfillmentNodeData
  | .run orderId variant => .launch [buildFulfillmentFlow orderId variant]
  | .runBulk orderIds variant => .launch (orderIds.map fun id ↦ buildFulfillmentFlow id variant)
  | .job ref action => .job ref action

/-- The orders that the event launches a flow for, each with the variant. -/
def FulfillmentEvent.launched : FulfillmentEvent → List (String × FulfillmentVariant)
  | .run orderId variant => [(orderId, variant)]
  | .runBulk orderIds variant => orderIds.map fun id ↦ (id, variant)
  | .job _ _ => []

def fulfill (defaultAttempts : ℕ) (es : List FulfillmentEvent) :
    JobQueues FulfillmentNodeData :=
  exec (fun s e ↦ s.step (workers defaultAttempts) e.toFlowEvent) {} es

def TRACE_CAPACITY : ℕ := 500

instance : NeZero TRACE_CAPACITY := ⟨by decide⟩

structure FlowTraceEntry where
  node : String
  recordedAt : ℕ

/-- A call of `FlowTrace.record`, with the flow whose job made it. -/
structure RecordCall where
  flow : ℕ
  entry : FlowTraceEntry

def recordCalls (s : JobQueues FulfillmentNodeData) : List RecordCall :=
  s.log.flatMap fun x ↦
    ((s.node? x.job).elim [] fun job ↦ (process job).recorded).map fun node ↦
      ⟨x.job.flow, ⟨node, x.now⟩⟩

def listTrace (s : JobQueues FulfillmentNodeData) : List FlowTraceEntry :=
  (((recordCalls s).map RecordCall.entry).foldl Trail.push
    (Trail.empty : Trail FlowTraceEntry TRACE_CAPACITY)).snapshot

theorem listTrace_eq_rtake (s : JobQueues FulfillmentNodeData) :
    listTrace s = ((recordCalls s).map RecordCall.entry).rtake TRACE_CAPACITY := by
  have hempty : (Trail.empty : Trail FlowTraceEntry TRACE_CAPACITY).snapshot =
      ([] : List FlowTraceEntry).rtake TRACE_CAPACITY := by simp
  rw [listTrace, Trail.snapshot_foldl_push_eq_rtake hempty, List.nil_append]

/-! ## The nodes of a flow -/

section Nodes

variable (orderId : String) (variant : FulfillmentVariant)

def flowNodes : List (List ℕ × FlowJob FulfillmentNodeData) :=
  [([], buildFulfillmentFlow orderId variant),
    ([0], { name := RESERVE_STOCK_JOB, queueName := STOCK_QUEUE, data := ⟨orderId⟩ }),
    ([1], buildPaymentChild orderId variant),
    ([2], buildInvoiceChild orderId),
    ([2, 0], { name := FETCH_LINES_JOB, queueName := INVOICES_DATA_QUEUE, data := ⟨orderId⟩ }),
    ([2, 1], { name := FETCH_CUSTOMER_JOB, queueName := INVOICES_DATA_QUEUE, data := ⟨orderId⟩ })]

theorem root_mem_flowNodes :
    ([], buildFulfillmentFlow orderId variant) ∈ flowNodes orderId variant := by
  simp [flowNodes]

theorem payment_mem_flowNodes :
    ([1], buildPaymentChild orderId variant) ∈ flowNodes orderId variant := by
  simp [flowNodes]

theorem opts_of_mem_flowNodes {path : List ℕ} {job : FlowJob FulfillmentNodeData}
    (h : (path, job) ∈ flowNodes orderId variant) :
    job.opts = if path = [1] then (paymentChildOpts variant).getD {} else {} := by
  simp only [flowNodes, List.mem_cons, Prod.mk.injEq, List.not_mem_nil, or_false] at h
  rcases h with ⟨rfl, rfl⟩ | ⟨rfl, rfl⟩ | ⟨rfl, rfl⟩ | ⟨rfl, rfl⟩ | ⟨rfl, rfl⟩ | ⟨rfl, rfl⟩
  · rfl
  · rfl
  · cases variant <;> rfl
  · rfl
  · rfl
  · rfl

theorem failParent_of_mem_flowNodes {path : List ℕ} {job : FlowJob FulfillmentNodeData}
    (h : (path, job) ∈ flowNodes orderId variant) (hopts : job.opts.failParentOnFailure = true) :
    path = [1] ∧ variant = .failParent := by
  rw [opts_of_mem_flowNodes orderId variant h] at hopts
  split at hopts
  · next hpath => cases variant <;> simp_all [paymentChildOpts]
  · simp at hopts

def flowPlaces : List (List ℕ × String) :=
  [([], SHIP_ORDER_JOB), ([0], RESERVE_STOCK_JOB), ([1], CHARGE_PAYMENT_JOB),
    ([2], RENDER_INVOICE_JOB), ([2, 0], FETCH_LINES_JOB), ([2, 1], FETCH_CUSTOMER_JOB)]

theorem mem_flowPlaces_iff {path : List ℕ} {name : String} :
    (path, name) ∈ flowPlaces ↔ ∃ job, (path, job) ∈ flowNodes orderId variant ∧
      job.name = name := by
  have hplaces : (flowNodes orderId variant).map (fun node ↦ (node.1, node.2.name)) =
      flowPlaces := by cases variant <;> rfl
  rw [← hplaces]
  simp

theorem path_of_name {path path' : List ℕ} {name : String} (h : (path, name) ∈ flowPlaces)
    (h' : (path', name) ∈ flowPlaces) : path = path' := by
  have hdistinct : ∀ x ∈ flowPlaces, ∀ y ∈ flowPlaces, x.2 = y.2 → x.1 = y.1 := by decide
  exact hdistinct _ h _ h' rfl

theorem children_buildPaymentChild : (buildPaymentChild orderId variant).children = [] := by
  cases variant <;> rfl

theorem sub?_buildFulfillmentFlow {path : List ℕ} {job : FlowJob FulfillmentNodeData} :
    (buildFulfillmentFlow orderId variant).sub? path = some job ↔
      (path, job) ∈ flowNodes orderId variant := by
  have hinvoice : (buildInvoiceChild orderId).sub? path.tail = some job ↔
      path.tail = [] ∧ job = buildInvoiceChild orderId ∨
      path.tail = [0] ∧ job =
        { name := FETCH_LINES_JOB, queueName := INVOICES_DATA_QUEUE, data := ⟨orderId⟩ } ∨
      path.tail = [1] ∧ job =
        { name := FETCH_CUSTOMER_JOB, queueName := INVOICES_DATA_QUEUE, data := ⟨orderId⟩ } := by
    rcases path.tail with _ | ⟨_ | _ | i, rest⟩
    · simp [FlowJob.sub?, eq_comm (a := job)]
    · simp [FlowJob.sub?, buildInvoiceChild, FlowJob.sub?_leaf]
    · simp [FlowJob.sub?, buildInvoiceChild, FlowJob.sub?_leaf]
    · simp [FlowJob.sub?, buildInvoiceChild]
  rcases path with _ | ⟨_ | _ | _ | i, rest⟩
  · simp [FlowJob.sub?, flowNodes, eq_comm (a := job)]
  · simp [FlowJob.sub?, buildFulfillmentFlow, FlowJob.sub?_leaf, flowNodes]
  · simp [FlowJob.sub?, buildFulfillmentFlow, FlowJob.sub?_leaf, flowNodes,
      children_buildPaymentChild]
  · simpa [FlowJob.sub?, buildFulfillmentFlow, flowNodes] using hinvoice
  · simp [FlowJob.sub?, buildFulfillmentFlow, flowNodes]

theorem recorded_of_mem_flowNodes {path : List ℕ} {job : FlowJob FulfillmentNodeData}
    (h : (path, job) ∈ flowNodes orderId variant) : (process job).recorded = [job.name] := by
  simp only [flowNodes, List.mem_cons, Prod.mk.injEq, List.not_mem_nil, or_false] at h
  rcases h with ⟨-, rfl⟩ | ⟨-, rfl⟩ | ⟨-, rfl⟩ | ⟨-, rfl⟩ | ⟨-, rfl⟩ | ⟨-, rfl⟩
  · rfl
  · rfl
  · cases variant <;> rfl
  · rfl
  · rfl
  · rfl

theorem throws_of_mem_flowNodes {defaultAttempts : ℕ} {path : List ℕ}
    {job : FlowJob FulfillmentNodeData} (h : (path, job) ∈ flowNodes orderId variant) :
    (workers defaultAttempts).throws job =
      (path = [1] && JsString.startsWith orderId ORDER_FAILURE_PREFIX) := by
  simp only [flowNodes, List.mem_cons, Prod.mk.injEq, List.not_mem_nil, or_false] at h
  rcases h with ⟨rfl, rfl⟩ | ⟨rfl, rfl⟩ | ⟨rfl, rfl⟩ | ⟨rfl, rfl⟩ | ⟨rfl, rfl⟩ | ⟨rfl, rfl⟩
  · rfl
  · rfl
  · have hprocess : process (buildPaymentChild orderId variant) =
        PaymentsProcessor.charge (buildPaymentChild orderId variant) := by
      cases variant <;> rfl
    have hdata : (buildPaymentChild orderId variant).data = ⟨orderId⟩ := by
      cases variant <;> rfl
    simp only [workers, hprocess, PaymentsProcessor.charge, hdata]
    cases JsString.startsWith orderId ORDER_FAILURE_PREFIX <;> rfl
  · rfl
  · rfl
  · rfl

end Nodes

/-! ## Runs of flows -/

def RecordedIn (calls : List RecordCall) (flow : ℕ) (node : String) : Prop :=
  ∃ call ∈ calls, call.flow = flow ∧ call.entry.node = node

def AllBuilt (s : JobQueues FulfillmentNodeData) : Prop :=
  ∀ tree ∈ s.flows, ∃ orderId variant, tree = buildFulfillmentFlow orderId variant

theorem fulfill_append (defaultAttempts : ℕ) (es : List FulfillmentEvent)
    (e : FulfillmentEvent) : fulfill defaultAttempts (es ++ [e]) =
      (fulfill defaultAttempts es).step (workers defaultAttempts) e.toFlowEvent := by
  simp [fulfill]

/-- The flows of a run are those that `run` and `runBulk` have launched, in this
order. -/
theorem flows_fulfill (defaultAttempts : ℕ) (es : List FulfillmentEvent) :
    (fulfill defaultAttempts es).flows =
      (es.flatMap FulfillmentEvent.launched).map fun launched ↦
        buildFulfillmentFlow launched.1 launched.2 := by
  induction es using List.reverseRecOn with
  | nil => rfl
  | append_singleton es e ih =>
      rw [fulfill_append, List.flatMap_append, List.map_append, ← ih, List.flatMap_singleton]
      cases e with
      | run orderId variant => rfl
      | runBulk orderIds variant =>
          rw [FulfillmentEvent.launched, List.map_map]
          rfl
      | job r action =>
          rw [FulfillmentEvent.toFlowEvent, JobQueues.flows_job, FulfillmentEvent.launched,
            List.map_nil, List.append_nil]

theorem allBuilt_fulfill (defaultAttempts : ℕ) (es : List FulfillmentEvent) :
    AllBuilt (fulfill defaultAttempts es) := by
  intro tree hmem
  rw [flows_fulfill] at hmem
  obtain ⟨launched, -, rfl⟩ := List.mem_map.mp hmem
  exact ⟨launched.1, launched.2, rfl⟩

theorem valid_fulfill (defaultAttempts : ℕ) (es : List FulfillmentEvent) :
    (fulfill defaultAttempts es).Valid (workers defaultAttempts) := by
  have hevents : fulfill defaultAttempts es =
      exec (JobQueues.step (workers defaultAttempts)) {} (es.map FulfillmentEvent.toFlowEvent) := by
    simp [fulfill, exec, List.foldl_map]
  rw [hevents]
  apply JobQueues.valid_exec

section Run

variable {defaultAttempts : ℕ} {s : JobQueues FulfillmentNodeData} {flow : ℕ}
  {orderId : String} {variant : FulfillmentVariant}

theorem node?_flow (hflow : s.flows[flow]? = some (buildFulfillmentFlow orderId variant))
    {path : List ℕ} {job : FlowJob FulfillmentNodeData} :
    s.node? ⟨flow, path⟩ = some job ↔ (path, job) ∈ flowNodes orderId variant := by
  rw [← sub?_buildFulfillmentFlow]
  simp [JobQueues.node?, hflow]

def recordCall (s : JobQueues FulfillmentNodeData) (x : Execution) : RecordCall :=
  ⟨x.job.flow, ⟨(s.node? x.job).elim "" FlowJob.name, x.now⟩⟩

theorem recordCalls_eq_map (hvalid : s.Valid (workers defaultAttempts)) (hbuilt : AllBuilt s) :
    recordCalls s = s.log.map (recordCall s) := by
  rw [recordCalls, List.map_eq_flatMap]
  apply List.flatMap_congr
  intro x hx
  obtain ⟨pre, post, hlog⟩ := List.append_of_mem hx
  obtain ⟨job, hnode, -⟩ := hvalid.ordered pre x post hlog
  obtain ⟨tree, htree, -⟩ := Option.bind_eq_some_iff.mp hnode
  obtain ⟨orderId, variant, rfl⟩ := hbuilt tree (List.mem_of_getElem? htree)
  have hrecorded := recorded_of_mem_flowNodes _ _ ((node?_flow htree).mp hnode)
  simp [recordCall, hnode, hrecorded]

theorem job_of_recordCall (hflow : s.flows[flow]? = some (buildFulfillmentFlow orderId variant))
    {x : Execution} {job : FlowJob FulfillmentNodeData} (hnode : s.node? x.job = some job)
    (hx : (recordCall s x).flow = flow) (path : List ℕ) {name : String}
    (hname : (recordCall s x).entry.node = name) (hplace : (path, name) ∈ flowPlaces) :
    x.job = ⟨flow, path⟩ := by
  obtain ⟨⟨xflow, xpath⟩, now⟩ := x
  obtain rfl : xflow = flow := hx
  have hjob : job.name = name := by simpa [recordCall, hnode] using hname
  have hmem : (xpath, name) ∈ flowPlaces :=
    (mem_flowPlaces_iff orderId variant).mpr ⟨job, (node?_flow hflow).mp hnode, hjob⟩
  rw [path_of_name hmem hplace]

theorem recordCall_of_job (hflow : s.flows[flow]? = some (buildFulfillmentFlow orderId variant))
    {path : List ℕ} {job : FlowJob FulfillmentNodeData}
    (hmem : (path, job) ∈ flowNodes orderId variant) {x : Execution}
    (hx : x.job = ⟨flow, path⟩) :
    (recordCall s x).flow = flow ∧ (recordCall s x).entry.node = job.name := by
  have hnode : s.node? x.job = some job := by rw [hx, node?_flow hflow]; exact hmem
  exact ⟨by rw [recordCall, hx], by simp [recordCall, hnode]⟩

/-- A job of a flow that failed by its own handler is the payment of an order
with the failure prefix. -/
theorem failed_cases (hvalid : s.Valid (workers defaultAttempts))
    (hflow : s.flows[flow]? = some (buildFulfillmentFlow orderId variant)) {path : List ℕ}
    {job : FlowJob FulfillmentNodeData} (hmem : (path, job) ∈ flowNodes orderId variant)
    (hfailed : s.status ⟨flow, path⟩ = .failed) :
    path = [1] ∧ JsString.startsWith orderId ORDER_FAILURE_PREFIX = true := by
  have hthrows := (hvalid.jobs _ job ((node?_flow hflow).mpr hmem)).failed hfailed
  rw [throws_of_mem_flowNodes _ _ hmem] at hthrows
  simpa using hthrows

/-- A job that a child failed is the root of a `failParent` flow whose order
has the failure prefix. -/
theorem failedByChild_cases (hvalid : s.Valid (workers defaultAttempts))
    (hflow : s.flows[flow]? = some (buildFulfillmentFlow orderId variant)) {path : List ℕ}
    {job : FlowJob FulfillmentNodeData} (hmem : (path, job) ∈ flowNodes orderId variant)
    (hfailed : s.status ⟨flow, path⟩ = .failedByChild) :
    path = [] ∧ variant = .failParent ∧
      JsString.startsWith orderId ORDER_FAILURE_PREFIX = true := by
  have hnode := (node?_flow hflow).mpr hmem
  obtain ⟨i, child, hchild, hopts, hchildFailed⟩ := (hvalid.jobs _ job hnode).failedByChild hfailed
  have hchildMem : (path ++ [i], child) ∈ flowNodes orderId variant := by
    rw [← node?_flow hflow, ← hchild]
    exact JobQueues.node?_child hnode i
  obtain ⟨hpath, rfl⟩ := failParent_of_mem_flowNodes _ _ hchildMem hopts
  obtain ⟨rfl, rfl⟩ : path = [] ∧ i = 1 := by simpa [List.append_eq_singleton_iff] using hpath
  have hpayment := payment_mem_flowNodes orderId .failParent
  refine ⟨rfl, rfl, ?_⟩
  have hplace : JobRef.child ⟨flow, []⟩ 1 = ⟨flow, [1]⟩ := rfl
  rw [hplace] at hchildFailed
  cases hstatus : s.status ⟨flow, [1]⟩ with
  | failed => exact (failed_cases hvalid hflow hpayment hstatus).2
  | failedByChild =>
      obtain ⟨j, grandchild, hgrandchild, -, -⟩ :=
        (hvalid.jobs _ _ ((node?_flow hflow).mpr hpayment)).failedByChild hstatus
      simp [children_buildPaymentChild] at hgrandchild
  | _ => simp [hstatus, Status.isFailed] at hchildFailed

theorem child_before (hvalid : s.Valid (workers defaultAttempts))
    (hflow : s.flows[flow]? = some (buildFulfillmentFlow orderId variant))
    {pre post : List Execution} {x : Execution} (hlog : s.log = pre ++ x :: post)
    {path : List ℕ} (hx : x.job = ⟨flow, path⟩) {i : ℕ} {child : FlowJob FulfillmentNodeData}
    (hchild : (path ++ [i], child) ∈ flowNodes orderId variant) :
    ∃ y ∈ pre, y.job = ⟨flow, path ++ [i]⟩ := by
  obtain ⟨job, hnode, hchildren⟩ := hvalid.ordered pre x post hlog
  have hplace : x.job.child i = ⟨flow, path ++ [i]⟩ := by rw [hx]; rfl
  have hat : job.children[i]? = some child := by
    rw [← JobQueues.node?_child hnode, hplace, node?_flow hflow]
    exact hchild
  rcases hchildren i child hat with hran | hfailed
  · rwa [hplace] at hran
  · rw [hplace] at hfailed
    simpa using (failedByChild_cases hvalid hflow hchild hfailed).1

/-- Where the order lacks the prefix or the payment may fail, the flow runs
through: no failure holds the root back. -/
theorem runsThrough_flow (h : JsString.startsWith orderId ORDER_FAILURE_PREFIX = false ∨
    variant = .ignoreDependency) :
    JobQueues.RunsThrough (workers defaultAttempts) (buildFulfillmentFlow orderId variant) := by
  have hignored : ∀ path job, (path, job) ∈ flowNodes orderId variant →
      (workers defaultAttempts).throws job = true →
        job.opts.ignoreDependencyOnFailure = true ∧ job.opts.failParentOnFailure = false := by
    intro path job hmem hthrows
    rw [throws_of_mem_flowNodes _ _ hmem] at hthrows
    obtain ⟨rfl, hstart⟩ :
        path = [1] ∧ JsString.startsWith orderId ORDER_FAILURE_PREFIX = true := by
      simpa using hthrows
    rcases h with hnone | rfl
    · simp [hstart] at hnone
    · simp [opts_of_mem_flowNodes _ _ hmem, paymentChildOpts]
  have hleaf : ∀ job : FlowJob FulfillmentNodeData, job.children = [] →
      JobQueues.RunsThrough (workers defaultAttempts) job := fun job hchildren ↦
    .intro (by simp [hchildren]) (by simp [hchildren])
  have hinvoice : JobQueues.RunsThrough (workers defaultAttempts) (buildInvoiceChild orderId) := by
    refine .intro ?_ ?_
    · intro child hchild
      rcases List.mem_pair.mp hchild with rfl | rfl
      · exact hignored [2, 0] _ (by simp [flowNodes])
      · exact hignored [2, 1] _ (by simp [flowNodes])
    · intro child hchild
      rcases List.mem_pair.mp hchild with rfl | rfl
      · exact hleaf _ rfl
      · exact hleaf _ rfl
  refine .intro ?_ ?_
  · intro child hchild
    rcases List.mem_cons.mp hchild with rfl | hchild
    · exact hignored [0] _ (by simp [flowNodes])
    · rcases List.mem_pair.mp hchild with rfl | rfl
      · exact hignored [1] _ (by simp [flowNodes])
      · exact hignored [2] _ (by simp [flowNodes])
  · intro child hchild
    rcases List.mem_cons.mp hchild with rfl | hchild
    · exact hleaf _ rfl
    · rcases List.mem_pair.mp hchild with rfl | rfl
      · exact hleaf _ (children_buildPaymentChild _ _)
      · exact hinvoice

theorem not_executed_root (hvalid : s.Valid (workers defaultAttempts))
    (hflow : s.flows[flow]? = some (buildFulfillmentFlow orderId variant))
    (hstart : JsString.startsWith orderId ORDER_FAILURE_PREFIX = true)
    (hvariant : variant ≠ .ignoreDependency) : ¬ s.Executed ⟨flow, []⟩ := by
  intro hexecuted
  have hroot := root_mem_flowNodes orderId variant
  have hpayment := payment_mem_flowNodes orderId variant
  have hsettled := (hvalid.jobs _ _ ((node?_flow hflow).mpr hroot)).settled hexecuted
  have hchild : (buildPaymentChild orderId variant).settles (s.status ⟨flow, [1]⟩) = true :=
    JobQueues.childrenSettled_iff.mp hsettled 1 _ rfl
  rcases Bool.or_eq_true_iff.mp hchild with hcompleted | hignored
  · have hreturns := (hvalid.jobs _ _ ((node?_flow hflow).mpr hpayment)).completed
      (of_decide_eq_true hcompleted)
    simp [throws_of_mem_flowNodes _ _ hpayment, hstart] at hreturns
  · have hopts := (Bool.and_eq_true_iff.mp hignored).2
    rw [opts_of_mem_flowNodes _ _ hpayment] at hopts
    cases variant <;> simp_all [paymentChildOpts]

theorem root_failed_cases (hvalid : s.Valid (workers defaultAttempts))
    (hflow : s.flows[flow]? = some (buildFulfillmentFlow orderId variant))
    (hfailed : (s.status ⟨flow, []⟩).isFailed = true) :
    JsString.startsWith orderId ORDER_FAILURE_PREFIX = true ∧ variant = .failParent := by
  have hroot := root_mem_flowNodes orderId variant
  cases hstatus : s.status ⟨flow, []⟩ with
  | failed => simpa using (failed_cases hvalid hflow hroot hstatus).1
  | failedByChild =>
      obtain ⟨-, hvariant, hstart⟩ := failedByChild_cases hvalid hflow hroot hstatus
      exact ⟨hstart, hvariant⟩
  | _ => simp [hstatus, Status.isFailed] at hfailed

theorem recordedIn_of_child (hvalid : s.Valid (workers defaultAttempts))
    (hflow : s.flows[flow]? = some (buildFulfillmentFlow orderId variant))
    {before after : List Execution} {x : Execution} (hlog : s.log = before ++ x :: after)
    {path : List ℕ} (hx : x.job = ⟨flow, path⟩) (i : ℕ) {name : String}
    (hplace : (path ++ [i], name) ∈ flowPlaces) :
    RecordedIn (before.map (recordCall s)) flow name := by
  obtain ⟨child, hchild, rfl⟩ := (mem_flowPlaces_iff orderId variant).mp hplace
  obtain ⟨y, hy, hjob⟩ := child_before hvalid hflow hlog hx hchild
  exact ⟨_, List.mem_map_of_mem hy, recordCall_of_job hflow hchild hjob⟩

theorem recorded_before_invoice (hvalid : s.Valid (workers defaultAttempts))
    (hflow : s.flows[flow]? = some (buildFulfillmentFlow orderId variant))
    {before after : List Execution} {x : Execution} (hlog : s.log = before ++ x :: after)
    (hx : x.job = ⟨flow, [2]⟩) :
    ∀ node ∈ [FETCH_LINES_JOB, FETCH_CUSTOMER_JOB],
      RecordedIn (before.map (recordCall s)) flow node := by
  intro node hmem
  rcases List.mem_pair.mp hmem with rfl | rfl
  · exact recordedIn_of_child hvalid hflow hlog hx 0 (by decide)
  · exact recordedIn_of_child hvalid hflow hlog hx 1 (by decide)

theorem recorded_before_ship (hvalid : s.Valid (workers defaultAttempts))
    (hflow : s.flows[flow]? = some (buildFulfillmentFlow orderId variant))
    {before after : List Execution} {x : Execution} (hlog : s.log = before ++ x :: after)
    (hx : x.job = ⟨flow, []⟩) :
    ∀ node ∈ [RESERVE_STOCK_JOB, CHARGE_PAYMENT_JOB, FETCH_LINES_JOB, FETCH_CUSTOMER_JOB,
      RENDER_INVOICE_JOB], RecordedIn (before.map (recordCall s)) flow node := by
  have hinvoice : ([] ++ [2], buildInvoiceChild orderId) ∈ flowNodes orderId variant := by
    simp [flowNodes]
  obtain ⟨y, hy, hyjob⟩ := child_before hvalid hflow hlog hx hinvoice
  obtain ⟨earlier, later, rfl⟩ := List.append_of_mem hy
  have hlog' : s.log = earlier ++ y :: (later ++ x :: after) := by simpa using hlog
  have hfetches := recorded_before_invoice hvalid hflow hlog' hyjob
  have hmono : ∀ node, RecordedIn (earlier.map (recordCall s)) flow node →
      RecordedIn ((earlier ++ y :: later).map (recordCall s)) flow node := by
    rintro node ⟨call, hcall, hnode⟩
    exact ⟨call, by rw [List.map_append]; exact List.mem_append_left _ hcall, hnode⟩
  intro node hmem
  simp only [List.mem_cons, List.not_mem_nil, or_false] at hmem
  rcases hmem with rfl | rfl | rfl | rfl | rfl
  · exact recordedIn_of_child hvalid hflow hlog hx 0 (by decide)
  · exact recordedIn_of_child hvalid hflow hlog hx 1 (by decide)
  · exact hmono _ (hfetches _ (by simp))
  · exact hmono _ (hfetches _ (by simp))
  · exact recordedIn_of_child hvalid hflow hlog hx 2 (by decide)

end Run

/-- In every run of any flows by any workers, the flows are those launched by
`run` and `runBulk` for each order and its variant, and a flow records its
shipping after all its other nodes, and its invoice after both fetches; it never
ships an order with the failure prefix unless its variant ignores the payment;
its root fails only for such an order and the variant `failParent`; and once
nothing can move any more, it has shipped if the order lacks the prefix or the
variant ignores the payment. -/
theorem fulfillment_flow_runs (defaultAttempts : ℕ) (es : List FulfillmentEvent) (flow : ℕ)
    (orderId : String) (variant : FulfillmentVariant)
    (hflow : (fulfill defaultAttempts es).flows[flow]? =
      some (buildFulfillmentFlow orderId variant)) :
    (fulfill defaultAttempts es).flows = (es.flatMap FulfillmentEvent.launched).map
      (fun launched ↦ buildFulfillmentFlow launched.1 launched.2) ∧
    (∀ pre call post, recordCalls (fulfill defaultAttempts es) = pre ++ call :: post →
      call.flow = flow →
      (call.entry.node = SHIP_ORDER_JOB →
        ∀ node ∈ [RESERVE_STOCK_JOB, CHARGE_PAYMENT_JOB, FETCH_LINES_JOB, FETCH_CUSTOMER_JOB,
          RENDER_INVOICE_JOB], RecordedIn pre flow node) ∧
      (call.entry.node = RENDER_INVOICE_JOB →
        ∀ node ∈ [FETCH_LINES_JOB, FETCH_CUSTOMER_JOB], RecordedIn pre flow node)) ∧
    (JsString.startsWith orderId ORDER_FAILURE_PREFIX = true → variant ≠ .ignoreDependency →
      ¬ (fulfill defaultAttempts es).Executed ⟨flow, []⟩) ∧
    (((fulfill defaultAttempts es).status ⟨flow, []⟩).isFailed = true →
      JsString.startsWith orderId ORDER_FAILURE_PREFIX = true ∧ variant = .failParent) ∧
    ((fulfill defaultAttempts es).Halted (workers defaultAttempts) →
      JsString.startsWith orderId ORDER_FAILURE_PREFIX = false ∨ variant = .ignoreDependency →
      (fulfill defaultAttempts es).Executed ⟨flow, []⟩) := by
  have hvalid := valid_fulfill defaultAttempts es
  have hbuilt := allBuilt_fulfill defaultAttempts es
  refine ⟨flows_fulfill defaultAttempts es, ?_⟩
  generalize fulfill defaultAttempts es = s at hflow hvalid hbuilt ⊢
  refine ⟨?_, not_executed_root hvalid hflow, root_failed_cases hvalid hflow, ?_⟩
  · intro pre call post hcalls hcall
    rw [recordCalls_eq_map hvalid hbuilt] at hcalls
    obtain ⟨before, rest, hlog, rfl, hrest⟩ := List.map_eq_append_iff.mp hcalls
    obtain ⟨x, after, rfl, rfl, -⟩ := List.map_eq_cons_iff.mp hrest
    obtain ⟨job, hnode, -⟩ := hvalid.ordered before x after hlog
    constructor
    · intro hship
      have hjob := job_of_recordCall hflow hnode hcall [] hship (by decide)
      exact recorded_before_ship hvalid hflow hlog hjob
    · intro hrender
      have hjob := job_of_recordCall hflow hnode hcall [2] hrender (by decide)
      exact recorded_before_invoice hvalid hflow hlog hjob
  · intro hhalted hruns
    have hnode := (node?_flow hflow).mpr (root_mem_flowNodes orderId variant)
    exact (hvalid.jobs _ _ hnode).executed ((runsThrough_flow hruns).ended hvalid hhalted hnode)

def shippedRun : List FulfillmentEvent :=
  .run "o1" .default ::
    ([[0], [1], [2, 0], [2, 1]].flatMap fun path ↦
      [.job ⟨0, path⟩ .start, .job ⟨0, path⟩ (.run 0 true)]) ++
    [[2], []].flatMap fun path ↦
      [.job ⟨0, path⟩ .release, .job ⟨0, path⟩ .start, .job ⟨0, path⟩ (.run 0 true)]

/-- After a flow has shipped, the payment of `fail-o2` is declined, which fails
the root, and the one of `fail-o3`, which leaves its root waiting. -/
def mixedRun : List FulfillmentEvent :=
  shippedRun ++
    [.runBulk ["fail-o2"] .failParent, .run "fail-o3" .stuck, .job ⟨1, [1]⟩ .start,
      .job ⟨1, [1]⟩ (.run 1 true), .job ⟨1, []⟩ (.failParent 1), .job ⟨2, [1]⟩ .start,
      .job ⟨2, [1]⟩ (.run 2 true), .job ⟨2, []⟩ (.failParent 1)]

theorem fulfillment_flow_runs_mixed :
    RecordedIn ((recordCalls (fulfill 4 mixedRun)).take 5) 0 RENDER_INVOICE_JOB ∧
      ((fulfill 4 mixedRun).status ⟨1, []⟩).isFailed = true ∧
      ¬ (fulfill 4 mixedRun).Executed ⟨1, []⟩ ∧
      ¬ ((fulfill 4 mixedRun).status ⟨2, []⟩).isFailed = true ∧
      ¬ (fulfill 4 mixedRun).Executed ⟨2, []⟩ := by
  obtain ⟨-, hordered, -⟩ := fulfillment_flow_runs 4 mixedRun 0 "o1" .default rfl
  obtain ⟨-, -, hdeclined, -⟩ := fulfillment_flow_runs 4 mixedRun 1 "fail-o2" .failParent rfl
  obtain ⟨-, -, hstuck, hfailed, -⟩ := fulfillment_flow_runs 4 mixedRun 2 "fail-o3" .stuck rfl
  refine ⟨?_, by decide, hdeclined (by decide) (by decide), fun h ↦ ?_,
    hstuck (by decide) (by decide)⟩
  · exact (hordered _ ⟨0, ⟨SHIP_ORDER_JOB, 0⟩⟩ _ rfl rfl).1 rfl RENDER_INVOICE_JOB (by simp)
  · exact absurd (hfailed h).2 (by decide)

end NestQueueExample.Flows
