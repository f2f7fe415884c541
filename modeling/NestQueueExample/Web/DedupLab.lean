import NestQueueExample.Foundations.Registers
import NestQueueExample.Web.DedupKeys
import NestQueueExample.Web.Requests

/-!
# The deduplication laboratory

The laboratory fires reindexes of a term and inspects or clears the key of the
term through the admin surface. Over any requests, lapsing keys and removed jobs
the inspector shows the job that the last reindex of the term has answered,
until its key lapses or is cleared, and clearing a term makes its next reindex
create a job and leaves every other term as it was.
-/

namespace NestQueueExample.Web

open Admin CheckThenAct Http Queues Registers Runs Search UrlPath
open Queues.Handler (sync invoke)

/-! ## The requests -/

/-- A managed queue is known by its name. -/
abbrev labLibrary : Library := ⟨String, Unit, Unit, Unit, []⟩

abbrev SearchQueue : Type := JobQueue ReindexJobData

abbrev LabAnswer : Type := Option String ⊕ Bool

def reindexRoute : List PatternSegment := [.literal "search", .literal "reindex"]

def viewDedupKey (term : String) : ApiRequest := ⟨.get, dedupKeyPath term, .undefined⟩

def clearDedupKey (term : String) : ApiRequest := ⟨.delete, dedupKeyPath term, .undefined⟩

/-- What a request asks to reindex. -/
def reindexInput (zod : Zod) (request : ApiRequest) : Option ReindexInput :=
  match request.method, route reindexRoute request.path with
  | .post, some [] => (zod.safeParse reindexSchema request.body).toOption
  | _, _ => none

def dedupHandler (zod : Zod) (request : ApiRequest) : Option (Handler labLibrary LabAnswer) :=
  match request.method, route dedupRoute request.path with
  | .get, some [queue, id] => some (.inl <$> DedupController.view zod queue (.string id))
  | .delete, some [queue, id] => some (.inr <$> DedupController.clear zod queue (.string id))
  | _, _ => none

/-! ## The library -/

/-- What the library answers about the keys of the `search` queue, the only one
that is given any; `rest` is what it answers to every other call. -/
def answer (rest : (c : Call labLibrary) → Except (Rejection Unit) c.Answer)
    (store : SearchQueue) : (c : Call labLibrary) → Except (Rejection Unit) c.Answer
  | .getOrCreateQueue name => .ok name
  | .getDeduplicationJobId queue key =>
      .ok (if queue = SEARCH_QUEUE then store.keys.get? key else none)
  | .removeDeduplicationKey queue key =>
      .ok (if queue = SEARCH_QUEUE ∧ (store.keys.get? key).isSome then 1 else 0)
  | c => rest c

def perform (store : SearchQueue) : Call labLibrary → SearchQueue
  | .removeDeduplicationKey queue key => if queue = SEARCH_QUEUE then store.dropKey key else store
  | _ => store

def searchService (rest : (c : Call labLibrary) → Except (Rejection Unit) c.Answer)
    (store : SearchQueue) : Program.Service (Call labLibrary) Call.Answer (Rejection Unit) :=
  fun log _ calls ↦ Program.answerEach (answer rest (exec perform store log)) calls

/-! ## Runs -/

/-- A request is received, a reindex that has read its key enqueues, or a key
lapses or a job is removed. -/
inductive LabEvent where
  | receive (request : ApiRequest)
  | act (call : ℕ) (replaceable : Bool)
  | change (change : ReindexService.QueueChange)

section Lab

variable (zod : Zod) (rest : (c : Call labLibrary) → Except (Rejection Unit) c.Answer)

/-- The calls a dedup request has made, and its answer. -/
def dedupRun (store : SearchQueue) (request : ApiRequest) :
    Option (List (Call labLibrary) × Except (Rejection Unit) LabAnswer) :=
  (dedupHandler zod request).map fun handler ↦ handler.run (searchService rest store) []

def labStep (s : ReindexService.Calls) : LabEvent → ReindexService.Calls
  | .receive request =>
      match reindexInput zod request with
      | some input => ReindexService.reindex.step s (.check input)
      | none =>
          match dedupRun zod rest s.store request with
          | some (calls, _) => { s with store := exec perform s.store calls }
          | none => s
  | .act call replaceable => ReindexService.reindex.step s (.act call replaceable)
  | .change change => ReindexService.reindex.step s (.disturb change)

/-- What the inspector is answered for a term. -/
def inspect (s : ReindexService.Calls) (term : String) : Option LabAnswer :=
  (dedupRun zod rest s.store (viewDedupKey term)).bind fun outcome ↦ outcome.2.toOption

/-! ## What happens to the keys -/

/-- The key of the `search` queue that a request clears. -/
def clearedKey (request : ApiRequest) : Option String :=
  match request.method, route dedupRoute request.path with
  | .delete, some [queue, id] =>
      if queue = SEARCH_QUEUE then
        (zod.safeParse DedupController.dedupKeySchema (.string id)).toOption
      else none
  | _, _ => none

/-- The job that a reindex is answered with holds the key of its term; a key that
lapses or is cleared is held by none. -/
def keyUpdates (s : ReindexService.Calls) : LabEvent → List (String × Option String)
  | .receive request => (clearedKey zod request).toList.map fun key ↦ (key, none)
  | .act call replaceable =>
      match s.pending[call]? with
      | some (input, seen) =>
          match (ReindexService.act s.store input seen replaceable).2.result with
          | .ok result => [(dedupId input.term, result.jobId)]
          | .error _ => []
      | none => []
  | .change (.dropKey key) => [(key, none)]
  | .change (.remove _) => []

end Lab

/-! ## What a request does to the keys -/

section Requests

variable {zod : Zod} {rest : (c : Call labLibrary) → Except (Rejection Unit) c.Answer}
  {store : SearchQueue} {queue id key : String}

theorem answered_queue (log : List (Call labLibrary)) (queue : String) :
    searchService rest store log (fun _ : Fin 1 ↦ .getOrCreateQueue queue) =
      .ok fun _ ↦ queue :=
  Program.answerEach_one _ _

theorem run_view_of_known (hkey : zod.safeParse DedupController.dedupKeySchema (.string id) =
    .ok key) (hqueue : queue ∈ KNOWN_QUEUES) :
    (DedupController.view zod queue (.string id)).run (searchService rest store) [] =
      ([.getOrCreateQueue queue, .getDeduplicationJobId queue key],
        .ok (if queue = SEARCH_QUEUE then store.keys.get? key else none)) := by
  have hknown : (assertKnownQueue queue : Except (Rejection Unit) KnownQueue) =
      .ok ⟨queue, hqueue⟩ := dif_pos hqueue
  have hview : (DedupController.view zod queue (.string id) : Handler labLibrary _) =
      invoke (.getOrCreateQueue queue) >>= fun managed ↦
        invoke (.getDeduplicationJobId managed key) := by
    rw [DedupController.view, parseRequest_ok_iff.mpr hkey, AdminQueuesService.getManagedQueue,
      hknown]
    rfl
  rw [hview, Program.run_call_bind (answered_queue [] queue)]
  exact congrArg (Prod.mk _) (congrArg (Except.map fun values ↦ values 0)
    (Program.answerEach_one _ _))

theorem run_clear_of_known (hkey : zod.safeParse DedupController.dedupKeySchema (.string id) =
    .ok key) (hqueue : queue ∈ KNOWN_QUEUES) :
    (DedupController.clear zod queue (.string id)).run (searchService rest store) [] =
      ([.getOrCreateQueue queue, .removeDeduplicationKey queue key],
        .ok (decide (queue = SEARCH_QUEUE ∧ (store.keys.get? key).isSome))) := by
  have hknown : (assertKnownQueue queue : Except (Rejection Unit) KnownQueue) =
      .ok ⟨queue, hqueue⟩ := dif_pos hqueue
  have hclear : (DedupController.clear zod queue (.string id) : Handler labLibrary _) =
      invoke (.getOrCreateQueue queue) >>= fun managed ↦
        invoke (.removeDeduplicationKey managed key) >>= fun removed ↦
          pure (decide (0 < removed)) := by
    rw [DedupController.clear, parseRequest_ok_iff.mpr hkey, AdminQueuesService.getManagedQueue,
      hknown]
    rfl
  have hremoved : searchService rest store [.getOrCreateQueue queue]
      (fun _ : Fin 1 ↦ .removeDeduplicationKey queue key) =
        .ok fun _ ↦ if queue = SEARCH_QUEUE ∧ (store.keys.get? key).isSome then 1 else 0 :=
    Program.answerEach_one _ _
  rw [hclear, Program.run_call_bind (answered_queue [] queue), List.nil_append,
    Program.run_call_bind hremoved]
  change (_, Except.ok _) = _
  congr 2
  split <;> simp_all

/-- A request that names no key or no managed queue makes no call. -/
theorem run_clear_of_unknown (h : ∀ key,
    zod.safeParse DedupController.dedupKeySchema (.string id) = .ok key → queue ∉ KNOWN_QUEUES) :
    ((DedupController.clear zod queue (.string id)).run (searchService rest store) []).1 = [] := by
  have hfails : (DedupController.clear zod queue (.string id) :
      Handler labLibrary Bool).FailsAtOnce := by
    apply Program.FailsAtOnce.bind_done
    intro key hkey
    have hqueue := h key (parseRequest_ok_iff.mp hkey)
    rw [AdminQueuesService.getManagedQueue, assertKnownQueue_of_not_mem hqueue]
    exact ⟨_, rfl⟩
  obtain ⟨e, hrun⟩ := hfails.run (searchService rest store) []
  rw [hrun]

theorem view_reads (queue id : String) :
    (DedupController.view zod queue (.string id) : Handler labLibrary _).CallsOnly
      fun c ↦ ∀ store, perform store c = store := by
  apply Program.CallsOnly.bind_done
  intro key _
  apply Program.CallsOnly.bind
  · apply Program.CallsOnly.bind_done
    intro known _
    exact Program.callsOnly_call.mpr fun _ ↦ rfl
  · intro managed
    exact Program.callsOnly_call.mpr fun _ ↦ rfl

theorem exec_perform_of_reads {calls : List (Call labLibrary)}
    (h : ∀ c ∈ calls, ∀ store, perform store c = store) (store : SearchQueue) :
    exec perform store calls = store := by
  induction calls with
  | nil => rfl
  | cons c calls ih =>
      rw [exec_cons, h c List.mem_cons_self]
      exact ih fun c hc ↦ h c (List.mem_cons_of_mem _ hc)

end Requests

/-! ## The keys are registers of the run -/

/-- The jobs that hold the keys. -/
def holders (store : SearchQueue) (key : String) : Option String := store.keys.get? key

theorem holders_dropKey (store : SearchQueue) (key : String) :
    holders (store.dropKey key) = Function.update (holders store) key none := by
  funext other
  have hkeys : (store.dropKey key).keys = store.keys.delete key := rfl
  rw [holders, hkeys, InsertionMap.get?_delete, Function.update_apply]
  rfl

theorem holders_act (store : SearchQueue) (input : ReindexInput) (existing : Option String)
    (replaceable : Bool) :
    ∃ result, (ReindexService.act store input existing replaceable).2.result = .ok result ∧
      holders (ReindexService.act store input existing replaceable).1 =
        Function.update (holders store) (dedupId input.term) result.jobId := by
  obtain ⟨deduplication, hkey, hid⟩ : ∃ deduplication,
      (ReindexService.options input).deduplication = some deduplication ∧
        deduplication.id = dedupId input.term := by
    obtain ⟨term, mode⟩ := input
    cases mode <;> exact ⟨_, rfl, rfl⟩
  obtain ⟨enqueued, henqueue, hkeys⟩ :=
    @JobQueue.keys_enqueue _ store REINDEX_JOB ⟨input.term⟩ (ReindexService.options input)
      replaceable (ReindexService.jobId_options input) _ hkey
  simp only [ReindexService.act, henqueue]
  refine ⟨_, rfl, ?_⟩
  funext key
  rw [holders, hkeys, hid, Function.update_apply]
  rfl

section Steps

variable (zod : Zod) (rest : (c : Call labLibrary) → Except (Rejection Unit) c.Answer)

theorem exec_clear (store : SearchQueue) (queue id : String) :
    exec perform store
        ((DedupController.clear zod queue (.string id)).run (searchService rest store) []).1 =
      match if queue = SEARCH_QUEUE then
        (zod.safeParse DedupController.dedupKeySchema (.string id)).toOption else none with
      | some key => store.dropKey key
      | none => store := by
  cases hparse : zod.safeParse DedupController.dedupKeySchema (.string id) with
  | error issues =>
      rw [run_clear_of_unknown (by simp [hparse])]
      simp [Except.toOption]
  | ok key =>
      by_cases hqueue : queue ∈ KNOWN_QUEUES
      · rw [run_clear_of_known hparse hqueue]
        simp only [exec_cons, exec_nil, perform, Except.toOption]
        split <;> rfl
      · have hother : queue ≠ SEARCH_QUEUE := by
          rintro rfl
          exact hqueue (by decide)
        rw [run_clear_of_unknown fun _ _ ↦ hqueue, if_neg hother]
        rfl

theorem reindexInput_eq_none {request : ApiRequest} (h : request.method ≠ .post) :
    reindexInput zod request = none := by
  unfold reindexInput
  split
  · next hpost _ => exact absurd hpost h
  · rfl

/-- A request that is routed views a key, or clears the one it names. -/
theorem dedupHandler_cases (request : ApiRequest) :
    dedupHandler zod request = none ∧ clearedKey zod request = none ∨
    ∃ queue id,
      (dedupHandler zod request = some (.inl <$> DedupController.view zod queue (.string id)) ∧
        clearedKey zod request = none) ∨
      dedupHandler zod request = some (.inr <$> DedupController.clear zod queue (.string id)) ∧
        clearedKey zod request = if queue = SEARCH_QUEUE then
          (zod.safeParse DedupController.dedupKeySchema (.string id)).toOption else none := by
  obtain ⟨method, path, body⟩ := request
  cases method with
  | post => exact .inl ⟨rfl, rfl⟩
  | put => exact .inl ⟨rfl, rfl⟩
  | get =>
      unfold dedupHandler
      split
      · next queue id _ _ => exact .inr ⟨queue, id, .inl ⟨rfl, rfl⟩⟩
      · next hmethod _ => contradiction
      · exact .inl ⟨rfl, rfl⟩
  | delete =>
      unfold dedupHandler clearedKey
      split
      · next hmethod _ => contradiction
      · next queue id _ hroute =>
          refine .inr ⟨queue, id, .inr ⟨rfl, ?_⟩⟩
          simp only [hroute]
      · next hget hdelete =>
          left
          refine ⟨rfl, ?_⟩
          split
          · next queue id _ hroute => exact absurd hroute (hdelete queue id rfl)
          · rfl

/-- A request clears the key it names, and changes nothing else. -/
theorem store_receive (s : ReindexService.Calls) (request : ApiRequest) :
    (labStep zod rest s (.receive request)).store =
      match clearedKey zod request with
      | some key => s.store.dropKey key
      | none => s.store := by
  cases hinput : reindexInput zod request with
  | some input =>
      have hpost : request.method = .post := by
        by_contra hmethod
        rw [reindexInput_eq_none zod hmethod] at hinput
        contradiction
      have hcleared : clearedKey zod request = none := by
        unfold clearedKey
        rw [hpost]
      simp only [labStep, hinput, hcleared]
      rfl
  | none =>
      simp only [labStep, hinput, dedupRun]
      rcases dedupHandler_cases zod request with
        ⟨hhandler, hcleared⟩ | ⟨queue, id, ⟨hhandler, hcleared⟩ | ⟨hhandler, hcleared⟩⟩
      · simp only [hhandler, hcleared, Option.map_none]
      · simp only [hhandler, hcleared, Option.map_some, Program.run_map]
        apply exec_perform_of_reads
        exact (view_reads queue id).run _ (by simp)
      · simp only [hhandler, hcleared, Option.map_some, Program.run_map]
        exact exec_clear zod rest s.store queue id

/-- Every step does to the keys what it reports. -/
theorem holders_labStep (s : ReindexService.Calls) (e : LabEvent) :
    holders (labStep zod rest s e).store = assign (holders s.store) (keyUpdates zod s e) := by
  cases e with
  | receive request =>
      rw [store_receive, keyUpdates]
      cases clearedKey zod request with
      | none => rfl
      | some key => exact holders_dropKey s.store key
  | act call replaceable =>
      rw [labStep, keyUpdates]
      cases hcall : s.pending[call]? with
      | none =>
          rw [Protocol.step_act_none hcall]
          rfl
      | some acting =>
          obtain ⟨input, seen⟩ := acting
          obtain ⟨result, hresult, hholders⟩ := holders_act s.store input seen replaceable
          rw [Protocol.step_act_some hcall]
          simp only [hresult]
          exact hholders
  | change change =>
      cases change with
      | dropKey key => exact holders_dropKey s.store key
      | remove id => rfl

end Steps

/-! ## The inspector of a term -/

section Inspector

variable {zod : Zod} (hchecks : zod.Checks)
  (rest : (c : Call labLibrary) → Except (Rejection Unit) c.Answer)

include hchecks

theorem dedupRun_view (store : SearchQueue) {term : String}
    (hterm : JsString.length term ≤ MAX_TERM_LENGTH) :
    (dedupRun zod rest store (viewDedupKey term)).map Prod.snd =
      some (.ok (.inl (holders store (dedupId term)))) := by
  have hhandler : dedupHandler zod (viewDedupKey term) =
      some (.inl <$> DedupController.view zod SEARCH_QUEUE (.string (dedupId term))) := by
    simp only [dedupHandler, viewDedupKey, (namesKey_dedupKeyPath term).route]
  have haccepted := (concernsKey_dedupId labLibrary hchecks hterm).accepted
  rw [dedupRun, hhandler, Option.map_some, Program.run_map,
    run_view_of_known haccepted (by decide), if_pos rfl]
  rfl

theorem dedupRun_clear (store : SearchQueue) {term : String}
    (hterm : JsString.length term ≤ MAX_TERM_LENGTH) :
    (dedupRun zod rest store (clearDedupKey term)).map Prod.snd =
      some (.ok (.inr (holders store (dedupId term)).isSome)) := by
  have hhandler : dedupHandler zod (clearDedupKey term) =
      some (.inr <$> DedupController.clear zod SEARCH_QUEUE (.string (dedupId term))) := by
    simp only [dedupHandler, clearDedupKey, (namesKey_dedupKeyPath term).route]
  have haccepted := (concernsKey_dedupId labLibrary hchecks hterm).accepted
  rw [dedupRun, hhandler, Option.map_some, Program.run_map,
    run_clear_of_known haccepted (by decide)]
  simp [holders, Except.map]

theorem inspect_eq (s : ReindexService.Calls) {term : String}
    (hterm : JsString.length term ≤ MAX_TERM_LENGTH) :
    inspect zod rest s term = some (.inl (holders s.store (dedupId term))) := by
  have hrun := dedupRun_view hchecks rest s.store hterm
  obtain ⟨outcome, houtcome, hanswer⟩ := Option.map_eq_some_iff.mp hrun
  rw [inspect, houtcome, Option.bind_some, hanswer]
  rfl

theorem store_clear (s : ReindexService.Calls) {term : String}
    (hterm : JsString.length term ≤ MAX_TERM_LENGTH) :
    (labStep zod rest s (.receive (clearDedupKey term))).store =
      s.store.dropKey (dedupId term) := by
  have hcleared : clearedKey zod (clearDedupKey term) = some (dedupId term) := by
    simp only [clearedKey, clearDedupKey, (namesKey_dedupKeyPath term).route, if_true,
      (concernsKey_dedupId labLibrary hchecks hterm).accepted, Except.toOption]
  rw [store_receive, hcleared]

end Inspector

theorem act_created (store : SearchQueue) {term : String}
    (hfree : holders store (dedupId term) = none) (mode : DedupMode) (existing : Option String)
    (replaceable : Bool) :
    (ReindexService.act store ⟨term, mode⟩ existing replaceable).2.created = true := by
  rcases ReindexService.act_cases store ⟨term, mode⟩ existing replaceable with
    ⟨held, hheld, -, -⟩ | ⟨-, after, -, hact⟩
  · rw [ReindexService.holder_options] at hheld
    exact absurd (hheld.symm.trans hfree) (by simp)
  · rw [hact]

theorem act_collapsed (store : SearchQueue) {term held : String} {mode : DedupMode}
    {replaceable : Bool} (hheld : holders store (dedupId term) = some held)
    (hkept : JobQueue.replaces (ReindexService.options ⟨term, mode⟩) replaceable = false)
    (existing : Option String) :
    ∃ result, (ReindexService.act store ⟨term, mode⟩ existing replaceable).2 =
      ⟨.ok result, false⟩ ∧ result.jobId = some held := by
  have hholder : store.holder (ReindexService.options ⟨term, mode⟩) = some held := by
    rw [ReindexService.holder_options]
    exact hheld
  rcases ReindexService.act_cases store ⟨term, mode⟩ existing replaceable with
    ⟨other, hother, -, hact⟩ | ⟨hreplaces, -⟩
  · obtain rfl := Option.some.inj (hholder.symm.trans hother)
    rw [hact]
    exact ⟨_, rfl, rfl⟩
  · rw [hreplaces held hholder] at hkept
    contradiction

/-! ## The laboratory over whole runs -/

section Runs

variable (zod : Zod) (rest : (c : Call labLibrary) → Except (Rejection Unit) c.Answer)

def labRun (queue : SearchQueue) (events : List LabEvent) : ReindexService.Calls :=
  exec (labStep zod rest) ⟨queue, [], []⟩ events

/-- The job that the last reindex of the term was answered with, if the key has
neither lapsed nor been cleared since. -/
def lastHolder (queue : SearchQueue) (events : List LabEvent) (term : String) : Option String :=
  (lastUpdate (emitted (labStep zod rest) (keyUpdates zod) ⟨queue, [], []⟩ events)
    (dedupId term)).getD (holders queue (dedupId term))

theorem holders_labRun (queue : SearchQueue) (events : List LabEvent) (term : String) :
    holders (labRun zod rest queue events).store (dedupId term) =
      lastHolder zod rest queue events term := by
  have hread := @read_exec _ _ _ _ _ (labStep zod rest) (keyUpdates zod)
    (fun s : ReindexService.Calls ↦ holders s.store) (holders_labStep zod rest)
    ⟨queue, [], []⟩ events
  rw [lastHolder, ← assign_eq]
  exact congrFun hread (dedupId term)

/-- In every run the inspector shows the last holder of a term, into which a
reindex of the term collapses unless it replaces it. Clearing a term answers
whether there was one; then the inspector shows none, the next reindex of the
term creates a job, and every other term is shown as before. -/
theorem dedup_lab_shows_holder (hchecks : zod.Checks) (queue : SearchQueue)
    (events : List LabEvent) {term : String}
    (hterm : JsString.length term ≤ MAX_TERM_LENGTH) :
    let s := labRun zod rest queue events
    let cleared := labStep zod rest s (.receive (clearDedupKey term))
    inspect zod rest s term = some (.inl (lastHolder zod rest queue events term)) ∧
    (∀ held mode existing replaceable, lastHolder zod rest queue events term = some held →
      JobQueue.replaces (ReindexService.options ⟨term, mode⟩) replaceable = false →
        ∃ result, (ReindexService.act s.store ⟨term, mode⟩ existing replaceable).2 =
          ⟨.ok result, false⟩ ∧ result.jobId = some held) ∧
    (dedupRun zod rest s.store (clearDedupKey term)).map Prod.snd =
      some (.ok (.inr (lastHolder zod rest queue events term).isSome)) ∧
    inspect zod rest cleared term = some (.inl none) ∧
    (∀ mode existing replaceable,
      (ReindexService.act cleared.store ⟨term, mode⟩ existing replaceable).2.created = true) ∧
    ∀ other, JsString.length other ≤ MAX_TERM_LENGTH → other ≠ term →
      inspect zod rest cleared other = inspect zod rest s other := by
  intro s cleared
  have hholder := holders_labRun zod rest queue events term
  have hcleared : holders cleared.store =
      Function.update (holders s.store) (dedupId term) none := by
    rw [store_clear hchecks rest s hterm, holders_dropKey]
  have hfree : holders cleared.store (dedupId term) = none := by
    rw [hcleared, Function.update_self]
  refine ⟨?_, ?_, ?_, ?_, act_created _ hfree, ?_⟩
  · rw [inspect_eq hchecks rest s hterm, hholder]
  · intro held mode existing replaceable hheld hkept
    exact act_collapsed _ (hholder.trans hheld) hkept existing
  · rw [dedupRun_clear hchecks rest s.store hterm, hholder]
  · rw [inspect_eq hchecks rest cleared hterm, hfree]
  · intro other hother hne
    have hkey : dedupId other ≠ dedupId term := fun hid ↦
      hne ((String.append_right_inj _).mp hid)
    rw [inspect_eq hchecks rest cleared hother, inspect_eq hchecks rest s hother, hcleared,
      Function.update_of_ne hkey]

def shoes : ApiRequest :=
  ⟨.post, "/search/reindex", .object [(.own "term", .string "shoes"),
    (.own "mode", .string "simple")]⟩

/-- Two reindexes of one term, the second collapsing into the first. -/
def shoesTwice : List LabEvent := [.receive shoes, .receive shoes, .act 0 false, .act 0 false]

def failing (c : Call labLibrary) : Except (Rejection Unit) c.Answer := .error (.library ())

theorem dedup_lab_shows_shoes :
    inspect (.ofParse fun _ ↦ none) failing
      (labRun (.ofParse fun _ ↦ none) failing .empty shoesTwice) "shoes" =
        some (.inl (some "1")) := by
  have hholder : lastHolder (.ofParse fun _ ↦ none) failing .empty shoesTwice "shoes" =
      some "1" := by decide +kernel
  rw [← hholder]
  exact (dedup_lab_shows_holder (.ofParse fun _ ↦ none) failing (Zod.checks_ofParse _) .empty
    shoesTwice (by decide)).1

end Runs

end NestQueueExample.Web
