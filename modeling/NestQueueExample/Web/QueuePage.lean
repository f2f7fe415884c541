import Mathlib.Data.List.Range
import Mathlib.Tactic.NormNum
import NestQueueExample.Admin.Queues
import NestQueueExample.Foundations.JsNumber
import NestQueueExample.Foundations.UrlQuery
import NestQueueExample.Web.Requests

/-!
# The jobs of a queue, page by page

The queue page asks for the jobs in a status by the first and the last index of
a page, and the API reads both numbers off the query. While the queue is at
rest, the pages that can be reached are those that begin within the list or at
its end, and put together they show every job once, in order.
-/

namespace NestQueueExample.Web

open Admin Http Queues Runs UrlPath UrlQuery

/-! ## Requests -/

def queueJobsPath (queue status : String) (start end_ : ℕ) : String :=
  "/admin/queues/" ++ queue ++ "/jobs?status=" ++ status ++ "&start=" ++ start.repr ++ "&end=" ++
    end_.repr

def jobsRoute : List PatternSegment :=
  [.literal "admin", .literal "queues", .param, .literal "jobs"]

variable {L : Library}

def jobsHandler (zod : Zod) (req : ApiRequest) : Option (Handler L (List JobView)) :=
  match req.method, route jobsRoute req.path, parseQuery req.path with
  | .get, some [name], some query => some (QueuesController.jobs zod name (queryObject query))
  | _, _, _ => none

def useQueueJobs (queue status : String) (start end_ : ℕ) : ApiRequest :=
  ⟨.get, queueJobsPath queue status start end_, .undefined⟩

/-- What the reading of a query relies on. -/
structure ReadsQueries (zod : Zod) : Prop where
  checks : zod.Checks
  composes : zod.Composes
  fills : zod.Fills
  coerces : zod.Coerces JsValue.toFinite

section Requests

variable {zod : Zod} {queue status : String} {start end_ : ℕ}

def jobsSegments (queue : String) : List Segment :=
  ["admin".toList, "queues".toList, queue.toList, "jobs".toList]

def jobsPairs (status : String) (start end_ : ℕ) : List (List Char × List Char) :=
  [("status".toList, status.toList), ("start".toList, start.repr.toList),
    ("end".toList, end_.repr.toList)]

theorem queueJobsPath_eq (queue status : String) (start end_ : ℕ) :
    queueJobsPath queue status start end_ =
      String.ofList
        (pathText (jobsSegments queue) ++ '?' :: pairsText (jobsPairs status start end_)) := by
  apply String.toList_injective
  change ("/admin/queues/" ++ queue ++ "/jobs?status=" ++ status ++ "&start=" ++ start.repr ++
    "&end=" ++ end_.repr).toList = _
  simp [jobsSegments, jobsPairs, pathText, pairsText, pairText]

theorem isWord_repr (n : ℕ) : IsWord n.repr.toList := by
  intro c hc
  have hdigit := JsNumber.isDigit_of_mem_repr hc
  have halphanum : c.isAlphanum = (c.isAlpha || c.isDigit) := rfl
  rw [isWordChar, halphanum, hdigit]
  simp

theorem isWord_of_mem_KNOWN_QUEUES (hqueue : queue ∈ KNOWN_QUEUES) :
    IsWord queue.toList ∧ queue.toList.isEmpty = false := by
  have hall : ∀ name ∈ KNOWN_QUEUES,
      (name.toList.all isWordChar && !name.toList.isEmpty) = true :=
    List.all_eq_true.mp (by decide)
  have hname := hall queue hqueue
  rw [Bool.and_eq_true, Bool.not_eq_true'] at hname
  exact ⟨List.all_eq_true.mp hname.1, hname.2⟩

theorem plain_jobsSegments (hqueue : queue ∈ KNOWN_QUEUES) :
    ∀ s ∈ jobsSegments queue, PlainSegment s ∧ '%' ∉ s := by
  have hname := plainSegment_of_isWord (isWord_of_mem_KNOWN_QUEUES hqueue).1
  rw [jobsSegments, List.forall_mem_cons, List.forall_mem_cons, List.forall_mem_cons,
    List.forall_mem_singleton]
  exact ⟨⟨plainSegment_of_all (by decide), by decide⟩,
    ⟨plainSegment_of_all (by decide), by decide⟩, hname,
    ⟨plainSegment_of_all (by decide), by decide⟩⟩

theorem isWord_jobsPairs (hstatus : IsWord status.toList) :
    ∀ pair ∈ jobsPairs status start end_, IsWord pair.1 ∧ IsWord pair.2 := by
  have hnames : IsWord "status".toList ∧ IsWord "start".toList ∧ IsWord "end".toList :=
    ⟨List.all_eq_true.mp (by decide), List.all_eq_true.mp (by decide),
      List.all_eq_true.mp (by decide)⟩
  rw [jobsPairs, List.forall_mem_cons, List.forall_mem_cons, List.forall_mem_singleton]
  exact ⟨⟨hnames.1, hstatus⟩, ⟨hnames.2.1, isWord_repr start⟩, hnames.2.2, isWord_repr end_⟩

theorem route_queueJobsPath (hqueue : queue ∈ KNOWN_QUEUES) (hstatus : IsWord status.toList) :
    route jobsRoute (queueJobsPath queue status start end_) = some [queue] := by
  have hblank : ∀ c ∈ pairsText (jobsPairs status start end_), isBlank c = false := by
    intro c hc
    rcases mem_pairsText (isWord_jobsPairs hstatus) c hc with hkept | rfl | rfl
    · simp only [isKept, Bool.and_eq_true, Bool.not_eq_true'] at hkept
      exact hkept.1.2
    · decide
    · decide
  rw [queueJobsPath_eq, route_plain_query (plain_jobsSegments hqueue) hblank, jobsRoute,
    jobsSegments, matchRoute, if_pos (by decide), matchRoute, if_pos (by decide), matchRoute,
    (isWord_of_mem_KNOWN_QUEUES hqueue).2]
  simp [matchRoute]

theorem parseQuery_queueJobsPath (hqueue : queue ∈ KNOWN_QUEUES) (hstatus : IsWord status.toList) :
    parseQuery (queueJobsPath queue status start end_) =
      some [("status", status), ("start", start.repr), ("end", end_.repr)] := by
  rw [queueJobsPath_eq, parseQuery_pairsText (fun s hs ↦ (plain_jobsSegments hqueue s hs).1)
    (isWord_jobsPairs hstatus)]
  simp only [jobsPairs, List.map_cons, List.map_nil, String.ofList_toList]

theorem queryObject_jobs (a b c : String) :
    queryObject [("status", a), ("start", b), ("end", c)] =
      .object [(.own "status", .string a), (.own "start", .string b), (.own "end", .string c)] := by
  simp [queryObject, addPair, JsValue.get?]

theorem jobsQuery_ok (hzod : ReadsQueries zod) (hstatus : status ∈ L.JOB_STATUS)
    (hstart : start < 2 ^ 53) (hend : end_ < 2 ^ 53) :
    zod.safeParse (QueuesController.jobsQuerySchema L)
        (queryObject [("status", status), ("start", start.repr), ("end", end_.repr)]) =
      .ok ⟨⟨status, hstatus⟩, start, end_⟩ := by
  have hnumber : ∀ n : ℕ, n < 2 ^ 53 → zod.safeParse
      (.default (.coerceNumber [.int, .nonnegative]) 0) (.string n.repr) = .ok (n : ℚ) ∧
        zod.safeParse (.default (.coerceNumber [.int, .nonnegative]) 50) (.string n.repr) =
          .ok (n : ℚ) := by
    intro n hn
    have hint : NumberCheck.int.holds n = true := by
      have hle : (n : ℚ) ≤ MAX_SAFE_INTEGER := by
        have hcast : ((2 ^ 53 - 1 : ℕ) : ℚ) = MAX_SAFE_INTEGER := by
          norm_num [MAX_SAFE_INTEGER]
        rw [← hcast, Nat.cast_le]
        omega
      have hnonneg : (0 : ℚ) ≤ n := Nat.cast_nonneg n
      refine decide_eq_true ⟨rfl, le_trans ?_ hnonneg, hle⟩
      exact neg_nonpos.mpr (hnonneg.trans hle)
    have hnonnegative : NumberCheck.nonnegative.holds n = true :=
      decide_eq_true (Nat.cast_nonneg n)
    have hholds : ∀ check ∈ [NumberCheck.int, .nonnegative], check.holds n = true := by
      rw [List.forall_mem_cons, List.forall_mem_singleton]
      exact ⟨hint, hnonnegative⟩
    have hcoerced := hzod.coerces.coerceNumber_string (JsNumber.toFinite_repr hn) hholds
    constructor
    · rw [hzod.composes.default_given (by simp), hcoerced]
    · rw [hzod.composes.default_given (by simp), hcoerced]
  have hfields : zod.FieldsParsed
      (.object [(.own "status", .string status), (.own "start", .string start.repr),
        (.own "end", .string end_.repr)])
      (.cons "status" (.enum L.JOB_STATUS) <|
        .cons "start" (.default (.coerceNumber [.int, .nonnegative]) 0) <|
        .cons "end" (.default (.coerceNumber [.int, .nonnegative]) 50) .nil)
      (⟨status, hstatus⟩, (start : ℚ), (end_ : ℚ), ()) := by
    refine ⟨?_, ?_, ?_, trivial⟩
    · rw [JsValue.read_own]
      exact hzod.checks.enum_iff.mpr rfl
    · rw [JsValue.read_own_of_ne (by decide), JsValue.read_own]
      exact (hnumber start hstart).1
    · rw [JsValue.read_own_of_ne (by decide), JsValue.read_own_of_ne (by decide),
        JsValue.read_own]
      exact (hnumber end_ hend).2
  rw [queryObject_jobs]
  exact hzod.fills.object_fields hfields

/-- The request of a page is carried out as a listing of just this page. -/
theorem jobsHandler_useQueueJobs (hzod : ReadsQueries zod) (hqueue : queue ∈ KNOWN_QUEUES)
    (hstatus : status ∈ L.JOB_STATUS) (hword : IsWord status.toList) (hstart : start < 2 ^ 53)
    (hend : end_ < 2 ^ 53) :
    jobsHandler zod (useQueueJobs queue status start end_) =
      some (AdminQueuesService.listJobs queue status start end_ : Handler L (List JobView)) := by
  have hquery : (parseRequest zod (QueuesController.jobsQuerySchema L)
      (queryObject [("status", status), ("start", start.repr), ("end", end_.repr)]) :
        Except (Rejection L.Error) (QueuesController.JobsQuery L)) =
      .ok ⟨⟨status, hstatus⟩, start, end_⟩ :=
    parseRequest_ok_iff.mpr (jobsQuery_ok hzod hstatus hstart hend)
  simp only [jobsHandler, useQueueJobs, route_queueJobsPath hqueue hword,
    parseQuery_queueJobsPath hqueue hword, QueuesController.jobs, hquery]
  rfl

end Requests

/-! ## The panel -/

def PAGE_SIZE : ℕ := 20

structure JobsPanel (L : Library) where
  status : {status : String // status ∈ L.JOB_STATUS}
  page : ℕ
  /-- The answer to the request of this page, once there is one. -/
  jobs : Option (List JobView)

inductive PanelEvent (L : Library) where
  | onChange (next : {status : String // status ∈ L.JOB_STATUS})
  | onPrevious
  | onNext
  /-- The request is answered by a library that has received these calls. -/
  | poll (log : List (Call L))

abbrev LibraryService (L : Library) :=
  Program.Service (Call L) Call.Answer (Rejection L.Error)

namespace JobsPanel

def hasNext (s : JobsPanel L) : Bool := PAGE_SIZE ≤ (s.jobs.getD []).length

def request (name : String) (s : JobsPanel L) : ApiRequest :=
  let start := s.page * PAGE_SIZE
  useQueueJobs name s.status.1 start (start + PAGE_SIZE - 1)

/-- The rows of the page after the request is answered: a failure leaves them
as they are. -/
def answered (zod : Zod) (service : LibraryService L) (name : String) (s : JobsPanel L)
    (log : List (Call L)) : Option (List JobView) :=
  ((jobsHandler zod (s.request name)).bind fun handler ↦
    (handler.run service log).2.toOption).or s.jobs

/-- A disabled button does nothing. -/
def step (zod : Zod) (service : LibraryService L) (name : String) (s : JobsPanel L) :
    PanelEvent L → JobsPanel L
  | .onChange next => ⟨next, 0, none⟩
  | .onPrevious => if s.page = 0 then s else ⟨s.status, s.page - 1, none⟩
  | .onNext => if s.hasNext then ⟨s.status, s.page + 1, none⟩ else s
  | .poll log => { s with jobs := s.answered zod service name log }

end JobsPanel

/-- The library lists the jobs of a queue at rest by its first and last index,
both included. -/
def Lists (service : LibraryService L) (jobsIn : String → String → List Job) : Prop :=
  ∀ (log : List (Call L)) (name status : String) (start end_ : ℕ),
    service log (fun _ : Fin 1 ↦ .getJobs name status start end_) =
      .ok fun _ ↦ ((jobsIn name status).drop start).take (end_ + 1 - start)

/-- What is on one page of a list. -/
def pageOf {α : Type*} (items : List α) (page : ℕ) : List α :=
  (items.drop (page * PAGE_SIZE)).take PAGE_SIZE

theorem flatMap_pageOf {α : Type*} (items : List α) (count : ℕ) :
    (List.range count).flatMap (pageOf items) = items.take (count * PAGE_SIZE) := by
  induction count with
  | zero => simp
  | succ count ih =>
      rw [List.range_succ, List.flatMap_append, ih, List.flatMap_singleton, pageOf, Nat.succ_mul,
        List.take_add]

theorem length_pageOf {α : Type*} (items : List α) (page : ℕ) :
    (pageOf items page).length = min PAGE_SIZE (items.length - page * PAGE_SIZE) := by
  rw [pageOf, List.length_take, List.length_drop]

section Panel

variable {zod : Zod} {service : LibraryService L} {jobsIn : String → String → List Job}
  {name : String}

/-- The queue is managed, its statuses are words, and its lists are no longer
than a number counts exactly. -/
structure Listed (L : Library) (jobsIn : String → String → List Job) (name : String) : Prop where
  managed : name ∈ KNOWN_QUEUES
  word : ∀ status ∈ L.JOB_STATUS, IsWord status.toList
  length_le : ∀ status ∈ L.JOB_STATUS, (jobsIn name status).length + PAGE_SIZE ≤ 2 ^ 53

def rowsOf (jobsIn : String → String → List Job) (name status : String) (page : ℕ) :
    List JobView :=
  (pageOf (jobsIn name status) page).map toJobView

/-- What holds of the panel of a queue at rest: the page begins within the list
or at its end, and the rows are those of the page. -/
structure JobsPanel.Shows (jobsIn : String → String → List Job) (name : String)
    (s : JobsPanel L) : Prop where
  within : s.page * PAGE_SIZE ≤ (jobsIn name s.status.1).length
  rows : ∀ jobs ∈ s.jobs, jobs = rowsOf jobsIn name s.status.1 s.page

theorem listJobs_run (hlists : Lists service jobsIn) (hqueue : name ∈ KNOWN_QUEUES)
    (log : List (Call L)) (status : String) (start end_ : ℕ) :
    ((AdminQueuesService.listJobs name status start end_ : Handler L (List JobView)).run
        service log).2 =
      .ok ((((jobsIn name status).drop start).take (end_ + 1 - start)).map toJobView) := by
  have hknown : (assertKnownQueue name : Except (Rejection L.Error) KnownQueue) =
      .ok ⟨name, hqueue⟩ := dif_pos hqueue
  have hround := hlists log name status start end_
  rw [AdminQueuesService.listJobs, hknown]
  simp only [Program.run, Program.bind, bind, Program.call]
  rw [hround]
  rfl

theorem answered_eq (hzod : ReadsQueries zod) (hlisted : Listed L jobsIn name)
    (hlists : Lists service jobsIn) {s : JobsPanel L} (h : s.Shows jobsIn name)
    (log : List (Call L)) :
    s.answered zod service name log = some (rowsOf jobsIn name s.status.1 s.page) := by
  have hlength := hlisted.length_le s.status.1 s.status.2
  have hwithin := h.within
  have hpage : s.page * PAGE_SIZE + PAGE_SIZE - 1 + 1 - s.page * PAGE_SIZE = PAGE_SIZE := by
    rw [PAGE_SIZE]
    omega
  have hhandler : jobsHandler zod (s.request name) =
      some (AdminQueuesService.listJobs name s.status.1 ((s.page * PAGE_SIZE : ℕ) : ℚ)
        ((s.page * PAGE_SIZE + PAGE_SIZE - 1 : ℕ) : ℚ) : Handler L (List JobView)) := by
    apply jobsHandler_useQueueJobs hzod hlisted.managed s.status.2
      (hlisted.word s.status.1 s.status.2)
    · rw [PAGE_SIZE] at *
      omega
    · rw [PAGE_SIZE] at *
      omega
  rw [JobsPanel.answered, hhandler, Option.bind_some,
    listJobs_run hlists hlisted.managed, hpage]
  rfl

theorem JobsPanel.Shows.turned {s : JobsPanel L} {page : ℕ}
    (h : page * PAGE_SIZE ≤ (jobsIn name s.status.1).length) :
    (⟨s.status, page, none⟩ : JobsPanel L).Shows jobsIn name :=
  ⟨h, by simp⟩

theorem JobsPanel.Shows.next {s : JobsPanel L} (h : s.Shows jobsIn name)
    (hnext : s.hasNext = true) : (s.page + 1) * PAGE_SIZE ≤ (jobsIn name s.status.1).length := by
  have hlength : PAGE_SIZE ≤ (s.jobs.getD []).length := of_decide_eq_true hnext
  cases hjobs : s.jobs with
  | none =>
      rw [hjobs] at hlength
      exact absurd hlength (by decide)
  | some jobs =>
      rw [hjobs, Option.getD_some, h.rows jobs hjobs, rowsOf, List.length_map, length_pageOf]
        at hlength
      have hwithin := h.within
      rw [PAGE_SIZE] at *
      omega

theorem JobsPanel.Shows.step (hzod : ReadsQueries zod) (hlisted : Listed L jobsIn name)
    (hlists : Lists service jobsIn) {s : JobsPanel L} (h : s.Shows jobsIn name)
    (e : PanelEvent L) : (s.step zod service name e).Shows jobsIn name := by
  cases e with
  | onChange next => exact ⟨by simp [JobsPanel.step], by simp [JobsPanel.step]⟩
  | onPrevious =>
      by_cases hpage : s.page = 0
      · rw [JobsPanel.step, if_pos hpage]
        exact h
      · rw [JobsPanel.step, if_neg hpage]
        apply JobsPanel.Shows.turned
        exact (Nat.mul_le_mul_right PAGE_SIZE (Nat.sub_le s.page 1)).trans h.within
  | onNext =>
      by_cases hnext : s.hasNext = true
      · rw [JobsPanel.step, if_pos hnext]
        exact .turned (h.next hnext)
      · rw [JobsPanel.step, if_neg hnext]
        exact h
  | poll log =>
      rw [JobsPanel.step, answered_eq hzod hlisted hlists h log]
      exact ⟨h.within, fun jobs hjobs ↦ (Option.mem_some_iff.mp hjobs).symm⟩

theorem JobsPanel.shows_exec (hzod : ReadsQueries zod) (hlisted : Listed L jobsIn name)
    (hlists : Lists service jobsIn) (waiting : {status // status ∈ L.JOB_STATUS})
    (es : List (PanelEvent L)) :
    (exec (JobsPanel.step zod service name) ⟨waiting, 0, none⟩ es).Shows jobsIn name := by
  apply exec_invariant (I := fun s : JobsPanel L ↦ s.Shows jobsIn name) _ ?_ ?_ es
  · exact fun s e h ↦ h.step hzod hlisted hlists e
  · exact ⟨by simp, by simp⟩

theorem exists_page (hzod : ReadsQueries zod) (hlisted : Listed L jobsIn name)
    (hlists : Lists service jobsIn) (s : JobsPanel L) (status : {status // status ∈ L.JOB_STATUS})
    {page : ℕ} (hpage : page * PAGE_SIZE ≤ (jobsIn name status.1).length) :
    ∃ es, exec (JobsPanel.step zod service name) s es =
      ⟨status, page, some (rowsOf jobsIn name status.1 page)⟩ := by
  induction page with
  | zero =>
      have hshows : (⟨status, 0, none⟩ : JobsPanel L).Shows jobsIn name := ⟨by simp, by simp⟩
      refine ⟨[.onChange status, .poll []], ?_⟩
      rw [exec_cons, exec_cons, exec_nil, JobsPanel.step, JobsPanel.step,
        answered_eq hzod hlisted hlists hshows]
  | succ page ih =>
      rw [Nat.succ_mul] at hpage
      obtain ⟨es, hes⟩ := ih (by omega)
      have hnext : (⟨status, page, some (rowsOf jobsIn name status.1 page)⟩ :
          JobsPanel L).hasNext = true := by
        apply decide_eq_true
        rw [Option.getD_some, rowsOf, List.length_map, length_pageOf]
        omega
      have hshows : (⟨status, page + 1, none⟩ : JobsPanel L).Shows jobsIn name := by
        refine ⟨?_, by simp⟩
        rw [Nat.succ_mul]
        exact hpage
      refine ⟨es ++ [PanelEvent.onNext, PanelEvent.poll []], ?_⟩
      rw [exec_append, hes, exec_cons, exec_cons, exec_nil, JobsPanel.step, if_pos hnext,
        JobsPanel.step, answered_eq hzod hlisted hlists hshows]

end Panel

section Witness

def listingLibrary : Library := ⟨Unit, Unit, Unit, Empty, ["waiting", "active"]⟩

def receiptOf (id : String) : Job :=
  ⟨some id, "receipt", .null, 0, 0, 0, .number 0, .undefined, none, none⟩

def receipts : List Job := (List.range 25).map fun i ↦ receiptOf i.repr

def listingAnswer (jobsIn : String → String → List Job) :
    (call : Call listingLibrary) → Except (Rejection listingLibrary.Error) call.Answer
  | .getJobs name status start end_ => .ok
      (((jobsIn name status).drop start.num.toNat).take (end_.num.toNat + 1 - start.num.toNat))
  | .getJob _ id => .ok (some (receiptOf id))
  | _ => .error (.queue ⟨QUEUE_NOT_FOUND, NOT_FOUND, []⟩)

def listingService (jobsIn : String → String → List Job) : LibraryService listingLibrary :=
  fun _ {_} calls ↦ Program.answerEach (listingAnswer jobsIn) calls

theorem lists_listingAnswer (jobsIn : String → String → List Job) :
    Lists (listingService jobsIn) jobsIn := by
  intro log name status start end_
  refine (Program.answerEach_one (listingAnswer jobsIn) _).trans ?_
  simp [listingAnswer, Except.map]

theorem readsQueries_ofParse : ReadsQueries (Zod.ofParse JsValue.toFinite) :=
  ⟨Zod.checks_ofParse _, Zod.composes_ofParse _, Zod.fills_ofParse _, Zod.coerces_ofParse _⟩

theorem listed_receipts : Listed listingLibrary (fun _ _ ↦ receipts) EMAIL_QUEUE := by
  have hwords : ∀ status ∈ listingLibrary.JOB_STATUS, status.toList.all isWordChar = true :=
    List.all_eq_true.mp (by decide)
  refine ⟨by decide, fun status h ↦ List.all_eq_true.mp (hwords status h), fun _ _ ↦ ?_⟩
  have hlength : receipts.length = 25 := by simp [receipts]
  rw [hlength]
  decide

end Witness

end NestQueueExample.Web
