import NestQueueExample.Web.QueuePage

/-!
# From the row of a job to its page

The row of a job links to its page by the encoded id, the page hands the
undecoded parameter on to the API, and the API decodes it once. What is looked
up is the job of the row, unless its id is empty, too long or a dot segment, and
then nothing is looked up.
-/

namespace NestQueueExample.Web

open Admin Http PercentEncoding Queues Runs UrlPath UrlQuery

def jobHref (queue id : String) : String := "/jobs/" ++ queue ++ "/" ++ encodeURIComponent id

def jobPageRoute : List PatternSegment := [.literal "jobs", .param, .param]

/-- The parameters that a page under a pattern reads when a path is followed to
it, or nothing if the path leads elsewhere. -/
abbrev UseParams : Type := List PatternSegment → String → Option (List String)

/-- A page gets its parameters as they stand in the path. -/
structure HandsParams (useParams : UseParams) : Prop where
  matched {pattern : List PatternSegment} {path : String} {params : List Segment} :
    matchRoute pattern (segments path.toList) = some params →
      useParams pattern path = some (params.map String.ofList)
  unmatched {pattern : List PatternSegment} {path : String} :
    matchRoute pattern (segments path.toList) = none → useParams pattern path = none

def jobPath (queue id : String) : String := "/admin/jobs/" ++ queue ++ "/" ++ id

def useJob (queue id : String) : ApiRequest := ⟨.get, jobPath queue id, .undefined⟩

def jobRoute : List PatternSegment := [.literal "admin", .literal "jobs", .param, .param]

variable {L : Library}

def jobHandler (zod : Zod) (req : ApiRequest) : Option (Handler L JobView) :=
  match req.method, route jobRoute req.path with
  | .get, some [queue, id] => some (JobsController.find zod queue (.string id))
  | _, _ => none

/-- The lookup that following the link of a row leads to, if it leads to one. -/
def openJob (useParams : UseParams) (zod : Zod) (queue id : String) : Option (Handler L JobView) :=
  match useParams jobPageRoute (jobHref queue id) with
  | some [queue, id] => jobHandler zod (useJob queue id)
  | _ => none

/-- The ids whose link leads to their job. -/
def isJobId (id : String) : Bool :=
  !(["", ".", ".."].contains id) && decide (JsString.length id ≤ JobsController.MAX_JOB_ID_LENGTH)

section Links

variable {useParams : UseParams} {zod : Zod} {queue id : String}

theorem plain_encoded (hid : id ∉ ["", ".", ".."]) :
    PlainSegment (encodeURIComponent id).toList ∧
      (encodeURIComponent id).toList.isEmpty = false := by
  simp only [List.mem_cons, List.not_mem_nil, or_false, not_or] at hid
  refine ⟨plainSegment_encodeURIComponent hid.2.1 hid.2.2, ?_⟩
  rw [List.isEmpty_eq_false_iff]
  intro hnil
  have hsame : encodeURIComponent id = encodeURIComponent "" := by
    rw [String.toList_eq_nil_iff.mp hnil]
    rfl
  exact hid.1 (encodeURIComponent_injective hsame)

theorem useParams_jobHref (hparams : HandsParams useParams) (hqueue : queue ∈ KNOWN_QUEUES)
    (hid : id ∉ ["", ".", ".."]) :
    useParams jobPageRoute (jobHref queue id) = some [queue, encodeURIComponent id] := by
  obtain ⟨hplain, hempty⟩ := plain_encoded hid
  obtain ⟨hword, hname⟩ := isWord_of_mem_KNOWN_QUEUES hqueue
  have hpath : (jobHref queue id).toList =
      pathText ["jobs".toList, queue.toList, (encodeURIComponent id).toList] := by
    change ("/jobs/" ++ queue ++ "/" ++ encodeURIComponent id).toList = _
    simp [pathText]
  have hsegments : ∀ s ∈ ["jobs".toList, queue.toList, (encodeURIComponent id).toList],
      PlainSegment s := by
    rw [List.forall_mem_cons, List.forall_mem_cons, List.forall_mem_singleton]
    exact ⟨plainSegment_of_all (by decide), (plainSegment_of_isWord hword).1, hplain⟩
  have hmatch : matchRoute jobPageRoute (segments (jobHref queue id).toList) =
      some [queue.toList, (encodeURIComponent id).toList] := by
    rw [hpath, segments_pathText hsegments, jobPageRoute, matchRoute, if_pos (by decide),
      matchRoute, hname, matchRoute, hempty]
    simp [matchRoute]
  simpa using hparams.matched hmatch

theorem route_jobPath (hqueue : queue ∈ KNOWN_QUEUES) (hid : id ∉ ["", ".", ".."]) :
    route jobRoute (jobPath queue (encodeURIComponent id)) = some [queue, id] := by
  obtain ⟨hplain, hempty⟩ := plain_encoded hid
  obtain ⟨hword, hname⟩ := isWord_of_mem_KNOWN_QUEUES hqueue
  have hpath : jobPath queue (encodeURIComponent id) = String.ofList (pathText
      ["admin".toList, "jobs".toList, queue.toList, (encodeURIComponent id).toList]) := by
    apply String.toList_injective
    change ("/admin/jobs/" ++ queue ++ "/" ++ encodeURIComponent id).toList = _
    simp [pathText]
  have hsegments : ∀ s ∈ ["admin".toList, "jobs".toList, queue.toList,
      (encodeURIComponent id).toList], PlainSegment s := by
    rw [List.forall_mem_cons, List.forall_mem_cons, List.forall_mem_cons,
      List.forall_mem_singleton]
    exact ⟨plainSegment_of_all (by decide), plainSegment_of_all (by decide),
      (plainSegment_of_isWord hword).1, hplain⟩
  have hdecode : decodeParam (encodeURIComponent id).toList = some id := by
    rw [decodeParam, String.ofList_toList, decodeURIComponent_encodeURIComponent]
  rw [hpath, route_pathText hsegments, jobRoute, matchRoute, if_pos (by decide), matchRoute,
    if_pos (by decide), matchRoute, hname, matchRoute, hempty]
  simp [matchRoute, hdecode, decodeParam_eq_self (plainSegment_of_isWord hword).2]

theorem openJob_dots (hparams : HandsParams useParams) (hqueue : queue ∈ KNOWN_QUEUES)
    (hid : id ∈ ["", ".", ".."]) :
    (openJob useParams zod queue id : Option (Handler L JobView)) = none := by
  have hall : (KNOWN_QUEUES.all fun queue ↦ ["", ".", ".."].all fun id ↦
      (matchRoute jobPageRoute (segments (jobHref queue id).toList)).isNone) = true := by
    decide +kernel
  have hnone := List.all_eq_true.mp (List.all_eq_true.mp hall queue hqueue) id hid
  rw [openJob, hparams.unmatched (Option.isNone_iff_eq_none.mp hnone)]

theorem openJob_eq (hparams : HandsParams useParams) (hqueue : queue ∈ KNOWN_QUEUES)
    (hid : id ∉ ["", ".", ".."]) :
    (openJob useParams zod queue id : Option (Handler L JobView)) =
      some (JobsController.find zod queue (.string id)) := by
  simp only [openJob, useParams_jobHref hparams hqueue hid, jobHandler, useJob,
    route_jobPath hqueue hid]

theorem jobId_ok_iff {ε : Type} (hchecks : zod.Checks) {jobId : String}
    (hid : id ∉ ["", ".", ".."]) :
    (parseRequest zod JobsController.jobIdSchema (.string id) : Except (Rejection ε) String) =
      .ok jobId ↔ jobId = id ∧ isJobId id = true := by
  have hlength : 1 ≤ JsString.length id := JsString.one_le_length fun h ↦ hid (by simp [h])
  have hcontains : ["", ".", ".."].contains id = false := by
    rwa [← Bool.not_eq_true, List.contains_iff_mem]
  rw [parseRequest_ok_iff, JobsController.jobIdSchema, hchecks.string_iff]
  simp only [List.forall_mem_cons, List.not_mem_nil, StringCheck.holds, decide_eq_true_eq,
    JsValue.string.injEq, isJobId, hcontains, Bool.not_false, Bool.true_and]
  constructor
  · rintro ⟨rfl, -, hmax, -⟩
    exact ⟨rfl, hmax⟩
  · rintro ⟨rfl, hmax⟩
    exact ⟨rfl, hlength, hmax, by simp⟩

/-- The service finds the jobs that it lists. -/
def Finds (service : LibraryService L) (jobsIn : String → String → List Job) : Prop :=
  ∀ (log : List (Call L)) (name status : String), ∀ job ∈ jobsIn name status, ∀ id ∈ job.id,
    service log (fun _ : Fin 1 ↦ .getJob name id) = .ok fun _ ↦ some job

theorem findJob_run {service : LibraryService L} (hqueue : queue ∈ KNOWN_QUEUES)
    {log : List (Call L)} {job : Job}
    (h : service log (fun _ : Fin 1 ↦ .getJob queue id) = .ok fun _ ↦ some job) :
    ((AdminQueuesService.findJob queue id : Handler L JobView).run service log).2 =
      .ok (toJobView job) := by
  have hknown : (assertKnownQueue queue : Except (Rejection L.Error) KnownQueue) =
      .ok ⟨queue, hqueue⟩ := dif_pos hqueue
  rw [AdminQueuesService.findJob, hknown]
  simp only [Program.run, Program.bind, bind, Program.call]
  rw [h]
  rfl

theorem callsOnly_findJob (hqueue : queue ∈ KNOWN_QUEUES) :
    (AdminQueuesService.findJob queue id : Handler L JobView).CallsOnly
      (· = .getJob queue id) := by
  have hknown : (assertKnownQueue queue : Except (Rejection L.Error) KnownQueue) =
      .ok ⟨queue, hqueue⟩ := dif_pos hqueue
  rw [AdminQueuesService.findJob, hknown]
  refine .bind_done fun named hnamed ↦ .bind (Program.callsOnly_call.mpr ?_) fun job ↦ ?_
  · obtain rfl := Except.ok.inj hnamed
    rfl
  · cases job with
    | none => trivial
    | some job => trivial

/-- The link of a row of a reachable page looks up the job of the row and
nothing else, and finds it, if its id can be followed; else nothing is looked
up. -/
theorem job_row_opens_job (hparams : HandsParams useParams) (hzod : ReadsQueries zod)
    {service : LibraryService L} {jobsIn : String → String → List Job}
    (hlisted : Listed L jobsIn queue) (hlists : Lists service jobsIn)
    (hfinds : Finds service jobsIn) (waiting : {status // status ∈ L.JOB_STATUS})
    (es : List (PanelEvent L)) :
    ∀ rows ∈ (exec (JobsPanel.step zod service queue) ⟨waiting, 0, none⟩ es).jobs,
      ∀ row ∈ rows, ∀ id ∈ row.id,
        (isJobId id = true → ∃ handler : Handler L JobView,
          openJob useParams zod queue id = some handler ∧ handler.CallsOnly (· = .getJob queue id) ∧
            ∀ log, (handler.run service log).2 = .ok row) ∧
        (isJobId id = false → ∀ handler : Handler L JobView,
          openJob useParams zod queue id = some handler → handler.FailsAtOnce) := by
  intro rows hrows row hrow id hid
  have hshows := JobsPanel.shows_exec hzod hlisted hlists waiting es
  rw [hshows.rows rows hrows] at hrow
  obtain ⟨job, hjob, rfl⟩ := List.mem_map.mp hrow
  have hlist := List.mem_of_mem_drop (List.mem_of_mem_take hjob)
  by_cases hdots : id ∈ ["", ".", ".."]
  · have hnot : isJobId id = false := by
      rw [isJobId, List.contains_iff_mem.mpr hdots]
      rfl
    refine ⟨fun h ↦ by simp [hnot] at h, fun _ handler hopen ↦ ?_⟩
    rw [openJob_dots hparams hlisted.managed hdots] at hopen
    cases hopen
  · rw [openJob_eq hparams hlisted.managed hdots]
    constructor
    · intro haccepted
      have hparse := (jobId_ok_iff (ε := L.Error) hzod.checks hdots).mpr ⟨rfl, haccepted⟩
      refine ⟨AdminQueuesService.findJob queue id, ?_, callsOnly_findJob hlisted.managed,
        fun log ↦ findJob_run hlisted.managed (hfinds log queue _ job hlist id hid)⟩
      rw [JobsController.find, hparse]
      rfl
    · rintro hrejected handler hopen
      obtain rfl := Option.some.inj hopen
      refine .bind_done fun jobId hjobId ↦ ?_
      have haccepted := ((jobId_ok_iff hzod.checks hdots).mp hjobId).2
      rw [hrejected] at haccepted
      exact Bool.noConfusion haccepted

end Links

def rawParams : UseParams := fun pattern path ↦
  (matchRoute pattern (segments path.toList)).map (List.map String.ofList)

theorem handsParams_rawParams : HandsParams rawParams where
  matched h := by rw [rawParams, h, Option.map_some]
  unmatched h := by rw [rawParams, h, Option.map_none]

theorem job_row_opens_job_receipt :
    ∃ handler : Handler listingLibrary JobView,
      openJob rawParams (Zod.ofParse JsValue.toFinite) EMAIL_QUEUE "3" = some handler ∧
        handler.CallsOnly (· = .getJob EMAIL_QUEUE "3") ∧
        ∀ log, (handler.run (listingService fun _ _ ↦ receipts) log).2 =
          .ok (toJobView (receiptOf "3")) := by
  have hlists := lists_listingAnswer fun _ _ ↦ receipts
  have hfinds : Finds (listingService fun _ _ ↦ receipts) fun _ _ ↦ receipts := by
    intro log name status job hjob id hid
    obtain ⟨i, -, rfl⟩ := List.mem_map.mp hjob
    obtain rfl := Option.mem_some_iff.mp hid
    exact Program.answerEach_one (listingAnswer _) _
  have hfirst : 0 * PAGE_SIZE ≤ receipts.length := by simp
  obtain ⟨es, hes⟩ := exists_page readsQueries_ofParse listed_receipts hlists
    ⟨⟨"waiting", by decide⟩, 0, none⟩ ⟨"waiting", by decide⟩ hfirst
  have hrow : toJobView (receiptOf "3") ∈
      rowsOf (fun _ _ ↦ receipts) EMAIL_QUEUE "waiting" 0 :=
    List.mem_map_of_mem (List.mem_of_getElem? (i := 3) rfl)
  exact (job_row_opens_job handsParams_rawParams readsQueries_ofParse listed_receipts hlists hfinds
    ⟨"waiting", by decide⟩ es _ (by rw [hes]; rfl) _ hrow "3" rfl).1 (by decide)

end NestQueueExample.Web
