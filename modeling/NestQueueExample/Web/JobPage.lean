import NestQueueExample.Foundations.Polling
import NestQueueExample.Web.JobLinks

/-!
# The page of a job

The page polls its job until it has read it finished, and sends a failed request
again a few times before it gives it up. It only shows the job as it has been.
While finished jobs are left alone, a page that has stopped polling shows the
job as it is, and a job that has finished is shown after one more poll.
-/

namespace NestQueueExample.Web

open Admin Http Queues Runs

def METRICS_POLL_INTERVAL_MS : ℕ := 3000

def looksFinal (job : JobView) : Bool := job.finishedOn.isSome

/-- The interval in which the query is fetched again, if it is. -/
def refetchInterval (data : Option JobView) : Option ℕ :=
  match data with
  | none => some METRICS_POLL_INTERVAL_MS
  | some job => if looksFinal job then none else some METRICS_POLL_INTERVAL_MS

/-- What the header shows behind the id of the job. -/
def refreshHint (job : JobView) : String := if looksFinal job then "" else " (refreshing...)"

/-- The job that the page shows, if it shows one. -/
def shownJob (query : Query Unit JobView) : Option JobView :=
  match query.status with
  | .pending => none
  | _ => query.data

variable {L : Library}

/-- The queue and the id of the page, the API behind it, and the library that
keeps its query, which stays mounted. -/
structure JobSource (L : Library) where
  queue : String
  id : String
  useParams : UseParams
  zod : Zod
  /-- The library while the job is this one. -/
  service : Option Job → LibraryService L
  client : QueryClient Unit JobView
  retries : ℕ

/-- The id can be followed, and the library looks it up. -/
structure JobSource.Valid (source : JobSource L) : Prop where
  params : HandsParams source.useParams
  client : source.client.Documented
  checks : source.zod.Checks
  managed : source.queue ∈ KNOWN_QUEUES
  id : isJobId source.id = true
  looks (job : Option Job) (log : List (Call L)) :
    source.service job log (fun _ : Fin 1 ↦ .getJob source.queue source.id) = .ok fun _ ↦ job

/-- The answer to the lookup that the page asks for. -/
def JobSource.look (source : JobSource L) (job : Option Job) (log : List (Call L)) :
    Option JobView :=
  (openJob source.useParams source.zod source.queue source.id).bind
    fun handler : Handler L JobView ↦ (handler.run (source.service job) log).2.toOption

/-- The job under the id, and the page with the query that reads it. -/
structure JobPage (source : JobSource L) where
  job : Option Job
  kept : source.client.State
  /-- How often the request in flight has failed, and its answer if it has one. -/
  failures : ℕ
  answer : Option (Option JobView)

inductive JobPageEvent (L : Library) where
  | change (job : Option Job)
  /-- The interval is over. -/
  | tick
  /-- The page is opened again, or the browser is online again. -/
  | refetch
  /-- The request is carried out by a library that has received these calls. -/
  | read (log : List (Call L))
  | deliver
  | lost

namespace JobPage

variable {source : JobSource L}

def query (s : JobPage source) : Query Unit JobView := source.client.query s.kept

def opened (source : JobSource L) (job : Option Job) : JobPage source :=
  ⟨job, source.client.initial, 0, none⟩

def fetch (s : JobPage source) : JobPage source :=
  match s.query.fetching with
  | some _ => s
  | none => ⟨s.job, source.client.step s.kept (.fetch ()), 0, none⟩

def settle (s : JobPage source) (result : Option JobView) : JobPage source :=
  ⟨s.job, source.client.step s.kept (.settle result), 0, none⟩

/-- The request has failed, and is sent again unless that was tried often enough. -/
def fail (s : JobPage source) : JobPage source :=
  if s.failures < source.retries then ⟨s.job, s.kept, s.failures + 1, none⟩ else s.settle none

def step (s : JobPage source) : JobPageEvent L → JobPage source
  | .change job => { s with job := job }
  | .tick => if (refetchInterval s.query.data).isSome then s.fetch else s
  | .refetch => s.fetch
  | .read log =>
      match s.query.fetching, s.answer with
      | some _, none => { s with answer := some (source.look s.job log) }
      | _, _ => s
  | .deliver =>
      match s.answer with
      | none => s
      | some none => s.fail
      | some (some view) => s.settle (some view)
  | .lost => if s.query.fetching.isSome then s.fail else s

end JobPage

/-- A finished job is left alone. -/
def LeavesFinished {source : JobSource L} (s : JobPage source) : JobPageEvent L → Prop
  | .change _ => ∀ job ∈ s.job, job.finishedOn = none
  | _ => True

section Page

variable {source : JobSource L}

theorem look_eq (hsource : source.Valid) (job : Option Job) (log : List (Call L)) :
    source.look job log = job.map toJobView := by
  obtain ⟨queue, id, useParams, zod, service, client, retries⟩ := source
  obtain ⟨hparams, -, hchecks, hqueue, hid, hlooks⟩ := hsource
  dsimp only at hparams hchecks hqueue hid hlooks
  have hdots : id ∉ ["", ".", ".."] := by
    intro hmem
    rw [isJobId, List.contains_iff_mem.mpr hmem] at hid
    exact Bool.noConfusion hid
  have hfind : (JobsController.find zod queue (.string id) : Handler L JobView) =
      AdminQueuesService.findJob queue id := by
    rw [JobsController.find, (jobId_ok_iff (ε := L.Error) hchecks hdots).mpr ⟨rfl, hid⟩]
    rfl
  simp only [JobSource.look, openJob_eq hparams hqueue hdots, Option.bind_some, hfind]
  cases job with
  | some job => rw [findJob_run hqueue (hlooks (some job) log)]; rfl
  | none =>
      have hknown : (assertKnownQueue queue : Except (Rejection L.Error) KnownQueue) =
          .ok ⟨queue, hqueue⟩ := dif_pos hqueue
      have hround := hlooks none log
      rw [AdminQueuesService.findJob, hknown]
      simp only [Program.run, Program.bind, bind, Program.call]
      rw [hround]
      rfl

/-- What the page has of the job satisfies `P`, and a request that is not in
flight has no answer. -/
structure JobPage.Holds (P : JobView → Prop) (s : JobPage source) : Prop where
  data : ∀ view ∈ s.query.data, P view
  answer : ∀ view, s.answer = some (some view) → P view
  inFlight : s.query.fetching = none → s.answer = none
  failures : s.failures ≤ source.retries
  pending : s.query.status = .pending → s.query.data = none

namespace JobPage.Holds

variable {P : JobView → Prop} {s : JobPage source}

theorem mono {Q : JobView → Prop} (h : s.Holds P) (hPQ : ∀ view, P view → Q view) : s.Holds Q :=
  ⟨fun view hview ↦ hPQ view (h.data view hview), fun view hview ↦ hPQ view (h.answer view hview),
    h.inFlight, h.failures, h.pending⟩

variable (hclient : source.client.Documented)

include hclient

theorem opened (job : Option Job) : (JobPage.opened source job).Holds P := by
  have hquery : (JobPage.opened source job).query = ⟨none, .pending, none⟩ := hclient.initial
  refine ⟨fun view hview ↦ ?_, nofun, fun _ ↦ rfl, Nat.zero_le _, fun _ ↦ by rw [hquery]⟩
  rw [hquery] at hview
  cases hview

theorem fetch (h : s.Holds P) : s.fetch.Holds P := by
  rw [JobPage.fetch]
  split
  · exact h
  · refine ⟨?_, nofun, fun _ ↦ rfl, Nat.zero_le _, hclient.data_of_pending h.pending _⟩
    rw [JobPage.query, hclient.data_fetch]
    exact h.data

theorem settle (h : s.Holds P) {result : Option JobView} (hresult : ∀ view ∈ result, P view) :
    (s.settle result).Holds P := by
  refine ⟨fun view hview ↦ ?_, nofun, fun _ ↦ rfl, Nat.zero_le _,
    hclient.data_of_pending h.pending _⟩
  rcases hclient.mem_data_settle hview with hold | hnew
  · exact h.data view hold
  · exact hresult view hnew

theorem fail (h : s.Holds P) : s.fail.Holds P := by
  rw [JobPage.fail]
  split
  · next hfew => exact ⟨h.data, nofun, fun _ ↦ rfl, hfew, h.pending⟩
  · exact h.settle hclient nofun

theorem step (h : s.Holds P) (e : JobPageEvent L)
    (hlook : ∀ log view, source.look s.job log = some view → P view) : (s.step e).Holds P := by
  cases e with
  | change job => exact ⟨h.data, h.answer, h.inFlight, h.failures, h.pending⟩
  | tick =>
      rw [JobPage.step]
      split
      · exact h.fetch hclient
      · exact h
  | refetch => exact h.fetch hclient
  | read log =>
      rw [JobPage.step]
      split
      · next hfetching _ =>
          refine ⟨h.data, fun view hview ↦ hlook log view (Option.some.inj hview), fun hnone ↦ ?_,
            h.failures, h.pending⟩
          have hidle : s.query.fetching = none := hnone
          rw [hidle] at hfetching
          cases hfetching
      · exact h
  | deliver =>
      rw [JobPage.step]
      split
      · exact h
      · exact h.fail hclient
      · next view hanswer =>
          refine h.settle hclient fun shown hshown ↦ ?_
          obtain rfl := Option.mem_some_iff.mp hshown
          exact h.answer _ hanswer
  | lost =>
      rw [JobPage.step]
      split
      · exact h.fail hclient
      · exact h

end JobPage.Holds

theorem job_fetch (s : JobPage source) : s.fetch.job = s.job := by
  rw [JobPage.fetch]
  split <;> rfl

theorem job_fail (s : JobPage source) : s.fail.job = s.job := by
  rw [JobPage.fail]
  split <;> rfl

/-- Only a change changes the job. -/
theorem job_step (s : JobPage source) (e : JobPageEvent L) :
    (s.step e).job =
      match e with
      | .change job => job
      | _ => s.job := by
  cases e with
  | change job => rfl
  | tick =>
      rw [JobPage.step]
      split
      · exact job_fetch s
      · rfl
  | refetch => exact job_fetch s
  | read log =>
      rw [JobPage.step]
      split <;> rfl
  | deliver =>
      rw [JobPage.step]
      split
      · rfl
      · exact job_fail s
      · rfl
  | lost =>
      rw [JobPage.step]
      split
      · exact job_fail s
      · rfl

/-- A good run leaves a finished job as it is. -/
theorem job_exec_of_finished {s : JobPage source} {finished : Job} (hjob : s.job = some finished)
    (hdone : finished.finishedOn.isSome) {es : List (JobPageEvent L)}
    (hgood : AllSteps JobPage.step LeavesFinished s es) :
    (exec JobPage.step s es).job = some finished := by
  refine exec_invariant_of_allSteps (I := fun s : JobPage source ↦ s.job = some finished)
    (fun t e hsame hleaves ↦ ?_) hjob hgood
  rw [job_step]
  cases e with
  | change job =>
      rw [hleaves finished hsame] at hdone
      exact Bool.noConfusion hdone
  | tick => exact hsame
  | refetch => exact hsame
  | read log => exact hsame
  | deliver => exact hsame
  | lost => exact hsame

/-! ## What the page shows -/

section Runs

variable (hsource : source.Valid)

/-- The page after a run, opened on a job. -/
def jobPage (source : JobSource L) (job : Option Job) (es : List (JobPageEvent L)) :
    JobPage source :=
  exec JobPage.step (.opened source job) es

/-- The job has looked like this at some moment of the run. -/
def Seen (source : JobSource L) (job : Option Job) (es : List (JobPageEvent L))
    (view : JobView) : Prop :=
  ∃ before, before <+: es ∧ (jobPage source job before).job.map toJobView = some view

/-- The job looks like this if that is a finished view of it. -/
def Current (job : Option Job) (view : JobView) : Prop :=
  looksFinal view = true → job.map toJobView = some view

include hsource

theorem holds_seen (job : Option Job) (es : List (JobPageEvent L)) :
    (jobPage source job es).Holds (Seen source job es) := by
  induction es using List.reverseRecOn with
  | nil => exact .opened hsource.client job
  | append_singleton es e ih =>
      have hgrows : ∀ view, Seen source job es view →
          Seen source job (es ++ [e]) view := by
        rintro view ⟨before, hbefore, hview⟩
        exact ⟨before, hbefore.trans (List.prefix_append es [e]), hview⟩
      rw [jobPage, exec_append, exec_cons, exec_nil]
      refine (ih.mono hgrows).step hsource.client e fun log view hview ↦ ?_
      rw [look_eq hsource] at hview
      exact ⟨es, List.prefix_append es [e], hview⟩

theorem holds_current_step {s : JobPage source} (h : s.Holds (Current s.job))
    (e : JobPageEvent L) (hgood : LeavesFinished s e) :
    (s.step e).Holds (Current (s.step e).job) := by
  have hlook : ∀ log view, source.look s.job log = some view →
      Current s.job view := by
    intro log view hview _
    rwa [look_eq hsource] at hview
  have hstep := h.step hsource.client e hlook
  rw [job_step]
  cases e with
  | change job =>
      refine hstep.mono fun view hview hfinal ↦ ?_
      obtain ⟨finished, hjob, rfl⟩ := Option.map_eq_some_iff.mp (hview hfinal)
      rw [looksFinal, toJobView, hgood finished hjob] at hfinal
      cases hfinal
  | tick => exact hstep
  | refetch => exact hstep
  | read log => exact hstep
  | deliver => exact hstep
  | lost => exact hstep

theorem holds_current (job : Option Job) (es : List (JobPageEvent L))
    (hgood : AllSteps JobPage.step LeavesFinished (.opened source job) es) :
    (jobPage source job es).Holds (Current (jobPage source job es).job) :=
  exec_invariant_of_allSteps (I := fun s : JobPage source ↦ s.Holds (Current s.job))
    (fun _ e h hgood ↦ holds_current_step hsource h e hgood)
    (JobPage.Holds.opened hsource.client job) hgood

omit hsource

theorem fetching_settle (hclient : source.client.Documented) (s : JobPage source)
    (result : Option JobView) : (s.settle result).query.fetching = none :=
  hclient.fetching_settle s.kept result

/-- Enough losses end the request in flight. -/
theorem exec_lost (hclient : source.client.Documented) (n : ℕ) {s : JobPage source}
    (hends : s.query.fetching = none ∨ source.retries + 1 ≤ s.failures + n)
    (hfew : s.failures ≤ source.retries) :
    (exec JobPage.step s (List.replicate n .lost)).query.fetching = none := by
  induction n generalizing s with
  | zero =>
      rcases hends with hnone | hmany
      · exact hnone
      · omega
  | succ n ih =>
      rw [List.replicate_succ, exec_cons]
      cases hfetching : s.query.fetching with
      | none =>
          have hstep : s.step .lost = s := by
            rw [JobPage.step, hfetching]
            rfl
          rw [hstep]
          exact ih (.inl hfetching) hfew
      | some sent =>
          have hstep : s.step .lost = s.fail := by
            rw [JobPage.step, hfetching]
            rfl
          have hmany : source.retries + 1 ≤ s.failures + (n + 1) := by
            rcases hends with hnone | hmany
            · rw [hfetching] at hnone
              cases hnone
            · exact hmany
          rw [hstep, JobPage.fail]
          split
          · next hretried => exact ih (.inr (by dsimp only; omega)) hretried
          · exact ih (.inl (fetching_settle hclient s none)) (Nat.zero_le _)

/-- Few losses leave the request in flight. -/
theorem exec_retries {job : Option Job} {kept : source.client.State}
    (hfetching : (source.client.query kept).fetching ≠ none) {failures n : ℕ}
    (hfew : failures + n ≤ source.retries) :
    exec JobPage.step (⟨job, kept, failures, none⟩ : JobPage source) (List.replicate n .lost) =
      ⟨job, kept, failures + n, none⟩ := by
  induction n generalizing failures with
  | zero => rfl
  | succ n ih =>
      have hstep : (⟨job, kept, failures, none⟩ : JobPage source).step .lost =
          ⟨job, kept, failures + 1, none⟩ := by
        rw [JobPage.step, JobPage.query, if_pos (Option.isSome_iff_ne_none.mpr hfetching),
          JobPage.fail, if_pos (by dsimp only; omega)]
      rw [List.replicate_succ, exec_cons, hstep, ih (by omega), Nat.add_right_comm, Nat.add_assoc]

theorem refetchInterval_eq_none_iff {data : Option JobView} :
    refetchInterval data = none ↔ ∃ view, data = some view ∧ looksFinal view = true := by
  cases data with
  | none => simp [refetchInterval]
  | some view => simp [refetchInterval]

theorem shownJob_eq_some {query : Query Unit JobView} {view : JobView}
    (hpending : query.status = .pending → query.data = none) (hdata : query.data = some view) :
    shownJob query = some view := by
  rw [shownJob]
  split
  · next hstatus =>
      rw [hpending hstatus] at hdata
      cases hdata
  · exact hdata

theorem data_of_shownJob {query : Query Unit JobView} {view : JobView}
    (h : shownJob query = some view) : query.data = some view := by
  rw [shownJob] at h
  split at h
  · cases h
  · exact h

/-- A poll of a page with nothing in flight, which is sent again `failed` times. -/
def poll (failed : ℕ) (log : List (Call L)) : List (JobPageEvent L) :=
  .tick :: (List.replicate failed .lost ++ [.read log, .deliver])

/-- Where the page has stopped polling, a poll changes nothing. -/
theorem exec_poll_stopped {s : JobPage source} (hidle : s.query.fetching = none)
    (hanswer : s.answer = none) (hinterval : refetchInterval s.query.data = none) (failed : ℕ)
    (log : List (Call L)) : exec JobPage.step s (poll failed log) = s := by
  have htick : s.step .tick = s := by
    rw [JobPage.step, hinterval]
    rfl
  have hlost : s.step .lost = s := by
    rw [JobPage.step, hidle]
    rfl
  have hlosses : exec JobPage.step s (List.replicate failed .lost) = s := by
    induction failed with
    | zero => rfl
    | succ n ih => rw [List.replicate_succ, exec_cons, hlost, ih]
  have hread : s.step (.read log) = s := by
    rw [JobPage.step, hidle]
  have hdeliver : s.step .deliver = s := by
    rw [JobPage.step, hanswer]
  rw [poll, exec_cons, htick, exec_append, hlosses, exec_cons, hread, exec_cons, hdeliver, exec_nil]

include hsource

/-- One more poll shows the job. -/
theorem exec_poll {s : JobPage source} (h : s.Holds (Current s.job))
    (hidle : s.query.fetching = none) {job : Job} (hjob : s.job = some job) {failed : ℕ}
    (hfailed : failed ≤ source.retries) (log : List (Call L)) :
    (exec JobPage.step s (poll failed log)).query.data = some (toJobView job) := by
  cases hinterval : refetchInterval s.query.data with
  | none =>
      obtain ⟨view, hdata, hfinal⟩ := refetchInterval_eq_none_iff.mp hinterval
      have hview : s.job.map toJobView = some view := h.data view hdata hfinal
      rw [exec_poll_stopped hidle (h.inFlight hidle) hinterval, hdata, ← hview, hjob]
      rfl
  | some interval =>
      have htick : s.step .tick = ⟨s.job, source.client.step s.kept (.fetch ()), 0, none⟩ := by
        rw [JobPage.step, hinterval, JobPage.fetch, hidle]
        rfl
      have hfetching : (source.client.query (source.client.step s.kept (.fetch ()))).fetching ≠
          none := hsource.client.fetching_fetch s.kept ()
      obtain ⟨sent, hsent⟩ := Option.ne_none_iff_exists'.mp hfetching
      have hlook : source.look s.job log = some (toJobView job) := by
        rw [look_eq hsource, hjob]
        rfl
      have hread : (⟨s.job, source.client.step s.kept (.fetch ()), failed, none⟩ :
          JobPage source).step (.read log) =
            ⟨s.job, source.client.step s.kept (.fetch ()), failed,
              some (some (toJobView job))⟩ := by
        rw [JobPage.step, JobPage.query, hsent, hlook]
      rw [poll, exec_cons, htick, exec_append, exec_retries hfetching (by omega), Nat.zero_add,
        exec_cons, hread]
      exact congrArg Query.data (hsource.client.success _ (toJobView job) hfetching)

/-- No answer is older than a finished job that the page has. -/
def Fresh (s : JobPage source) : Prop :=
  refetchInterval s.query.data = none →
    ∀ view, s.answer = some (some view) → s.job.map toJobView = some view

omit hsource

theorem fresh_of_no_answer {s : JobPage source} (h : s.answer = none) : Fresh s := by
  intro _ view hview
  rw [h] at hview
  cases hview

theorem fresh_fetch {s : JobPage source} (h : Fresh s) : Fresh s.fetch := by
  rw [JobPage.fetch]
  split
  · exact h
  · exact fresh_of_no_answer rfl

theorem fresh_fail (s : JobPage source) : Fresh s.fail := by
  rw [JobPage.fail]
  split <;> exact fresh_of_no_answer rfl

/-- Where the page has a finished job, no good step changes the job. -/
theorem not_leavesFinished_change {s : JobPage source} (hholds : s.Holds (Current s.job))
    (hinterval : refetchInterval s.query.data = none) (job : Option Job) :
    ¬ LeavesFinished s (.change job) := by
  intro hgood
  obtain ⟨view, hdata, hfinal⟩ := refetchInterval_eq_none_iff.mp hinterval
  obtain ⟨current, hjob, rfl⟩ := Option.map_eq_some_iff.mp (hholds.data view hdata hfinal)
  rw [looksFinal, toJobView, hgood current hjob] at hfinal
  cases hfinal

theorem data_fetch (hclient : source.client.Documented) (s : JobPage source) :
    s.fetch.query.data = s.query.data := by
  rw [JobPage.fetch]
  split
  · rfl
  · exact hclient.data_fetch s.kept ()

theorem data_fail (hclient : source.client.Documented) (s : JobPage source) :
    s.fail.query.data = s.query.data := by
  rw [JobPage.fail]
  split
  · rfl
  · exact hclient.data_settle_none s.kept

include hsource

theorem fresh_step {s : JobPage source} (hholds : s.Holds (Current s.job)) (h : Fresh s)
    (e : JobPageEvent L) (hgood : LeavesFinished s e) : Fresh (s.step e) := by
  cases e with
  | change job =>
      exact fun hinterval ↦ absurd hgood (not_leavesFinished_change hholds hinterval job)
  | tick =>
      rw [JobPage.step]
      split
      · exact fresh_fetch h
      · exact h
  | refetch => exact fresh_fetch h
  | read log =>
      rw [JobPage.step]
      split
      · intro _ view hview
        rw [← look_eq hsource s.job log]
        exact Option.some.inj hview
      · exact h
  | deliver =>
      rw [JobPage.step]
      split
      · exact h
      · exact fresh_fail s
      · exact fresh_of_no_answer rfl
  | lost =>
      rw [JobPage.step]
      split
      · exact fresh_fail s
      · exact h

theorem stopped_step {s : JobPage source} (hholds : s.Holds (Current s.job)) (h : Fresh s)
    (e : JobPageEvent L) (hgood : LeavesFinished s e)
    (hinterval : refetchInterval s.query.data = none) :
    refetchInterval (s.step e).query.data = none := by
  cases e with
  | change job => exact absurd hgood (not_leavesFinished_change hholds hinterval job)
  | tick =>
      rw [JobPage.step, hinterval]
      exact hinterval
  | refetch =>
      rw [JobPage.step, data_fetch hsource.client]
      exact hinterval
  | read log =>
      rw [JobPage.step]
      split <;> exact hinterval
  | deliver =>
      rw [JobPage.step]
      split
      · exact hinterval
      · rw [data_fail hsource.client]
        exact hinterval
      · next view hanswer =>
          obtain ⟨old, hdata, hfinal⟩ := refetchInterval_eq_none_iff.mp hinterval
          have hsame : some old = some view :=
            (hholds.data old hdata hfinal).symm.trans (h hinterval view hanswer)
          obtain rfl := Option.some.inj hsame
          have hinFlight : s.query.fetching ≠ none := by
            intro hnone
            rw [hholds.inFlight hnone] at hanswer
            cases hanswer
          exact refetchInterval_eq_none_iff.mpr
            ⟨old, congrArg Query.data (hsource.client.success s.kept old hinFlight), hfinal⟩
  | lost =>
      rw [JobPage.step]
      split
      · rw [data_fail hsource.client]
        exact hinterval
      · exact hinterval

/-- A page that has stopped polling never polls again. -/
theorem stopped_append {job : Option Job} {es more : List (JobPageEvent L)}
    (hgood : AllSteps JobPage.step LeavesFinished (.opened source job) (es ++ more))
    (hinterval : refetchInterval (jobPage source job es).query.data = none) :
    refetchInterval (jobPage source job (es ++ more)).query.data = none := by
  obtain ⟨hbefore, hafter⟩ := AllSteps.append_iff.mp hgood
  have hfresh : Fresh (jobPage source job es) :=
    (exec_invariant_of_allSteps
      (I := fun s : JobPage source ↦ s.Holds (Current s.job) ∧ Fresh s)
      (fun _ e h hgood ↦ ⟨holds_current_step hsource h.1 e hgood,
        fresh_step hsource h.1 h.2 e hgood⟩)
      ⟨.opened hsource.client job, fresh_of_no_answer rfl⟩ hbefore).2
  have hlater := exec_invariant_of_allSteps
    (I := fun s : JobPage source ↦ s.Holds (Current s.job) ∧ Fresh s ∧
      refetchInterval s.query.data = none)
    (fun _ e h hgood ↦ ⟨holds_current_step hsource h.1 e hgood,
      fresh_step hsource h.1 h.2.1 e hgood, stopped_step hsource h.1 h.2.1 e hgood h.2.2⟩)
    ⟨holds_current hsource job es hbefore, hfresh, hinterval⟩ hafter
  rw [jobPage, exec_append]
  exact hlater.2.2

/-- The page only shows the job as it has been, and hints at a refresh just as
long as it polls. While finished jobs are left alone, a page that has stopped
polling shows the job as it is and never polls again; and from any state on a
finished job is shown, and polled no more, once the request in flight has ended,
however it ends, and one more poll has gone through. Enough losses end it. -/
theorem job_page_settles (job : Option Job) (es : List (JobPageEvent L)) :
    (∀ view, shownJob (jobPage source job es).query = some view →
      Seen source job es view ∧ (refreshHint view = "" ↔
        refetchInterval (jobPage source job es).query.data = none)) ∧
    (AllSteps JobPage.step LeavesFinished (.opened source job) es →
      (refetchInterval (jobPage source job es).query.data = none →
        ∃ current, (jobPage source job es).job = some current ∧
          shownJob (jobPage source job es).query = some (toJobView current)) ∧
      (∀ before, before <+: es → refetchInterval (jobPage source job before).query.data = none →
        refetchInterval (jobPage source job es).query.data = none) ∧
      (jobPage source job (es ++ List.replicate (source.retries + 1) .lost)).query.fetching =
        none ∧
      ∀ finished, (jobPage source job es).job = some finished → finished.finishedOn.isSome →
        ∀ rest, AllSteps JobPage.step LeavesFinished (jobPage source job es) rest →
          (jobPage source job (es ++ rest)).query.fetching = none →
          ∀ failed ≤ source.retries, ∀ log,
            shownJob (jobPage source job (es ++ rest ++ poll failed log)).query =
                some (toJobView finished) ∧
              refetchInterval (jobPage source job (es ++ rest ++ poll failed log)).query.data =
                none) := by
  refine ⟨fun view hview ↦ ?_, fun hgood ↦ ⟨fun hinterval ↦ ?_, ?_, ?_, ?_⟩⟩
  · have hdata := data_of_shownJob hview
    refine ⟨(holds_seen hsource job es).data view hdata, ?_⟩
    rw [refetchInterval_eq_none_iff, hdata, refreshHint]
    cases hfinal : looksFinal view <;> simp [hfinal]
  · have hholds := holds_current hsource job es hgood
    obtain ⟨view, hdata, hfinal⟩ := refetchInterval_eq_none_iff.mp hinterval
    obtain ⟨current, hcurrent, rfl⟩ :=
      Option.map_eq_some_iff.mp (hholds.data view hdata hfinal)
    exact ⟨current, hcurrent, shownJob_eq_some hholds.pending hdata⟩
  · rintro before ⟨more, rfl⟩ hinterval
    exact stopped_append hsource hgood hinterval
  · rw [jobPage, exec_append]
    exact exec_lost hsource.client _ (.inr (Nat.le_add_left _ _))
      (holds_current hsource job es hgood).failures
  · intro finished hjob hdone rest hrest hidle failed hfailed log
    have hsame : (jobPage source job (es ++ rest)).job = some finished := by
      rw [jobPage, exec_append]
      exact job_exec_of_finished hjob hdone hrest
    have hdata := exec_poll hsource
      (holds_current hsource job (es ++ rest) (AllSteps.append_iff.mpr ⟨hgood, hrest⟩)) hidle hsame
      hfailed log
    have hlater : jobPage source job (es ++ rest ++ poll failed log) =
        exec JobPage.step (jobPage source job (es ++ rest)) (poll failed log) :=
      exec_append _ _ _ _
    have hpending := (holds_seen hsource job (es ++ rest ++ poll failed log)).pending
    rw [hlater] at hpending ⊢
    refine ⟨shownJob_eq_some hpending hdata, ?_⟩
    rw [hdata]
    exact refetchInterval_eq_none_iff.mpr ⟨_, rfl, hdone⟩

end Runs

end Page

section Witness

def lookupAnswer (job : Option Job) :
    (call : Call listingLibrary) → Except (Rejection listingLibrary.Error) call.Answer
  | .getJob .. => .ok job
  | call => listingAnswer (fun _ _ ↦ []) call

def receiptPage : JobSource listingLibrary where
  queue := EMAIL_QUEUE
  id := "3"
  useParams := rawParams
  zod := .ofParse JsValue.toFinite
  service job := fun _ {_} calls ↦ Program.answerEach (lookupAnswer job) calls
  client := .plain true
  retries := 3

def finishedReceipt : Job := { receiptOf "3" with finishedOn := some 7 }

theorem valid_receiptPage : receiptPage.Valid where
  params := handsParams_rawParams
  client := QueryClient.documented_plain true
  checks := Zod.checks_ofParse _
  managed := by decide
  id := by decide
  looks job _ := Program.answerEach_one (lookupAnswer job) (.getJob EMAIL_QUEUE "3")

def receiptRun : List (JobPageEvent listingLibrary) :=
  [.refetch, .read [], .change (some finishedReceipt)]

/-- The request in flight comes back with the job as it was before it finished,
and the next poll, which is lost once, shows it finished. -/
theorem job_page_settles_receipt :
    shownJob (jobPage receiptPage (some (receiptOf "3"))
      (receiptRun ++ [.deliver] ++ poll 1 [])).query = some (toJobView finishedReceipt) := by
  have hgood : AllSteps JobPage.step LeavesFinished
      (.opened receiptPage (some (receiptOf "3"))) receiptRun := by
    refine ⟨trivial, trivial, fun job hjob ↦ ?_, trivial⟩
    obtain rfl := Option.mem_some_iff.mp hjob
    rfl
  have hanswer : (jobPage receiptPage (some (receiptOf "3")) receiptRun).answer =
      some (some (toJobView (receiptOf "3"))) :=
    congrArg some (look_eq valid_receiptPage (some (receiptOf "3")) [])
  have hidle : (jobPage receiptPage (some (receiptOf "3"))
      (receiptRun ++ [.deliver])).query.fetching = none := by
    have hdeliver : (jobPage receiptPage (some (receiptOf "3")) receiptRun).step .deliver =
        (jobPage receiptPage (some (receiptOf "3")) receiptRun).settle
          (some (toJobView (receiptOf "3"))) := by
      rw [JobPage.step, hanswer]
    rw [jobPage, exec_append, ← jobPage, exec_cons, exec_nil, hdeliver]
    exact fetching_settle valid_receiptPage.client _ _
  exact (((job_page_settles valid_receiptPage (some (receiptOf "3")) receiptRun).2 hgood).2.2.2
    finishedReceipt rfl rfl [.deliver] ⟨trivial, trivial⟩ hidle 1 (by decide) []).1

end Witness

end NestQueueExample.Web
