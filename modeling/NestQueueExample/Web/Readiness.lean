import Mathlib.Data.Rat.Floor
import NestQueueExample.Admin.Health
import NestQueueExample.Foundations.Polling
import NestQueueExample.Web.ErrorsPage

/-!
# The readiness chips

The top bar and the health page poll the readiness of the API, each with its own
query. The chip of the top bar shows how its last poll ended. The chip of the
health page shows data from before although the polls have failed since, so it
never goes down once it was up.
-/

namespace NestQueueExample.Web

open Admin Http Queues Runs UrlPath

/-! ## The API -/

def READY_PATH : String := "/health/ready"

def readyRoute : List PatternSegment := [.literal "health", .literal "ready"]

def isReadyRequest (req : ApiRequest) : Bool :=
  match req.method, route readyRoute req.path with
  | .get, some [] => true
  | _, _ => false

def upBody (activeJobs : ℕ) : JsValue :=
  .object [(.own "status", .string "up"), (.own "activeJobs", .number activeJobs)]

def downBody : JsValue :=
  .object [(.own "status", .string "down"), (.own "reason", .string "redis_unreachable")]

def Readiness.response : Readiness → Response
  | .up activeJobs => ⟨200, none, some (upBody activeJobs)⟩
  | .down => ⟨SERVICE_UNAVAILABLE, none, some downBody⟩

/-! ## The hooks -/

/-- The two places that poll, each with a query of its own. -/
inductive Poller where
  | topbar
  | page
  deriving DecidableEq

/-- The data of the query: the measured latency, or the body of the response. -/
abbrev Poller.Data : Poller → Type
  | .topbar => ℤ
  | .page => JsValue

def probeReadiness : ApiRequest := ⟨.get, READY_PATH, .undefined⟩

/-- A request in flight: its number at the API, and the clock when it was sent. -/
structure Fetch where
  request : ℕ
  startedAt : ℚ

/-- The library that keeps the two queries. -/
abbrev PollerClients : Type 1 := (poller : Poller) → QueryClient Fetch poller.Data

variable (codes : QueueErrorCodes)

/-- What the query function of the poller makes of a response at a time. No data
counts as a failure. -/
def Poller.read (poller : Poller) (fetch : Fetch) (now : ℚ) (res : Response) :
    Option poller.Data :=
  match poller, request codes res with
  | .topbar, .ok _ => some ⌊now - fetch.startedAt + 1 / 2⌋
  | .page, .ok value => value
  | _, .error _ => none

/-! ## The chips -/

inductive RedisStatusChipProps where
  | checking
  | up (latencyMs : Option ℤ)
  | down

def useRedisStatus (query : Query Fetch ℤ) : RedisStatusChipProps :=
  match query.status with
  | .pending => .checking
  | .error => .down
  | .success => .up query.data

def isUp (query : Query Fetch JsValue) : Option Bool :=
  if query.data.isSome then some true else if query.status = .error then some false else none

def ProbeChip (isUp : Option Bool) : String :=
  match isUp with
  | none => "checking"
  | some true => "up"
  | some false => "down"

/-- The number of active jobs that the freshness card shows. -/
def activeJobs (query : Query Fetch JsValue) : Option JsValue :=
  query.data.map fun ready ↦ ready.read "activeJobs"

/-! ## The pollers and the API -/

variable {L : Library}

/-- The readiness requests at the API, and the queries of the two pollers, which
stay mounted. -/
structure Monitor (L : Library) (clients : PollerClients) where
  api : List (ReadyRace L)
  queries : (poller : Poller) → (clients poller).State

inductive MonitorEvent (L : Library) where
  /-- A request of anybody else. -/
  | request (req : ApiRequest)
  /-- A read of a readiness request is answered, or its timer fires. -/
  | api (i : ℕ) (e : ReadyEvent L)
  | poll (poller : Poller) (now : ℚ)
  /-- The answer to the request in flight arrives, if it is answered. -/
  | deliver (poller : Poller) (now : ℚ)
  | lost (poller : Poller)

namespace Monitor

variable {clients : PollerClients}

def initial : Monitor L clients := ⟨[], fun poller ↦ (clients poller).initial⟩

def query (s : Monitor L clients) (poller : Poller) : Query Fetch poller.Data :=
  (clients poller).query (s.queries poller)

def answerTo (s : Monitor L clients) (fetch : Fetch) : Option Response :=
  (s.api[fetch.request]?.bind HealthController.ready).map Readiness.response

/-- What the event does at the API. A poll with a request in flight sends none. -/
def apiMoves (s : Monitor L clients) : MonitorEvent L → List (PoolEvent Unit (ReadyEvent L))
  | .request req => if isReadyRequest req then [.start ()] else []
  | .api i e => [.move i e]
  | .poll poller _ =>
      if (s.query poller).fetching.isNone && isReadyRequest probeReadiness then [.start ()] else []
  | .deliver .. | .lost _ => []

def queryMoves (poller : Poller) (s : Monitor L clients) :
    MonitorEvent L → List (QueryEvent Fetch poller.Data)
  | .poll other now => if other = poller then [.fetch ⟨s.api.length, now⟩] else []
  | .deliver other now =>
      if other = poller then
        match (s.query poller).fetching with
        | none => []
        | some fetch =>
            (s.answerTo fetch).toList.map fun res ↦ .settle (poller.read codes fetch now res)
      else []
  | .lost other => if other = poller then [.settle none] else []
  | .request _ | .api .. => []

variable (active : L.QueueMetrics → ℕ)

def step (s : Monitor L clients) (e : MonitorEvent L) : Monitor L clients where
  api :=
    exec (Pool.poolStep (fun _ ↦ HealthController.race active) Race.step) s.api (s.apiMoves e)
  queries poller := exec (clients poller).step (s.queries poller) (queryMoves codes poller s e)

/-- How the polls that the event ends have ended. -/
def settled (poller : Poller) (s : Monitor L clients) (e : MonitorEvent L) :
    List (Option poller.Data) :=
  emitted (clients poller).step (fun state ↦ ((clients poller).query state).settlement)
    (s.queries poller) (queryMoves codes poller s e)

end Monitor

/-! ## What is shown -/

section Shown

variable {codes}

theorem request_up (n : ℕ) :
    request codes (Readiness.response (.up n)) = .ok (some (upBody n)) := by
  simp [request, Readiness.response, Response.ok]

theorem request_down : request codes (Readiness.response .down) =
    .error (.api ⟨"UNKNOWN", "HTTP " ++ SERVICE_UNAVAILABLE.repr, SERVICE_UNAVAILABLE,
      .undefined⟩) := by
  have herror : downBody.read "error" = .undefined := by
    rw [downBody, JsValue.read_own_of_ne (by decide), JsValue.read_own_of_ne (by decide),
      JsValue.read_nil]
  have henvelope : isErrorEnvelope downBody = none := by
    rw [isErrorEnvelope, herror]
    rfl
  simp [request, Readiness.response, Response.ok, parseError, henvelope, SERVICE_UNAVAILABLE]

theorem read_down (poller : Poller) (fetch : Fetch) (now : ℚ) :
    poller.read codes fetch now (Readiness.response .down) = none := by
  cases poller <;> simp [Poller.read, request_down]

theorem isReadyRequest_probeReadiness : isReadyRequest probeReadiness = true := by
  decide

variable {active : L.QueueMetrics → ℕ} {clients : PollerClients}

/-- The monitor after a run of events. -/
def monitor (codes : QueueErrorCodes) (active : L.QueueMetrics → ℕ) (clients : PollerClients)
    (es : List (MonitorEvent L)) : Monitor L clients :=
  exec (Monitor.step codes active) .initial es

/-- How the polls of the run have ended, in order. -/
def outcomes (codes : QueueErrorCodes) (active : L.QueueMetrics → ℕ) (clients : PollerClients)
    (poller : Poller) (es : List (MonitorEvent L)) : List (Option poller.Data) :=
  emitted (Monitor.step codes active) (Monitor.settled codes poller)
    (.initial : Monitor L clients) es

/-- What the run does at the API. -/
def apiEvents (codes : QueueErrorCodes) (active : L.QueueMetrics → ℕ) (clients : PollerClients)
    (es : List (MonitorEvent L)) : List (PoolEvent Unit (ReadyEvent L)) :=
  emitted (Monitor.step codes active) Monitor.apiMoves (.initial : Monitor L clients) es

theorem api_monitor (es : List (MonitorEvent L)) :
    (monitor codes active clients es).api =
      readyRaces active (apiEvents codes active clients es) :=
  exec_driven Monitor.api (fun _ _ ↦ rfl) .initial es

theorem follows_monitor (hclients : ∀ poller, (clients poller).Documented) (poller : Poller)
    (es : List (MonitorEvent L)) :
    Query.Follows (outcomes codes active clients poller es)
      ((monitor codes active clients es).query poller) := by
  have hqueries : (monitor codes active clients es).queries poller =
      exec (clients poller).step (clients poller).initial
        (emitted (Monitor.step codes active) (Monitor.queryMoves codes poller)
          (.initial : Monitor L clients) es) :=
    exec_driven (fun s ↦ Monitor.queries s poller) (fun _ _ ↦ rfl) .initial es
  have houtcomes : emitted (clients poller).step
      (fun state ↦ ((clients poller).query state).settlement) (clients poller).initial
      (emitted (Monitor.step codes active) (Monitor.queryMoves codes poller)
        (.initial : Monitor L clients) es) = outcomes codes active clients poller es :=
    emitted_driven (fun s ↦ Monitor.queries s poller) (fun _ _ ↦ rfl) _ .initial es
  rw [Monitor.query, hqueries, ← houtcomes]
  exact Query.follows_exec (hclients poller) _

/-! ### The polls that succeed -/

theorem mem_settled {poller : Poller} {s : Monitor L clients} {e : MonitorEvent L}
    {value : poller.Data} (h : some value ∈ Monitor.settled codes poller s e) :
    ∃ now fetch res, e = .deliver poller now ∧ (s.query poller).fetching = some fetch ∧
      s.answerTo fetch = some res ∧ poller.read codes fetch now res = some value := by
  rw [Monitor.settled] at h
  cases e with
  | request req => simp [Monitor.queryMoves, emitted] at h
  | api i e => simp [Monitor.queryMoves, emitted] at h
  | poll other now =>
      by_cases hother : other = poller <;>
        simp [Monitor.queryMoves, hother, emitted, Query.settlement] at h
  | lost other =>
      by_cases hother : other = poller <;>
        simp [Monitor.queryMoves, hother, emitted, Query.settlement] at h
  | deliver other now =>
      by_cases hother : other = poller
      · subst hother
        cases hfetch : (s.query other).fetching with
        | none => simp [Monitor.queryMoves, hfetch, emitted] at h
        | some fetch =>
            cases hanswer : s.answerTo fetch with
            | none => simp [Monitor.queryMoves, hfetch, hanswer, emitted] at h
            | some res =>
                have hmoves : Monitor.queryMoves codes other s (.deliver other now) =
                    [.settle (other.read codes fetch now res)] := by
                  simp [Monitor.queryMoves, hfetch, hanswer]
                have hending : ((clients other).query (s.queries other)).fetching.isSome := by
                  rw [← Monitor.query, hfetch]
                  rfl
                refine ⟨now, fetch, res, rfl, rfl, hanswer, ?_⟩
                simpa [hmoves, emitted, Query.settlement, hending, eq_comm] using h
      · simp [Monitor.queryMoves, hother, emitted] at h

theorem answerTo_monitor {es : List (MonitorEvent L)} {fetch : Fetch} {res : Response}
    (h : (monitor codes active clients es).answerTo fetch = some res) :
    ∃ readiness, res = Readiness.response readiness ∧
      HealthController.ready (exec Race.step (HealthController.race active)
        (Pool.history fetch.request 0 (apiEvents codes active clients es))) =
          some readiness := by
  rw [Monitor.answerTo, api_monitor, readyRaces_getElem?] at h
  split at h
  · obtain ⟨readiness, hready, rfl⟩ := Option.map_eq_some_iff.mp h
    exact ⟨readiness, rfl, hready⟩
  · cases h

/-- The poll's request was answered because both reads were answered in time. -/
structure Successful (codes : QueueErrorCodes) (active : L.QueueMetrics → ℕ)
    (clients : PollerClients) (poller : Poller) (es : List (MonitorEvent L)) (value : poller.Data) :
    Prop where
  read : ∃ before now after fetch n, es = before ++ .deliver poller now :: after ∧
    ((monitor codes active clients before).query poller).fetching = some fetch ∧
    ReadInTime active (Pool.history fetch.request 0 (apiEvents codes active clients before)) n ∧
    poller.read codes fetch now (Readiness.response (.up n)) = some value

theorem successful_of_mem_outcomes {poller : Poller} {es : List (MonitorEvent L)}
    {value : poller.Data} (h : some value ∈ outcomes codes active clients poller es) :
    Successful codes active clients poller es value := by
  obtain ⟨before, e, after, rfl, hsettled⟩ := exists_of_mem_emitted h
  obtain ⟨now, fetch, res, rfl, hfetch, hanswer, hread⟩ := mem_settled hsettled
  obtain ⟨readiness, rfl, hready⟩ := answerTo_monitor hanswer
  cases readiness with
  | down => rw [read_down] at hread; cases hread
  | up n =>
      have hintime := ((ready_exec active _).2.2 n).mp hready
      exact ⟨before, now, after, fetch, n, rfl, hfetch, hintime, hread⟩

/-! ### Requests in flight -/

section InFlight

variable (hclients : ∀ poller, (clients poller).Documented)

/-- The requests in flight have reached the API. -/
def Sent (s : Monitor L clients) : Prop :=
  ∀ poller, ∀ fetch ∈ (s.query poller).fetching, fetch.request < s.api.length

theorem length_api_step (s : Monitor L clients) (e : MonitorEvent L) :
    (s.step codes active e).api.length =
      s.api.length + (Pool.requests (s.apiMoves e)).length :=
  Pool.length_exec_pool _ _

theorem queryMoves_deliver (codes : QueueErrorCodes) (poller other : Poller) (s : Monitor L clients)
    (now : ℚ) :
    Monitor.queryMoves codes poller s (.deliver other now) = [] ∨
      ∃ result, Monitor.queryMoves codes poller s (.deliver other now) = [.settle result] := by
  rw [Monitor.queryMoves]
  split
  · cases (s.query poller).fetching with
    | none => exact .inl rfl
    | some fetch =>
        cases hanswer : s.answerTo fetch with
        | none => exact .inl (by simp [hanswer])
        | some res =>
            exact .inr ⟨poller.read codes fetch now res, by simp [hanswer]⟩
  · exact .inl rfl

include hclients

/-- A new request is in flight only after an accepted poll. -/
theorem mem_fetching_monitor {s : Monitor L clients} {e : MonitorEvent L} {poller : Poller}
    {fetch : Fetch} (h : fetch ∈ ((s.step codes active e).query poller).fetching) :
    fetch ∈ (s.query poller).fetching ∨
      fetch.request = s.api.length ∧ s.apiMoves e = [.start ()] := by
  have hmoves : (s.step codes active e).query poller = (clients poller).query
      (exec (clients poller).step (s.queries poller) (Monitor.queryMoves codes poller s e)) := rfl
  rw [hmoves] at h
  cases e with
  | request req => exact .inl h
  | api i e => exact .inl h
  | poll other now =>
      by_cases hother : other = poller
      · subst hother
        rw [Monitor.queryMoves, if_pos rfl, exec_cons, exec_nil] at h
        rcases (hclients other).mem_fetching_step h with hold | ⟨hidle, hfetch⟩
        · exact .inl hold
        · obtain rfl := QueryEvent.fetch.inj hfetch
          refine .inr ⟨rfl, ?_⟩
          rw [Monitor.apiMoves, Monitor.query, hidle, isReadyRequest_probeReadiness]
          rfl
      · rw [Monitor.queryMoves, if_neg hother] at h
        exact .inl h
  | deliver other now =>
      rcases queryMoves_deliver codes poller other s now with hnone | ⟨result, hsettle⟩
      · rw [hnone] at h
        exact .inl h
      · rw [hsettle, exec_cons, exec_nil, (hclients poller).fetching_settle] at h
        cases h
  | lost other =>
      by_cases hother : other = poller
      · rw [Monitor.queryMoves, if_pos hother, exec_cons, exec_nil,
          (hclients poller).fetching_settle] at h
        cases h
      · rw [Monitor.queryMoves, if_neg hother] at h
        exact .inl h

theorem sent_step {s : Monitor L clients} (h : Sent s) (e : MonitorEvent L) :
    Sent (s.step codes active e) := by
  intro poller fetch hfetch
  rw [length_api_step]
  rcases mem_fetching_monitor hclients hfetch with hold | ⟨hnew, hstart⟩
  · exact (h poller fetch hold).trans_le (Nat.le_add_right _ _)
  · rw [hnew, hstart]
    exact Nat.lt_succ_self _

theorem sent_monitor (es : List (MonitorEvent L)) :
    Sent (monitor codes active clients es) := by
  refine exec_invariant (I := Sent) _ (fun s e h ↦ sent_step hclients h e) ?_ es
  intro poller fetch hfetch
  rw [Monitor.query, Monitor.initial, (hclients poller).initial] at hfetch
  cases hfetch

omit hclients in
theorem monitor_append (es more : List (MonitorEvent L)) :
    monitor codes active clients (es ++ more) =
      exec (Monitor.step codes active) (monitor codes active clients es) more :=
  exec_append _ _ _ _

omit hclients in
theorem outcomes_append (poller : Poller) (es more : List (MonitorEvent L)) :
    outcomes codes active clients poller (es ++ more) =
      outcomes codes active clients poller es ++
        emitted (Monitor.step codes active) (Monitor.settled codes poller)
          (monitor codes active clients es) more :=
  emitted_append _ _ _ _ _

theorem answerTo_elapsed {poller : Poller} {fetch : Fetch} {es : List (MonitorEvent L)}
    (h : fetch ∈ ((monitor codes active clients es).query poller).fetching) :
    ∃ res, (monitor codes active clients (es ++ [.api fetch.request .elapse])).answerTo fetch =
      some res := by
  have hsent := sent_monitor hclients es poller fetch h
  rw [api_monitor, readyRaces, Pool.length_exec_pool, List.length_nil, Nat.zero_add] at hsent
  have hevents : apiEvents codes active clients (es ++ [.api fetch.request .elapse]) =
      apiEvents codes active clients es ++ [.move fetch.request .elapse] :=
    emitted_append _ _ _ _ _
  have hhistory : Pool.history fetch.request 0
      (apiEvents codes active clients es ++ [.move fetch.request .elapse]) =
        Pool.history fetch.request 0 (apiEvents codes active clients es) ++ [.elapse] := by
    rw [Pool.history_append, Nat.zero_add, Pool.history, if_pos ⟨rfl, hsent⟩]
    rfl
  obtain ⟨readiness, hready⟩ := Option.isSome_iff_exists.mp
    (ready_exec_elapse active
      (Pool.history fetch.request 0 (apiEvents codes active clients es)))
  refine ⟨Readiness.response readiness, ?_⟩
  rw [Monitor.answerTo, api_monitor, readyRaces_getElem?, hevents, hhistory, if_pos,
    Option.bind_some, hready, Option.map_some]
  rw [Pool.requests_append, List.length_append]
  omega

/-- The timer of a request in flight and the way back of its answer end the poll. -/
theorem poll_ends {poller : Poller} {fetch : Fetch} {es : List (MonitorEvent L)}
    (h : fetch ∈ ((monitor codes active clients es).query poller).fetching) (now : ℚ) :
    let later := es ++ [.api fetch.request .elapse, .deliver poller now]
    ((monitor codes active clients later).query poller).fetching = none ∧
      ∃ outcome, outcomes codes active clients poller later =
        outcomes codes active clients poller es ++ [outcome] := by
  obtain ⟨res, hanswer⟩ := answerTo_elapsed hclients h
  have hquery : (monitor codes active clients (es ++ [.api fetch.request .elapse])).query
      poller = (monitor codes active clients es).query poller := by
    rw [monitor_append]
    rfl
  have hfetch : ((monitor codes active clients
      (es ++ [.api fetch.request .elapse])).query poller).fetching = some fetch := by
    rw [hquery]
    exact h
  have hmoves : Monitor.queryMoves codes poller
      (monitor codes active clients (es ++ [.api fetch.request .elapse]))
        (.deliver poller now) = [.settle (poller.read codes fetch now res)] := by
    rw [Monitor.queryMoves, if_pos rfl, hfetch]
    simp [hanswer]
  intro later
  have hlater : later = (es ++ [.api fetch.request .elapse]) ++ [.deliver poller now] := by
    simp [later]
  constructor
  · rw [hlater, monitor_append, exec_cons, exec_nil]
    change ((clients poller).query
      (exec (clients poller).step _ (Monitor.queryMoves codes poller _ _))).fetching = none
    rw [hmoves, exec_cons, exec_nil]
    exact (hclients poller).fetching_settle _ _
  · refine ⟨poller.read codes fetch now res, ?_⟩
    rw [hlater, outcomes_append, outcomes_append]
    have hending : ((clients poller).query ((monitor codes active clients
        (es ++ [.api fetch.request .elapse])).queries poller)).fetching = some fetch := hfetch
    simp only [emitted, Monitor.settled, hmoves, List.append_nil]
    simp [Monitor.queryMoves, emitted, Query.settlement, hending]

end InFlight

/-! ### The chips over a run -/

/-- What the chips show after a run of polls. -/
structure ReadinessShown (codes : QueueErrorCodes) (active : L.QueueMetrics → ℕ)
    (clients : PollerClients) (es : List (MonitorEvent L)) : Prop where
  /-- The top bar shows the last poll. -/
  up (latencyMs : Option ℤ) :
    useRedisStatus ((monitor codes active clients es).query .topbar) = .up latencyMs ↔
      ∃ measured, latencyMs = some measured ∧
        (outcomes codes active clients .topbar es).getLast? = some (some measured)
  down : useRedisStatus ((monitor codes active clients es).query .topbar) = .down →
    (outcomes codes active clients .topbar es).getLast? = some none
  failed : (outcomes codes active clients .topbar es).getLast? = some none →
    useRedisStatus ((monitor codes active clients es).query .topbar) = .down ∨
      useRedisStatus ((monitor codes active clients es).query .topbar) = .checking ∧
        ((monitor codes active clients es).query .topbar).fetching.isSome ∧
          ∀ outcome ∈ outcomes codes active clients .topbar es, outcome = none
  /-- The health page shows whether any poll has ever succeeded. -/
  page_up : ProbeChip (isUp ((monitor codes active clients es).query .page)) = "up" ↔
    ∃ n, some (upBody n) ∈ outcomes codes active clients .page es
  page_stays_up (more : List (MonitorEvent L)) :
    ProbeChip (isUp ((monitor codes active clients es).query .page)) = "up" →
      ProbeChip (isUp ((monitor codes active clients (es ++ more)).query .page)) = "up"
  page_jobs (shown : JsValue) :
    activeJobs ((monitor codes active clients es).query .page) = some shown ↔
      ∃ n : ℕ, shown = .number n ∧
        (outcomes codes active clients .page es).reduceOption.getLast? = some (upBody n)
  /-- A poll succeeds only on two reads in time, and never hangs. -/
  successful {poller : Poller} {value : poller.Data} :
    some value ∈ outcomes codes active clients poller es →
      Successful codes active clients poller es value
  ends {poller : Poller} {fetch : Fetch} (now : ℚ) :
    fetch ∈ ((monitor codes active clients es).query poller).fetching →
      let later := es ++ [.api fetch.request .elapse, .deliver poller now]
      ((monitor codes active clients later).query poller).fetching = none ∧
        ∃ outcome, outcomes codes active clients poller later =
          outcomes codes active clients poller es ++ [outcome]

theorem useRedisStatus_up_iff {query : Query Fetch ℤ} {latencyMs : Option ℤ} :
    useRedisStatus query = .up latencyMs ↔ query.status = .success ∧ query.data = latencyMs := by
  cases hstatus : query.status <;> simp [useRedisStatus, hstatus]

theorem useRedisStatus_down_iff {query : Query Fetch ℤ} :
    useRedisStatus query = .down ↔ query.status = .error := by
  cases hstatus : query.status <;> simp [useRedisStatus, hstatus]

theorem useRedisStatus_checking_iff {query : Query Fetch ℤ} :
    useRedisStatus query = .checking ↔ query.status = .pending := by
  cases hstatus : query.status <;> simp [useRedisStatus, hstatus]

theorem probeChip_up_iff {query : Query Fetch JsValue} :
    ProbeChip (isUp query) = "up" ↔ query.data.isSome := by
  cases hdata : query.data with
  | some body => simp [isUp, hdata, ProbeChip]
  | none =>
      by_cases hstatus : query.status = .error <;> simp [isUp, hdata, hstatus, ProbeChip]

section Chips

variable (hclients : ∀ poller, (clients poller).Documented)

theorem page_body {es : List (MonitorEvent L)} {body : JsValue}
    (h : some body ∈ outcomes codes active clients .page es) : ∃ n, body = upBody n := by
  obtain ⟨-, now, -, fetch, n, -, -, -, hread⟩ := (successful_of_mem_outcomes h).read
  refine ⟨n, ?_⟩
  simpa [Poller.read, request_up, eq_comm] using hread

include hclients

theorem page_up_iff (es : List (MonitorEvent L)) :
    ProbeChip (isUp ((monitor codes active clients es).query .page)) = "up" ↔
      ∃ n, some (upBody n) ∈ outcomes codes active clients .page es := by
  rw [probeChip_up_iff, (follows_monitor hclients .page es).data_isSome_iff]
  constructor
  · rintro ⟨body, hbody⟩
    obtain ⟨n, rfl⟩ := page_body hbody
    exact ⟨n, hbody⟩
  · rintro ⟨n, hn⟩
    exact ⟨upBody n, hn⟩

omit hclients in
theorem read_activeJobs (n : ℕ) : (upBody n).read "activeJobs" = .number n := by
  rw [upBody, JsValue.read_own_of_ne (by decide), JsValue.read_own]

theorem page_jobs_iff (es : List (MonitorEvent L)) (shown : JsValue) :
    activeJobs ((monitor codes active clients es).query .page) = some shown ↔
      ∃ n : ℕ, shown = .number n ∧
        (outcomes codes active clients .page es).reduceOption.getLast? = some (upBody n) := by
  rw [activeJobs, (follows_monitor hclients .page es).data, Option.map_eq_some_iff]
  constructor
  · rintro ⟨body, hlast, rfl⟩
    obtain ⟨n, rfl⟩ := page_body (List.reduceOption_mem_iff.mp (List.mem_of_getLast? hlast))
    exact ⟨n, read_activeJobs n, hlast⟩
  · rintro ⟨n, rfl, hlast⟩
    exact ⟨upBody n, hlast, read_activeJobs n⟩

theorem up_iff (es : List (MonitorEvent L)) (latencyMs : Option ℤ) :
    useRedisStatus ((monitor codes active clients es).query .topbar) = .up latencyMs ↔
      ∃ measured, latencyMs = some measured ∧
        (outcomes codes active clients .topbar es).getLast? = some (some measured) := by
  have hfollows : Query.Follows (outcomes codes active clients .topbar es) _ :=
    follows_monitor hclients .topbar es
  rw [useRedisStatus_up_iff, hfollows.success_iff]
  constructor
  · rintro ⟨⟨measured, hlast⟩, rfl⟩
    exact ⟨measured, hfollows.data_of_last hlast, hlast⟩
  · rintro ⟨measured, rfl, hlast⟩
    exact ⟨⟨measured, hlast⟩, hfollows.data_of_last hlast⟩

/-- In every run of polls by the top bar and the health page, of other requests,
of answers, expired timers and losses, the chips show what is told of them. -/
theorem readiness_chips_show (codes : QueueErrorCodes) (active : L.QueueMetrics → ℕ)
    (es : List (MonitorEvent L)) : ReadinessShown codes active clients es where
  up := up_iff hclients es
  down h := (follows_monitor hclients .topbar es).last_of_error (useRedisStatus_down_iff.mp h)
  failed h := by
    rw [useRedisStatus_down_iff, useRedisStatus_checking_iff]
    exact (follows_monitor hclients .topbar es).error_of_last h
  page_up := page_up_iff hclients es
  page_stays_up more h := by
    obtain ⟨n, hn⟩ := (page_up_iff hclients es).mp h
    rw [page_up_iff hclients, outcomes_append]
    exact ⟨n, List.mem_append_left _ hn⟩
  page_jobs := page_jobs_iff hclients es
  successful := successful_of_mem_outcomes
  ends now h := poll_ends hclients h now

end Chips

end Shown

def plainClients : PollerClients := fun _ ↦ .plain true

theorem documented_plainClients (poller : Poller) : (plainClients poller).Documented :=
  QueryClient.documented_plain true

/-- The health page polls and both reads are answered; then its next poll and one
of the top bar are lost. -/
def lostRun : List (MonitorEvent countingLibrary) :=
  [.poll .page 0, .api 0 answered, .api 0 answered, .deliver .page 12, .poll .page 3000,
    .lost .page, .poll .topbar 3001, .lost .topbar]

/-- The health page goes on showing what it has, and the top bar shows that its
poll has failed. -/
theorem readiness_chips_show_lost :
    ProbeChip (isUp ((monitor (spelledCodes id) id plainClients lostRun).query .page)) = "up" ∧
    useRedisStatus ((monitor (spelledCodes id) id plainClients lostRun).query .topbar) =
      .down := by
  have hshow := readiness_chips_show documented_plainClients (spelledCodes id) id lostRun
  refine ⟨hshow.page_up.mpr ⟨3, ?_⟩, ?_⟩
  · have houtcomes : outcomes (spelledCodes id) id plainClients .page lostRun =
        [some (upBody 3), none] := by
      rfl
    rw [houtcomes]
    exact List.mem_cons_self
  · rcases hshow.failed rfl with hdown | ⟨-, hfetching, -⟩
    · exact hdown
    · exact Bool.noConfusion hfetching

end NestQueueExample.Web
