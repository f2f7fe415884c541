import NestQueueExample.Foundations.UrlPath
import NestQueueExample.Orders.Onboarding

/-!
# Requests with an id in their path

The dashboard writes the typed id into the path as it is. A string that the API
accepts as an id is a plain path segment and reaches it unchanged. Any other
string may still be read as an accepted id once it has been cut at a `?` or a
`#`, stripped of blanks, resolved and percent-decoded, and then the API acts on
an id that was not typed.
-/

namespace NestQueueExample.Web

open Http Orders PercentEncoding Queues Schedulers UrlPath
open Queues.Handler (sync invoke)

abbrev SchedulerQueue : Type := {name : String // name ∈ SCHEDULER_QUEUES}

inductive Method where
  | get
  | post
  | put
  | delete
  deriving DecidableEq

structure ApiRequest where
  method : Method
  path : String
  body : JsValue

/-! ## The dashboard -/

def onboardPath (userId : String) : String := "/onboarding/" ++ userId

def upsertPath (queue id : String) : String := "/schedulers/" ++ queue ++ "/" ++ id

def onboard (userId : String) : ApiRequest := ⟨.post, onboardPath userId, .undefined⟩

def upsert (queue : SchedulerQueue) (id : String) (repeat_ : JsValue) : ApiRequest :=
  ⟨.put, upsertPath queue.1 id, .object [(.own "repeat", repeat_)]⟩

/-! ## The API -/

def onboardingRoute : List PatternSegment := [.literal "onboarding", .param]

def schedulerRoute : List PatternSegment := [.literal "schedulers", .param, .param]

/-- The handler that may upsert a scheduler, where the request reaches it. -/
def upsertHandler {L : Library} (zod : Zod) (request : ApiRequest) :
    Option (Handler L SchedulerUpserted) :=
  match request.method, route schedulerRoute request.path with
  | .put, some [queue, id] =>
      some (SchedulersController.upsert zod (.string queue) (.string id) request.body)
  | _, _ => none

def isUserId (s : String) : Bool :=
  matchesUserId s && decide (JsString.length s ≤ MAX_USER_ID_LENGTH)

def isSchedulerId (s : String) : Bool :=
  decide (1 ≤ JsString.length s) && decide (JsString.length s ≤ MAX_SCHEDULER_ID_LENGTH) &&
    matchesSchedulerId s

def Call.Upserts {L : Library} (queue id : String) (call : Call L) : Prop :=
  ∀ name schedulerId schedule template,
    call = .upsertJobScheduler name schedulerId schedule template →
      name = queue ∧ schedulerId = id

/-- The request upserts no scheduler but the typed one, and ends without a call
if the typed string is not accepted. -/
structure HitsScheduler (L : Library) (zod : Zod) (queue : SchedulerQueue) (id : String)
    (repeat_ : JsValue) : Prop where
  acted : ∀ handler : Handler L SchedulerUpserted,
    upsertHandler zod (upsert queue id repeat_) = some handler →
      handler.CallsOnly (Call.Upserts queue.1 id)
  rejected : isSchedulerId id = false → ∀ handler : Handler L SchedulerUpserted,
    upsertHandler zod (upsert queue id repeat_) = some handler → handler.FailsAtOnce

/-! ## Accepted ids -/

theorem isUnreserved_of_isUserIdChar {c : Char} (h : isUserIdChar c = true) :
    isUnreserved c = true := by
  rw [isUserIdChar, Schedulers.isAlphanumeric] at h
  have halphanum : c.isAlphanum = (c.isUpper || c.isLower || c.isDigit) := rfl
  rw [isUnreserved, halphanum]
  simp only [Bool.or_eq_true, decide_eq_true_eq] at h
  rcases h with (((h | h) | h) | rfl) | rfl <;> simp_all

theorem ne_of_isUserIdChar {c : Char} (h : isUserIdChar c = true) : c ≠ '.' ∧ c ≠ '%' := by
  constructor
  · rintro rfl
    exact absurd h (by decide)
  · rintro rfl
    exact absurd h (by decide)

theorem plainSegment_of_idChars {s : String} (h : ∀ c ∈ s.toList, isUserIdChar c = true) :
    PlainSegment s.toList :=
  plainSegment_of_unreserved (fun c hc ↦ .inl (isUnreserved_of_isUserIdChar (h c hc)))
    fun c hc ↦ ne_of_isUserIdChar (h c (List.mem_of_mem_head? hc))

theorem percent_notMem_idChars {s : String} (h : ∀ c ∈ s.toList, isUserIdChar c = true) :
    '%' ∉ s.toList :=
  fun hmem ↦ (ne_of_isUserIdChar (h '%' hmem)).2 rfl

theorem idChars_of_isUserId {s : String} (h : isUserId s = true) :
    s ≠ "" ∧ ∀ c ∈ s.toList, isUserIdChar c = true := by
  simp only [isUserId, matchesUserId, Bool.and_eq_true, List.all_eq_true, decide_eq_true_eq] at h
  exact h.1

theorem idChars_of_isSchedulerId {s : String} (h : isSchedulerId s = true) :
    s ≠ "" ∧ ∀ c ∈ s.toList, isUserIdChar c = true := by
  rw [isSchedulerId, Bool.and_eq_true] at h
  have hmatches := h.2
  unfold matchesSchedulerId at hmatches
  split at hmatches
  · exact Bool.noConfusion hmatches
  · next first rest hlist =>
      simp only [Bool.and_eq_true, List.all_eq_true] at hmatches
      rw [hlist]
      refine ⟨?_, ?_⟩
      · rintro rfl
        simp at hlist
      · rw [List.forall_mem_cons]
        exact ⟨by simp [isUserIdChar, hmatches.1], hmatches.2⟩

theorem welcome_ok_iff {ε : Type} {zod : Zod} (hzod : zod.Checks) {userId user : String} :
    (OnboardingController.welcome zod (.string userId) : Except (Rejection ε) String) = .ok user ↔
      user = userId ∧ isUserId userId = true := by
  rw [OnboardingController.welcome, parseRequest_ok_iff, userIdSchema, hzod.string_iff]
  simp only [List.forall_mem_cons, List.not_mem_nil, StringCheck.holds, isUserId, Bool.and_eq_true,
    JsValue.string.injEq]
  constructor
  · rintro ⟨rfl, hmatches, hlength, -⟩
    exact ⟨rfl, hmatches, hlength⟩
  · rintro ⟨rfl, hmatches, hlength⟩
    exact ⟨rfl, hmatches, hlength, by simp⟩

theorem schedulerId_ok_iff {ε : Type} {zod : Zod} (hzod : zod.Checks) {id schedulerId : String} :
    (parseRequest zod schedulerIdSchema (.string id) : Except (Rejection ε) String) =
      .ok schedulerId ↔ schedulerId = id ∧ isSchedulerId id = true := by
  rw [parseRequest_ok_iff, schedulerIdSchema, hzod.string_iff]
  simp only [List.forall_mem_cons, List.not_mem_nil, StringCheck.holds, isSchedulerId,
    Bool.and_eq_true, JsValue.string.injEq]
  constructor
  · rintro ⟨rfl, hmin, hmax, hmatches, -⟩
    exact ⟨rfl, ⟨hmin, hmax⟩, hmatches⟩
  · rintro ⟨rfl, ⟨hmin, hmax⟩, hmatches⟩
    exact ⟨rfl, hmin, hmax, hmatches, by simp⟩

theorem route_onboardPath {userId : String} (hne : userId ≠ "")
    (hplain : PlainSegment userId.toList) (hpercent : '%' ∉ userId.toList) :
    route onboardingRoute (onboardPath userId) = some [userId] := by
  have hpath : onboardPath userId =
      String.ofList (pathText ["onboarding".toList, userId.toList]) := by
    apply String.toList_injective
    simp [onboardPath, pathText]
  have hempty : userId.toList.isEmpty = false := by simpa using hne
  have hsegments : ∀ s ∈ ["onboarding".toList, userId.toList], PlainSegment s := by
    rw [List.forall_mem_cons, List.forall_mem_singleton]
    exact ⟨plainSegment_of_all (by decide), hplain⟩
  have hmatch : matchRoute onboardingRoute ["onboarding".toList, userId.toList] =
      some [userId.toList] := by
    simp [onboardingRoute, matchRoute, hempty]
  rw [hpath, route_pathText hsegments, hmatch]
  simp [decodeParam_eq_self hpercent]

theorem route_upsertPath (queue : SchedulerQueue) {id : String} (hne : id ≠ "")
    (hplain : PlainSegment id.toList) (hpercent : '%' ∉ id.toList) :
    route schedulerRoute (upsertPath queue.1 id) = some [queue.1, id] := by
  have hqueue : queue.1 = MAINTENANCE_QUEUE ∨ queue.1 = MONITORING_QUEUE := by
    simpa [SCHEDULER_QUEUES] using queue.2
  have hqueueChars : ∀ c ∈ queue.1.toList, isUserIdChar c = true := by
    rcases hqueue with hq | hq <;> rw [hq] <;> exact List.all_eq_true.mp (by decide)
  have hpath : upsertPath queue.1 id =
      String.ofList (pathText ["schedulers".toList, queue.1.toList, id.toList]) := by
    apply String.toList_injective
    simp [upsertPath, pathText]
  have hempty : id.toList.isEmpty = false := by simpa using hne
  have hqueueEmpty : queue.1.toList.isEmpty = false := by
    rcases hqueue with hq | hq <;> rw [hq] <;> decide
  have hsegments : ∀ s ∈ ["schedulers".toList, queue.1.toList, id.toList], PlainSegment s := by
    rw [List.forall_mem_cons, List.forall_mem_cons, List.forall_mem_singleton]
    exact ⟨plainSegment_of_all (by decide), plainSegment_of_idChars hqueueChars, hplain⟩
  have hmatch : matchRoute schedulerRoute ["schedulers".toList, queue.1.toList, id.toList] =
      some [queue.1.toList, id.toList] := by
    simp [schedulerRoute, matchRoute, hempty, hqueueEmpty]
  rw [hpath, route_pathText hsegments, hmatch]
  simp [decodeParam_eq_self hpercent, decodeParam_eq_self (percent_notMem_idChars hqueueChars)]

/-! ## What a request acts on -/

section Scheduler

variable {L : Library} {zod : Zod}

theorem queue_ok_iff {ε : Type} (hzod : zod.Checks) {queue : String} {named : SchedulerQueue} :
    (parseRequest zod queueSchema (.string queue) : Except (Rejection ε) SchedulerQueue) =
      .ok named ↔ queue = named.1 := by
  rw [parseRequest_ok_iff, queueSchema, hzod.enum_iff, JsValue.string.injEq]

/-- Everything the handler asks of a request before its call. -/
structure Upsertable (zod : Zod) (queue id : String) (body : JsValue) (data : UpsertBody) :
    Prop where
  queue : queue ∈ SCHEDULER_QUEUES
  id : isSchedulerId id = true
  body : zod.safeParse upsertSchema body = .ok data

theorem upsert_fails (hzod : zod.Checks) {queue id : String} {body : JsValue}
    (h : ∀ data, ¬ Upsertable zod queue id body data) :
    (SchedulersController.upsert zod (.string queue) (.string id) body :
      Handler L SchedulerUpserted).FailsAtOnce := by
  refine .bind_done fun named hnamed ↦ .bind_done fun schedulerId hid ↦ .bind_done fun data hbody ↦
    absurd ⟨?_, ((schedulerId_ok_iff hzod).mp hid).2, parseRequest_ok_iff.mp hbody⟩ (h data)
  rw [(queue_ok_iff hzod).mp hnamed]
  exact named.2

theorem upsert_calls (hzod : zod.Checks) {queue id : String} {body : JsValue} {data : UpsertBody}
    (h : Upsertable zod queue id body data) :
    (SchedulersController.upsert zod (.string queue) (.string id) body :
      Handler L SchedulerUpserted) =
        invoke (.upsertJobScheduler queue id data.repeat_ (toJobTemplate data.template)) >>=
          fun job ↦ pure ⟨id, job.bind Job.id⟩ := by
  have hnamed : (parseRequest zod queueSchema (.string queue) :
      Except (Rejection L.Error) SchedulerQueue) = .ok ⟨queue, h.queue⟩ :=
    (queue_ok_iff hzod).mpr rfl
  rw [SchedulersController.upsert, hnamed, (schedulerId_ok_iff hzod).mpr ⟨rfl, h.id⟩,
    parseRequest_ok_iff.mpr h.body]
  rfl

theorem upsertHandler_eq_some_iff {queue : SchedulerQueue} {id : String} {repeat_ : JsValue}
    {handler : Handler L SchedulerUpserted} :
    upsertHandler zod (upsert queue id repeat_) = some handler ↔
      ∃ name schedulerId, route schedulerRoute (upsertPath queue.1 id) = some [name, schedulerId] ∧
        SchedulersController.upsert zod (.string name) (.string schedulerId)
          (.object [(.own "repeat", repeat_)]) = handler := by
  unfold upsertHandler
  split
  · next name schedulerId _ hroute =>
      change route schedulerRoute (upsertPath queue.1 id) = some [name, schedulerId] at hroute
      simp [hroute, upsert]
  · next hother =>
      refine iff_of_false (by simp) ?_
      rintro ⟨name, schedulerId, hroute, -⟩
      exact hother name schedulerId rfl hroute

/-- An upsert upserts no scheduler but the one it is asked for. -/
theorem callsOnly_upsert (hzod : zod.Checks) (queue id : String) (body : JsValue) :
    (SchedulersController.upsert zod (.string queue) (.string id) body :
      Handler L SchedulerUpserted).CallsOnly (Call.Upserts queue id) := by
  by_cases hbody : ∃ data, Upsertable zod queue id body data
  · obtain ⟨data, hdata⟩ := hbody
    rw [upsert_calls hzod hdata]
    refine .bind (Program.callsOnly_call.mpr ?_) fun _ ↦ trivial
    intro name schedulerId schedule template hcall
    obtain ⟨rfl, rfl, -⟩ := Call.upsertJobScheduler.inj hcall
    exact ⟨rfl, rfl⟩
  · exact (upsert_fails hzod (not_exists.mp hbody)).callsOnly

theorem hitsScheduler_iff (hzod : zod.Checks) (queue : SchedulerQueue) (id : String)
    (repeat_ : JsValue) :
    HitsScheduler L zod queue id repeat_ ↔ isSchedulerId id = true ∨
      ∀ name schedulerId, route schedulerRoute (upsertPath queue.1 id) = some [name, schedulerId] →
        ∀ data, ¬ Upsertable zod name schedulerId (.object [(.own "repeat", repeat_)]) data := by
  constructor
  · intro h
    cases haccepted : isSchedulerId id with
    | true => exact .inl rfl
    | false =>
        refine .inr fun name schedulerId hroute data hdata ↦ ?_
        obtain ⟨error, hfails⟩ := h.rejected haccepted _
          (upsertHandler_eq_some_iff.mpr ⟨name, schedulerId, hroute, rfl⟩)
        rw [upsert_calls hzod hdata] at hfails
        cases hfails
  · rintro (haccepted | hnone)
    · refine ⟨fun handler hsome ↦ ?_, fun hnot ↦ by simp [haccepted] at hnot⟩
      obtain ⟨name, schedulerId, hroute, rfl⟩ := upsertHandler_eq_some_iff.mp hsome
      obtain ⟨hne, hchars⟩ := idChars_of_isSchedulerId haccepted
      rw [route_upsertPath queue hne (plainSegment_of_idChars hchars)
        (percent_notMem_idChars hchars)] at hroute
      obtain ⟨rfl, rfl⟩ : queue.1 = name ∧ id = schedulerId := by simpa using hroute
      exact callsOnly_upsert hzod queue.1 id _
    · have hfails : ∀ handler : Handler L SchedulerUpserted,
          upsertHandler zod (upsert queue id repeat_) = some handler → handler.FailsAtOnce := by
        intro handler hsome
        obtain ⟨name, schedulerId, hroute, rfl⟩ := upsertHandler_eq_some_iff.mp hsome
        exact upsert_fails hzod (hnone name schedulerId hroute)
      exact ⟨fun handler hsome ↦ (hfails handler hsome).callsOnly, fun _ ↦ hfails⟩

end Scheduler

end NestQueueExample.Web
