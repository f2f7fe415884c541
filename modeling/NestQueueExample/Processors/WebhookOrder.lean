import Mathlib.Data.List.InsertIdx
import NestQueueExample.Foundations.Runs
import NestQueueExample.Foundations.Tickets
import NestQueueExample.Processors.Listeners

/-!
# The order of bridged webhook events

The global `completed` listener pushes after its lookup, the two others at
once. So an event handed over while a lookup is pending overtakes it, lookups
overtake each other, and a rejected lookup loses its entry. Once all calls have
returned, the feed has one entry per event in their order exactly when none of
this happened.
-/

namespace NestQueueExample.Processors

open Events Runs SlidingWindow

/-- The listeners with the feed they push to. Beside them stand the events
handed over so far and the pushes with the number of the event they are for. -/
structure WebhookRun where
  listeners : WebhookListeners := {}
  feed : EventFeed FeedEntry := {}
  handed : List (GlobalEvent × Timestamp) := []
  log : List (ℕ × FeedEntry) := []

def WebhookEvent.handed : WebhookEvent → List (GlobalEvent × Timestamp)
  | .hand event now => [(event, now)]
  | .settle _ _ => []

structure Bridges (event : GlobalEvent × Timestamp) (entry : FeedEntry) : Prop where
  name : entry.event = event.1.name
  jobId : entry.jobId = some event.1.jobId
  recordedAt : entry.recordedAt = event.2

namespace WebhookRun

def step (s : WebhookRun) (e : WebhookEvent) : WebhookRun where
  listeners := s.listeners.step e
  feed := ((s.listeners.pushes e).map Prod.snd).foldl EventFeed.push s.feed
  handed := s.handed ++ e.handed
  log := s.log ++ s.listeners.pushes e

/-- The numbers of the events that have been pushed for. -/
def served (s : WebhookRun) : List ℕ := s.log.map Prod.fst

/-- The feed received one entry for every event, in the order of the events: the
`n`-th entry is pushed for the `n`-th event and bridges it, and the feed holds
the last of these entries. -/
structure OneEntryPerEvent (s : WebhookRun) : Prop where
  order : s.served = List.range s.handed.length
  bridges : List.Forall₂ Bridges s.handed (s.log.map Prod.snd)
  retained : s.feed.buffer = (s.log.map Prod.snd).rtake FEED_BUFFER_CAPACITY

def ClockMonotone (s : WebhookRun) : Prop := (s.handed.map Prod.snd).Pairwise (· ≤ ·)

def NewestLast (s : WebhookRun) : Prop :=
  (s.feed.snapshot.map FeedEntry.recordedAt).Pairwise (· ≤ ·)

/-- A `failed` or `active` event comes while no lookup is pending, and a pending
lookup answers as the oldest one and does not reject. -/
def Prompt (s : WebhookRun) : WebhookEvent → Prop
  | .hand (.completed _ _) _ => True
  | .hand _ _ => s.listeners.pending = []
  | .settle lookup (.resolves _) => lookup < s.listeners.pending.length → lookup = 0
  | .settle lookup .rejects => s.listeners.pending.length ≤ lookup

def waiting (s : WebhookRun) : List ℕ := s.listeners.pending.map PendingLookup.call

/-! ## What every run keeps -/

structure Valid (s : WebhookRun) : Prop where
  calls : s.listeners.calls = s.handed.length
  waiting_lt : ∀ n ∈ s.waiting, n < s.listeners.calls
  waiting_sorted : s.waiting.Pairwise (· < ·)
  few : s.served.length + s.waiting.length ≤ s.listeners.calls
  buffer : s.feed.buffer = (s.log.map Prod.snd).rtake FEED_BUFFER_CAPACITY
  pushed : ∀ n entry, (n, entry) ∈ s.log → ∃ event, s.handed[n]? = some event ∧
    Bridges event entry
  based : ∀ lookup ∈ s.listeners.pending, ∃ event, s.handed[lookup.call]? = some event ∧
    Bridges event lookup.base

theorem bridges_append {handed : List (GlobalEvent × Timestamp)} {n : ℕ} {entry : FeedEntry}
    (h : ∃ event, handed[n]? = some event ∧ Bridges event entry)
    (new : List (GlobalEvent × Timestamp)) :
    ∃ event, (handed ++ new)[n]? = some event ∧ Bridges event entry := by
  obtain ⟨event, hget, hbridges⟩ := h
  exact ⟨event, by rw [List.getElem?_append_left (List.getElem?_eq_some_iff.mp hget).1, hget],
    hbridges⟩

theorem bridges_completedEntry {event : GlobalEvent × Timestamp} {base : FeedEntry}
    (h : Bridges event base) (job : Option Job) :
    Bridges event (WebhookProcessor.completedEntry base job) := by
  cases job with
  | none => exact h
  | some job => exact ⟨h.name, h.jobId, h.recordedAt⟩

theorem Valid.hand_now {s : WebhookRun} (h : s.Valid) {event : GlobalEvent} {now : Timestamp}
    {entry : FeedEntry} (hstep : s.listeners.step (.hand event now) =
      { s.listeners with calls := s.listeners.calls + 1 })
    (hpushes : s.listeners.pushes (.hand event now) = [(s.listeners.calls, entry)])
    (hentry : Bridges (event, now) entry) : (s.step (.hand event now)).Valid where
  calls := by simp [step, hstep, WebhookEvent.handed, h.calls]
  waiting_lt := by
    intro n hn
    simp only [step, hstep, waiting] at hn ⊢
    exact (h.waiting_lt n hn).trans (Nat.lt_succ_self _)
  waiting_sorted := by simpa [waiting, step, hstep] using h.waiting_sorted
  few := by
    have hfew := h.few
    simp only [served, waiting, List.length_map] at hfew
    simp only [served, waiting, step, hstep, hpushes, List.length_map, List.length_append,
      List.length_singleton]
    omega
  buffer := by simpa [step] using EventFeed.foldl_push_buffer_eq_rtake h.buffer _
  pushed := by
    intro n x hmem
    simp only [step, hpushes, List.mem_append, List.mem_singleton, Prod.mk.injEq] at hmem ⊢
    rcases hmem with hold | ⟨rfl, rfl⟩
    · exact bridges_append (h.pushed n x hold) _
    · exact ⟨(event, now), by simp [WebhookEvent.handed, h.calls], hentry⟩
  based := by
    intro lookup hmem
    simp only [step, hstep] at hmem ⊢
    exact bridges_append (h.based lookup hmem) _

theorem Valid.hand_completed {s : WebhookRun} (h : s.Valid) (jobId : String)
    (returnvalue : JsValue) (now : Timestamp) :
    (s.step (.hand (.completed jobId returnvalue) now)).Valid where
  calls := by simp [step, WebhookListeners.step, WebhookEvent.handed, h.calls]
  waiting_lt := by
    intro n hn
    simp only [waiting, step, WebhookListeners.step, List.map_append, List.map_singleton,
      List.mem_append, List.mem_singleton] at hn ⊢
    rcases hn with hold | rfl
    · exact (h.waiting_lt n hold).trans (Nat.lt_succ_self _)
    · exact Nat.lt_succ_self _
  waiting_sorted := by
    simp only [waiting, step, WebhookListeners.step, List.map_append, List.map_singleton]
    exact List.pairwise_append.mpr ⟨h.waiting_sorted, List.pairwise_singleton _ _,
      fun n hn m hm ↦ List.mem_singleton.mp hm ▸ h.waiting_lt n hn⟩
  few := by
    have hfew := h.few
    simp only [served, waiting, List.length_map] at hfew
    simp only [served, waiting, step, WebhookListeners.step, WebhookListeners.pushes,
      List.length_map, List.length_append, List.length_singleton, List.length_nil]
    omega
  buffer := by simpa [step, WebhookListeners.pushes] using h.buffer
  pushed := by
    intro n x hmem
    simp only [step, WebhookListeners.pushes, List.append_nil] at hmem
    exact bridges_append (h.pushed n x hmem) _
  based := by
    intro lookup hmem
    simp only [step, WebhookListeners.step, List.mem_append, List.mem_singleton] at hmem ⊢
    rcases hmem with hold | rfl
    · exact bridges_append (h.based lookup hold) _
    · exact ⟨(.completed jobId returnvalue, now), by simp [WebhookEvent.handed, h.calls],
        ⟨rfl, rfl, rfl⟩⟩

theorem Valid.bridges_of_mem_pushes {s : WebhookRun} (h : s.Valid) {lookup : ℕ}
    {answer : Lookup} {n : ℕ} {entry : FeedEntry}
    (hmem : (n, entry) ∈ s.listeners.pushes (.settle lookup answer)) :
    ∃ event, s.handed[n]? = some event ∧ Bridges event entry := by
  cases answer with
  | rejects => simp [WebhookListeners.pushes] at hmem
  | resolves job =>
      simp only [WebhookListeners.pushes, List.mem_map, Option.mem_toList] at hmem
      obtain ⟨base, hbase, heq⟩ := hmem
      obtain ⟨rfl, rfl⟩ := Prod.mk.inj heq
      obtain ⟨event, hevent, hbridges⟩ := h.based base (List.mem_of_getElem? hbase)
      exact ⟨event, hevent, bridges_completedEntry hbridges job⟩

/-- A lookup that answers trades its pending call for at most one push. -/
theorem length_pushes_settle_le (listeners : WebhookListeners) (lookup : ℕ) (answer : Lookup) :
    (listeners.pushes (.settle lookup answer)).length +
      (listeners.pending.eraseIdx lookup).length ≤ listeners.pending.length := by
  cases answer with
  | rejects => simpa [WebhookListeners.pushes] using List.length_eraseIdx_le _ _
  | resolves job =>
      by_cases hlookup : lookup < listeners.pending.length
      · simp only [WebhookListeners.pushes, List.getElem?_eq_getElem hlookup,
          Option.toList_some, List.map_singleton, List.length_singleton,
          List.length_eraseIdx_of_lt hlookup]
        omega
      · simp [WebhookListeners.pushes, List.getElem?_eq_none (not_lt.mp hlookup),
          List.eraseIdx_of_length_le (not_lt.mp hlookup)]

theorem waiting_settle (s : WebhookRun) (lookup : ℕ) (answer : Lookup) :
    (s.step (.settle lookup answer)).waiting = s.waiting.eraseIdx lookup := by
  simp [waiting, step, WebhookListeners.step, List.eraseIdx_map]

theorem Valid.settle {s : WebhookRun} (h : s.Valid) (lookup : ℕ) (answer : Lookup) :
    (s.step (.settle lookup answer)).Valid where
  calls := by simpa [step, WebhookListeners.step, WebhookEvent.handed] using h.calls
  waiting_lt := by
    intro n hn
    rw [waiting_settle] at hn
    exact h.waiting_lt n (List.mem_of_mem_eraseIdx hn)
  waiting_sorted := by
    rw [waiting_settle]
    exact h.waiting_sorted.sublist (List.eraseIdx_sublist _ _)
  few := by
    have hfew := h.few
    have hlength := length_pushes_settle_le s.listeners lookup answer
    simp only [served, waiting, List.length_map] at hfew
    simp only [served, waiting, step, WebhookListeners.step, List.length_map, List.length_append]
    omega
  buffer := by simpa [step] using EventFeed.foldl_push_buffer_eq_rtake h.buffer _
  pushed := by
    intro n x hmem
    simp only [step, WebhookEvent.handed, List.append_nil, List.mem_append] at hmem ⊢
    rcases hmem with hold | hnew
    · exact h.pushed n x hold
    · exact h.bridges_of_mem_pushes hnew
  based := by
    intro base hmem
    simp only [step, WebhookListeners.step, WebhookEvent.handed, List.append_nil] at hmem ⊢
    exact h.based base (List.mem_of_mem_eraseIdx hmem)

theorem valid_step {s : WebhookRun} (h : s.Valid) (e : WebhookEvent) : (s.step e).Valid := by
  cases e with
  | hand event now =>
      cases event with
      | completed jobId returnvalue => exact h.hand_completed jobId returnvalue now
      | failed jobId failedReason => exact h.hand_now rfl rfl ⟨rfl, rfl, rfl⟩
      | active jobId => exact h.hand_now rfl rfl ⟨rfl, rfl, rfl⟩
  | settle lookup answer => exact h.settle lookup answer

theorem valid_initial : ({} : WebhookRun).Valid :=
  ⟨rfl, by simp [waiting], by simp [waiting], by simp [served, waiting], by simp, by simp, by simp⟩

/-! ## Which steps keep the order -/

/-- The calls have pushed in the order of their events, with the waiting ones
still to come. -/
def InTurn (s : WebhookRun) : Prop :=
  Tickets.InTurn s.served s.waiting s.listeners.calls

theorem inTurn_hand_now_iff {s : WebhookRun} {event : GlobalEvent} {now : Timestamp}
    {entry : FeedEntry} (hstep : s.listeners.step (.hand event now) =
      { s.listeners with calls := s.listeners.calls + 1 })
    (hpushes : s.listeners.pushes (.hand event now) = [(s.listeners.calls, entry)]) :
    (s.step (.hand event now)).InTurn ↔ s.InTurn ∧ s.listeners.pending = [] := by
  have hserved : (s.step (.hand event now)).served = s.served ++ [s.listeners.calls] := by
    simp [served, step, hpushes]
  have hwaiting : (s.step (.hand event now)).waiting = s.waiting := by
    simp [waiting, step, hstep]
  have hcalls : (s.step (.hand event now)).listeners.calls = s.listeners.calls + 1 := by
    simp [step, hstep]
  rw [InTurn, hserved, hwaiting, hcalls, Tickets.inTurn_serve_now_iff, InTurn]
  simp [waiting]

theorem inTurn_hand_completed_iff {s : WebhookRun} {jobId : String} {returnvalue : JsValue}
    {now : Timestamp} :
    (s.step (.hand (.completed jobId returnvalue) now)).InTurn ↔ s.InTurn := by
  have hserved : (s.step (.hand (.completed jobId returnvalue) now)).served = s.served := by
    simp [served, step, WebhookListeners.pushes]
  have hwaiting : (s.step (.hand (.completed jobId returnvalue) now)).waiting =
      s.waiting ++ [s.listeners.calls] := by
    simp [waiting, step, WebhookListeners.step]
  have hcalls : (s.step (.hand (.completed jobId returnvalue) now)).listeners.calls =
      s.listeners.calls + 1 := rfl
  rw [InTurn, hserved, hwaiting, hcalls, Tickets.inTurn_issue_iff, InTurn]

theorem inTurn_settle_none {s : WebhookRun} {lookup : ℕ}
    (h : s.listeners.pending.length ≤ lookup) (answer : Lookup) :
    (s.step (.settle lookup answer)).InTurn ↔ s.InTurn := by
  have hpushes : s.listeners.pushes (.settle lookup answer) = [] := by
    cases answer <;> simp [WebhookListeners.pushes, List.getElem?_eq_none h]
  simp [InTurn, served, waiting, step, hpushes, WebhookListeners.step,
    List.eraseIdx_of_length_le h]

theorem Valid.inTurn_settle_iff {s : WebhookRun} (hvalid : s.Valid) {lookup : ℕ}
    (h : lookup < s.listeners.pending.length) (answer : Lookup) :
    (s.step (.settle lookup answer)).InTurn ↔
      s.InTurn ∧ lookup = 0 ∧ ∃ job, answer = .resolves job := by
  have hlookup : lookup < s.waiting.length := by simpa [waiting] using h
  have hcalls : (s.step (.settle lookup answer)).listeners.calls = s.listeners.calls := rfl
  rw [InTurn, waiting_settle, hcalls]
  cases answer with
  | resolves job =>
      have hserved : (s.step (.settle lookup (.resolves job))).served =
          s.served ++ [s.waiting[lookup]] := by
        simp [served, waiting, step, WebhookListeners.pushes, List.getElem?_eq_getElem h]
      rw [hserved, Tickets.inTurn_serve_waiting_iff hvalid.waiting_sorted hlookup, InTurn]
      simp
  | rejects =>
      have hserved : (s.step (.settle lookup .rejects)).served = s.served := by
        simp [served, step, WebhookListeners.pushes]
      rw [hserved]
      simpa using Tickets.not_inTurn_drop hvalid.few hlookup

/-- A step keeps the order exactly when it is prompt, and no step restores it. -/
theorem Valid.inTurn_step_iff {s : WebhookRun} (h : s.Valid) (e : WebhookEvent) :
    (s.step e).InTurn ↔ s.InTurn ∧ s.Prompt e := by
  cases e with
  | hand event now =>
      cases event with
      | completed jobId returnvalue => simp [inTurn_hand_completed_iff, Prompt]
      | failed jobId failedReason => exact inTurn_hand_now_iff rfl rfl
      | active jobId => exact inTurn_hand_now_iff rfl rfl
  | settle lookup answer =>
      rcases Nat.lt_or_ge lookup s.listeners.pending.length with hlt | hge
      · rw [h.inTurn_settle_iff hlt]
        cases answer <;> simp [Prompt, hlt]
      · rw [inTurn_settle_none hge]
        cases answer <;> simp [Prompt, hge, Nat.not_lt.mpr hge]

/-! ## The feed once all calls have returned -/

def run (es : List WebhookEvent) : WebhookRun := exec step {} es

theorem run_valid (es : List WebhookEvent) : (run es).Valid :=
  exec_invariant (I := Valid) step (fun _ e h ↦ valid_step h e) valid_initial es

theorem inTurn_run_iff (es : List WebhookEvent) :
    (run es).InTurn ↔ AllSteps step Prompt {} es := by
  rw [run, exec_iff_allSteps (fun _ e h ↦ valid_step h e) (fun _ e h ↦ Valid.inTurn_step_iff h e)
    valid_initial]
  simp [InTurn, Tickets.InTurn, served, waiting]

/-- Pushed in the order of the events, each entry is the one of its event. -/
theorem Valid.bridges_log {s : WebhookRun} (h : s.Valid)
    (horder : s.served = List.range s.handed.length) :
    List.Forall₂ Bridges s.handed (s.log.map Prod.snd) := by
  have hlength : s.log.length = s.handed.length := by
    simpa [served] using congrArg List.length horder
  rw [List.forall₂_iff_get]
  refine ⟨by simp [hlength], fun n hn hn' ↦ ?_⟩
  have hlog : n < s.log.length := by simpa using hn'
  have hnumber : s.log[n].1 = n := by
    have hget := congrArg (fun numbers ↦ numbers[n]?) horder
    simpa [served, List.getElem?_eq_getElem hlog, List.getElem?_range hn] using hget
  obtain ⟨event, hevent, hbridges⟩ := h.pushed s.log[n].1 s.log[n].2 (List.getElem_mem hlog)
  rw [hnumber] at hevent
  obtain ⟨_, rfl⟩ := List.getElem?_eq_some_iff.mp hevent
  simpa using hbridges

theorem Valid.oneEntryPerEvent_iff {s : WebhookRun} (h : s.Valid)
    (hreturned : s.listeners.pending = []) : s.OneEntryPerEvent ↔ s.InTurn := by
  have hinTurn : s.served = List.range s.handed.length ↔ s.InTurn := by
    simp [InTurn, Tickets.InTurn, waiting, hreturned, h.calls]
  rw [← hinTurn]
  exact ⟨OneEntryPerEvent.order, fun horder ↦ ⟨horder, h.bridges_log horder, h.buffer⟩⟩

theorem recordedAt_of_bridges {handed : List (GlobalEvent × Timestamp)}
    {entries : List FeedEntry} (h : List.Forall₂ Bridges handed entries) :
    entries.map FeedEntry.recordedAt = handed.map Prod.snd := by
  induction h with
  | nil => rfl
  | cons hfirst _ ih => simp [hfirst.recordedAt, ih]

theorem OneEntryPerEvent.newestLast {s : WebhookRun} (h : s.OneEntryPerEvent)
    (hclock : s.ClockMonotone) : s.NewestLast := by
  rw [NewestLast, EventFeed.snapshot, h.retained, map_rtake, recordedAt_of_bridges h.bridges]
  exact hclock.sublist (rtake_suffix _ _).sublist

end WebhookRun

/-- Once all listener calls have returned, the feed has received one entry per
event, in order, and retains them newest-last under a clock that never goes
back, exactly when no `failed` or `active` event came during a lookup and every
lookup resolved as the oldest pending one. -/
theorem webhook_events_bridged_iff (es : List WebhookEvent)
    (hreturned : (WebhookRun.run es).listeners.pending = []) :
    ((WebhookRun.run es).OneEntryPerEvent ∧
      ((WebhookRun.run es).ClockMonotone → (WebhookRun.run es).NewestLast)) ↔
    AllSteps WebhookRun.step WebhookRun.Prompt {} es := by
  have hvalid := WebhookRun.run_valid es
  rw [← WebhookRun.inTurn_run_iff, ← hvalid.oneEntryPerEvent_iff hreturned]
  exact ⟨And.left, fun hone ↦ ⟨hone, hone.newestLast⟩⟩

theorem webhook_events_bridged_prompt :
    (WebhookRun.run [.hand (.completed "1" .null) 0, .settle 0 (.resolves none),
      .hand (.active "2") 1]).OneEntryPerEvent :=
  ((webhook_events_bridged_iff [.hand (.completed "1" .null) 0, .settle 0 (.resolves none),
    .hand (.active "2") 1] rfl).mpr ⟨trivial, fun _ ↦ rfl, rfl, trivial⟩).1

/-- The same events with the lookup answering last: the later event is bridged
first, and the snapshot is not newest-last. -/
def lateLookup : List WebhookEvent :=
  [.hand (.completed "1" .null) 0, .hand (.active "2") 1, .settle 0 (.resolves none)]

theorem webhook_event_overtaken :
    ¬ ((WebhookRun.run lateLookup).listeners.pending = [] →
      (WebhookRun.run lateLookup).OneEntryPerEvent ∧
        ((WebhookRun.run lateLookup).ClockMonotone →
          (WebhookRun.run lateLookup).NewestLast)) := by
  intro h
  have hone : [1, 0] = [0, 1] := (h rfl).1.order
  exact absurd hone (by decide)

end NestQueueExample.Processors
