import NestQueueExample.Scripts.DemoShutdown

/-!
# A run of the shutdown demonstration

The demonstration polls the API until it is ready, posts a report, sends SIGTERM
and waits for the exit of the child, within a budget. Answers, timers, output and
the events of the child come in any order. What a run that passes has seen and
done is read off its last state, and so is what became of the child.
-/

namespace NestQueueExample.Scripts

open Runs Utf8Decoder

def DRAIN_TIMEOUT_MS : ℕ := 30000
def EXIT_MARGIN_MS : ℕ := 10000
def READY_TIMEOUT_MS : ℕ := 20000
def SIGTERM_DELAY_MS : ℕ := 1000
def POLL_INTERVAL_MS : ℕ := 250
def FLUSH_DELAY_MS : ℕ := 300

/-- What the demonstration is waiting for. -/
inductive DemoPhase where
  | polling (deadline : ℕ)
  | pausing (deadline due : ℕ)
  | posting
  | settling (due : ℕ)
  | racing (sentAt due : ℕ)
  | flushing (outcome : ExitOutcome) (elapsed : ℤ) (due : ℕ)
  | done (code : ℕ)
  | crashed
  deriving DecidableEq

/-- What happens around it: the clock, the child's output and end, the answer to
the pending request, and the callback of the pending timer. -/
inductive DemoEvent where
  | tick (ms : ℕ)
  | data (event : DataEvent)
  | answer (result : Except String ℕ)
  | wake
  | exit (outcome : ExitOutcome)
  | childError (message : String) (isGone : Bool)

/-- The state of the demonstration; `gone` says that the exit code or the signal
of the child is set, and `answers` holds what the requests were answered by. -/
structure DemoRun where
  now : ℕ
  phase : DemoPhase
  logs : ShutdownLogs := {}
  printed : List String := []
  requests : List (String × String) := []
  answers : List (Except String ℕ) := []
  signals : List String := []
  exited : Option ExitOutcome := none
  gone : Bool := false

def READY_REQUEST : String × String := ("GET", "/health/ready")
def REPORT_REQUEST : String × String := ("POST", "/reports")

namespace DemoRun

def log (s : DemoRun) (message : String) : DemoRun :=
  { s with printed := s.printed ++ [message] }

def httpStatus (s : DemoRun) (request : String × String) : DemoRun :=
  { s with requests := s.requests ++ [request] }

def received (s : DemoRun) (result : Except String ℕ) : DemoRun :=
  { s with answers := s.answers ++ [result] }

def kill (s : DemoRun) (signal : String) : DemoRun := { s with signals := s.signals ++ [signal] }

/-- The `finally` block, and the exit code. -/
def finish (s : DemoRun) (code : ℕ) : DemoRun :=
  { (if s.gone then s else s.kill "SIGKILL") with phase := .done code }

def fail (s : DemoRun) (message : String) : DemoRun := (s.finish 1).log ("FAIL: " ++ message)

/-- The head of the loop of `waitForReady`. -/
def poll (s : DemoRun) (deadline : ℕ) : DemoRun :=
  if s.now < deadline then { s.httpStatus READY_REQUEST with phase := .polling deadline }
  else s.fail "API did not become ready in time"

def post (s : DemoRun) : DemoRun :=
  { (s.log "API ready; enqueuing a slow report job ...").httpStatus REPORT_REQUEST with
    phase := .posting }

def flush (s : DemoRun) (outcome : ExitOutcome) (sentAt : ℕ) : DemoRun :=
  { s with phase := .flushing outcome ((s.now : ℤ) - sentAt) (s.now + FLUSH_DELAY_MS) }

/-- An exit seen before is the first to arrive in the race. -/
def sendSigterm (s : DemoRun) : DemoRun :=
  let sent := (s.log "Sending SIGTERM mid-job ...").kill "SIGTERM"
  match s.exited with
  | some outcome => sent.flush outcome s.now
  | none => { sent with phase := .racing s.now (s.now + (DRAIN_TIMEOUT_MS + EXIT_MARGIN_MS)) }

def report (s : DemoRun) (outcome : ExitOutcome) (elapsed : ℤ) : DemoRun :=
  let verdict := reportOutcome outcome elapsed s.logs.hasDrained
  (s.log verdict.2).finish verdict.1

def onAnswer (s : DemoRun) (result : Except String ℕ) : DemoRun :=
  match s.phase, result with
  | .polling _, .ok 200 => (s.received (.ok 200)).post
  | .polling deadline, _ =>
      { s.received result with phase := .pausing deadline (s.now + POLL_INTERVAL_MS) }
  | .posting, .ok _ => { s.received result with phase := .settling (s.now + SIGTERM_DELAY_MS) }
  | .posting, .error message => (s.received result).fail message
  | _, _ => s

def onWake (s : DemoRun) : DemoRun :=
  match s.phase with
  | .pausing deadline due => if due ≤ s.now then s.poll deadline else s
  | .settling due => if due ≤ s.now then s.sendSigterm else s
  | .racing _ due =>
      if due ≤ s.now then
        (s.log ("FAIL: process did not exit within " ++
          toString (DRAIN_TIMEOUT_MS + EXIT_MARGIN_MS) ++ "ms")).finish 1
      else s
  | .flushing outcome elapsed due => if due ≤ s.now then s.report outcome elapsed else s
  | _ => s

def onExit (s : DemoRun) (outcome : ExitOutcome) : DemoRun :=
  if s.gone then s
  else
    let left := { s with exited := some outcome, gone := true }
    match s.phase with
    | .racing sentAt _ => left.flush outcome sentAt
    | _ => left

/-- The rejection of the exit promise is unhandled until the race looks at it. -/
def onChildError (s : DemoRun) (message : String) (isGone : Bool) : DemoRun :=
  let left := { s with gone := s.gone || isGone }
  match s.phase with
  | .racing _ _ => left.fail message
  | .flushing _ _ _ | .done _ | .crashed => left
  | _ => if s.exited.isSome then left else { left with phase := .crashed }

def step (s : DemoRun) (e : DemoEvent) : DemoRun :=
  match s.phase, e with
  | .crashed, _ => s
  | _, .tick ms => { s with now := s.now + ms }
  | _, .data event => { s with logs := relay s.logs event }
  | _, .answer result => s.onAnswer result
  | _, .wake => s.onWake
  | _, .exit outcome => s.onExit outcome
  | _, .childError message isGone => s.onChildError message isGone

def spawned (port : String) (now : ℕ) : DemoRun where
  now
  phase := .polling (now + READY_TIMEOUT_MS)
  printed := ["Starting API on port " ++ port ++ " (drain budget " ++ toString DRAIN_TIMEOUT_MS ++
    "ms) ..."]

def start (port : String) (now : ℕ) : DemoRun := (spawned port now).poll (now + READY_TIMEOUT_MS)

end DemoRun

def runDemo (port : String) (now : ℕ) (es : List DemoEvent) : DemoRun :=
  exec DemoRun.step (DemoRun.start port now) es

namespace DemoRun

/-! ## What every run keeps -/

/-- The polls that fit into the time until the API has to be ready. -/
def MAX_POLLS : ℕ := 80

/-- The answers to polls that were not yet ready. -/
structure Misses (misses : List (Except String ℕ)) : Prop where
  length_lt : misses.length < MAX_POLLS
  not_ready : ∀ miss ∈ misses, miss ≠ .ok 200

/-- The report is sent once a poll has been answered by 200. -/
def Posted (s : DemoRun) : Prop :=
  ∃ misses, Misses misses ∧ s.answers = misses ++ [.ok 200] ∧
    s.requests = List.replicate (misses.length + 1) READY_REQUEST ++ [REPORT_REQUEST]

def Reported (s : DemoRun) : Prop :=
  ∃ misses status, Misses misses ∧ s.answers = misses ++ [.ok 200, .ok status] ∧
    s.requests = List.replicate (misses.length + 1) READY_REQUEST ++ [REPORT_REQUEST]

structure Passed (s : DemoRun) : Prop where
  reported : s.Reported
  signals : s.signals = ["SIGTERM"]
  exited : ∃ outcome, s.exited = some outcome ∧
    (outcome.code = some 0 ∨ outcome.signal = some "SIGTERM")
  gone : s.gone = true
  drained : s.logs.hasDrained = true

structure Ended (s : DemoRun) (code : ℕ) : Prop where
  stopped : s.gone = true ∨ s.signals.getLast? = some "SIGKILL"
  asked : ∃ k ≤ MAX_POLLS, s.requests = List.replicate k READY_REQUEST ∨
    s.requests = List.replicate k READY_REQUEST ++ [REPORT_REQUEST]
  signalled : s.signals <+: ["SIGTERM", "SIGKILL"] ∨ s.signals = ["SIGKILL"]
  passed : code = 0 → s.Passed

/-- What the phase of a run that began at a time says about it. -/
def Story (start : ℕ) (s : DemoRun) : Prop :=
  match s.phase with
  | .polling deadline => deadline = start + READY_TIMEOUT_MS ∧ s.signals = [] ∧
      Misses s.answers ∧ s.requests = List.replicate (s.answers.length + 1) READY_REQUEST ∧
      start + POLL_INTERVAL_MS * s.answers.length ≤ s.now
  | .pausing deadline due => deadline = start + READY_TIMEOUT_MS ∧ s.signals = [] ∧
      (∀ miss ∈ s.answers, miss ≠ .ok 200) ∧ s.answers.length ≤ MAX_POLLS ∧
      s.requests = List.replicate s.answers.length READY_REQUEST ∧
      start + POLL_INTERVAL_MS * s.answers.length ≤ due
  | .posting => s.Posted ∧ s.signals = []
  | .settling _ => s.Reported ∧ s.signals = []
  | .racing _ _ => s.Reported ∧ s.signals = ["SIGTERM"]
  | .flushing outcome _ _ => s.Reported ∧ s.signals = ["SIGTERM"] ∧ s.exited = some outcome ∧
      s.gone = true
  | .done code => s.Ended code
  | .crashed => s.signals = []

theorem asked_of_misses {s : DemoRun} {misses : List (Except String ℕ)} (h : Misses misses)
    (hrequests : s.requests =
      List.replicate (misses.length + 1) READY_REQUEST ++ [REPORT_REQUEST]) :
    ∃ k ≤ MAX_POLLS, s.requests = List.replicate k READY_REQUEST ∨
      s.requests = List.replicate k READY_REQUEST ++ [REPORT_REQUEST] :=
  ⟨misses.length + 1, h.length_lt, Or.inr hrequests⟩

theorem Posted.asked {s : DemoRun} (h : s.Posted) :
    ∃ k ≤ MAX_POLLS, s.requests = List.replicate k READY_REQUEST ∨
      s.requests = List.replicate k READY_REQUEST ++ [REPORT_REQUEST] := by
  obtain ⟨misses, hmisses, -, hrequests⟩ := h
  exact asked_of_misses hmisses hrequests

theorem Reported.asked {s : DemoRun} (h : s.Reported) :
    ∃ k ≤ MAX_POLLS, s.requests = List.replicate k READY_REQUEST ∨
      s.requests = List.replicate k READY_REQUEST ++ [REPORT_REQUEST] := by
  obtain ⟨misses, status, hmisses, -, hrequests⟩ := h
  exact asked_of_misses hmisses hrequests

theorem ended_finish {s : DemoRun} {code : ℕ}
    (hasked : ∃ k ≤ MAX_POLLS, s.requests = List.replicate k READY_REQUEST ∨
      s.requests = List.replicate k READY_REQUEST ++ [REPORT_REQUEST])
    (hsignals : s.signals = [] ∨ s.signals = ["SIGTERM"]) (hpassed : code = 0 → s.Passed) :
    (s.finish code).Ended code := by
  rw [finish]
  by_cases hgone : s.gone = true
  · rw [if_pos hgone]
    refine ⟨Or.inl hgone, hasked, ?_, fun hcode ↦ ?_⟩
    · rcases hsignals with hsignals | hsignals <;> simp [hsignals]
    · obtain ⟨hreported, hsignals, hexited, -, hdrained⟩ := hpassed hcode
      exact ⟨hreported, hsignals, hexited, hgone, hdrained⟩
  · rw [if_neg hgone]
    refine ⟨Or.inr (by simp [kill]), hasked, ?_, fun hcode ↦ absurd (hpassed hcode).gone hgone⟩
    rcases hsignals with hsignals | hsignals <;> simp [kill, hsignals]

theorem story_fail {start : ℕ} {s : DemoRun} (message : String)
    (hasked : ∃ k ≤ MAX_POLLS, s.requests = List.replicate k READY_REQUEST ∨
      s.requests = List.replicate k READY_REQUEST ++ [REPORT_REQUEST])
    (hsignals : s.signals = [] ∨ s.signals = ["SIGTERM"]) : Story start (s.fail message) := by
  have hended : (s.finish 1).Ended 1 := ended_finish hasked hsignals (by simp)
  exact ⟨hended.stopped, hended.asked, hended.signalled, by simp⟩

theorem story_poll {start : ℕ} {s : DemoRun}
    (hrequests : s.requests = List.replicate s.answers.length READY_REQUEST)
    (hmisses : ∀ miss ∈ s.answers, miss ≠ .ok 200) (hlength : s.answers.length ≤ MAX_POLLS)
    (hsignals : s.signals = []) (htime : start + POLL_INTERVAL_MS * s.answers.length ≤ s.now) :
    Story start (s.poll (start + READY_TIMEOUT_MS)) := by
  rw [poll]
  split
  · next hearly =>
      refine ⟨rfl, hsignals, ⟨?_, hmisses⟩, ?_, htime⟩
      · simp only [httpStatus, READY_TIMEOUT_MS, POLL_INTERVAL_MS, MAX_POLLS] at *
        omega
      · simp [httpStatus, hrequests, List.replicate_succ']
  · exact story_fail _ ⟨s.answers.length, hlength, Or.inl hrequests⟩ (Or.inl hsignals)

theorem story_onAnswer {start : ℕ} {s : DemoRun} (h : Story start s)
    (result : Except String ℕ) : Story start (s.onAnswer result) := by
  cases hphase : s.phase with
  | polling deadline =>
      simp only [Story, hphase] at h
      obtain ⟨rfl, hsignals, hmisses, hrequests, htime⟩ := h
      have hlength := hmisses.length_lt
      have hpause (hmiss : result ≠ .ok 200) : Story start
          { s.received result with
            phase := .pausing (start + READY_TIMEOUT_MS) (s.now + POLL_INTERVAL_MS) } := by
        refine ⟨rfl, hsignals, ?_, ?_, ?_, ?_⟩
        · intro miss hmem
          rcases List.mem_append.mp hmem with hold | hnew
          · exact hmisses.not_ready miss hold
          · rwa [List.mem_singleton.mp hnew]
        · simpa [received, Nat.succ_le_iff] using hlength
        · simpa [received] using hrequests
        · simp only [received, List.length_append, List.length_singleton, POLL_INTERVAL_MS] at *
          omega
      simp only [onAnswer, hphase]
      split
      · refine ⟨⟨s.answers, hmisses, rfl, ?_⟩, hsignals⟩
        simp [post, log, httpStatus, received, hrequests]
      · next hpolling hmiss =>
          obtain rfl := DemoPhase.polling.inj hpolling
          exact hpause hmiss
      all_goals simp_all
  | posting =>
      simp only [Story, hphase] at h
      obtain ⟨⟨misses, hmisses, hanswers, hrequests⟩, hsignals⟩ := h
      cases result with
      | error message =>
          simp only [onAnswer, hphase]
          exact story_fail _ (asked_of_misses hmisses hrequests) (Or.inl hsignals)
      | ok status =>
          simp only [onAnswer, hphase]
          exact ⟨⟨misses, status, hmisses, by simp [received, hanswers], hrequests⟩, hsignals⟩
  | _ =>
      simp only [onAnswer, hphase]
      exact h

theorem story_flush {start : ℕ} {s : DemoRun} {outcome : ExitOutcome} (sentAt : ℕ)
    (hreported : s.Reported) (hsignals : s.signals = ["SIGTERM"])
    (hexited : s.exited = some outcome) (hgone : s.gone = true) :
    Story start (s.flush outcome sentAt) :=
  ⟨hreported, hsignals, hexited, hgone⟩

theorem story_report {start : ℕ} {s : DemoRun} {outcome : ExitOutcome} (elapsed : ℤ)
    (hreported : s.Reported) (hsignals : s.signals = ["SIGTERM"])
    (hexited : s.exited = some outcome) (hgone : s.gone = true) :
    Story start (s.report outcome elapsed) := by
  have hpassed : (reportOutcome outcome elapsed s.logs.hasDrained).1 = 0 →
      (s.log (reportOutcome outcome elapsed s.logs.hasDrained).2).Passed := by
    intro hcode
    have hpass : s.logs.hasDrained = true ∧
        (outcome.code = some 0 ∨ outcome.signal = some "SIGTERM") := by
      simp only [reportOutcome] at hcode
      split at hcode
      · next hpass => simpa using hpass
      · simp at hcode
    exact ⟨hreported, hsignals, ⟨outcome, hexited, hpass.2⟩, hgone, hpass.1⟩
  rw [report]
  exact ended_finish hreported.asked (Or.inr hsignals) hpassed

theorem story_sendSigterm {start : ℕ} {s : DemoRun} (hreported : s.Reported)
    (hsignals : s.signals = []) (hexited : ∀ outcome, s.exited = some outcome → s.gone = true) :
    Story start s.sendSigterm := by
  have hsent : (s.signals ++ ["SIGTERM"]) = ["SIGTERM"] := by rw [hsignals, List.nil_append]
  rw [sendSigterm]
  split
  · next outcome houtcome => exact ⟨hreported, hsent, houtcome, hexited outcome houtcome⟩
  · exact ⟨hreported, hsent⟩

theorem story_onWake {start : ℕ} {s : DemoRun} (h : Story start s)
    (hexited : ∀ outcome, s.exited = some outcome → s.gone = true) : Story start s.onWake := by
  cases hphase : s.phase with
  | pausing deadline due =>
      have hstory := h
      simp only [Story, hphase] at h
      obtain ⟨rfl, hsignals, hmisses, hlength, hrequests, hdue⟩ := h
      simp only [onWake, hphase]
      split
      · next hnow => exact story_poll hrequests hmisses hlength hsignals (hdue.trans hnow)
      · exact hstory
  | settling due =>
      have hstory := h
      simp only [Story, hphase] at h
      simp only [onWake, hphase]
      split
      · exact story_sendSigterm h.1 h.2 hexited
      · exact hstory
  | racing sentAt due =>
      have hstory := h
      simp only [Story, hphase] at h
      simp only [onWake, hphase]
      split
      · exact ended_finish h.1.asked (Or.inr h.2) (by simp)
      · exact hstory
  | flushing outcome elapsed due =>
      have hstory := h
      simp only [Story, hphase] at h
      obtain ⟨hreported, hsignals, houtcome, hgone⟩ := h
      simp only [onWake, hphase]
      split
      · exact story_report elapsed hreported hsignals houtcome hgone
      · exact hstory
  | _ =>
      simp only [onWake, hphase]
      exact h

/-- Output and clock do not disturb a story, and neither does the end of the child. -/
theorem Story.of_same {start : ℕ} {s s' : DemoRun} (h : Story start s)
    (hphase : s'.phase = s.phase) (hnow : s.now ≤ s'.now) (hrequests : s'.requests = s.requests)
    (hanswers : s'.answers = s.answers)
    (hsignals : s'.signals = s.signals) (hgone : s.gone = true → s'.gone = true)
    (hexited : s.gone = true → s'.exited = s.exited)
    (hdrained : s.logs.hasDrained = true → s'.logs.hasDrained = true) : Story start s' := by
  have hreported : s.Reported → s'.Reported := by
    rintro ⟨misses, status, hmisses, hheard, hasked⟩
    exact ⟨misses, status, hmisses, hanswers.trans hheard, hrequests.trans hasked⟩
  simp only [Story, hphase, hsignals, hrequests, hanswers] at h ⊢
  split at h
  · obtain ⟨hdeadline, hnone, hmisses, hasked, htime⟩ := h
    exact ⟨hdeadline, hnone, hmisses, hasked, htime.trans hnow⟩
  · exact h
  · obtain ⟨⟨misses, hmisses, hheard, hasked⟩, hnone⟩ := h
    exact ⟨⟨misses, hmisses, hanswers.trans hheard, hrequests.trans hasked⟩, hnone⟩
  · exact ⟨hreported h.1, h.2⟩
  · exact ⟨hreported h.1, h.2⟩
  · obtain ⟨hold, hsent, houtcome, hleft⟩ := h
    exact ⟨hreported hold, hsent, by rw [hexited hleft, houtcome], hgone hleft⟩
  · refine ⟨h.stopped.imp hgone (by rw [hsignals]; exact id), by rw [hrequests]; exact h.asked,
      by rw [hsignals]; exact h.signalled, fun hcode ↦ ?_⟩
    obtain ⟨hold, hsent, ⟨outcome, houtcome, hhandled⟩, hleft, hlogged⟩ := h.passed hcode
    refine ⟨hreported hold, by rw [hsignals, hsent], ⟨outcome, ?_, hhandled⟩, hgone hleft,
      hdrained hlogged⟩
    rw [hexited hleft, houtcome]
  · exact h

structure Valid (start : ℕ) (s : DemoRun) : Prop where
  story : Story start s
  exited : ∀ outcome, s.exited = some outcome → s.gone = true

theorem story_onExit {start : ℕ} {s : DemoRun} (h : Story start s) (outcome : ExitOutcome) :
    Story start (s.onExit outcome) := by
  rw [onExit]
  split
  · exact h
  · next hopen =>
      have hleft : Story start { s with exited := some outcome, gone := true } :=
        h.of_same rfl le_rfl rfl rfl rfl (fun _ ↦ rfl) (fun hgone ↦ absurd hgone hopen) id
      cases hphase : s.phase with
      | racing sentAt due =>
          simp only [Story, hphase] at h
          exact story_flush sentAt h.1 h.2 rfl rfl
      | _ => simpa only [hphase] using hleft

theorem story_onChildError {start : ℕ} {s : DemoRun} (h : Story start s) (message : String)
    (isGone : Bool) : Story start (s.onChildError message isGone) := by
  have hleft : Story start { s with gone := s.gone || isGone } :=
    h.of_same rfl le_rfl rfl rfl rfl (fun hgone ↦ by simp [hgone]) (fun _ ↦ rfl) id
  have hcrashed : s.signals = [] → Story start
      (if s.exited.isSome = true then { s with gone := s.gone || isGone }
      else { s with gone := s.gone || isGone, phase := .crashed }) := by
    intro hsignals
    split
    · exact hleft
    · exact hsignals
  cases hphase : s.phase with
  | racing sentAt due =>
      simp only [Story, hphase] at h
      simp only [onChildError, hphase]
      exact story_fail _ h.1.asked (Or.inr h.2)
  | polling deadline =>
      simp only [Story, hphase] at h
      simpa only [onChildError, hphase] using hcrashed h.2.1
  | pausing deadline due =>
      simp only [Story, hphase] at h
      simpa only [onChildError, hphase] using hcrashed h.2.1
  | posting =>
      simp only [Story, hphase] at h
      simpa only [onChildError, hphase] using hcrashed h.2
  | settling due =>
      simp only [Story, hphase] at h
      simpa only [onChildError, hphase] using hcrashed h.2
  | _ => simpa only [onChildError, hphase] using hleft

/-- Neither an answer nor a timer says anything about the child. -/
structure SameChild (s s' : DemoRun) : Prop where
  exited : s'.exited = s.exited
  gone : s'.gone = s.gone
  logs : s'.logs = s.logs

/-- A timer brings no answer either. -/
structure SameHeard (s s' : DemoRun) : Prop extends SameChild s s' where
  answers : s'.answers = s.answers

theorem sameHeard_finish (s : DemoRun) (code : ℕ) : SameHeard s (s.finish code) := by
  rw [finish]
  split
  · exact ⟨⟨rfl, rfl, rfl⟩, rfl⟩
  · exact ⟨⟨rfl, rfl, rfl⟩, rfl⟩

theorem sameHeard_finish_log (s : DemoRun) (message : String) (code : ℕ) :
    SameHeard s ((s.log message).finish code) := by
  have hsame := sameHeard_finish (s.log message) code
  exact ⟨⟨hsame.exited, hsame.gone, hsame.logs⟩, hsame.answers⟩

theorem sameHeard_fail (s : DemoRun) (message : String) : SameHeard s (s.fail message) := by
  have hsame := sameHeard_finish s 1
  exact ⟨⟨hsame.exited, hsame.gone, hsame.logs⟩, hsame.answers⟩

theorem sameHeard_poll (s : DemoRun) (deadline : ℕ) : SameHeard s (s.poll deadline) := by
  rw [poll]
  split
  · exact ⟨⟨rfl, rfl, rfl⟩, rfl⟩
  · exact sameHeard_fail s _

theorem sameHeard_sendSigterm (s : DemoRun) : SameHeard s s.sendSigterm := by
  rw [sendSigterm]
  split
  · exact ⟨⟨rfl, rfl, rfl⟩, rfl⟩
  · exact ⟨⟨rfl, rfl, rfl⟩, rfl⟩

theorem sameHeard_onWake (s : DemoRun) : SameHeard s s.onWake := by
  rw [onWake]
  split
  · split
    · exact sameHeard_poll s _
    · exact ⟨⟨rfl, rfl, rfl⟩, rfl⟩
  · split
    · exact sameHeard_sendSigterm s
    · exact ⟨⟨rfl, rfl, rfl⟩, rfl⟩
  · split
    · exact sameHeard_finish_log s _ 1
    · exact ⟨⟨rfl, rfl, rfl⟩, rfl⟩
  · split
    · exact sameHeard_finish_log s _ _
    · exact ⟨⟨rfl, rfl, rfl⟩, rfl⟩
  · exact ⟨⟨rfl, rfl, rfl⟩, rfl⟩

theorem sameChild_onAnswer (s : DemoRun) (result : Except String ℕ) :
    SameChild s (s.onAnswer result) := by
  unfold onAnswer
  split
  · exact ⟨rfl, rfl, rfl⟩
  · exact ⟨rfl, rfl, rfl⟩
  · exact ⟨rfl, rfl, rfl⟩
  · next message _ =>
      have hsame := sameHeard_fail (s.received (.error message)) message
      exact ⟨hsame.exited, hsame.gone, hsame.logs⟩
  · exact ⟨rfl, rfl, rfl⟩

/-- An answer is recorded if a request is waiting for one. -/
theorem answers_onAnswer (s : DemoRun) (result : Except String ℕ) :
    (s.onAnswer result).answers = s.answers ∨
      (s.onAnswer result).answers = s.answers ++ [result] := by
  unfold onAnswer
  split
  · exact .inr rfl
  · exact .inr rfl
  · exact .inr rfl
  · exact .inr (sameHeard_fail _ _).answers
  · exact .inl rfl

theorem gone_onExit (s : DemoRun) (outcome : ExitOutcome) : (s.onExit outcome).gone = true := by
  rw [onExit]
  split
  · next hgone => exact hgone
  · split
    · exact rfl
    · exact rfl

theorem unread_onExit (s : DemoRun) (outcome : ExitOutcome) :
    (s.onExit outcome).logs = s.logs ∧ (s.onExit outcome).answers = s.answers := by
  rw [onExit]
  split
  · exact ⟨rfl, rfl⟩
  · split
    · exact ⟨rfl, rfl⟩
    · exact ⟨rfl, rfl⟩

/-- An error of the child is no exit, and brings neither output nor an answer. -/
structure OnlyGone (s s' : DemoRun) : Prop where
  exited : s'.exited = s.exited
  gone : s.gone = true → s'.gone = true
  logs : s'.logs = s.logs
  answers : s'.answers = s.answers

theorem onlyGone_onChildError (s : DemoRun) (message : String) (isGone : Bool) :
    OnlyGone s (s.onChildError message isGone) := by
  have hgone : s.gone = true → (s.gone || isGone) = true := fun h ↦ by rw [h, Bool.true_or]
  unfold onChildError
  split
  · have hsame := sameHeard_fail { s with gone := s.gone || isGone } message
    exact ⟨hsame.exited, fun h ↦ hsame.gone.trans (hgone h), hsame.logs, hsame.answers⟩
  · exact ⟨rfl, hgone, rfl, rfl⟩
  · exact ⟨rfl, hgone, rfl, rfl⟩
  · exact ⟨rfl, hgone, rfl, rfl⟩
  · split
    · exact ⟨rfl, hgone, rfl, rfl⟩
    · exact ⟨rfl, hgone, rfl, rfl⟩

theorem valid_step {start : ℕ} {s : DemoRun} (h : Valid start s) (e : DemoEvent) :
    Valid start (s.step e) := by
  have hsame : ∀ {s' : DemoRun}, SameChild s s' → ∀ outcome, s'.exited = some outcome →
      s'.gone = true := by
    intro s' hchild outcome houtcome
    rw [hchild.gone]
    exact h.exited outcome (by rw [← hchild.exited, houtcome])
  unfold step
  split
  · exact h
  · exact ⟨h.story.of_same rfl (Nat.le_add_right _ _) rfl rfl rfl id (fun _ ↦ rfl) id, h.exited⟩
  · refine ⟨h.story.of_same rfl le_rfl rfl rfl rfl id (fun _ ↦ rfl) fun hdrained ↦ ?_, h.exited⟩
    rw [hasDrained_relay, hdrained, Bool.true_or]
  · exact ⟨story_onAnswer h.story _, hsame (sameChild_onAnswer s _)⟩
  · exact ⟨story_onWake h.story h.exited, hsame (sameHeard_onWake s).toSameChild⟩
  · exact ⟨story_onExit h.story _, fun _ _ ↦ gone_onExit s _⟩
  · next message isGone _ =>
      have honly := onlyGone_onChildError s message isGone
      exact ⟨story_onChildError h.story message isGone, fun outcome houtcome ↦
        honly.gone (h.exited outcome (by rw [← honly.exited, houtcome]))⟩

theorem valid_start (port : String) (now : ℕ) : Valid now (start port now) where
  story := story_poll rfl (by simp [spawned]) (Nat.zero_le _) rfl le_rfl
  exited := by
    intro outcome houtcome
    rw [start, (sameHeard_poll (spawned port now) _).exited] at houtcome
    simp [spawned] at houtcome

theorem valid_runDemo (port : String) (now : ℕ) (es : List DemoEvent) :
    Valid now (runDemo port now es) :=
  exec_invariant (I := Valid now) step (fun _ e h ↦ valid_step h e) (valid_start port now) es

/-! ## The output that was read -/

def dataEvents (es : List DemoEvent) : List DataEvent :=
  es.filterMap fun e ↦ match e with
    | .data event => some event
    | _ => none

theorem logs_step {s : DemoRun} (hphase : s.phase ≠ .crashed) (e : DemoEvent) :
    (s.step e).logs = exec relay s.logs (dataEvents [e]) := by
  unfold step
  split
  · next hcrashed => exact absurd hcrashed hphase
  · rfl
  · rfl
  · exact (sameChild_onAnswer s _).logs
  · exact (sameHeard_onWake s).logs
  · exact (unread_onExit s _).1
  · exact (onlyGone_onChildError s _ _).logs

/-- As long as the demonstration runs, its probe has read all output of the child. -/
theorem logs_runDemo (port : String) (now : ℕ) (es : List DemoEvent)
    (hphase : (runDemo port now es).phase ≠ .crashed) :
    (runDemo port now es).logs = forwardShutdownLogs (dataEvents es) := by
  induction es using List.reverseRecOn with
  | nil => exact (sameHeard_poll (spawned port now) _).logs
  | append_singleton es e ih =>
      have hrun : runDemo port now (es ++ [e]) = (runDemo port now es).step e := by
        simp [runDemo]
      have hbefore : (runDemo port now es).phase ≠ .crashed := by
        intro hcrashed
        have hsame : (runDemo port now es).step e = runDemo port now es := by
          simp [step, hcrashed]
        rw [hrun, hsame] at hphase
        exact hphase hcrashed
      rw [hrun, logs_step hbefore e, ih hbefore, forwardShutdownLogs, forwardShutdownLogs,
        ← exec_append]
      simp [dataEvents]

/-! ## The answers that were received -/

def answered (es : List DemoEvent) : List (Except String ℕ) :=
  es.filterMap fun e ↦ match e with
    | .answer result => some result
    | _ => none

theorem answers_step (s : DemoRun) (e : DemoEvent) :
    (s.step e).answers = s.answers ∨ (s.step e).answers = s.answers ++ answered [e] := by
  unfold step
  split
  · exact .inl rfl
  · exact .inl rfl
  · exact .inl rfl
  · exact answers_onAnswer s _
  · exact .inl (sameHeard_onWake s).answers
  · exact .inl (unread_onExit s _).2
  · exact .inl (onlyGone_onChildError s _ _).answers

/-- What is recorded has been received, in this order. -/
theorem answers_runDemo (port : String) (now : ℕ) (es : List DemoEvent) :
    (runDemo port now es).answers.Sublist (answered es) := by
  induction es using List.reverseRecOn with
  | nil =>
      have hstart : (start port now).answers = [] := (sameHeard_poll (spawned port now) _).answers
      simp [runDemo, hstart]
  | append_singleton es e ih =>
      have hrun : runDemo port now (es ++ [e]) = (runDemo port now es).step e := by
        simp [runDemo]
      have hanswered : answered (es ++ [e]) = answered es ++ answered [e] := by
        simp [answered]
      rw [hrun, hanswered]
      rcases answers_step (runDemo port now es) e with hsame | hnew
      · rw [hsame]
        exact ih.trans (List.sublist_append_left _ _)
      · rw [hnew]
        exact ih.append_right _

end DemoRun

/-- A run that has ended has seen the child exit or has killed it, after at most
one SIGTERM and as many polls as fit into the time; it passes only if a poll was
answered by 200 and then the report was answered, SIGTERM was the only signal,
the child exited by it or with code 0, and the probe has read a drain. A run that
crashed has sent no signal. -/
theorem demo_run (port : String) (now : ℕ) (es : List DemoEvent) :
    (∀ code, (runDemo port now es).phase = .done code →
      ((runDemo port now es).gone = true ∨
        (runDemo port now es).signals.getLast? = some "SIGKILL") ∧
      ((runDemo port now es).signals <+: ["SIGTERM", "SIGKILL"] ∨
        (runDemo port now es).signals = ["SIGKILL"]) ∧
      (∃ k ≤ DemoRun.MAX_POLLS,
        (runDemo port now es).requests = List.replicate k READY_REQUEST ∨
        (runDemo port now es).requests = List.replicate k READY_REQUEST ++ [REPORT_REQUEST]) ∧
      (code = 0 →
        (∃ misses status, misses.length < DemoRun.MAX_POLLS ∧ (∀ miss ∈ misses, miss ≠ .ok 200) ∧
          (runDemo port now es).requests =
            List.replicate (misses.length + 1) READY_REQUEST ++ [REPORT_REQUEST] ∧
          (runDemo port now es).answers = misses ++ [.ok 200, .ok status] ∧
          (misses ++ [.ok 200, .ok status]).Sublist (DemoRun.answered es)) ∧
        (runDemo port now es).signals = ["SIGTERM"] ∧
        (∃ outcome, (runDemo port now es).exited = some outcome ∧
          (outcome.code = some 0 ∨ outcome.signal = some "SIGTERM")) ∧
        drainedGracefully (DemoRun.dataEvents es) = true)) ∧
    ((runDemo port now es).phase = .crashed → (runDemo port now es).signals = []) := by
  have hstory := (DemoRun.valid_runDemo port now es).story
  constructor
  · intro code hdone
    have hlogs := DemoRun.logs_runDemo port now es (by simp [hdone])
    simp only [DemoRun.Story, hdone] at hstory
    refine ⟨hstory.stopped, hstory.signalled, hstory.asked, fun hcode ↦ ?_⟩
    obtain ⟨⟨misses, status, hmisses, hanswers, hrequests⟩, hsignals, hexited, -, hdrained⟩ :=
      hstory.passed hcode
    refine ⟨⟨misses, status, hmisses.length_lt, hmisses.not_ready, hrequests, hanswers, ?_⟩,
      hsignals, hexited, ?_⟩
    · rw [← hanswers]
      exact DemoRun.answers_runDemo port now es
    · rw [drainedGracefully, ← hlogs]
      exact hdrained
  · intro hcrashed
    simpa only [DemoRun.Story, hcrashed] using hstory

/-- The API becomes ready at the second poll, and drains 900 ms after SIGTERM. -/
def passingRun : List DemoEvent :=
  [.answer (.error "connect ECONNREFUSED"), .tick 250, .wake, .answer (.ok 200), .answer (.ok 202),
    .tick 1000, .wake, .tick 900,
    .data ⟨.stdout, "shutdown complete: drained 1, forced 0 workers\n".toList.map asciiByte⟩,
    .exit ⟨none, some "SIGTERM"⟩, .tick 300, .wake]

example : (runDemo "3091" 0 passingRun).printed.getLast? =
    some ("PASS: drained in-flight work with zero forced workers and exited in 900ms " ++
      "(code null / signal SIGTERM)") := by decide +kernel

theorem demo_run_passing :
    (runDemo "3091" 0 passingRun).phase = .done 0 ∧
      ∃ misses status, (∀ miss ∈ misses, miss ≠ .ok 200) ∧
        (runDemo "3091" 0 passingRun).answers = misses ++ [.ok 200, .ok status] := by
  have hdone : (runDemo "3091" 0 passingRun).phase = .done 0 := by decide +kernel
  obtain ⟨-, -, -, hpassed⟩ := (demo_run "3091" 0 passingRun).1 0 hdone
  obtain ⟨⟨misses, status, -, hmisses, -, hanswers, -⟩, -⟩ := hpassed rfl
  exact ⟨hdone, misses, status, hmisses, hanswers⟩

end NestQueueExample.Scripts
