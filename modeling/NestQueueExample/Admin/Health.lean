import NestQueueExample.Foundations.Deadline
import NestQueueExample.Queues.Services

/-!
# Readiness

A readiness request reads the cached metrics of one queue, then those of all of
them, both under one timer. It is answered with the number of active jobs if
both reads are answered before the timer fires, and by one constant in every
other case, as soon as the timer has fired at the latest.
-/

namespace NestQueueExample.Admin

open Http Queues Runs
open Queues.Handler (invoke)

variable {L : Library}

def READINESS_QUEUE : String := AUDIT_QUEUE

def READINESS_TIMEOUT_MS : ℕ := 1000

/-- What a readiness request is answered with. -/
inductive Readiness where
  | up (activeJobs : ℕ)
  | down

abbrev ReadyRace (L : Library) := Race (Call L) Call.Answer (Rejection L.Error) ℕ

abbrev ReadyEvent (L : Library) := RaceEvent (Call L) Call.Answer (Rejection L.Error)

namespace HealthController

variable (active : L.QueueMetrics → ℕ)

def probe : Handler L ℕ := do
  let _ ← invoke (.metricsGet READINESS_QUEUE)
  let all ← invoke .metricsGetAll
  pure (all.foldl (fun sum snapshot ↦ sum + active snapshot) 0)

def race : ReadyRace L := Race.withTimeout (probe active) READINESS_TIMEOUT_MS

/-- The answer to the request once its race is settled. Nothing of the failure
goes into it. -/
def ready (race : ReadyRace L) : Option Readiness :=
  race.settled.map fun
    | .ok activeJobs => .up activeJobs
    | .error _ => .down

end HealthController

/-- The races of the readiness requests received so far. -/
def readyRaces (active : L.QueueMetrics → ℕ) (es : List (PoolEvent Unit (ReadyEvent L))) :
    List (ReadyRace L) :=
  exec (Pool.poolStep (fun _ ↦ HealthController.race active) Race.step) [] es

/-- Both reads are answered by the first events of the request, and the jobs of
the second answer that are active are `activeJobs`. -/
def ReadInTime (active : L.QueueMetrics → ℕ) (es : List (ReadyEvent L)) (activeJobs : ℕ) : Prop :=
  ∃ (first second : Program.Answers (Call L) Call.Answer (Rejection L.Error))
      (rest : List (ReadyEvent L)) (metrics : L.QueueMetrics) (snapshots : List L.QueueMetrics),
    es = .answer first :: .answer second :: rest ∧
      first (fun _ : Fin 1 ↦ .metricsGet READINESS_QUEUE) = .ok (fun _ ↦ metrics) ∧
      second (fun _ : Fin 1 ↦ .metricsGetAll) = .ok (fun _ ↦ snapshots) ∧
      activeJobs = (snapshots.map active).sum

/-- Nothing has happened to the request but that its first read was answered. -/
def Undecided (es : List (ReadyEvent L)) : Prop :=
  es = [] ∨ ∃ (first : Program.Answers (Call L) Call.Answer (Rejection L.Error))
      (metrics : L.QueueMetrics),
    es = [.answer first] ∧
      first (fun _ : Fin 1 ↦ .metricsGet READINESS_QUEUE) = .ok (fun _ ↦ metrics)

/-! ## The outcome of the probe -/

/-- What is left of the probe once its first read is answered. -/
def secondRead (active : L.QueueMetrics → ℕ) : Handler L ℕ := do
  let all ← invoke .metricsGetAll
  pure (all.foldl (fun sum snapshot ↦ sum + active snapshot) 0)

section Verdict

variable {active : L.QueueMetrics → ℕ}
  {first second : Program.Answers (Call L) Call.Answer (Rejection L.Error)}

theorem eq_const {α : Type} (values : Fin 1 → α) : values = fun _ ↦ values 0 :=
  funext fun i ↦ congrArg values (Fin.fin_one_eq_zero i)

theorem advance_probe_ok {metrics : Fin 1 → L.QueueMetrics}
    (h : first (fun _ : Fin 1 ↦ .metricsGet READINESS_QUEUE) = .ok metrics) :
    (HealthController.probe active).advance first = secondRead active := by
  change ((Program.done ((first fun _ : Fin 1 ↦ Call.metricsGet READINESS_QUEUE).map
    fun values ↦ values 0) : Handler L L.QueueMetrics).bind fun _ ↦ secondRead active) = _
  rw [h]
  rfl

theorem advance_probe_error {e : Rejection L.Error}
    (h : first (fun _ : Fin 1 ↦ .metricsGet READINESS_QUEUE) = .error e) :
    (HealthController.probe active).advance first = .done (.error e) := by
  change ((Program.done ((first fun _ : Fin 1 ↦ Call.metricsGet READINESS_QUEUE).map
    fun values ↦ values 0) : Handler L L.QueueMetrics).bind fun _ ↦ secondRead active) = _
  rw [h]
  rfl

theorem advance_secondRead : (secondRead active).advance second =
    .done ((second (fun _ : Fin 1 ↦ .metricsGetAll)).map
      fun snapshots : Fin 1 → List L.QueueMetrics ↦ ((snapshots 0).map active).sum) := by
  change ((Program.done ((second fun _ : Fin 1 ↦ Call.metricsGetAll).map
    fun values ↦ values 0) : Handler L (List L.QueueMetrics)).bind
      fun all ↦ pure (all.foldl (fun sum snapshot ↦ sum + active snapshot) 0)) = _
  cases hsecond : second fun _ : Fin 1 ↦ Call.metricsGetAll with
  | error e => rfl
  | ok snapshots =>
      have hsum : (snapshots 0).foldl (fun sum snapshot ↦ sum + active snapshot) 0 =
          ((snapshots 0).map active).sum := by
        rw [List.sum_eq_foldl, List.foldl_map]
      exact congrArg (fun n ↦ Program.done (.ok n)) hsum

theorem verdict_secondRead (active : L.QueueMetrics → ℕ) (es : List (ReadyEvent L)) :
    (Race.verdict (secondRead active) es = none ↔ es = []) ∧
      ∀ n, Race.verdict (secondRead active) es = some (.ok n) ↔
        ∃ (second : Program.Answers (Call L) Call.Answer (Rejection L.Error))
            (rest : List (ReadyEvent L)) (snapshots : List L.QueueMetrics),
          es = .answer second :: rest ∧
            second (fun _ : Fin 1 ↦ .metricsGetAll) = .ok (fun _ ↦ snapshots) ∧
            n = (snapshots.map active).sum := by
  cases es with
  | nil =>
      refine ⟨iff_of_true rfl rfl, fun n ↦ iff_of_false nofun ?_⟩
      rintro ⟨_, _, _, hes, -⟩
      cases hes
  | cons e rest =>
      cases e with
      | elapse =>
          refine ⟨iff_of_false nofun nofun, fun n ↦ iff_of_false nofun ?_⟩
          rintro ⟨_, _, _, hes, -⟩
          cases hes
      | answer second =>
          rw [Race.verdict_answer, advance_secondRead, Race.verdict_done]
          refine ⟨by simp, fun n ↦ ?_⟩
          constructor
          · intro h
            cases hsecond : second fun _ : Fin 1 ↦ Call.metricsGetAll with
            | error e => simp [hsecond, Except.map, Except.mapError] at h
            | ok snapshots =>
                refine ⟨second, rest, snapshots 0, rfl,
                  hsecond.trans (congrArg _ (eq_const snapshots)), ?_⟩
                simpa [hsecond, Except.map, Except.mapError, eq_comm] using h
          · rintro ⟨other, _, snapshots, hes, hsecond, rfl⟩
            have hsame : second (fun _ : Fin 1 ↦ Call.metricsGetAll) = .ok fun _ ↦ snapshots := by
              rw [← hsecond]
              cases hes
              rfl
            rw [hsame]
            rfl

/-- The verdict on a readiness request, read off its events. -/
theorem verdict_probe (active : L.QueueMetrics → ℕ) (es : List (ReadyEvent L)) :
    (Race.verdict (HealthController.probe active) es = none ↔ Undecided es) ∧
      ∀ n, Race.verdict (HealthController.probe active) es = some (.ok n) ↔
        ReadInTime active es n := by
  cases es with
  | nil =>
      refine ⟨iff_of_true rfl (.inl rfl), fun n ↦ iff_of_false nofun ?_⟩
      rintro ⟨_, _, _, _, _, hes, -⟩
      cases hes
  | cons e rest =>
      cases e with
      | elapse =>
          constructor
          · refine iff_of_false nofun ?_
            rintro (hnil | ⟨_, _, hes, -⟩)
            · cases hnil
            · cases hes
          · refine fun n ↦ iff_of_false nofun ?_
            rintro ⟨_, _, _, _, _, hes, -⟩
            cases hes
      | answer first =>
          rw [Race.verdict_answer]
          cases hfirst : first fun _ : Fin 1 ↦ Call.metricsGet READINESS_QUEUE with
          | error e =>
              rw [advance_probe_error hfirst, Race.verdict_done]
              constructor
              · refine iff_of_false (by simp) ?_
                rintro (hnil | ⟨other, metrics, hes, hother⟩)
                · cases hnil
                · cases hes
                  cases hfirst.symm.trans hother
              · refine fun n ↦ iff_of_false (by simp [Except.mapError]) ?_
                rintro ⟨other, _, _, metrics, _, hes, hother, -⟩
                cases hes
                cases hfirst.symm.trans hother
          | ok metrics =>
              obtain ⟨hnone, hsome⟩ := verdict_secondRead active rest
              rw [advance_probe_ok hfirst]
              constructor
              · rw [hnone]
                constructor
                · rintro rfl
                  exact .inr ⟨first, metrics 0, rfl, hfirst.trans (congrArg _ (eq_const metrics))⟩
                · rintro (hnil | ⟨other, _, hes, -⟩)
                  · cases hnil
                  · exact (List.cons.inj hes).2
              · intro n
                rw [hsome]
                constructor
                · rintro ⟨second, more, snapshots, rfl, hsecond, hsum⟩
                  exact ⟨first, second, more, metrics 0, snapshots, rfl,
                    hfirst.trans (congrArg _ (eq_const metrics)), hsecond, hsum⟩
                · rintro ⟨other, second, more, _, snapshots, hes, -, hsecond, hsum⟩
                  exact ⟨second, more, snapshots, (List.cons.inj hes).2, hsecond, hsum⟩

end Verdict

/-! ## Requests side by side -/

section Requests

variable {active : L.QueueMetrics → ℕ}

def IsMetricsRead (call : Call L) : Prop :=
  call = .metricsGet READINESS_QUEUE ∨ call = .metricsGetAll

theorem callsOnly_probe : (HealthController.probe active).CallsOnly IsMetricsRead :=
  .bind (Program.callsOnly_call.mpr (.inl rfl)) fun _ ↦
    .bind (Program.callsOnly_call.mpr (.inr rfl)) fun _ ↦ trivial

theorem callsOnly_exec_race (es : List (ReadyEvent L)) :
    (exec Race.step (HealthController.race active) es).work.CallsOnly IsMetricsRead := by
  refine exec_invariant (I := fun race : ReadyRace L ↦ race.work.CallsOnly IsMetricsRead)
    Race.step (fun _ e h ↦ Race.step_callsOnly h e) ?_ es
  exact callsOnly_probe

/-- Each request is where its own events have brought it. -/
theorem readyRaces_getElem? (es : List (PoolEvent Unit (ReadyEvent L))) (i : ℕ) :
    (readyRaces active es)[i]? = if i < (Pool.requests es).length then
      some (exec Race.step (HealthController.race active) (Pool.history i 0 es)) else none := by
  rw [readyRaces, Pool.exec_pool, List.nil_append, List.length_nil, List.getElem?_map]
  split
  · next h => rw [List.getElem?_eq_getElem h]; rfl
  · next h => rw [List.getElem?_eq_none (by omega)]; rfl

theorem ready_exec (active : L.QueueMetrics → ℕ) (es : List (ReadyEvent L)) :
    let race := exec Race.step (HealthController.race active) es
    (race.timer = none ↔ (HealthController.ready race).isSome) ∧
      (HealthController.ready race = none ↔ Undecided es) ∧
      ∀ n, HealthController.ready race = some (.up n) ↔ ReadInTime active es n := by
  obtain ⟨hsettled, htimer⟩ :=
    Race.exec_withTimeout (HealthController.probe active) READINESS_TIMEOUT_MS es
  obtain ⟨hnone, hsome⟩ := verdict_probe active es
  rw [← hnone]
  simp only [← hsome, HealthController.ready, HealthController.race, hsettled, htimer]
  cases Race.verdict (HealthController.probe active) es with
  | none => simp
  | some outcome => cases outcome <;> simp

theorem ready_exec_elapse (active : L.QueueMetrics → ℕ) (es : List (ReadyEvent L)) :
    (HealthController.ready
      (exec Race.step (HealthController.race active) (es ++ [.elapse]))).isSome := by
  rw [HealthController.ready, Option.isSome_map, HealthController.race,
    (Race.exec_withTimeout _ _ _).1]
  exact Race.verdict_append_elapse _ es

theorem ready_exec_append {es : List (ReadyEvent L)}
    (h : (HealthController.ready (exec Race.step (HealthController.race active) es)).isSome)
    (more : List (ReadyEvent L)) :
    HealthController.ready (exec Race.step (HealthController.race active) (es ++ more)) =
      HealthController.ready (exec Race.step (HealthController.race active) es) := by
  have htimer := (ready_exec active es).1.mpr h
  rw [HealthController.ready, Option.isSome_map] at h
  obtain ⟨outcome, houtcome⟩ := Option.isSome_iff_exists.mp h
  rw [exec_append, HealthController.ready, HealthController.ready, houtcome,
    (Race.exec_settled ⟨htimer, houtcome⟩ more).2]

/-- A readiness request keeps its timer for as long as it is not answered, is
answered with the sum of the second read if both reads are answered before the
timer fires, by the constant failure in every other case, never otherwise once
it is answered, and calls nothing but the two reads. -/
theorem readiness_decided_in_time (active : L.QueueMetrics → ℕ)
    (es : List (PoolEvent Unit (ReadyEvent L))) (i : ℕ) {race : ReadyRace L}
    (h : (readyRaces active es)[i]? = some race) :
    (race.timer = none ↔ (HealthController.ready race).isSome) ∧
      (HealthController.ready race = none ↔ Undecided (Pool.history i 0 es)) ∧
      (∀ n, HealthController.ready race = some (.up n) ↔
        ReadInTime active (Pool.history i 0 es) n) ∧
      race.work.CallsOnly IsMetricsRead ∧
      ∀ more, (HealthController.ready race).isSome →
        (readyRaces active (es ++ more))[i]?.map HealthController.ready =
          some (HealthController.ready race) := by
  rw [readyRaces_getElem?] at h
  split at h
  · next hi =>
      obtain rfl := Option.some.inj h
      obtain ⟨htimer, hnone, hsome⟩ := ready_exec active (Pool.history i 0 es)
      refine ⟨htimer, hnone, hsome, callsOnly_exec_race _, fun more hanswered ↦ ?_⟩
      have hi' : i < (Pool.requests (es ++ more)).length := by
        rw [Pool.requests_append, List.length_append]
        omega
      rw [readyRaces_getElem?, if_pos hi', Pool.history_append, Option.map_some,
        ready_exec_append hanswered]
  · cases h

end Requests

def countingLibrary : Library := ⟨Unit, ℕ, Unit, Empty, []⟩

def countingAnswer : (call : Call countingLibrary) → Except (Rejection Empty) call.Answer
  | .metricsGet _ => .ok (1 : ℕ)
  | .metricsGetAll => .ok ([1, 2] : List ℕ)
  | .getOrCreateQueue _ | .pauseQueue _ | .resumeQueue _ | .metricsInvalidate _ => .ok ()
  | .getMetrics _ => .ok (0 : ℕ)
  | .getJobs .. | .cleanQueue .. | .getJobSchedulers .. => .ok []
  | .getJob .. | .upsertJobScheduler .. | .getDeduplicationJobId .. => .ok none
  | .removeJobScheduler .. => .ok false
  | .removeDeduplicationKey .. => .ok (0 : ℕ)

def answered : ReadyEvent countingLibrary :=
  .answer fun calls ↦ Program.answerEach countingAnswer calls

theorem readiness_decided_three_active :
    ∃ race, (readyRaces (L := countingLibrary) id
        [.start (), .move 0 answered, .start (), .move 1 .elapse, .move 0 answered])[0]? =
          some race ∧ HealthController.ready race = some (.up 3) := by
  refine ⟨_, rfl, ?_⟩
  refine ((readiness_decided_in_time (L := countingLibrary) id
    [.start (), .move 0 answered, .start (), .move 1 .elapse, .move 0 answered] 0 rfl).2.2.1 3).mpr
      ?_
  exact ⟨_, _, [], (1 : ℕ), ([1, 2] : List ℕ), rfl,
    Program.answerEach_one countingAnswer (.metricsGet READINESS_QUEUE),
    Program.answerEach_one countingAnswer .metricsGetAll, rfl⟩

end NestQueueExample.Admin
