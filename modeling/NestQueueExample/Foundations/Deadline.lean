import NestQueueExample.Foundations.Program

/-!
# Work raced against a timer

A program runs against a timer. The first of them to end settles the race, which
clears the timer, and nothing that comes later changes how it was settled: an
abandoned program may go on, but nobody reads its result. Any number of such
machines can run side by side, and each one only follows its own events.
-/

namespace NestQueueExample

universe u

/-- How a race is lost. -/
inductive TimeoutFailure (ε : Type*) where
  | expired
  | rejected (error : ε)

structure Race (C : Type*) (R : C → Type*) (ε α : Type*) where
  work : Program C R ε α
  /-- The delay of the timer while it is armed. -/
  timer : Option ℕ
  settled : Option (Except (TimeoutFailure ε) α)

/-- A round of the work is answered, or the delay of the timer is over. -/
inductive RaceEvent (C : Type*) (R : C → Type*) (ε : Type*) where
  | answer (answers : Program.Answers C R ε)
  | elapse

namespace Race

open Runs

variable {C : Type*} {R : C → Type*} {ε : Type*} {α : Type u}

def settle (race : Race C R ε α) : Race C R ε α :=
  match race.settled with
  | some _ => race
  | none =>
      match race.work with
      | .done result => ⟨race.work, none, some (result.mapError .rejected)⟩
      | .round .. => race

/-- The work is on its way when the timer is armed. -/
def withTimeout (work : Program C R ε α) (ms : ℕ) : Race C R ε α := settle ⟨work, some ms, none⟩

def step (race : Race C R ε α) : RaceEvent C R ε → Race C R ε α
  | .answer answers => settle { race with work := race.work.advance answers }
  | .elapse =>
      match race.timer with
      | some _ => ⟨race.work, none, some (.error .expired)⟩
      | none => race

/-! ## The outcome -/

/-- What is left of the work when the timer fires, or at the end if it does not. -/
def inTime (work : Program C R ε α) : List (RaceEvent C R ε) → Program C R ε α
  | .answer answers :: es => inTime (work.advance answers) es
  | .elapse :: _ => work
  | [] => work

def elapses : List (RaceEvent C R ε) → Bool
  | .answer _ :: es => elapses es
  | .elapse :: _ => true
  | [] => false

/-- How the race is settled by the events: by the end of the work if that comes
in time, else by the timer. -/
def verdict (work : Program C R ε α) (es : List (RaceEvent C R ε)) :
    Option (Except (TimeoutFailure ε) α) :=
  match inTime work es with
  | .done result => some (result.mapError .rejected)
  | .round .. => if elapses es then some (.error .expired) else none

theorem inTime_done (result : Except ε α) (es : List (RaceEvent C R ε)) :
    inTime (.done result : Program C R ε α) es = .done result := by
  induction es with
  | nil => rfl
  | cons e es ih =>
      cases e with
      | answer answers => exact ih
      | elapse => rfl

theorem verdict_done (result : Except ε α) (es : List (RaceEvent C R ε)) :
    verdict (.done result : Program C R ε α) es = some (result.mapError .rejected) := by
  rw [verdict, inTime_done]

theorem verdict_answer (work : Program C R ε α) (answers : Program.Answers C R ε)
    (es : List (RaceEvent C R ε)) :
    verdict work (.answer answers :: es) = verdict (work.advance answers) es := rfl

theorem verdict_append_elapse (work : Program C R ε α) (es : List (RaceEvent C R ε)) :
    (verdict work (es ++ [.elapse])).isSome := by
  induction es generalizing work with
  | nil =>
      cases work with
      | done result => rfl
      | round calls next => rfl
  | cons e es ih =>
      cases e with
      | answer answers => exact ih (work.advance answers)
      | elapse =>
          cases work with
          | done result => rfl
          | round calls next => rfl

theorem step_settled {race : Race C R ε α} {outcome : Except (TimeoutFailure ε) α}
    (h : race.timer = none ∧ race.settled = some outcome) (e : RaceEvent C R ε) :
    (race.step e).timer = none ∧ (race.step e).settled = some outcome := by
  cases e with
  | answer answers =>
      have hstep : race.step (.answer answers) =
          { race with work := race.work.advance answers } := by
        simp only [step, settle, h.2]
      rw [hstep]
      exact h
  | elapse =>
      rw [step, h.1]
      exact h

theorem exec_settled {race : Race C R ε α} {outcome : Except (TimeoutFailure ε) α}
    (h : race.timer = none ∧ race.settled = some outcome) (es : List (RaceEvent C R ε)) :
    (exec step race es).timer = none ∧ (exec step race es).settled = some outcome :=
  exec_invariant (I := fun race ↦ race.timer = none ∧ race.settled = some outcome) step
    (fun _ e hrace ↦ step_settled hrace e) h es

theorem step_withTimeout_answer (work : Program C R ε α) (ms : ℕ)
    (answers : Program.Answers C R ε) :
    (withTimeout work ms).step (.answer answers) = withTimeout (work.advance answers) ms := by
  cases work with
  | done result => rfl
  | round calls next => rfl

/-- A race is settled as its verdict says, and its timer is armed just as long
as it is open. -/
theorem exec_withTimeout (work : Program C R ε α) (ms : ℕ) (es : List (RaceEvent C R ε)) :
    (exec step (withTimeout work ms) es).settled = verdict work es ∧
      (exec step (withTimeout work ms) es).timer =
        if (verdict work es).isSome then none else some ms := by
  induction es generalizing work with
  | nil =>
      cases work with
      | done result => exact ⟨rfl, rfl⟩
      | round calls next => exact ⟨rfl, rfl⟩
  | cons e es ih =>
      cases e with
      | answer answers =>
          rw [exec_cons, step_withTimeout_answer]
          exact ih (work.advance answers)
      | elapse =>
          cases work with
          | done result =>
              have hdone : (withTimeout (.done result : Program C R ε α) ms).timer = none ∧
                  (withTimeout (.done result : Program C R ε α) ms).settled =
                    some (result.mapError .rejected) := ⟨rfl, rfl⟩
              obtain ⟨htimer, hsettled⟩ := exec_settled hdone (.elapse :: es)
              rw [verdict_done]
              exact ⟨hsettled, htimer⟩
          | round calls next =>
              have hexpired : ((withTimeout (.round calls next) ms).step .elapse).timer = none ∧
                  ((withTimeout (.round calls next) ms).step .elapse).settled =
                    some (.error .expired) := ⟨rfl, rfl⟩
              obtain ⟨htimer, hsettled⟩ := exec_settled hexpired es
              exact ⟨hsettled, htimer⟩

theorem step_callsOnly {P : C → Prop} {race : Race C R ε α} (h : race.work.CallsOnly P)
    (e : RaceEvent C R ε) : (race.step e).work.CallsOnly P := by
  cases e with
  | answer answers =>
      have hwork : (race.step (.answer answers)).work = race.work.advance answers := by
        simp only [step, settle]
        split
        · rfl
        · split <;> rfl
      rw [hwork]
      exact h.advance answers
  | elapse =>
      rw [step]
      split <;> exact h

end Race

/-! ## Machines side by side -/

/-- A machine is started, or one of the machines that run has an event. -/
inductive PoolEvent (ρ ε : Type*) where
  | start (request : ρ)
  | move (i : ℕ) (e : ε)

namespace Pool

open Runs

variable {ρ σ ε : Type*} (start : ρ → σ) (step : σ → ε → σ)

def poolStep (machines : List σ) : PoolEvent ρ ε → List σ
  | .start request => machines ++ [start request]
  | .move i e => machines.modify i (step · e)

/-- The requests that start machines, in order. -/
def requests (es : List (PoolEvent ρ ε)) : List ρ :=
  es.filterMap fun
    | .start request => some request
    | .move .. => none

theorem requests_append (es more : List (PoolEvent ρ ε)) :
    requests (es ++ more) = requests es ++ requests more := by
  rw [requests, List.filterMap_append]
  rfl

/-- The events of the `i`-th machine since it was started, where `count` of the
machines run already. -/
def history (i : ℕ) : ℕ → List (PoolEvent ρ ε) → List ε
  | _, [] => []
  | count, .start _ :: es => history i (count + 1) es
  | count, .move j e :: es => (if j = i ∧ i < count then [e] else []) ++ history i count es

variable {start step}

theorem history_append (i count : ℕ) (es more : List (PoolEvent ρ ε)) :
    history i count (es ++ more) =
      history i count es ++ history i (count + (requests es).length) more := by
  induction es generalizing count with
  | nil => rfl
  | cons e es ih =>
      cases e with
      | start request =>
          have hcount : count + 1 + (requests es).length =
              count + (requests (.start request :: es)).length := by
            simp only [requests, List.filterMap_cons, List.length_cons]
            omega
          rw [List.cons_append, history, history, ih, hcount]
      | move j e =>
          rw [List.cons_append, history, history, ih, List.append_assoc]
          rfl

theorem length_exec_pool (machines : List σ) (es : List (PoolEvent ρ ε)) :
    (exec (poolStep start step) machines es).length = machines.length + (requests es).length := by
  induction es generalizing machines with
  | nil => rfl
  | cons e es ih =>
      rw [exec_cons, ih]
      cases e with
      | start request =>
          simp only [poolStep, requests, List.filterMap_cons, List.length_append, List.length_cons,
            List.length_nil]
          omega
      | move j e => simp [poolStep, requests]

/-- Each machine of a pool is where its own events have brought it. -/
theorem exec_pool (machines : List σ) (es : List (PoolEvent ρ ε)) (i : ℕ) :
    (exec (poolStep start step) machines es)[i]? =
      (machines ++ (requests es).map start)[i]?.map
        fun machine ↦ exec step machine (history i machines.length es) := by
  induction es generalizing machines with
  | nil => simp [requests, history]
  | cons e es ih =>
      rw [exec_cons, ih]
      cases e with
      | start request => simp [poolStep, requests, history, List.append_assoc]
      | move j e =>
          have hlength : (poolStep start step machines (.move j e)).length = machines.length := by
            simp [poolStep]
          rw [hlength, history]
          simp only [poolStep, requests, List.filterMap_cons]
          by_cases hi : i < machines.length
          · rw [List.getElem?_append_left (by simpa using hi), List.getElem?_append_left hi,
              List.getElem?_modify]
            by_cases hji : j = i
            · simp only [hji, hi, and_self, if_true]
              cases machines[i]? <;> rfl
            · simp only [hji, false_and, if_false, List.nil_append]
              cases machines[i]? <;> rfl
          · rw [List.getElem?_append_right (by simpa using hi), List.getElem?_append_right
              (by omega), if_neg fun h ↦ hi h.2]
            simp

end Pool

end NestQueueExample
