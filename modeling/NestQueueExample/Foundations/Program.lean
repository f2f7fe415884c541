import Mathlib.Data.List.OfFn
import Mathlib.Tactic.TypeStar
import NestQueueExample.Foundations.Runs

/-!
# Programs over the calls of a service

A program issues rounds of calls and goes on with the answers; it ends with a
value or with a failure. The calls of one round are issued before any answer is
read, and the round is answered by the values of all its calls or by one
failure. Which calls a program can issue is a predicate that the sequencing of
programs keeps, and it holds of the calls of every run, whatever the service
answers, and of the calls of any number of programs that run side by side.
-/

namespace NestQueueExample

universe u

inductive Program (C : Type*) (R : C → Type*) (ε α : Type*) where
  | done (result : Except ε α)
  | round {n : ℕ} (calls : Fin n → C)
      (next : Except ε ((i : Fin n) → R (calls i)) → Program C R ε α)

namespace Program

section Defs

variable {C : Type*} {R : C → Type*} {ε : Type*} {α β : Type u}

def bind : Program C R ε α → (α → Program C R ε β) → Program C R ε β
  | .done (.ok a), k => k a
  | .done (.error e), _ => .done (.error e)
  | .round calls next, k => .round calls fun answer ↦ (next answer).bind k

instance : Monad (Program C R ε) where
  pure a := .done (.ok a)
  bind := bind

def call (c : C) : Program C R ε (R c) :=
  .round (n := 1) (fun _ ↦ c) fun answer ↦ .done (answer.map fun values ↦ values 0)

def all {n : ℕ} (calls : Fin n → C) : Program C R ε ((i : Fin n) → R (calls i)) :=
  .round calls .done

/-- How a service answers a round, given the calls it has received before. -/
abbrev Service (C : Type*) (R : C → Type*) (ε : Type*) :=
  List C → {n : ℕ} → (calls : Fin n → C) → Except ε ((i : Fin n) → R (calls i))

/-- The answer to a round of a service that answers call by call: the first
failure, or all the values. -/
def answerEach (answer : (c : C) → Except ε (R c)) :
    {n : ℕ} → (calls : Fin n → C) → Except ε ((i : Fin n) → R (calls i))
  | 0, _ => .ok fun i ↦ i.elim0
  | _ + 1, calls =>
      match answer (calls 0), answerEach answer fun i ↦ calls i.succ with
      | .ok value, .ok rest => .ok (Fin.cons value rest)
      | .error e, _ => .error e
      | .ok _, .error e => .error e

/-- The calls the service has received when the program ends, and the result. -/
def run (service : Service C R ε) : List C → Program C R ε α → List C × Except ε α
  | log, .done result => (log, result)
  | log, .round calls next => run service (log ++ List.ofFn calls) (next (service log calls))

/-- Every call the program can issue, under any answers, satisfies `P`. -/
def CallsOnly (P : C → Prop) : Program C R ε α → Prop
  | .done _ => True
  | .round calls next => (∀ i, P (calls i)) ∧ ∀ answer, (next answer).CallsOnly P

def FailsAtOnce (p : Program C R ε α) : Prop := ∃ e, p = .done (.error e)

/-- The program does not fail at once. -/
def starts : Program C R ε α → Bool
  | .done (.error _) => false
  | _ => true

end Defs

section Lemmas

variable {C : Type*} {R : C → Type*} {ε : Type*} {α β : Type u} {P Q : C → Prop}

@[simp] theorem callsOnly_call {c : C} :
    (call c : Program C R ε (R c)).CallsOnly P ↔ P c := by
  simp [call, CallsOnly]

@[simp] theorem callsOnly_all {n : ℕ} {calls : Fin n → C} :
    (all calls : Program C R ε _).CallsOnly P ↔ ∀ i, P (calls i) := by
  simp [all, CallsOnly]

theorem answerEach_one (answer : (c : C) → Except ε (R c)) (c : C) :
    answerEach answer (fun _ : Fin 1 ↦ c) = (answer c).map fun value _ ↦ value := by
  rw [answerEach]
  cases answer c with
  | error e => rfl
  | ok value =>
      have hvalues : ∀ rest : (i : Fin 0) → R c, (Fin.cons value rest : (i : Fin 1) → R c) =
          fun _ ↦ value := by
        intro rest
        funext i
        rw [Fin.fin_one_eq_zero i, Fin.cons_zero]
      exact congrArg Except.ok (hvalues _)

theorem CallsOnly.bind {p : Program C R ε α} {k : α → Program C R ε β} (hp : p.CallsOnly P)
    (hk : ∀ a, (k a).CallsOnly P) : (p >>= k).CallsOnly P := by
  induction p with
  | done result =>
      cases result with
      | error e => trivial
      | ok a => exact hk a
  | round calls next ih => exact ⟨hp.1, fun answer ↦ ih answer (hp.2 answer)⟩

theorem CallsOnly.bind_done {result : Except ε α} {k : α → Program C R ε β}
    (hk : ∀ a, result = .ok a → (k a).CallsOnly P) :
    (.done result >>= k : Program C R ε β).CallsOnly P := by
  cases result with
  | error e => trivial
  | ok a => exact hk a rfl

theorem CallsOnly.map {p : Program C R ε α} (hp : p.CallsOnly P) (f : α → β) :
    (f <$> p).CallsOnly P :=
  hp.bind fun _ ↦ trivial

theorem CallsOnly.run {p : Program C R ε α} (hp : p.CallsOnly P) (service : Service C R ε)
    {log : List C} (hlog : ∀ c ∈ log, P c) : ∀ c ∈ (p.run service log).1, P c := by
  induction p generalizing log with
  | done result => exact hlog
  | round calls next ih =>
      refine ih _ (hp.2 _) fun c hc ↦ ?_
      rcases List.mem_append.mp hc with hold | hnew
      · exact hlog c hold
      · obtain ⟨i, rfl⟩ := (List.mem_ofFn' calls c).mp hnew
        exact hp.1 i

theorem run_bind_error {p : Program C R ε α} {service : Service C R ε} {log log' : List C} {e : ε}
    (h : p.run service log = (log', .error e)) (k : α → Program C R ε β) :
    (p >>= k).run service log = (log', .error e) := by
  induction p generalizing log with
  | done result =>
      cases result with
      | error e' =>
          obtain ⟨rfl, rfl⟩ : log = log' ∧ e' = e := by simpa [run] using h
          rfl
      | ok a => simp [run] at h
  | round calls next ih => exact ih _ h

theorem run_call_error {c : C} {service : Service C R ε} {log : List C} {e : ε}
    (h : service log (fun _ : Fin 1 ↦ c) = .error e) :
    (call c : Program C R ε (R c)).run service log = (log ++ [c], .error e) := by
  rw [call, run, h]
  rfl

theorem run_call_bind {R : C → Type u} {c : C} {service : Service C R ε} {log : List C}
    {value : R c} (h : service log (fun _ : Fin 1 ↦ c) = .ok fun _ ↦ value)
    (k : R c → Program C R ε β) :
    (call c >>= k).run service log = (k value).run service (log ++ [c]) := by
  change ((Program.round (fun _ : Fin 1 ↦ c) fun answer ↦
    (Program.done (answer.map fun values ↦ values 0)).bind k).run service log) = _
  rw [run, h]
  rfl

theorem run_map (f : α → β) (p : Program C R ε α) (service : Service C R ε) (log : List C) :
    (f <$> p).run service log = ((p.run service log).1, (p.run service log).2.map f) := by
  induction p generalizing log with
  | done result => cases result <;> rfl
  | round calls next ih => exact ih _ _

theorem failsAtOnce_done {result : Except ε α} (h : ∀ a, result ≠ .ok a) :
    (.done result : Program C R ε α).FailsAtOnce := by
  cases result with
  | error e => exact ⟨e, rfl⟩
  | ok a => exact absurd rfl (h a)

theorem FailsAtOnce.starts_eq_false {p : Program C R ε α} (hp : p.FailsAtOnce) :
    p.starts = false := by
  obtain ⟨e, rfl⟩ := hp
  rfl

theorem FailsAtOnce.bind {p : Program C R ε α} (hp : p.FailsAtOnce)
    (k : α → Program C R ε β) : (p >>= k).FailsAtOnce := by
  obtain ⟨e, rfl⟩ := hp
  exact ⟨e, rfl⟩

theorem FailsAtOnce.bind_done {result : Except ε α} {k : α → Program C R ε β}
    (hk : ∀ a, result = .ok a → (k a).FailsAtOnce) :
    (.done result >>= k : Program C R ε β).FailsAtOnce := by
  cases result with
  | error e => exact ⟨e, rfl⟩
  | ok a => exact hk a rfl

theorem FailsAtOnce.callsOnly {p : Program C R ε α} (hp : p.FailsAtOnce) : p.CallsOnly P := by
  obtain ⟨e, rfl⟩ := hp
  trivial

theorem FailsAtOnce.run {p : Program C R ε α} (hp : p.FailsAtOnce) (service : Service C R ε)
    (log : List C) : ∃ e, p.run service log = (log, .error e) := by
  obtain ⟨e, rfl⟩ := hp
  exact ⟨e, rfl⟩

end Lemmas

/-! ## Programs side by side -/

section Server

open Runs

variable {C : Type*} {R : C → Type*} {ε : Type*} {α : Type u} {ρ : Type*} {P : C → Prop}

abbrev Answers (C : Type*) (R : C → Type*) (ε : Type*) :=
  {n : ℕ} → (calls : Fin n → C) → Except ε ((i : Fin n) → R (calls i))

def pending : Program C R ε α → List C
  | .done _ => []
  | .round calls _ => List.ofFn calls

def advance (answers : Answers C R ε) : Program C R ε α → Program C R ε α
  | .done result => .done result
  | .round calls next => next (answers calls)

/-- A server receives a request, or a round of one of the programs in progress
is answered. -/
inductive ServerEvent (C : Type*) (R : C → Type*) (ε ρ : Type*) where
  | receive (request : ρ)
  | answer (i : ℕ) (answers : Answers C R ε)

variable (handler : ρ → Program C R ε α)

def serve (programs : List (Program C R ε α)) :
    ServerEvent C R ε ρ → List (Program C R ε α)
  | .receive request => programs ++ [handler request]
  | .answer i answers => programs.modify i (advance answers)

def issued (programs : List (Program C R ε α)) : ServerEvent C R ε ρ → List C
  | .receive request => (handler request).pending
  | .answer i answers => ((programs[i]?.map (advance answers)).map pending).getD []

variable {handler}

theorem CallsOnly.pending {p : Program C R ε α} (hp : p.CallsOnly P) : ∀ c ∈ p.pending, P c := by
  cases p with
  | done result => simp [Program.pending]
  | round calls next =>
      intro c hc
      obtain ⟨i, rfl⟩ := (List.mem_ofFn' calls c).mp hc
      exact hp.1 i

theorem CallsOnly.advance {p : Program C R ε α} (hp : p.CallsOnly P)
    (answers : Answers C R ε) : (p.advance answers).CallsOnly P := by
  cases p with
  | done result => trivial
  | round calls next => exact hp.2 _

theorem serve_callsOnly (hhandler : ∀ request, (handler request).CallsOnly P)
    (programs : List (Program C R ε α)) (e : ServerEvent C R ε ρ)
    (h : ∀ p ∈ programs, p.CallsOnly P) : ∀ p ∈ serve handler programs e, p.CallsOnly P := by
  intro p hp
  cases e with
  | receive request =>
      rcases List.mem_append.mp hp with hold | hnew
      · exact h p hold
      · rw [List.mem_singleton.mp hnew]
        exact hhandler request
  | answer i answers =>
      obtain ⟨j, hj, rfl⟩ := List.mem_iff_getElem.mp hp
      have hlen : j < programs.length := by simpa [serve] using hj
      have hget := h programs[j] (List.getElem_mem hlen)
      by_cases hij : i = j
      · simpa [serve, List.getElem_modify, hij] using hget.advance answers
      · simpa [serve, List.getElem_modify, hij] using hget

/-- Whatever the requests and the order of the answers, the server issues only
calls that its handlers can issue. -/
theorem server_callsOnly (hhandler : ∀ request, (handler request).CallsOnly P)
    (es : List (ServerEvent C R ε ρ)) :
    ∀ c ∈ emitted (serve handler) (issued handler) [] es, P c := by
  intro c hmem
  obtain ⟨pre, e, post, -, hc⟩ := exists_of_mem_emitted hmem
  have hinv := exec_invariant (I := fun programs ↦ ∀ p ∈ programs, p.CallsOnly P)
    (serve handler) (serve_callsOnly hhandler) (s := []) (by simp) pre
  cases e with
  | receive request => exact (hhandler request).pending c hc
  | answer i answers =>
      cases hi : (exec (serve handler) [] pre)[i]? with
      | none => simp [issued, hi] at hc
      | some p =>
          have hp : p.CallsOnly P := hinv p (List.mem_of_getElem? hi)
          exact (hp.advance answers).pending c (by simpa [issued, hi] using hc)

end Server

/-! ## Programs over some of the calls -/

section Lift

variable {C C' : Type*} {R : C → Type*} {R' : C' → Type*} {ε ε' : Type*} {α : Type u}

/-- The program over a service with more calls. It does not look at failures:
the first failed round ends it. -/
def lift (call : C → C') (answer : ∀ c, R' (call c) → R c) (fail : ε → ε') :
    Program C R ε α → Program C' R' ε' α
  | .done (.ok a) => .done (.ok a)
  | .done (.error e) => .done (.error (fail e))
  | .round calls next =>
      .round (fun i ↦ call (calls i)) fun
        | .ok values => (next (.ok fun i ↦ answer (calls i) (values i))).lift call answer fail
        | .error e => .done (.error e)

variable {call : C → C'} {answer : ∀ c, R' (call c) → R c} {fail : ε → ε'}

theorem CallsOnly.lift {P : C' → Prop} {p : Program C R ε α} (hp : p.CallsOnly fun c ↦ P (call c)) :
    (p.lift call answer fail).CallsOnly P := by
  induction p with
  | done result =>
      cases result with
      | ok a => trivial
      | error e => trivial
  | round calls next ih =>
      rw [Program.lift, CallsOnly]
      refine ⟨hp.1, fun answers ↦ ?_⟩
      cases answers with
      | ok values => exact ih _ (hp.2 _)
      | error e => trivial

end Lift

end Program

end NestQueueExample
