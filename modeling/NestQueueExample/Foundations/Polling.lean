import Mathlib.Data.List.Induction
import Mathlib.Data.List.ReduceOption
import NestQueueExample.Foundations.Runs

/-!
# Polled queries

A query fetches its data again and again, with one fetch in flight at a time. It
keeps the data of its last successful fetch, and its status tells how the last
fetch ended, whether or not there is data from before. A query that has no data
may be pending again while it is fetched. The library that keeps the query is a
parameter; the query stays mounted, so its data is never collected.
-/

namespace NestQueueExample

open Runs

inductive QueryStatus where
  | pending
  | error
  | success
  deriving DecidableEq

/-- What a component reads of a query. -/
structure Query (τ δ : Type*) where
  data : Option δ
  status : QueryStatus
  /-- The fetch in flight. -/
  fetching : Option τ

/-- A fetch is due, or the fetch in flight ends with data or with a failure. -/
inductive QueryEvent (τ δ : Type*) where
  | fetch (sent : τ)
  | settle (result : Option δ)

/-- How the fetch in flight ends, if the event ends it. -/
def Query.settlement {τ δ : Type*} (query : Query τ δ) : QueryEvent τ δ → List (Option δ)
  | .fetch _ => []
  | .settle result => if query.fetching.isSome then [result] else []

/-- A library that keeps a query, and what it shows of it. -/
structure QueryClient (τ δ : Type) where
  State : Type
  initial : State
  step : State → QueryEvent τ δ → State
  query : State → Query τ δ

namespace QueryClient

variable {τ δ : Type}

/-- A fetch that is due is started unless one is in flight, and the end of the
fetch in flight is recorded. -/
structure Documented (client : QueryClient τ δ) : Prop where
  initial : client.query client.initial = ⟨none, .pending, none⟩
  fetch (s : client.State) (sent : τ) : (client.query s).fetching = none →
    ∃ status, client.query (client.step s (.fetch sent)) =
      ⟨(client.query s).data, status, some sent⟩ ∧
        (status = (client.query s).status ∨ status = .pending ∧ (client.query s).data = none)
  busy (s : client.State) (sent : τ) : (client.query s).fetching ≠ none →
    client.query (client.step s (.fetch sent)) = client.query s
  idle (s : client.State) (result : Option δ) : (client.query s).fetching = none →
    client.query (client.step s (.settle result)) = client.query s
  success (s : client.State) (value : δ) : (client.query s).fetching ≠ none →
    client.query (client.step s (.settle (some value))) = ⟨some value, .success, none⟩
  failure (s : client.State) : (client.query s).fetching ≠ none →
    client.query (client.step s (.settle none)) = ⟨(client.query s).data, .error, none⟩

/-- A library that keeps no more than it shows; whether a query without data is
pending again while it is fetched is left open. -/
def plain (restarts : Bool) : QueryClient τ δ where
  State := Query τ δ
  initial := ⟨none, .pending, none⟩
  step query
    | .fetch sent =>
        match query.fetching with
        | some _ => query
        | none => ⟨query.data,
            if restarts && query.data.isNone then .pending else query.status, some sent⟩
    | .settle result =>
        match query.fetching, result with
        | none, _ => query
        | some _, some value => ⟨some value, .success, none⟩
        | some _, none => ⟨query.data, .error, none⟩
  query := id

theorem documented_plain (restarts : Bool) : (plain restarts : QueryClient τ δ).Documented where
  initial := rfl
  fetch := by
    rintro ⟨data, status, _⟩ sent rfl
    refine ⟨_, rfl, ?_⟩
    cases restarts with
    | false => exact .inl rfl
    | true =>
        cases data with
        | none => exact .inr ⟨rfl, rfl⟩
        | some value => exact .inl rfl
  busy := by
    rintro ⟨data, status, _ | fetch⟩ sent h
    · exact absurd rfl h
    · rfl
  idle := by
    rintro ⟨data, status, _⟩ result rfl
    rfl
  success := by
    rintro ⟨data, status, _ | fetch⟩ value h
    · exact absurd rfl h
    · rfl
  failure := by
    rintro ⟨data, status, _ | fetch⟩ h
    · exact absurd rfl h
    · rfl

namespace Documented

variable {client : QueryClient τ δ} (h : client.Documented) {s : client.State}

include h

theorem mem_fetching_step {e : QueryEvent τ δ} {sent : τ}
    (hsent : sent ∈ (client.query (client.step s e)).fetching) :
    sent ∈ (client.query s).fetching ∨ (client.query s).fetching = none ∧ e = .fetch sent := by
  by_cases hidle : (client.query s).fetching = none
  · cases e with
    | fetch due =>
        obtain ⟨status, hquery, -⟩ := h.fetch s due hidle
        rw [hquery] at hsent
        obtain rfl := Option.mem_some_iff.mp hsent
        exact .inr ⟨hidle, rfl⟩
    | settle result =>
        rw [h.idle s result hidle] at hsent
        exact .inl hsent
  · cases e with
    | fetch due =>
        rw [h.busy s due hidle] at hsent
        exact .inl hsent
    | settle result =>
        cases result with
        | none =>
            rw [h.failure s hidle] at hsent
            cases hsent
        | some value =>
            rw [h.success s value hidle] at hsent
            cases hsent

theorem data_fetch (s : client.State) (sent : τ) :
    (client.query (client.step s (.fetch sent))).data = (client.query s).data := by
  by_cases hidle : (client.query s).fetching = none
  · obtain ⟨status, hquery, -⟩ := h.fetch s sent hidle
    rw [hquery]
  · rw [h.busy s sent hidle]

theorem fetching_fetch (s : client.State) (sent : τ) :
    (client.query (client.step s (.fetch sent))).fetching ≠ none := by
  by_cases hidle : (client.query s).fetching = none
  · obtain ⟨status, hquery, -⟩ := h.fetch s sent hidle
    rw [hquery]
    exact Option.some_ne_none sent
  · rwa [h.busy s sent hidle]

theorem fetching_settle (s : client.State) (result : Option δ) :
    (client.query (client.step s (.settle result))).fetching = none := by
  by_cases hidle : (client.query s).fetching = none
  · rw [h.idle s result hidle, hidle]
  · cases result with
    | none => rw [h.failure s hidle]
    | some value => rw [h.success s value hidle]

theorem data_settle_none (s : client.State) :
    (client.query (client.step s (.settle none))).data = (client.query s).data := by
  by_cases hidle : (client.query s).fetching = none
  · rw [h.idle s none hidle]
  · rw [h.failure s hidle]

theorem mem_data_settle {result : Option δ} {value : δ}
    (hvalue : value ∈ (client.query (client.step s (.settle result))).data) :
    value ∈ (client.query s).data ∨ value ∈ result := by
  by_cases hidle : (client.query s).fetching = none
  · rw [h.idle s result hidle] at hvalue
    exact .inl hvalue
  · cases result with
    | none =>
        rw [h.failure s hidle] at hvalue
        exact .inl hvalue
    | some fetched =>
        rw [h.success s fetched hidle] at hvalue
        exact .inr hvalue

/-- A query with data is not pending. -/
theorem data_of_pending (hquery : (client.query s).status = .pending → (client.query s).data = none)
    (e : QueryEvent τ δ) : (client.query (client.step s e)).status = .pending →
      (client.query (client.step s e)).data = none := by
  by_cases hidle : (client.query s).fetching = none
  · cases e with
    | fetch sent =>
        obtain ⟨status, hfetch, hstatus⟩ := h.fetch s sent hidle
        rw [hfetch]
        rintro rfl
        rcases hstatus with hsame | ⟨-, hnone⟩
        · exact hquery hsame.symm
        · exact hnone
    | settle result => rwa [h.idle s result hidle]
  · cases e with
    | fetch sent => rwa [h.busy s sent hidle]
    | settle result =>
        cases result with
        | none =>
            rw [h.failure s hidle]
            exact nofun
        | some value =>
            rw [h.success s value hidle]
            exact nofun

end Documented

end QueryClient

namespace Query

variable {τ δ : Type}

/-- What a status tells of the ends of the fetches, while a further one may be in
flight. -/
def StatusAfter (outcomes : List (Option δ)) (fetching : Option τ) : QueryStatus → Prop
  | .pending => outcomes = [] ∨ fetching.isSome ∧ ∀ outcome ∈ outcomes, outcome = none
  | .error => outcomes.getLast? = some none
  | .success => ∃ value, outcomes.getLast? = some (some value)

/-- The query is as fetches leave it that ended so. -/
structure Follows (outcomes : List (Option δ)) (query : Query τ δ) : Prop where
  data : query.data = outcomes.reduceOption.getLast?
  status : StatusAfter outcomes query.fetching query.status

theorem eq_none_of_reduceOption {outcomes : List (Option δ)}
    (h : outcomes.reduceOption.getLast? = none) : ∀ outcome ∈ outcomes, outcome = none := by
  intro outcome houtcome
  rw [Option.eq_none_iff_forall_ne_some]
  rintro value rfl
  have hmem := List.reduceOption_mem_iff.mpr houtcome
  rw [List.getLast?_eq_none_iff.mp h] at hmem
  cases hmem

theorem Follows.fetch {outcomes : List (Option δ)} {query : Query τ δ} (h : Follows outcomes query)
    (hidle : query.fetching = none) {status : QueryStatus}
    (hstatus : status = query.status ∨ status = .pending ∧ query.data = none) (sent : τ) :
    Follows outcomes ⟨query.data, status, some sent⟩ := by
  refine ⟨h.data, ?_⟩
  rcases hstatus with rfl | ⟨rfl, hnone⟩
  · have hbefore := h.status
    rw [hidle] at hbefore
    cases hquery : query.status with
    | pending =>
        rw [hquery] at hbefore
        rcases hbefore with hnil | ⟨hsome, -⟩
        · exact .inl hnil
        · exact Bool.noConfusion hsome
    | error => rwa [hquery] at hbefore
    | success => rwa [hquery] at hbefore
  · rw [h.data] at hnone
    exact .inr ⟨rfl, eq_none_of_reduceOption hnone⟩

theorem Follows.settle {outcomes : List (Option δ)} {query : Query τ δ}
    (h : Follows outcomes query) :
    Follows (outcomes ++ [none]) (⟨query.data, .error, none⟩ : Query τ δ) ∧
      ∀ value, Follows (outcomes ++ [some value]) (⟨some value, .success, none⟩ : Query τ δ) := by
  refine ⟨⟨?_, ?_⟩, fun value ↦ ⟨?_, value, ?_⟩⟩
  · simp [List.reduceOption_append, h.data]
  · simp [StatusAfter]
  · simp [List.reduceOption_append]
  · simp

theorem Follows.step {client : QueryClient τ δ} (hclient : client.Documented)
    {outcomes : List (Option δ)} {s : client.State} (h : Follows outcomes (client.query s))
    (e : QueryEvent τ δ) :
    Follows (outcomes ++ (client.query s).settlement e) (client.query (client.step s e)) := by
  by_cases hidle : (client.query s).fetching = none
  · cases e with
    | fetch sent =>
        obtain ⟨status, hquery, hstatus⟩ := hclient.fetch s sent hidle
        rw [settlement, List.append_nil, hquery]
        exact h.fetch hidle hstatus sent
    | settle result =>
        rw [settlement, hidle, if_neg (by simp), List.append_nil, hclient.idle s result hidle]
        exact h
  · cases e with
    | fetch sent =>
        rw [settlement, List.append_nil, hclient.busy s sent hidle]
        exact h
    | settle result =>
        rw [settlement, if_pos (Option.isSome_iff_ne_none.mpr hidle)]
        cases result with
        | none =>
            rw [hclient.failure s hidle]
            exact h.settle.1
        | some value =>
            rw [hclient.success s value hidle]
            exact h.settle.2 value

section Follows

variable {outcomes : List (Option δ)} {query : Query τ δ}

theorem Follows.data_of_last (h : Follows outcomes query) {value : δ}
    (hlast : outcomes.getLast? = some (some value)) : query.data = some value := by
  obtain ⟨before, rfl⟩ := List.getLast?_eq_some_iff.mp hlast
  rw [h.data, List.reduceOption_append, List.reduceOption_singleton]
  simp

theorem Follows.data_isSome_iff (h : Follows outcomes query) :
    query.data.isSome ↔ ∃ value, some value ∈ outcomes := by
  rw [h.data, List.getLast?_isSome]
  constructor
  · intro hne
    obtain ⟨value, hvalue⟩ := List.exists_mem_of_ne_nil _ hne
    exact ⟨value, List.reduceOption_mem_iff.mp hvalue⟩
  · rintro ⟨value, hvalue⟩
    exact List.ne_nil_of_mem (List.reduceOption_mem_iff.mpr hvalue)

theorem Follows.last_of_error (h : Follows outcomes query) (herror : query.status = .error) :
    outcomes.getLast? = some none := by
  have hstatus := h.status
  rwa [herror] at hstatus

theorem Follows.success_iff (h : Follows outcomes query) :
    query.status = .success ↔ ∃ value, outcomes.getLast? = some (some value) := by
  have hstatus := h.status
  constructor
  · intro hsuccess
    rwa [hsuccess] at hstatus
  · rintro ⟨value, hlast⟩
    cases hquery : query.status with
    | success => rfl
    | error =>
        rw [hquery, StatusAfter, hlast] at hstatus
        cases hstatus
    | pending =>
        rw [hquery] at hstatus
        rcases hstatus with rfl | ⟨-, hnone⟩
        · cases hlast
        · cases hnone _ (List.mem_of_getLast? hlast)

theorem Follows.error_of_last (h : Follows outcomes query)
    (hlast : outcomes.getLast? = some none) :
    query.status = .error ∨ query.status = .pending ∧ query.fetching.isSome ∧
      ∀ outcome ∈ outcomes, outcome = none := by
  have hstatus := h.status
  cases hquery : query.status with
  | error => exact .inl rfl
  | success =>
      rw [hquery] at hstatus
      obtain ⟨value, hvalue⟩ := hstatus
      rw [hlast] at hvalue
      cases hvalue
  | pending =>
      rw [hquery] at hstatus
      rcases hstatus with rfl | hpending
      · cases hlast
      · exact .inr ⟨rfl, hpending⟩

end Follows

/-- Each run of a query follows the ends of its fetches. -/
theorem follows_exec {client : QueryClient τ δ} (hclient : client.Documented)
    (es : List (QueryEvent τ δ)) :
    Follows (emitted client.step (fun s ↦ (client.query s).settlement) client.initial es)
      (client.query (exec client.step client.initial es)) := by
  induction es using List.reverseRecOn with
  | nil =>
      rw [exec_nil, hclient.initial]
      exact ⟨rfl, .inl rfl⟩
  | append_singleton es e ih =>
      rw [emitted_append, exec_append]
      simpa [emitted] using ih.step hclient e

end Query

end NestQueueExample
