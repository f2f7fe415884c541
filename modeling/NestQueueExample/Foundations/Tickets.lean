import Mathlib.Data.List.Basic
import Mathlib.Data.List.Range

/-!
# Tickets served in turn

Tickets are numbered in the order in which they are issued. Some have been
served, in an order of their own, and some wait, oldest first. Service is in
turn when the served tickets with the waiting ones behind them are all the
issued ones in their order.
-/

namespace NestQueueExample.Tickets

/-- All `issued` tickets, the served ones first, each once and in order. -/
def InTurn (served waiting : List ℕ) (issued : ℕ) : Prop :=
  served ++ waiting = List.range issued

variable {served waiting : List ℕ} {issued : ℕ}

theorem eq_length_of_append_eq_range {x : ℕ} {rest : List ℕ}
    (h : served ++ x :: rest = List.range issued) : x = served.length := by
  have hget := congrArg (fun tickets ↦ tickets[served.length]?) h
  have hlt : served.length < issued := by
    have hlen := congrArg List.length h
    simp only [List.length_append, List.length_cons, List.length_range] at hlen
    omega
  simpa [List.getElem?_range hlt] using hget

theorem inTurn_issue_iff :
    InTurn served (waiting ++ [issued]) (issued + 1) ↔ InTurn served waiting issued := by
  rw [InTurn, InTurn, List.range_succ, ← List.append_assoc, List.append_left_inj]

theorem inTurn_serve_now_iff :
    InTurn (served ++ [issued]) waiting (issued + 1) ↔
      InTurn served waiting issued ∧ waiting = [] := by
  constructor
  · intro h
    have hall : served ++ issued :: waiting = List.range (issued + 1) := by
      simpa [InTurn] using h
    have hissued := eq_length_of_append_eq_range hall
    have hlen := congrArg List.length hall
    simp only [List.length_append, List.length_cons, List.length_range] at hlen
    obtain rfl : waiting = [] := List.eq_nil_of_length_eq_zero (by omega)
    refine ⟨?_, rfl⟩
    rw [List.range_succ, List.append_left_inj] at hall
    simpa [InTurn] using hall
  · rintro ⟨h, rfl⟩
    have hserved : served = List.range issued := by simpa [InTurn] using h
    simp [InTurn, hserved, List.range_succ]

theorem inTurn_serve_waiting_iff (hsorted : waiting.Pairwise (· < ·)) {k : ℕ}
    (hk : k < waiting.length) :
    InTurn (served ++ [waiting[k]]) (waiting.eraseIdx k) issued ↔
      InTurn served waiting issued ∧ k = 0 := by
  cases waiting with
  | nil => simp at hk
  | cons oldest rest =>
      cases k with
      | zero => simp [InTurn]
      | succ k =>
          simp only [Nat.succ_ne_zero, and_false, iff_false]
          intro h
          have hk' : k < rest.length := by simpa using hk
          have hlt : oldest < rest[k] := (List.pairwise_cons.mp hsorted).1 _ (List.getElem_mem hk')
          have hserved : served ++ rest[k] :: (oldest :: rest.eraseIdx k) = List.range issued := by
            simpa [InTurn] using h
          have hwaits : (served ++ [rest[k]]) ++ oldest :: rest.eraseIdx k = List.range issued := by
            simpa [InTurn] using h
          have hfirst := eq_length_of_append_eq_range hserved
          have hsecond := eq_length_of_append_eq_range hwaits
          simp only [List.length_append, List.length_singleton] at hsecond
          omega

theorem not_inTurn_drop (hfew : served.length + waiting.length ≤ issued) {k : ℕ}
    (hk : k < waiting.length) : ¬ InTurn served (waiting.eraseIdx k) issued := by
  intro h
  have hlen := congrArg List.length h
  simp only [List.length_append, List.length_eraseIdx_of_lt hk, List.length_range] at hlen
  omega

end NestQueueExample.Tickets
