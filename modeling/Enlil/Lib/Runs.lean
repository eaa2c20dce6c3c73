import Mathlib.Algebra.Group.Nat.Defs
import Mathlib.Data.List.Basic

/-!
# Runs of a state machine

A run is the left fold of a step function over a list of events. The rules relate what holds in
every state of a run to what every event of it has to meet in the state before it.
-/

namespace Runs
variable {σ ε : Type} {step : σ → ε → σ} {P I : σ → Prop} {K : σ → ε → Prop}
variable {events : List ε} {s : σ}

/-- What every event that meets `K` keeps holds in every state of a run whose events meet `K`. -/
lemma forall_take (hkeep : ∀ s e, I s → K s e → I (step s e)) (h : I s)
    (hK : ∀ k e, events[k]? = some e → K ((events.take k).foldl step s) e) (k : ℕ) :
    I ((events.take k).foldl step s) := by
  induction events generalizing s k with
  | nil =>
    rw [List.take_nil]
    exact h
  | cons e events ih =>
    cases k with
    | zero => exact h
    | succ k => exact ih (hkeep s e h (hK 0 e rfl)) (fun k e' => hK (k+1) e') k

lemma foldl_take_succ {k : ℕ} {e : ε} (h : events[k]? = some e) :
    (events.take (k+1)).foldl step s = step ((events.take k).foldl step s) e := by
  rw [List.take_add_one,h,Option.toList_some,List.foldl_append,List.foldl_cons,List.foldl_nil]

/-- If an event breaks `P` just when it does not meet `K`, then `P` holds in every state of a run
just when every event of the run meets `K`. -/
lemma forall_take_iff (hIP : ∀ s, I s → P s) (hkeep : ∀ s e, I s → K s e → I (step s e))
    (hbreak : ∀ s e, I s → P (step s e) → K s e) (h : I s) (events : List ε) :
    (∀ k, P ((events.take k).foldl step s)) ↔
      ∀ k e, events[k]? = some e → K ((events.take k).foldl step s) e := by
  induction events generalizing s with
  | nil =>
    refine iff_of_true (fun k => ?_) fun k e he => ?_
    · rw [List.take_nil]
      exact hIP s h
    · cases he
  | cons e events ih =>
    constructor
    · intro hP
      have hK : K s e := hbreak s e h (hP 1)
      have hrest := (ih (hkeep s e h hK)).mp fun k => hP (k+1)
      intro k e' he'
      cases k with
      | zero =>
        cases he'
        exact hK
      | succ k => exact hrest k e' he'
    · intro hK
      have hK0 : K s e := hK 0 e rfl
      have hrest := (ih (hkeep s e h hK0)).mpr fun k e' => hK (k+1) e'
      intro k
      cases k with
      | zero => exact hIP s h
      | succ k => exact hrest k

end Runs
