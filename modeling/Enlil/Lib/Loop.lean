import Mathlib.Order.Basic
import Mathlib.Tactic.Common

/-!
# `while let` loops with fuel

A loop whose body either stops (`none`) or yields the next state is run with explicit fuel; the
result is `none` exactly when the fuel ran out first.
-/

namespace Loop
variable {σ : Type*}

def run (body : σ → Option σ) : ℕ → σ → Option σ
  | 0, _ => none
  | fuel+1, s =>
    match body s with
    | none => some s
    | some s' => run body fuel s'

variable {body : σ → Option σ} {P : σ → Prop}

/-- Invariant rule: whatever the body preserves holds when the loop has exited, and
the body has no further step there. -/
lemma run_invariant (hstep : ∀ s s', P s → body s = some s' → P s')
    {fuel : ℕ} {s t : σ} (hs : P s) (hrun : run body fuel s = some t) :
    P t ∧ body t = none := by
  induction fuel generalizing s with
  | zero => cases hrun
  | succ fuel ih =>
    simp only [run] at hrun
    split at hrun
    · rename_i hnone
      cases hrun
      exact ⟨hs,hnone⟩
    · rename_i s' hsome
      exact ih (hstep s s' hs hsome) hrun

/-- Termination rule: a measure that every step from an invariant state decreases
bounds the number of iterations. -/
lemma run_terminates (μ : σ → ℕ)
    (hstep : ∀ s s', P s → body s = some s' → P s' ∧ μ s' < μ s)
    {fuel : ℕ} {s : σ} (hs : P s) (hfuel : μ s < fuel) : ∃ t, run body fuel s = some t := by
  induction fuel generalizing s with
  | zero => omega
  | succ fuel ih =>
    simp only [run]
    cases hb : body s with
    | none => exact ⟨s,rfl⟩
    | some s' =>
      obtain ⟨hs',hlt⟩ := hstep s s' hs hb
      exact ih hs' (by omega)

/-- Repeat `body` while it says to go on, at most `n` times. -/
def rounds (body : σ → Bool × σ) : ℕ → σ → σ
  | 0, s => s
  | n+1, s => if (body s).1 then rounds body n (body s).2 else (body s).2

section Rounds
variable {body : σ → Bool × σ} {n : ℕ}

lemma rounds_invariant {P : σ → Prop} (hstep : ∀ s, P s → P (body s).2) {s : σ} (hs : P s) :
    P (rounds body n s) := by
  induction n generalizing s with
  | zero => exact hs
  | succ n ih =>
    rw [rounds]
    split
    · exact ih (hstep s hs)
    · exact hstep s hs

lemma rounds_le (f : σ → ℕ) {k : ℕ} (hstep : ∀ s, f (body s).2 ≤ f s+k) (s : σ) :
    f (rounds body n s) ≤ f s+n*k := by
  induction n generalizing s with
  | zero => exact Nat.le_add_right _ _
  | succ n ih =>
    have h := hstep s
    have hrest := ih (body s).2
    rw [rounds,Nat.succ_mul]
    split <;> omega

/-- A loop given as many rounds as its measure is not cut off: it unrolls as a loop without a
bound does. -/
lemma rounds_eq (μ : σ → ℕ) (hdec : ∀ s, (body s).1 = true → μ (body s).2 < μ s)
    (hstop : ∀ s, μ s = 0 → body s = (false,s)) (s : σ) :
    rounds body (μ s) s =
      if (body s).1 then rounds body (μ (body s).2) (body s).2 else (body s).2 := by
  -- more rounds than the measure change nothing
  have hmore : ∀ n m s, μ s ≤ n → μ s ≤ m → rounds body n s = rounds body m s := by
    intro n
    induction n with
    | zero =>
      intro m s hn hm
      cases m with
      | zero => rfl
      | succ m => simp [rounds,hstop s (Nat.le_zero.mp hn)]
    | succ n ih =>
      intro m s hn hm
      cases m with
      | zero => simp [rounds,hstop s (Nat.le_zero.mp hm)]
      | succ m =>
        rw [rounds,rounds]
        split
        · rename_i hgo
          have := hdec s hgo
          exact ih m _ (by omega) (by omega)
        · rfl
  rw [hmore (μ s) (μ s+1) s (Nat.le_refl _) (Nat.le_succ _),rounds]
  split
  · rename_i hgo
    exact hmore _ _ _ (Nat.le_of_lt (hdec s hgo)) (Nat.le_refl _)
  · rfl

end Rounds
end Loop
