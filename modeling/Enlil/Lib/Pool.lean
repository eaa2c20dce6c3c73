import Mathlib.Data.List.Perm.Basic

/-!
# Pools of concurrent activities

A pool is a shared state and the activities that are under way, each at some point of its own
program.
-/

structure Pool (σ α : Type) where
  shared : σ
  active : List α

namespace Pool
variable {σ α : Type} {act : σ → α → Option (σ × List α)}
section
variable (act : σ → α → Option (σ × List α)) (p : Pool σ α) (i : ℕ)

/-- Let the activity at an index take its next step. An activity that cannot go on waits. -/
def advance : Pool σ α :=
  match p.active[i]? with
  | none => p
  | some a =>
    match act p.shared a with
    | none => p
    | some (s,next) => ⟨s,next ++ p.active.eraseIdx i⟩

lemma advance_cases :
    p.advance act i = p ∨
      ∃ a rest s next, p.active[i]? = some a ∧ p.active.Perm (a :: rest) ∧
        act p.shared a = some (s,next) ∧ p.advance act i = ⟨s,next ++ rest⟩ := by
  rw [advance]
  split
  next => exact .inl rfl
  next a ha =>
    split
    next => exact .inl rfl
    next s next hact =>
      obtain ⟨hi,rfl⟩ := List.getElem?_eq_some_iff.mp ha
      exact .inr ⟨_,_,s,next,ha,(List.getElem_cons_eraseIdx_perm hi).symm,hact,rfl⟩

end

/-- What does not depend on the order of the activities and is kept by the step of the first is
kept by every step. `G` is what is known of the activity that takes the step. -/
lemma advance_invariant {I : σ → List α → Prop} {G : σ → α → Prop}
    (hperm : ∀ s l l', l.Perm l' → I s l → I s l')
    (hact : ∀ s a rest s' next, I s (a :: rest) → G s a → act s a = some (s',next) →
      I s' (next ++ rest))
    {p : Pool σ α} {i : ℕ} (h : I p.shared p.active)
    (hG : ∀ a, p.active[i]? = some a → G p.shared a) :
    I (p.advance act i).shared (p.advance act i).active := by
  rcases advance_cases act p i with hsame | ⟨a,rest,s,next,ha,hl,hs,hadv⟩
  · rwa [hsame]
  · rw [hadv]
    exact hact p.shared a rest s next (hperm _ _ _ hl h) (hG a ha) hs

end Pool
