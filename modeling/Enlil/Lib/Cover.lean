import Mathlib.Data.List.Pairwise
import Mathlib.Data.List.Count

/-!
# Counting how often a point is covered

A list of things, each of which covers some points. The things are pairwise disjoint exactly
if no point is covered twice.
-/

namespace Cover
open List
variable {α β : Type}

lemma countP_le_one_of_pairwise {p : α → Bool} {l : List α}
    (h : l.Pairwise fun x y => ¬ (p x = true ∧ p y = true)) : l.countP p ≤ 1 := by
  induction l with
  | nil => exact Nat.zero_le 1
  | cons x l ih =>
    obtain ⟨hx,hl⟩ := pairwise_cons.mp h
    rw [countP_cons]
    split_ifs with hpx
    · have hzero : l.countP p = 0 := countP_eq_zero.mpr fun y hy hpy => hx y hy ⟨hpx,hpy⟩
      omega
    · exact ih hl

lemma pairwise_disjoint_iff (covers : β → α → Bool) (l : List α) :
    (l.Pairwise fun x y => ∀ b, ¬ (covers b x = true ∧ covers b y = true)) ↔
      ∀ b, l.countP (covers b) ≤ 1 := by
  constructor
  · intro h b
    exact countP_le_one_of_pairwise (h.imp fun hxy => hxy b)
  · intro h
    induction l with
    | nil => exact List.Pairwise.nil
    | cons x l ih =>
      refine pairwise_cons.mpr ⟨?_,ih fun b => ?_⟩
      · rintro y hy b ⟨hx,hyb⟩
        have hpos : 0 < l.countP (covers b) := countP_pos_iff.mpr ⟨y,hy,hyb⟩
        have hle := h b
        rw [countP_cons,if_pos hx] at hle
        omega
      · have hle := h b
        rw [countP_cons] at hle
        omega

end Cover
