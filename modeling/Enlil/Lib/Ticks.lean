import Mathlib.Data.Nat.ModEq

/-!
# Converting time to ticks in several steps

A duration is turned into ticks by a division. If each of several steps rounds on its own, what is
missing at the end is what the remainders would have made up together.
-/

namespace Ticks

lemma mul_sum_div_add_sum_mod (d : ℕ) (xs : List ℕ) :
    d*(xs.map (·/d)).sum+(xs.map (·%d)).sum = xs.sum := by
  induction xs with
  | nil => simp
  | cons x xs ih =>
    have hx := Nat.div_add_mod x d
    simp only [List.map_cons,List.sum_cons,Nat.mul_add]
    omega

variable {d w : ℕ}

lemma sum_div_add_sum_mod (hd : 0 < d) (xs : List ℕ) :
    (xs.map (·/d)).sum+(xs.map (·%d)).sum/d = xs.sum/d := by
  rw [← mul_sum_div_add_sum_mod d xs,Nat.mul_add_div hd]

lemma div_add_carry_div (hd : 0 < d) (a b : ℕ) :
    a/d+(a%d+b)/d = (a+b)/d := by
  conv_rhs => rw [← Nat.div_add_mod a d,add_assoc,Nat.mul_add_div hd]

lemma counter_eq_iff (c : BitVec w) (a b : ℕ) :
    c+BitVec.ofNat w a = c+BitVec.ofNat w (a+b) ↔ b%2^w = 0 := by
  rw [BitVec.add_right_inj,← BitVec.toNat_inj,BitVec.toNat_ofNat,BitVec.toNat_ofNat]
  constructor
  · intro h
    have hb : 0 ≡ b [MOD 2^w] := Nat.ModEq.add_left_cancel' a h
    rw [← hb,Nat.zero_mod]
  · intro h
    rw [Nat.add_mod,h,add_zero,Nat.mod_mod]

end Ticks
