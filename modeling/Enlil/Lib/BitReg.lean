import Mathlib.Algebra.Group.Nat.Defs
import Mathlib.Data.Nat.Init
import Mathlib.Tactic.Common

/-!
# Registers of flag bits

A register is a bit vector read bit by bit. The lowest set bit is the arbitration rule of a
priority encoder.
-/

namespace BitReg
open List BitVec
variable {w : ℕ} {x : BitVec w} {i : ℕ}

def trailingZeros (x : BitVec w) : ℕ := ((List.range w).find? x.getLsbD).getD w

lemma eq_zero_iff : x = 0#w ↔ ∀ i < w, x.getLsbD i = false := by
  constructor
  · rintro rfl i -
    exact getLsbD_zero
  · intro h
    refine eq_of_getLsbD_eq fun i hi => ?_
    rw [h i hi,getLsbD_zero]

lemma trailingZeros_spec (h : x ≠ 0#w) : trailingZeros x < w ∧ x.getLsbD (trailingZeros x) = true ∧
      ∀ j < trailingZeros x, x.getLsbD j = false := by
  cases hfind : (List.range w).find? x.getLsbD with
  | none =>
    refine absurd (eq_zero_iff.mpr fun i hi => ?_) h
    simpa using find?_range_eq_none.mp hfind i hi
  | some i =>
    obtain ⟨hi,hlt,hlow⟩ := find?_range_eq_some.mp hfind
    have heq : trailingZeros x = i := by rw [trailingZeros,hfind,Option.getD_some]
    rw [heq]
    exact ⟨mem_range.mp hlt,hi,fun j hj => by simpa using hlow j hj⟩

lemma trailingZeros_le (h : x.getLsbD i = true) : trailingZeros x ≤ i := by
  have hne : x ≠ 0#w := by
    rintro rfl
    rw [getLsbD_zero] at h
    cases h
  by_contra hlt
  rw [(trailingZeros_spec hne).2.2 i (Nat.not_le.mp hlt)] at h
  cases h

lemma and_twoPow_ne_zero (x : BitVec w) (hi : i < w) :
    x &&& twoPow w i ≠ 0 ↔ x.getLsbD i = true := by
  rw [ne_eq]
  constructor
  · intro h
    by_contra hbit
    refine h (eq_zero_iff.mpr fun j _ => ?_)
    rw [getLsbD_and,getLsbD_twoPow]
    by_cases hj : i = j
    · rw [← hj,Bool.eq_false_iff.mpr hbit,Bool.false_and]
    · rw [decide_eq_false hj,Bool.and_false,Bool.and_false]
  · intro hbit hzero
    have h := eq_zero_iff.mp hzero i hi
    rw [getLsbD_and,getLsbD_twoPow,hbit,decide_eq_true hi,decide_eq_true rfl] at h
    cases h

lemma getLsbD_or_twoPow (x : BitVec w) (j : ℕ) (hi : i < w) :
    (x ||| twoPow w i).getLsbD j = (x.getLsbD j || decide (i = j)) := by
  rw [getLsbD_or,getLsbD_twoPow,decide_eq_true hi,Bool.true_and]

lemma getLsbD_clear_twoPow (x : BitVec w) (j : ℕ) (hi : i < w) :
    (x &&& ~~~twoPow w i).getLsbD j = (x.getLsbD j && decide (i ≠ j)) := by
  by_cases hj : j < w
  · rw [getLsbD_and,getLsbD_not,getLsbD_twoPow,decide_eq_true hi,
      decide_eq_true hj,Bool.true_and,Bool.true_and,decide_not]
  · rw [getLsbD_of_ge _ _ (Nat.not_lt.mp hj),getLsbD_of_ge _ _ (Nat.not_lt.mp hj),Bool.false_and]

def highest? (x : BitVec w) : Option ℕ := (List.range w).reverse.find? x.getLsbD

lemma highest?_eq_none : highest? x = none ↔ ∀ i < w, x.getLsbD i = false := by
  simp [highest?]

lemma highest?_eq_some :
    highest? x = some i ↔ x.getLsbD i = true ∧ ∀ j, i < j → x.getLsbD j = false := by
  rw [highest?,find?_eq_some_iff_getElem]
  refine and_congr_right fun hi => ?_
  have hw : i < w := by
    by_contra hge
    rw [getLsbD_of_ge x i (Nat.not_lt.mp hge)] at hi
    cases hi
  constructor
  · rintro ⟨k,hk,hik,hlow⟩ j hj
    by_cases hjw : j < w
    · have hlow := hlow (w-1-j) (by simp at hk hik; omega)
      simp only [List.getElem_reverse,getElem_range,length_range] at hlow
      rw [Nat.sub_sub_self (Nat.le_sub_one_of_lt hjw)] at hlow
      simpa using hlow
    · exact getLsbD_of_ge x j (Nat.not_lt.mp hjw)
  · intro hlow
    refine ⟨w-1-i,by simp; omega,by simp; omega,fun j hj => ?_⟩
    simp only [List.getElem_reverse,getElem_range,length_range]
    rw [hlow _ (by omega)]
    rfl

end BitReg
