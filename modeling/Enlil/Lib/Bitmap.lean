import Enlil.Lib.Word
import Mathlib.Data.List.Count
import Mathlib.Data.List.Induction
import Mathlib.Algebra.BigOperators.Group.List.Basic

/-!
# Packed bitmaps

A bitmap is a list of 64-bit words; bit `i` is bit `i % 64` of word `i / 64`.
-/

namespace Bitmap
open Word List Nat
variable {words : List ℕ} {i j w : ℕ}

def bit (words : List ℕ) (i : ℕ) : Bool := (words.getD (i/64) 0).testBit (i%64)

def countOnes (w : ℕ) : ℕ := (List.range 64).countP w.testBit

def trailingZeros (w : ℕ) : ℕ := (List.range 64).findIdx w.testBit

variable {k b : ℕ}

lemma testBit_not64 (hw : w < 2^64) (hk : k < 64) :
    (not64 w).testBit k = !w.testBit k := by
  rw [not64,testBit_two_pow_sub_succ hw,decide_eq_true hk,Bool.true_and]

lemma testBit_of_lt_trailingZeros (h : k < trailingZeros w) : w.testBit k = false := by
  rw [trailingZeros] at h
  have hbit := not_of_lt_findIdx h
  rw [getElem_range] at hbit
  simpa using hbit

lemma testBit_trailingZeros (h : trailingZeros w < 64) : w.testBit (trailingZeros w) = true := by
  have hlen : (List.range 64).findIdx w.testBit < (List.range 64).length := by
    rw [length_range]
    exact h
  have hfound := findIdx_getElem (w := hlen)
  rw [getElem_range] at hfound
  exact hfound

lemma trailingZeros_not64 (hw : w < 2^64) (hne : w ≠ 2^64-1) :
    trailingZeros (not64 w) < 64 ∧ w.testBit (trailingZeros (not64 w)) = false ∧
      ∀ k < trailingZeros (not64 w), w.testBit k = true := by
  have hones : ∀ k < trailingZeros (not64 w), k < 64 → w.testBit k = true := by
    intro k hk hk64
    have hbit := testBit_of_lt_trailingZeros hk
    rw [testBit_not64 hw hk64] at hbit
    simpa using hbit
  have hlt : trailingZeros (not64 w) < 64 := by
    by_contra hge
    refine hne (eq_of_testBit_eq fun k => ?_)
    rw [testBit_two_pow_sub_one]
    by_cases hk : k < 64
    · rw [hones k (by omega) hk,decide_eq_true hk]
    · rw [decide_eq_false hk,
        testBit_lt_two_pow (hw.trans_le (Nat.pow_le_pow_right (by decide) (by omega)))]
  refine ⟨hlt,?_,fun k hk => hones k hk (by omega)⟩
  have hbit := testBit_trailingZeros hlt
  rw [testBit_not64 hw hlt] at hbit
  simpa using hbit

lemma and_one_shiftLeft_eq_zero : w &&& (1 <<< b) = 0 ↔ w.testBit b = false := by
  rw [one_shiftLeft,and_two_pow]
  cases w.testBit b <;> simp

lemma testBit_set_mask :
    (w ||| 1 <<< b).testBit k = (w.testBit k || decide (b = k)) := by
  rw [testBit_or,one_shiftLeft,testBit_two_pow]

lemma testBit_clear_mask (hk : k < 64) (hb : b < 64) :
    (w &&& not64 (1 <<< b)).testBit k = (w.testBit k && !decide (b = k)) := by
  have hlt : (2 : ℕ)^b < 2^64 := Nat.pow_lt_pow_right (by decide) hb
  rw [testBit_and,not64,one_shiftLeft,testBit_two_pow_sub_succ hlt,
    testBit_two_pow]
  simp [hk]

lemma getD_set (hj : j < words.length) :
    (words.set j w).getD k 0 = if k = j then w else words.getD k 0 := by
  by_cases h : k = j
  · subst h
    simp [hj]
  · simp [h,Ne.symm h]

lemma div_mod_inj : j/64 = i/64 ∧ i%64 = j%64 ↔ j = i := by omega

lemma bit_set (h : i/64 < words.length) :
    bit (words.set (i/64) (words.getD (i/64) 0 ||| 1 <<< (i%64))) j =
      (bit words j || decide (j = i)) := by
  rw [bit,getD_set h,bit]
  by_cases hw : j/64 = i/64
  · rw [if_pos hw,testBit_set_mask,hw]
    congr 2
    exact propext ⟨fun hm => div_mod_inj.mp ⟨hw,hm⟩,fun hm => (div_mod_inj.mpr hm).2⟩
  · have hne : j ≠ i := fun hji => hw (div_mod_inj.mpr hji).1
    rw [if_neg hw,decide_eq_false hne,Bool.or_false]

lemma bit_clear (h : i/64 < words.length) :
    bit (words.set (i/64) (words.getD (i/64) 0 &&& not64 (1 <<< (i%64)))) j =
      (bit words j && !decide (j = i)) := by
  rw [bit,getD_set h,bit]
  by_cases hw : j/64 = i/64
  · rw [if_pos hw,testBit_clear_mask (by omega) (by omega),hw]
    congr 3
    exact propext ⟨fun hm => div_mod_inj.mp ⟨hw,hm⟩,fun hm => (div_mod_inj.mpr hm).2⟩
  · have hne : j ≠ i := fun hji => hw (div_mod_inj.mpr hji).1
    rw [if_neg hw,decide_eq_false hne,Bool.not_false,Bool.and_true]

lemma bit_replicate_zero (n i : ℕ) : bit (replicate n 0) i = false := by
  have hzero : (replicate n 0).getD (i/64) 0 = 0 := by
    by_cases h : i/64 < n <;> simp [h]
  rw [bit,hzero,zero_testBit]

lemma sum_countOnes (words : List ℕ) :
    (words.map countOnes).sum = (List.range (64*words.length)).countP (bit words) := by
  induction words using List.reverseRecOn with
  | nil => rfl
  | append_singleton words w ih =>
    have hinit : (List.range (64*words.length)).countP (bit (words ++ [w])) =
        (List.range (64*words.length)).countP (bit words) := by
      refine countP_congr fun i hi => ?_
      have hlt : i/64 < words.length := by
        rw [mem_range] at hi
        omega
      rw [bit,bit,getD_append _ _ _ _ hlt]
    have hlast : (List.range 64).countP (bit (words ++ [w]) ∘ (64*words.length+·)) =
        countOnes w := by
      refine countP_congr fun i hi => ?_
      have hlt : i < 64 := mem_range.mp hi
      have hdiv : (64*words.length+i)/64 = words.length := by omega
      have hmod : (64*words.length+i)%64 = i := by omega
      rw [Function.comp_apply,bit,hdiv,hmod]
      simp
    rw [map_append,List.sum_append,ih,length_append,length_singleton,
      Nat.mul_add,Nat.mul_one,range_add,countP_append,countP_map,hinit,hlast]
    simp

end Bitmap
