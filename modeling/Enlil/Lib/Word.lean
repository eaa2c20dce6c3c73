import Mathlib.Data.Nat.Bitwise
import Mathlib.Tactic.Ring

/-!
# Fixed-width unsigned arithmetic over `ℕ`

Machine words are natural numbers and every operation that can leave the word range says so: the
plain operators wrap modulo `2 ^ 64`, the checked ones return `none`.
-/

namespace Word
open Nat
section
variable (a b : ℕ)

def add64 : ℕ := (a+b)%2^64

def sub64 : ℕ := (a+(2^64-b%2^64))%2^64

def mul64 : ℕ := a*b%2^64

/-- Checked 64-bit addition: `none` when the sum leaves the word range. -/
def checkedAdd64 : Option ℕ := if a+b < 2^64 then some (a+b) else none

def checkedMul64 : Option ℕ := if a*b < 2^64 then some (a*b) else none

def divCeil : ℕ := if a%b = 0 then a/b else a/b+1

end

def not64 (a : ℕ) : ℕ := 2^64-(a+1)

/-- `(a + align - 1) & !(align - 1)`, with the wrapping sum the machine computes. -/
def alignUp64 (a align : ℕ) : ℕ := add64 a (align-1) &&& not64 (align-1)

variable {a b : ℕ}

lemma add64_of_lt (h : a+b < 2^64) : add64 a b = a+b :=
  mod_eq_of_lt h

lemma add64_lt (a b : ℕ) : add64 a b < 2^64 := mod_lt _ (by decide)

lemma add64_le (a b : ℕ) : add64 a b ≤ a+b := mod_le _ _

variable {a b c m f k x s : ℕ}

lemma sub64_one_succ_le (h : a ≠ 0) : sub64 a 1+1 ≤ a := by
  have hsub : sub64 a 1 = (a-1)%2^64 := by
    rw [sub64,show a+(2^64-1%2^64) = 2^64+(a-1) by omega,add_mod_left]
  have := mod_le (a-1) (2^64)
  omega

lemma sub64_of_le (h : b ≤ a) (ha : a < 2^64) : sub64 a b = a-b := by
  rw [sub64,mod_eq_of_lt (by omega : b < 2^64),
    show a+(2^64-b) = 2^64+(a-b) by omega,add_mod_left,
    mod_eq_of_lt (by omega)]

lemma mul64_of_lt (h : a*b < 2^64) : mul64 a b = a*b :=
  mod_eq_of_lt h

lemma add64_assoc (a b c : ℕ) : add64 (add64 a b) c = add64 a (b+c) := by
  rw [add64,add64,add64,mod_add_mod,add_assoc]

lemma checkedAdd64_of_lt (h : a+b < 2^64) : checkedAdd64 a b = some (a+b) := if_pos h

lemma checkedAdd64_of_ge (h : 2^64 ≤ a+b) : checkedAdd64 a b = none := if_neg (Nat.not_lt.mpr h)

lemma checkedAdd64_eq_some :
    checkedAdd64 a b = some c ↔ a+b < 2^64 ∧ c = a+b := by
  by_cases h : a+b < 2^64
  · rw [checkedAdd64_of_lt h,Option.some.injEq]
    exact ⟨fun hc => ⟨h,hc.symm⟩,fun hc => hc.2.symm⟩
  · rw [checkedAdd64_of_ge (Nat.not_lt.mp h)]
    exact ⟨fun hc => (nomatch hc),fun hc => absurd hc.1 h⟩

lemma checkedMul64_eq_some :
    checkedMul64 a b = some c ↔ a*b < 2^64 ∧ c = a*b := by
  by_cases h : a*b < 2^64
  · rw [checkedMul64,if_pos h,Option.some.injEq]
    exact ⟨fun hc => ⟨h,hc.symm⟩,fun hc => hc.2.symm⟩
  · rw [checkedMul64,if_neg h]
    exact ⟨fun hc => (nomatch hc),fun hc => absurd hc.1 h⟩

lemma divCeil_mul_ge (a : ℕ) (hb : 0 < b) : a ≤ divCeil a b*b := by
  have hdm := div_add_mod a b
  have hlt := mod_lt a hb
  rw [mul_comm] at hdm
  rw [divCeil]
  split
  · omega
  · rw [add_mul]
    omega

lemma divCeil_le_iff (a d : ℕ) (hb : 0 < b) : divCeil a b ≤ d ↔ a ≤ d*b := by
  have hge := divCeil_mul_ge a hb
  constructor
  · exact fun h => hge.trans (Nat.mul_le_mul_right b h)
  · intro h
    rw [divCeil]
    split
    · exact Nat.div_le_of_le_mul (mul_comm d b ▸ h)
    · refine succ_le_of_lt ((Nat.div_lt_iff_lt_mul hb).mpr (Nat.lt_of_le_of_ne h ?_))
      rintro rfl
      exact absurd (mul_mod_left d b) ‹_›

lemma divCeil_mul_lt (a : ℕ) (hb : 0 < b) : divCeil a b*b < a+b := by
  have hdm := div_add_mod a b
  rw [mul_comm] at hdm
  rw [divCeil]
  split
  · omega
  · rw [add_mul]
    omega

lemma divCeil_sub_one_mul_lt (hb : 0 < b) (ha : 0 < a) :
    (divCeil a b-1)*b < a := by
  have hdm := div_add_mod a b
  rw [mul_comm] at hdm
  rw [divCeil]
  split
  · rw [Nat.sub_mul,one_mul]
    omega
  · rw [Nat.add_sub_cancel]
    omega

lemma and_or_and_self (h : f &&& m = 0) : (a &&& m ||| f) &&& m = a &&& m := by
  rw [Nat.and_or_distrib_right,h,Nat.or_zero,Nat.and_assoc,Nat.and_self]

lemma and_or_and_of_disjoint (h : m &&& k = 0) :
    (a &&& m ||| f) &&& k = f &&& k := by
  rw [Nat.and_or_distrib_right,Nat.and_assoc,h,Nat.and_zero,Nat.zero_or]

lemma add64_and (h : m < 2^64) : add64 a b &&& m = (a+b) &&& m := by
  rw [add64,← and_two_pow_sub_one_eq_mod,Nat.and_assoc,Nat.and_comm (2^64-1),
    and_two_pow_sub_one_eq_mod,mod_eq_of_lt h]

lemma shiftRight_and_mask (x n k : ℕ) : (x >>> n) &&& (2^k-1) = x/2^n%2^k := by
  rw [shiftRight_eq_div_pow,and_two_pow_sub_one_eq_mod]

lemma and_shifted_mask (x k n : ℕ) :
    x &&& ((2^k-1)*2^n) = x/2^n%2^k*2^n := by
  apply eq_of_testBit_eq
  intro i
  rw [testBit_and,testBit_mul_two_pow,testBit_mul_two_pow,
    testBit_two_pow_sub_one,testBit_mod_two_pow,testBit_div_two_pow]
  by_cases hi : n ≤ i
  · rw [Nat.sub_add_cancel hi]
    simp only [hi,decide_true,Bool.true_and]
    exact Bool.and_comm _ _
  · simp [hi]

lemma and_not64_low (hx : x < 2^64) (hk : k ≤ 64) :
    x &&& not64 (2^k-1) = x/2^k*2^k := by
  have hpow : 2^k ≤ 2^64 := Nat.pow_le_pow_right (by omega) hk
  have hpos : 0 < 2^k := Nat.two_pow_pos k
  apply eq_of_testBit_eq
  intro i
  rw [testBit_and,not64,testBit_two_pow_sub_succ (by omega),
    testBit_two_pow_sub_one,testBit_mul_two_pow,testBit_div_two_pow]
  by_cases hi : k ≤ i
  · rw [Nat.sub_add_cancel hi]
    by_cases h64 : i < 64
    · simp [hi,h64]
    · have hz : x.testBit i = false :=
        testBit_lt_two_pow (lt_of_lt_of_le hx (Nat.pow_le_pow_right (by omega) (by omega)))
      simp [hz]
  · have hlt : i < k := Nat.lt_of_not_ge hi
    simp [hlt,hi]

lemma alignUp64_eq (hk : k ≤ 64) (h : a+(2^k-1) < 2^64) :
    alignUp64 a (2^k) = (a+(2^k-1))/2^k*2^k := by
  rw [alignUp64,add64_of_lt h,and_not64_low h hk]

lemma dvd_alignUp64 (hk : k ≤ 64) : 2^k ∣ alignUp64 a (2^k) := by
  rw [alignUp64,and_not64_low (add64_lt _ _) hk]
  exact Dvd.intro_left _ rfl

lemma le_alignUp64 (hk : k ≤ 64) (h : a+(2^k-1) < 2^64) :
    a ≤ alignUp64 a (2^k) := by
  rw [alignUp64_eq hk h]
  have hpos : 0 < 2^k := Nat.two_pow_pos k
  have hlt := lt_div_mul_add (a := a+(2^k-1)) hpos
  omega

lemma alignUp64_le (hk : k ≤ 64) (h : a+(2^k-1) < 2^64)
    (hs : 2^k ∣ s) (has : a ≤ s) : alignUp64 a (2^k) ≤ s := by
  rw [alignUp64_eq hk h]
  obtain ⟨q,rfl⟩ := hs
  have hpos : 0 < 2^k := Nat.two_pow_pos k
  rw [mul_comm (2^k) q]
  apply Nat.mul_le_mul_right
  rw [div_le_iff_le_mul_add_pred hpos]
  omega

end Word
