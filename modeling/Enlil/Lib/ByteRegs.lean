import Mathlib.Algebra.Group.Nat.Defs
import Mathlib.Tactic.Common

/-!
# Files of byte registers

A file of `size` bytes that is read and written in little-endian words of one, two or four bytes.
-/

namespace ByteRegs
open Function BitVec

/-- The bytes of a file. Those from its size on are never read. -/
abbrev Bytes := ℕ → BitVec 8

variable (size : ℕ) (f : Bytes) (o : ℕ)

def read8 : BitVec 8 := if o < size then f o else 0xFF

def read16 : BitVec 16 := if o+1 < size then f (o+1) ++ f o else 0xFFFF

def read32 : BitVec 32 :=
  if o+3 < size then f (o+3) ++ f (o+2) ++ f (o+1) ++ f o else 0xFFFFFFFF

def write8 (v : BitVec 8) : Bytes := if o < size then update f o v else f

def write16 (v : BitVec 16) : Bytes :=
  if o+1 < size then
    update (update f o (v.extractLsb' 0 8)) (o+1) (v.extractLsb' 8 8)
  else f

def write32 (v : BitVec 32) : Bytes :=
  if o+3 < size then
    update (update (update (update f o (v.extractLsb' 0 8))
      (o+1) (v.extractLsb' 8 8)) (o+2) (v.extractLsb' 16 8)) (o+3) (v.extractLsb' 24 8)
  else f

variable {size f o} {i : ℕ}

lemma write8_of_ne {v : BitVec 8} (h : i ≠ o) : write8 size f o v i = f i := by
  rw [write8]
  split
  · exact update_of_ne h _ _
  · rfl

lemma write16_of_lt {v : BitVec 16} (h : i < o ∨ o+2 ≤ i) : write16 size f o v i = f i := by
  rw [write16]
  split
  · rw [update_of_ne (by omega),update_of_ne (by omega)]
  · rfl

lemma write32_of_lt {v : BitVec 32} (h : i < o ∨ o+4 ≤ i) : write32 size f o v i = f i := by
  rw [write32]
  split
  · rw [update_of_ne (by omega),update_of_ne (by omega),
      update_of_ne (by omega),update_of_ne (by omega)]
  · rfl

lemma append_extract16 (v : BitVec 16) : v.extractLsb' 8 8 ++ v.extractLsb' 0 8 = v := by
  ext j hj
  rw [BitVec.getElem_append]
  split
  · rw [getElem_extractLsb',zero_add,getLsbD_eq_getElem]
  · rw [getElem_extractLsb',Nat.add_sub_cancel' (by omega),getLsbD_eq_getElem]

lemma append_extract32 (v : BitVec 32) :
    v.extractLsb' 24 8 ++ v.extractLsb' 16 8 ++ v.extractLsb' 8 8 ++ v.extractLsb' 0 8 = v := by
  ext j hj
  simp only [BitVec.getElem_append,getElem_extractLsb']
  split_ifs
  · rw [zero_add,getLsbD_eq_getElem]
  · rw [Nat.add_sub_cancel' (by omega),getLsbD_eq_getElem]
  · rw [show 16+(j-8-8) = j by omega,getLsbD_eq_getElem]
  · rw [show 24+(j-8-8-8) = j by omega,getLsbD_eq_getElem]

lemma read16_write16 (h : o+1 < size) (v : BitVec 16) :
    read16 size (write16 size f o v) o = v := by
  rw [read16,if_pos h,write16,if_pos h,update_self,
    update_of_ne (Nat.ne_of_lt (Nat.lt_succ_self o)),update_self]
  exact append_extract16 v

lemma read32_write32 (h : o+3 < size) (v : BitVec 32) :
    read32 size (write32 size f o v) o = v := by
  have h0 : write32 size f o v o = v.extractLsb' 0 8 := by
    rw [write32,if_pos h,update_of_ne (by omega),update_of_ne (by omega),
      update_of_ne (by omega),update_self]
  have h1 : write32 size f o v (o+1) = v.extractLsb' 8 8 := by
    rw [write32,if_pos h,update_of_ne (by omega),update_of_ne (by omega),
      update_self]
  have h2 : write32 size f o v (o+2) = v.extractLsb' 16 8 := by
    rw [write32,if_pos h,update_of_ne (by omega),update_self]
  have h3 : write32 size f o v (o+3) = v.extractLsb' 24 8 := by
    rw [write32,if_pos h,update_self]
  rw [read32,if_pos h,h0,h1,h2,h3]
  exact append_extract32 v

variable {g : Bytes}

lemma read8_congr (h : f o = g o) : read8 size f o = read8 size g o := by rw [read8,read8,h]

lemma read16_congr (h : ∀ i, o ≤ i → i < o+2 → f i = g i) :
    read16 size f o = read16 size g o := by
  rw [read16,read16,h o (by omega) (by omega),h (o+1) (by omega) (by omega)]

lemma read32_congr (h : ∀ i, o ≤ i → i < o+4 → f i = g i) :
    read32 size f o = read32 size g o := by
  rw [read32,read32,h o (by omega) (by omega),h (o+1) (by omega) (by omega),
    h (o+2) (by omega) (by omega),h (o+3) (by omega) (by omega)]

/-- The bits of `m` are new and the others are old. -/
def keep {w : ℕ} (m old new : BitVec w) : BitVec w := (new &&& m) ||| (old &&& ~~~m)

variable {w : ℕ}

lemma keep_and_not (m old new : BitVec w) : keep m old new &&& ~~~m = old &&& ~~~m := by
  ext i hi
  simp only [keep,getElem_and,getElem_or,getElem_not]
  cases m[i] <;> simp

lemma keep_self (m old : BitVec w) : keep m old old = old := by
  ext i hi
  simp only [keep,getElem_and,getElem_or,getElem_not]
  cases m[i] <;> simp

lemma keep_zero (old new : BitVec w) : keep 0 old new = old := by
  ext i hi
  simp [keep]

lemma extract_keep (m old new : BitVec w) (start len : ℕ) (h : start+len ≤ w) :
    (keep m old new).extractLsb' start len =
      keep (m.extractLsb' start len) (old.extractLsb' start len) (new.extractLsb' start len) := by
  ext i hi
  have hw : start+i < w := by omega
  simp only [keep,getElem_extractLsb',getElem_and,getElem_or,
    getElem_not,getLsbD_and,getLsbD_or,getLsbD_not,hw,
    decide_true,Bool.true_and]

/-- Of the word at `o`, let the bits outside `m` be again what they were in `f`. -/
def restore16 (size : ℕ) (f g : Bytes) (o : ℕ) (m : BitVec 16) : Bytes :=
  write16 size g o (keep m (read16 size f o) (read16 size g o))

lemma extract_append (a b : BitVec 8) :
    (a ++ b).extractLsb' 0 8 = b ∧ (a ++ b).extractLsb' 8 8 = a := by
  constructor <;>
    · ext j hj
      simp only [getElem_extractLsb',getLsbD_append]
      grind

lemma extract_read16 (h : o+1 < size) :
    (read16 size f o).extractLsb' 0 8 = f o ∧ (read16 size f o).extractLsb' 8 8 = f (o+1) := by
  rw [read16,if_pos h]
  exact extract_append _ _

lemma restore16_apply (m : BitVec 16) (h : g i = f i) : restore16 size f g o m i = f i := by
  by_cases hsize : o+1 < size
  swap
  · rw [restore16,write16,if_neg hsize,h]
  obtain ⟨hf0,hf1⟩ := extract_read16 (f := f) hsize
  obtain ⟨hg0,hg1⟩ := extract_read16 (f := g) hsize
  rw [restore16,write16,if_pos hsize]
  by_cases h1 : i = o+1
  · subst h1
    rw [update_self,extract_keep _ _ _ 8 8 (by omega),hf1,hg1,h,keep_self]
  · rw [update_of_ne h1]
    by_cases h0 : i = o
    · subst h0
      rw [update_self,extract_keep _ _ _ 0 8 (by omega),hf0,hg0,h,keep_self]
    · rw [update_of_ne h0,h]

lemma write32_read32_apply (h : g i = f i) : write32 size g o (read32 size f o) i = f i := by
  by_cases hsize : o+3 < size
  swap
  · rw [write32,if_neg hsize,h]
  have hread : read32 size f o = f (o+3) ++ f (o+2) ++ f (o+1) ++ f o := by
    rw [read32,if_pos hsize]
  have hbyte : ∀ (a b c d : BitVec 8),
      (a ++ b ++ c ++ d).extractLsb' 0 8 = d ∧ (a ++ b ++ c ++ d).extractLsb' 8 8 = c ∧
        (a ++ b ++ c ++ d).extractLsb' 16 8 = b ∧ (a ++ b ++ c ++ d).extractLsb' 24 8 = a := by
    intro a b c d
    refine ⟨?_,?_,?_,?_⟩ <;>
      · ext j hj
        simp only [getElem_extractLsb',getLsbD_append]
        grind
  obtain ⟨h0,h1,h2,h3⟩ := hbyte (f (o+3)) (f (o+2)) (f (o+1)) (f o)
  rw [hread,write32,if_pos hsize,h0,h1,h2,h3]
  simp only [update_apply]
  split_ifs with e3 e2 e1 e0
  · rw [e3]
  · rw [e2]
  · rw [e1]
  · rw [e0]
  · exact h

end ByteRegs
