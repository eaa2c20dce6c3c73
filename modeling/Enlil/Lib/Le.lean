import Mathlib.Algebra.Group.Nat.Defs
import Mathlib.Data.List.Basic

/-! # Little-endian numbers as lists of bytes -/

namespace Le

def toNat : List UInt8 → ℕ
  | [] => 0
  | b :: rest => b.toNat+256*toNat rest

def bytes : ℕ → ℕ → List UInt8
  | 0, _ => []
  | n+1, v => .ofNat v :: bytes n (v/256)

variable (n v : ℕ)

@[simp] lemma length_bytes : (bytes n v).length = n := by
  induction n generalizing v with
  | zero => rfl
  | succ n ih => rw [bytes,List.length_cons,ih]

lemma toNat_lt (l : List UInt8) : toNat l < 2^(8*l.length) := by
  induction l with
  | nil => decide
  | cons b l ih =>
    rw [toNat,List.length_cons,Nat.mul_add,Nat.pow_add]
    have := b.toNat_lt
    omega

lemma toNat_bytes : toNat (bytes n v) = v%256^n := by
  induction n generalizing v with
  | zero => rw [bytes,toNat,Nat.pow_zero,Nat.mod_one]
  | succ n ih =>
    have hbyte : (UInt8.ofNat v).toNat = v%256 := UInt8.toNat_ofNat'
    rw [bytes,toNat,ih,hbyte,Nat.pow_succ',Nat.mod_mul]

end Le
