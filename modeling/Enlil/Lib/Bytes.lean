import Enlil.Lib.Prog
import Mathlib.Data.List.GetD
import Mathlib.Tactic.Ring

/-!
# Byte buffers with little- and big-endian numbers

A buffer is its length and its bytes. Every mutation is a `splice`, which overwrites one range;
reads depend only on the bytes of their own range, so a splice elsewhere does not change them.
-/

/-- A byte buffer. Bytes at and past `len` are not part of it. -/
@[ext]
structure Buf where
  len : ℕ
  byte : ℕ → UInt8

namespace Buf
open List Nat

/-- Overwrite the `n` bytes from `off` by `f 0, ..., f (n - 1)`. -/
def splice (b : Buf) (off n : ℕ) (f : ℕ → UInt8) : Buf :=
  { b with byte := fun i => if off ≤ i ∧ i < off+n then f (i-off) else b.byte i }

def zero (b : Buf) (off n : ℕ) : Buf := b.splice off n fun _ => 0

def readLE (b : Buf) (off : ℕ) : ℕ → ℕ
  | 0 => 0
  | n+1 => (b.byte off).toNat+256*b.readLE (off+1) n

def writeLE (b : Buf) (off n v : ℕ) : Buf := b.splice off n fun i => .ofNat (v/256^i)

def readBE (b : Buf) (off : ℕ) : ℕ → ℕ
  | 0 => 0
  | n+1 => b.readBE off n*256+(b.byte (off+n)).toNat

def writeBE (b : Buf) (off n v : ℕ) : Buf :=
  b.splice off n fun i => .ofNat (v/256^(n-1-i))

/-- `n` little-endian writes of `w` bytes each, `v k` at `off k`. -/
def writeAllLE (b : Buf) (w : ℕ) (off v : ℕ → ℕ) : ℕ → Buf
  | 0 => b
  | n+1 => (b.writeAllLE w off v n).writeLE (off n) w (v n)

def drop (b : Buf) (base : ℕ) : Buf := ⟨b.len-base,fun i => b.byte (base+i)⟩

/-- The buffer with the part from `base` on replaced by `sub`. -/
def patch (b : Buf) (base : ℕ) (sub : Buf) : Buf :=
  { b with byte := fun i => if i < base then b.byte i else sub.byte (i-base) }

def slice (b : Buf) (off n : ℕ) : List UInt8 := (List.range n).map fun i => b.byte (off+i)

def put (b : Buf) (off : ℕ) (data : List UInt8) : Buf :=
  b.splice off data.length fun i => data.getD i 0

def ofList (data : List UInt8) : Buf := ⟨data.length,fun i => data.getD i 0⟩

def zeros (n : ℕ) : Buf := ⟨n,fun _ => 0⟩

/-- Make the buffer `n` bytes long; a longer one gets zeros at its end. -/
def resize (b : Buf) (n : ℕ) : Buf := ⟨n,fun i => if i < b.len then b.byte i else 0⟩

/-- Overwrite the bytes from `off` on as a file does: a longer file is made, with zeros up to `off`. -/
def store (b : Buf) (off n : ℕ) (f : ℕ → UInt8) : Buf :=
  (b.resize (max b.len (off+n))).splice off n f

variable {b b' : Buf} {off off' n n' i v base : ℕ} {f : ℕ → UInt8} {data : List UInt8}

@[simp] lemma len_splice : (b.splice off n f).len = b.len := rfl
@[simp] lemma len_zero : (b.zero off n).len = b.len := rfl
@[simp] lemma len_writeLE : (b.writeLE off n v).len = b.len := rfl
@[simp] lemma len_writeBE : (b.writeBE off n v).len = b.len := rfl
@[simp] lemma len_drop : (b.drop base).len = b.len-base := rfl
@[simp] lemma len_patch : (b.patch base b').len = b.len := rfl
@[simp] lemma len_put : (b.put off data).len = b.len := rfl
@[simp] lemma length_slice : (b.slice off n).length = n := by simp [slice]

lemma byte_splice_of_mem (h : i < n) : (b.splice off n f).byte (off+i) = f i := by
  show (if off ≤ off+i ∧ off+i < off+n then f (off+i-off) else _) = _
  rw [if_pos ⟨by omega,by omega⟩,Nat.add_sub_cancel_left]

lemma byte_splice_of_not_mem (h : i < off ∨ off+n ≤ i) : (b.splice off n f).byte i = b.byte i :=
  if_neg (by omega)

lemma byte_put_of_mem (h : i < data.length) : (b.put off data).byte (off+i) = data.getD i 0 :=
  byte_splice_of_mem h

lemma byte_put_of_not_mem (h : i < off ∨ off+data.length ≤ i) :
    (b.put off data).byte i = b.byte i :=
  byte_splice_of_not_mem h

@[simp] lemma len_resize : (b.resize n).len = n := rfl
@[simp] lemma len_store : (b.store off n f).len = max b.len (off+n) := rfl

lemma byte_resize_of_lt (h : i < b.len) : (b.resize n).byte i = b.byte i := if_pos h

lemma byte_resize_of_ge (h : b.len ≤ i) : (b.resize n).byte i = 0 := if_neg (by omega)

lemma byte_store_of_mem (h : i < n) : (b.store off n f).byte (off+i) = f i :=
  byte_splice_of_mem h

lemma byte_store_of_not_mem (hlen : i < b.len) (h : i < off ∨ off+n ≤ i) :
    (b.store off n f).byte i = b.byte i :=
  (byte_splice_of_not_mem h).trans (byte_resize_of_lt hlen)

lemma getD_slice (h : i < n) : (b.slice off n).getD i 0 = b.byte (off+i) := by
  simp [slice,getD_eq_getElem?_getD,h]

section
variable (h : ∀ i, off ≤ i → i < off+n → b.byte i = b'.byte i)
include h

lemma slice_congr :
    b.slice off n = b'.slice off n := by
  refine map_congr_left fun i hi => ?_
  have := mem_range.mp hi
  exact h _ (Nat.le_add_right _ _) (by omega)

omit h in
lemma slice_put : (b.put off data).slice off data.length = data := by
  refine ext_getElem length_slice fun i hi hi' => ?_
  simp only [slice,getElem_map,getElem_range]
  rw [byte_put_of_mem hi',getD_eq_getElem _ _ hi']

omit h in
lemma drop_take_slice (h : i+n' ≤ n) :
    ((b.slice off n).drop i).take n' = b.slice (off+i) n' := by
  refine ext_getElem (by simp; omega) fun j _ hj => ?_
  simp only [slice,getElem_map,getElem_range,getElem_take,getElem_drop,Nat.add_assoc]

lemma readLE_congr :
    b.readLE off n = b'.readLE off n := by
  induction n generalizing off with
  | zero => rfl
  | succ n ih =>
    rw [readLE,readLE,h off le_rfl (by omega),ih fun i h1 h2 => h i (by omega) (by omega)]

omit h in
lemma readBE_eq_readBE (h : ∀ i < n, b.byte (off+i) = b'.byte (off'+i)) :
    b.readBE off n = b'.readBE off' n := by
  induction n with
  | zero => rfl
  | succ n ih => rw [readBE,readBE,h n (by omega),ih fun i hi => h i (by omega)]

lemma readBE_congr : b.readBE off n = b'.readBE off n :=
  readBE_eq_readBE fun i hi => h (off+i) (by omega) (by omega)

end

lemma readBE_eq_zero (h : ∀ i < n, b.byte (off+i) = 0) : b.readBE off n = 0 := by
  induction n with
  | zero => rfl
  | succ n ih =>
    rw [readBE,h n (by omega),ih fun i hi => h i (by omega)]
    rfl

lemma readLE_lt : b.readLE off n < 256^n := by
  induction n generalizing off with
  | zero => exact Nat.one_pos
  | succ n ih =>
    have hb := (b.byte off).toNat_lt
    have hrest := @ih (off+1)
    rw [readLE,Nat.pow_succ]
    omega

lemma readBE_lt : b.readBE off n < 256^n := by
  induction n with
  | zero => exact Nat.one_pos
  | succ n ih =>
    have hb := (b.byte (off+n)).toNat_lt
    rw [readBE,Nat.pow_succ]
    omega

lemma readLE_splice_of_disjoint (h : off'+n' ≤ off ∨ off+n ≤ off') :
    (b.splice off n f).readLE off' n' = b.readLE off' n' :=
  readLE_congr fun _ _ _ => byte_splice_of_not_mem (by omega)

lemma readBE_splice_of_disjoint (h : off'+n' ≤ off ∨ off+n ≤ off') :
    (b.splice off n f).readBE off' n' = b.readBE off' n' :=
  readBE_congr fun _ _ _ => byte_splice_of_not_mem (by omega)

lemma readLE_of_digits (h : ∀ i < n, (b.byte (off+i)).toNat = v/256^i%256) :
    b.readLE off n = v%256^n := by
  induction n generalizing off v with
  | zero => rw [readLE,Nat.pow_zero,mod_one]
  | succ n ih =>
    have htail : b.readLE (off+1) n = v/256%256^n := by
      refine ih fun i hi => ?_
      have hdigit := h (i+1) (by omega)
      rw [Nat.pow_succ',← Nat.div_div_eq_div_mul] at hdigit
      rwa [show off+1+i = off+(i+1) by omega]
    have hhead := h 0 (by omega)
    rw [Nat.pow_zero,Nat.div_one,Nat.add_zero] at hhead
    rw [readLE,hhead,htail,Nat.pow_succ',mod_mul]

lemma readBE_of_digits (h : ∀ i < n, (b.byte (off+i)).toNat = v/256^(n-1-i)%256) :
    b.readBE off n = v%256^n := by
  induction n generalizing v with
  | zero => rw [readBE,Nat.pow_zero,mod_one]
  | succ n ih =>
    have hinit : b.readBE off n = v/256%256^n := by
      refine ih fun i hi => ?_
      have hdigit := h i (by omega)
      rw [show n+1-1-i = (n-1-i)+1 by omega,Nat.pow_succ',
        ← Nat.div_div_eq_div_mul] at hdigit
      exact hdigit
    have hlast := h n (by omega)
    rw [Nat.add_sub_cancel,Nat.sub_self,Nat.pow_zero,Nat.div_one] at hlast
    rw [readBE,hlast,hinit,Nat.pow_succ',mod_mul]
    ring

lemma readLE_writeLE (h : v < 256^n) : (b.writeLE off n v).readLE off n = v := by
  rw [readLE_of_digits (v := v),mod_eq_of_lt h]
  intro i hi
  rw [writeLE,byte_splice_of_mem hi,UInt8.toNat_ofNat']

lemma readBE_writeBE (h : v < 256^n) : (b.writeBE off n v).readBE off n = v := by
  rw [readBE_of_digits (v := v),mod_eq_of_lt h]
  intro i hi
  rw [writeBE,byte_splice_of_mem hi,UInt8.toNat_ofNat']

lemma readBE_store (h : v < 256^n) :
    (b.store off n fun i => .ofNat (v/256^(n-1-i))).readBE off n = v := by
  rw [readBE_of_digits (v := v),mod_eq_of_lt h]
  intro i hi
  rw [byte_store_of_mem hi,UInt8.toNat_ofNat']

lemma readBE_store_of_disjoint (hlen : off'+n' ≤ b.len) (h : off'+n' ≤ off ∨ off+n ≤ off') :
    (b.store off n f).readBE off' n' = b.readBE off' n' :=
  readBE_congr fun _ _ _ => byte_store_of_not_mem (by omega) (by omega)

lemma readLE_writeLE_of_disjoint (h : off'+n' ≤ off ∨ off+n ≤ off') :
    (b.writeLE off n v).readLE off' n' = b.readLE off' n' :=
  readLE_splice_of_disjoint h

lemma readBE_writeBE_of_disjoint (h : off'+n' ≤ off ∨ off+n ≤ off') :
    (b.writeBE off n v).readBE off' n' = b.readBE off' n' :=
  readBE_splice_of_disjoint h

lemma readLE_zero_of_mem (h : off ≤ off') (h' : off'+n' ≤ off+n) :
    (b.zero off n).readLE off' n' = 0 := by
  have hdigits : (b.zero off n).readLE off' n' = 0%256^n' := by
    refine readLE_of_digits fun i hi => ?_
    rw [show off'+i = off+(off'+i-off) by omega,zero,
      byte_splice_of_mem (by omega)]
    simp
  rw [hdigits,zero_mod]

lemma patch_splice {sub : Buf} :
    b.patch base (sub.splice off n f) = (b.patch base sub).splice (base+off) n f := by
  refine Buf.ext rfl (funext fun i => ?_)
  simp only [patch,splice]
  by_cases hi : i < base
  · rw [if_pos hi,if_neg (by omega),if_pos hi]
  · rw [if_neg hi,if_neg hi,Nat.sub_sub]
    by_cases hmem : off ≤ i-base ∧ i-base < off+n
    · rw [if_pos hmem,if_pos (by omega)]
    · rw [if_neg hmem,if_neg (by omega)]

lemma readLE_drop : (b.drop base).readLE off n = b.readLE (base+off) n := by
  induction n generalizing off with
  | zero => rfl
  | succ n ih =>
    rw [readLE,readLE,ih]
    rfl

lemma drop_splice :
    (b.splice (base+off) n f).drop base = (b.drop base).splice off n f := by
  refine Buf.ext rfl (funext fun i => ?_)
  show (if base+off ≤ base+i ∧ base+i < base+off+n then f (base+i-(base+off))
    else _) = if off ≤ i ∧ i < off+n then f (i-off) else _
  rw [Nat.add_sub_add_left]
  exact if_congr (by omega) rfl rfl

section WriteAll
variable {w : ℕ} {offs vs : ℕ → ℕ}

@[simp]
lemma len_writeAllLE : (b.writeAllLE w offs vs n).len = b.len := by
  induction n with
  | zero => rfl
  | succ n ih => exact ih

lemma readLE_writeAllLE_of_disjoint (h : ∀ k < n, off'+n' ≤ offs k ∨ offs k+w ≤ off') :
    (b.writeAllLE w offs vs n).readLE off' n' = b.readLE off' n' := by
  induction n with
  | zero => rfl
  | succ n ih =>
    rw [writeAllLE,readLE_writeLE_of_disjoint (h n (by omega)),ih fun k hk => h k (by omega)]

lemma readLE_writeAllLE {j : ℕ} (hj : j < n) (hv : vs j < 256^w)
    (h : ∀ k < n, k ≠ j → offs j+w ≤ offs k ∨ offs k+w ≤ offs j) :
    (b.writeAllLE w offs vs n).readLE (offs j) w = vs j := by
  induction n with
  | zero => omega
  | succ n ih =>
    rw [writeAllLE]
    by_cases hn : j = n
    · subst hn
      exact readLE_writeLE hv
    · rw [readLE_writeLE_of_disjoint (h n (by omega) (Ne.symm hn)),
        ih (by omega) fun k hk => h k (by omega)]

lemma patch_writeAllLE {sub : Buf} : b.patch base (sub.writeAllLE w offs vs n) =
      (b.patch base sub).writeAllLE w (fun k => base+offs k) vs n := by
  induction n with
  | zero => rfl
  | succ n ih => rw [writeAllLE,writeAllLE,writeLE,patch_splice,ih,writeLE]

end WriteAll

lemma patch_drop : b.patch base (b.drop base) = b := by
  refine Buf.ext rfl (funext fun i => ?_)
  show (if i < base then b.byte i else b.byte (base+(i-base))) = b.byte i
  by_cases hi : i < base
  · rw [if_pos hi]
  · rw [if_neg hi,Nat.add_sub_cancel' (by omega)]

section Programs
variable {ε : Type} {ok : Unit → Buf → Prop} {err : ε → Buf → Prop}

def storeLE (off n v : ℕ) : Prog Buf ε Unit := do
  let b ← Prog.gets id
  Prog.assert (off+n ≤ b.len)
  Prog.modify fun b => b.writeLE off n v

def storeZero (lo hi : ℕ) : Prog Buf ε Unit := do
  let b ← Prog.gets id
  Prog.assert (lo ≤ hi ∧ hi ≤ b.len)
  Prog.modify fun b => b.zero lo (hi-lo)

@[simp]
lemma wp_storeLE : (storeLE off n v : Prog Buf ε Unit).wp b ok err ↔
      off+n ≤ b.len ∧ ok () (b.writeLE off n v) := by
  simp [storeLE]

@[simp]
lemma wp_storeZero {lo hi : ℕ} : (storeZero lo hi : Prog Buf ε Unit).wp b ok err ↔
      (lo ≤ hi ∧ hi ≤ b.len) ∧ ok () (b.zero lo (hi-lo)) := by
  simp [storeZero]

lemma wp_forN_storeLE {w : ℕ} {offs vs : ℕ → ℕ} (h : ∀ k < n, offs k+w ≤ b.len) :
    (Prog.forN n fun k => storeLE (offs k) w (vs k) : Prog Buf ε Unit).wp b
      (fun _ b' => b.writeAllLE w offs vs n = b') err := by
  refine Prog.wp_forN (fun k b' => b.writeAllLE w offs vs k = b') rfl ?_
  rintro k _ hk rfl
  rw [wp_storeLE,len_writeAllLE]
  exact ⟨h k hk,rfl⟩

end Programs
end Buf
