import Enlil.Lib.Bitmap
import Mathlib.Data.Finset.Card

/-! # Physical frames and the bitmap allocator -/

namespace Enlil.Memory
open Word Bitmap List

structure PhysFrame where
  number : ℕ
deriving DecidableEq, Repr

def PhysFrame.containingAddress (addr : ℕ) : PhysFrame := ⟨addr/4096⟩

def PhysFrame.startAddress (frame : PhysFrame) : ℕ := mul64 frame.number 4096

/-- A source of 4 KiB frames. The outer `none` of both operations is a panic. -/
class FrameSource (F : Type) where
  allocFrame : F → Option (Option PhysFrame × F)
  freeFrame : F → PhysFrame → Option F

/-- `Held a H` says that exactly the frames `H` are out. Frames lie below `2 ^ 52`. -/
structure FrameSource.Lawful (F : Type) [FrameSource F] (Held : F → Multiset ℕ → Prop) : Prop where
  alloc : ∀ {a H}, Held a H → ∃ o a', allocFrame a = some (o,a') ∧ ((o = none ∧ Held a' H) ∨
      ∃ frame, o = some frame ∧ frame.number < 2^40 ∧ Held a' (frame.number ::ₘ H))
  free : ∀ {a n H}, Held a (n ::ₘ H) → ∃ a', freeFrame a ⟨n⟩ = some a' ∧ Held a' H

structure BitmapFrameAllocator where
  bitmap : List ℕ
  baseFrame : ℕ
  totalFrames : ℕ
  freeCount : ℕ
deriving DecidableEq, Repr

namespace BitmapFrameAllocator

/-- An allocator for `size` bytes from `base` on; an unaligned base panics. -/
def new (base size : ℕ) : Option BitmapFrameAllocator :=
  if base &&& (4096-1) ≠ 0 then none
  else
    let totalFrames := size/4096
    some ⟨replicate (divCeil totalFrames 64) 0,base/4096,totalFrames,totalFrames⟩

def findFree (totalFrames : ℕ) : ℕ → List ℕ → Option ℕ
  | _, [] => none
  | wordIdx, word :: rest =>
    if word = 2^64-1 then findFree totalFrames (wordIdx+1) rest
    else
      let frameIdx := wordIdx*64+trailingZeros (not64 word)
      if totalFrames ≤ frameIdx then none else some frameIdx

section
variable (a : BitmapFrameAllocator)

def allocateFrame : Option PhysFrame × BitmapFrameAllocator :=
  match findFree a.totalFrames 0 a.bitmap with
  | none => (none,a)
  | some frameIdx =>
    let word := a.bitmap.getD (frameIdx/64) 0
    (some ⟨add64 a.baseFrame frameIdx⟩,
      { a with
        bitmap := a.bitmap.set (frameIdx/64) (word ||| 1 <<< (frameIdx%64))
        freeCount := sub64 a.freeCount 1 })

def deallocateFrame (frame : PhysFrame) :
    Option BitmapFrameAllocator :=
  let frameIdx := sub64 frame.number a.baseFrame
  let word := a.bitmap.getD (frameIdx/64) 0
  if a.totalFrames ≤ frameIdx then none
  else if word &&& 1 <<< (frameIdx%64) = 0 then none
  else
    some { a with
      bitmap := a.bitmap.set (frameIdx/64) (word &&& not64 (1 <<< (frameIdx%64)))
      freeCount := add64 a.freeCount 1 }

def isAllocated (frame : PhysFrame) : Bool :=
  let frameIdx := sub64 frame.number a.baseFrame
  if a.totalFrames ≤ frameIdx then false
  else a.bitmap.getD (frameIdx/64) 0 &&& 1 <<< (frameIdx%64) ≠ 0

end

instance : FrameSource BitmapFrameAllocator where
  allocFrame a := some a.allocateFrame
  freeFrame := deallocateFrame

def allocated (a : BitmapFrameAllocator) : Finset ℕ :=
  (Finset.range a.totalFrames).filter fun i => bit a.bitmap i = true

structure Wf (a : BitmapFrameAllocator) : Prop where
  covers : a.totalFrames ≤ 64*a.bitmap.length
  word_lt : ∀ w ∈ a.bitmap, w < 2^64
  free : a.freeCount+a.allocated.card = a.totalFrames
  bound : a.baseFrame+a.totalFrames ≤ 2^40

def Held (a : BitmapFrameAllocator) (H : Multiset ℕ) : Prop :=
  a.Wf ∧ a.allocated.val.map (a.baseFrame+·) = H

variable {a a' : BitmapFrameAllocator} {i frameIdx : ℕ}

lemma mem_allocated : i ∈ a.allocated ↔ i < a.totalFrames ∧ bit a.bitmap i = true := by
  rw [allocated,Finset.mem_filter,Finset.mem_range]

lemma Wf.word_index (h : a.Wf) (hi : i < a.totalFrames) : i/64 < a.bitmap.length := by
  have hcovers := h.covers
  omega

lemma Wf.getD_lt (h : a.Wf) (k : ℕ) : a.bitmap.getD k 0 < 2^64 := by
  rw [getD_eq_getElem?_getD]
  cases hk : a.bitmap[k]? with
  | none => exact Nat.two_pow_pos 64
  | some w => exact h.word_lt w (mem_of_getElem? hk)

variable {total k w free base size n : ℕ}

lemma findFree_eq_some {words : List ℕ} (hlt : ∀ w ∈ words, w < 2^64)
    (h : findFree total k words = some frameIdx) :
    frameIdx < total ∧ k*64 ≤ frameIdx ∧ bit words (frameIdx-k*64) = false := by
  induction words generalizing k with
  | nil => cases h
  | cons word rest ih =>
    rw [findFree] at h
    split_ifs at h with hfull
    · obtain ⟨htotal,hge,hclear⟩ := ih (fun w hw => hlt w (mem_cons_of_mem _ hw)) h
      refine ⟨htotal,by omega,?_⟩
      have hshift : frameIdx-k*64 = frameIdx-(k+1)*64+64 := by omega
      rw [bit,hshift,Nat.add_div_right _ (by decide),Nat.add_mod_right,getD_cons_succ]
      exact hclear
    · obtain ⟨hbit,hzero,-⟩ := trailingZeros_not64 (hlt word mem_cons_self) hfull
      simp only at h
      split_ifs at h with htotal
      cases h
      refine ⟨by omega,by omega,?_⟩
      rw [bit,Nat.add_sub_cancel_left,Nat.div_eq_of_lt hbit,Nat.mod_eq_of_lt hbit,getD_cons_zero]
      exact hzero

lemma sub64_baseFrame (h : a.Wf) (hi : i < a.totalFrames) :
    sub64 (a.baseFrame+i) a.baseFrame = i := by
  have hbound := h.bound
  rw [sub64_of_le (Nat.le_add_right _ _) (by omega),Nat.add_sub_cancel_left]

lemma Wf.update (h : a.Wf) (hw : w < 2^64)
    (ha' : a' = { a with bitmap := a.bitmap.set k w, freeCount := free })
    (hfree : free+a'.allocated.card = a.totalFrames) : a'.Wf := by
  subst ha'
  refine ⟨?_,?_,hfree,h.bound⟩
  · rw [length_set]
    exact h.covers
  · intro v hv
    obtain hv | rfl := mem_or_eq_of_mem_set hv
    · exact h.word_lt v hv
    · exact hw

lemma Wf.allocate (h : a.Wf) (hi : i < a.totalFrames) (hclear : bit a.bitmap i = false)
    (ha' : a' = { a with
      bitmap := a.bitmap.set (i/64) (a.bitmap.getD (i/64) 0 ||| 1 <<< (i%64))
      freeCount := sub64 a.freeCount 1 }) :
    a'.Wf ∧ a'.allocated = insert i a.allocated := by
  have hset : a'.allocated = insert i a.allocated := by
    ext j
    subst ha'
    rw [mem_allocated,Finset.mem_insert,mem_allocated,bit_set (h.word_index hi)]
    simp only [Bool.or_eq_true,decide_eq_true_eq]
    constructor
    · rintro ⟨hj,hbit | rfl⟩
      · exact Or.inr ⟨hj,hbit⟩
      · exact Or.inl rfl
    · rintro (rfl | ⟨hj,hbit⟩)
      · exact ⟨hi,Or.inr rfl⟩
      · exact ⟨hj,Or.inl hbit⟩
  have hcard : a'.allocated.card = a.allocated.card+1 := by
    rw [hset,Finset.card_insert_of_notMem]
    rw [mem_allocated]
    simp [hclear]
  have hle : a'.allocated.card ≤ a.totalFrames := by
    have htotal : a'.totalFrames = a.totalFrames := by rw [ha']
    rw [← htotal]
    exact (Finset.card_filter_le _ _).trans_eq (Finset.card_range _)
  have hfree := h.free
  have hbound := h.bound
  refine ⟨h.update ?_ ha' ?_,hset⟩
  · refine Nat.or_lt_two_pow (h.getD_lt _) ?_
    rw [Nat.one_shiftLeft]
    exact Nat.pow_lt_pow_right (by decide) (Nat.mod_lt _ (by decide))
  · rw [sub64_of_le (by omega) (by omega),hcard]
    omega

lemma Wf.deallocate (h : a.Wf) (hi : i ∈ a.allocated)
    (ha' : a' = { a with
      bitmap := a.bitmap.set (i/64) (a.bitmap.getD (i/64) 0 &&& not64 (1 <<< (i%64)))
      freeCount := add64 a.freeCount 1 }) :
    a'.Wf ∧ a'.allocated = a.allocated.erase i := by
  have hlt := (mem_allocated.mp hi).1
  have hset : a'.allocated = a.allocated.erase i := by
    ext j
    subst ha'
    rw [mem_allocated,Finset.mem_erase,mem_allocated,bit_clear (h.word_index hlt)]
    simp only [Bool.and_eq_true,Bool.not_eq_true',decide_eq_false_iff_not]
    tauto
  have hcard := Finset.card_erase_add_one hi
  have hfree := h.free
  have hbound := h.bound
  refine ⟨h.update ?_ ha' ?_,hset⟩
  · exact Nat.and_le_left.trans_lt (h.getD_lt _)
  · rw [add64_of_lt (by omega),hset]
    omega

lemma held_new (h : new base size = some a) (hphys : base+size ≤ 2^52) :
    a.Held 0 := by
  rw [new] at h
  split_ifs at h with haligned
  cases h
  have hnone : allocated ⟨replicate (divCeil (size/4096) 64) 0,base/4096,size/4096,
      size/4096⟩ = ∅ := by
    ext j
    rw [mem_allocated,bit_replicate_zero]
    simp
  refine ⟨⟨?_,?_,?_,?_⟩,?_⟩
  · rw [length_replicate,mul_comm]
    exact divCeil_mul_ge _ (by decide)
  · intro w hw
    rw [eq_of_mem_replicate hw]
    exact Nat.two_pow_pos 64
  · rw [hnone,Finset.card_empty,add_zero]
  · show base/4096+size/4096 ≤ 2^40
    omega
  · rw [hnone]
    rfl

lemma lawful : FrameSource.Lawful BitmapFrameAllocator Held := by
  refine ⟨?_,?_⟩
  · rintro a _ ⟨h,rfl⟩
    show ∃ o a', some a.allocateFrame = some (o,a') ∧ _
    cases hscan : findFree a.totalFrames 0 a.bitmap with
    | none => exact ⟨none,a,by rw [allocateFrame,hscan],Or.inl ⟨rfl,h,rfl⟩⟩
    | some i =>
      obtain ⟨hi,-,hclear⟩ := findFree_eq_some h.word_lt hscan
      rw [zero_mul,Nat.sub_zero] at hclear
      obtain ⟨hwf,hset⟩ := h.allocate hi hclear rfl
      have hbound := h.bound
      have hnum : add64 a.baseFrame i = a.baseFrame+i := add64_of_lt (by omega)
      refine ⟨_,_,by rw [allocateFrame,hscan],Or.inr ⟨_,rfl,?_,hwf,?_⟩⟩
      · show add64 a.baseFrame i < 2^40
        omega
      · rw [hset,Finset.insert_val_of_notMem (by rw [mem_allocated]; simp [hclear]),
          Multiset.map_cons]
        show (a.baseFrame+i) ::ₘ _ = add64 a.baseFrame i ::ₘ _
        rw [hnum]
  · rintro a n H ⟨h,hH⟩
    have hmem : n ∈ a.allocated.val.map (a.baseFrame+·) := hH ▸ Multiset.mem_cons_self n H
    obtain ⟨i,hi,rfl⟩ := Multiset.mem_map.mp hmem
    obtain ⟨hlt,hbit⟩ := mem_allocated.mp hi
    obtain ⟨hwf,hset⟩ := h.deallocate hi rfl
    have hword : ¬ a.bitmap.getD (i/64) 0 &&& 1 <<< (i%64) = 0 := by
      rw [and_one_shiftLeft_eq_zero]
      intro hclear
      exact absurd (hclear.symm.trans hbit) (by decide)
    refine ⟨_,?_,hwf,?_⟩
    · show deallocateFrame a ⟨a.baseFrame+i⟩ = _
      simp only [deallocateFrame,sub64_baseFrame h hlt]
      rw [if_neg (Nat.not_le.mpr hlt),if_neg hword]
    · rw [hset,← Multiset.cons_inj_right (a.baseFrame+i),← hH,
        ← Multiset.map_cons (a.baseFrame+·),Finset.erase_val,Multiset.cons_erase hi]

variable {H : Multiset ℕ}

lemma Held.isAllocated (h : a.Held H) (hn : n ∈ H) :
    a.isAllocated ⟨n⟩ = true := by
  obtain ⟨hwf,rfl⟩ := h
  obtain ⟨i,hi,rfl⟩ := Multiset.mem_map.mp hn
  obtain ⟨hlt,hbit⟩ := mem_allocated.mp hi
  simp only [BitmapFrameAllocator.isAllocated,sub64_baseFrame hwf hlt]
  rw [if_neg (Nat.not_le.mpr hlt),decide_eq_true_iff,ne_eq,and_one_shiftLeft_eq_zero]
  intro hclear
  exact absurd (hclear.symm.trans hbit) (by decide)

lemma Held.nodup (h : a.Held H) : H.Nodup := by
  obtain ⟨-,rfl⟩ := h
  exact a.allocated.nodup.map fun _ _ => Nat.add_left_cancel

lemma Held.free_add_card (h : a.Held H) :
    a.freeCount+H.card = a.totalFrames := by
  obtain ⟨hwf,rfl⟩ := h
  rw [Multiset.card_map]
  exact hwf.free

lemma Wf.freeCount_eq (h : a.Wf) :
    a.freeCount = (List.range a.totalFrames).countP fun i => !bit a.bitmap i := by
  have hfree := h.free
  have hset : a.allocated.card = (List.range a.totalFrames).countP (bit a.bitmap) := by
    simp [allocated,Finset.card,Multiset.range,countP_eq_length_filter]
  have htotal := length_eq_countP_add_countP (bit a.bitmap) (l := List.range a.totalFrames)
  have hnot : (List.range a.totalFrames).countP (fun i => !bit a.bitmap i) =
      (List.range a.totalFrames).countP fun i => ¬ bit a.bitmap i = true :=
    countP_congr fun i _ => by simp
  rw [length_range] at htotal
  omega

end BitmapFrameAllocator
end Enlil.Memory
