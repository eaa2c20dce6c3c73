import Enlil.Lib.Cover
import Enlil.Lib.PowBlock
import Enlil.Lib.Loop
import Mathlib.Algebra.BigOperators.Group.List.Lemmas
import Mathlib.Data.BitVec

/-!
# The buddy allocator: model of `enlil-platform/src/memory/mod.rs`

Addresses are 64-bit vectors, so ranges are taken modulo `2 ^ 64`. The free lists are indexed
by order; a call that would index past the last one, or not return, is `none`.
-/

namespace Enlil.Memory
open List Nat Function
open BitVec (getLsbD_twoPow le_def ofNat toNat_ofNat twoPow)

abbrev Addr := BitVec 64

/-- A memory layout: rounded up to its alignment, the size fits `isize`. -/
structure Layout where
  size : ℕ
  align : ℕ
  align_pow : ∃ k < 64, align = 2^k
  size_le : size+align ≤ 2^63

structure BuddyAllocator where
  freeLists : ℕ → List Addr
  base : Addr
  size : Addr

namespace BuddyAllocator

def maxOrder : ℕ := 20

def minBlockSize : ℕ := 4096

def blockSize (order : ℕ) : ℕ := minBlockSize <<< order

lemma blockSize_eq (order : ℕ) : blockSize order = 4096*2^order := Nat.shiftLeft_eq _ _

lemma blockSize_pos (order : ℕ) : 0 < blockSize order := by
  rw [blockSize_eq]
  exact Nat.mul_pos (by decide) (Nat.two_pow_pos order)

def sizeToOrderStep (size : ℕ) (s : ℕ × ℕ) : Option (ℕ × ℕ) :=
  if s.1 < size then some (s.1*2%2^64,s.2+1) else none

def sizeToOrder (size : ℕ) : Option ℕ :=
  (Loop.run (sizeToOrderStep size) 64 (minBlockSize,0)).map (·.2)

def push (free : ℕ → List Addr) (order : ℕ) (a : Addr) : ℕ → List Addr :=
  update free order (free order ++ [a])

def fillOrder (base : Addr) (order : ℕ) (free : ℕ → List Addr) (offset remaining : ℕ) :
    (ℕ → List Addr) × ℕ × ℕ :=
  if blockSize order ≤ remaining then
    fillOrder base order (push free order (base+ofNat 64 offset))
      (offset+blockSize order) (remaining-blockSize order)
  else (free,offset,remaining)
termination_by remaining
decreasing_by
  have := blockSize_pos order
  omega

def initRegion (base : Addr) (size : ℕ) : ℕ → List Addr :=
  ((List.range (maxOrder+1)).reverse.foldl
    (fun s order => fillOrder base order s.1 s.2.1 s.2.2) (fun _ => [],0,size)).1

def new (base size : Addr) : BuddyAllocator := ⟨initRegion base size.toNat,base,size⟩

def request (layout : Layout) : ℕ := max (max layout.size layout.align) minBlockSize

/-- Split `block` down from order `found` to `order`: the upper halves become free. -/
def splitDown (free : ℕ → List Addr) (block : Addr) (order found : ℕ) : ℕ → List Addr :=
  (List.range' order (found-order)).reverse.foldl
    (fun free o => push free o (block+ofNat 64 (blockSize o))) free

def allocate (s : BuddyAllocator) (layout : Layout) : Option (Option Addr × BuddyAllocator) :=
  match sizeToOrder (request layout) with
  | none => none
  | some order =>
    if maxOrder < order then some (none,s)
    else
      match (List.range' order (maxOrder+1-order)).find? fun o => !(s.freeLists o).isEmpty with
      | none => some (none,s)
      | some found =>
        match (s.freeLists found).getLast? with
        | none => some (none,s)
        | some block =>
          let free := update s.freeLists found (s.freeLists found).dropLast
          some (some block,{ s with freeLists := splitDown free block order found })

def swapRemove (l : List Addr) (i : ℕ) : List Addr :=
  match l.getLast? with
  | none => l
  | some last => (l.set i last).dropLast

def coalesce (free : ℕ → List Addr) (addr : Addr) (order : ℕ) : (ℕ → List Addr) × Addr × ℕ :=
  if order < maxOrder then
    let buddy := addr ^^^ ofNat 64 (blockSize order)
    match (free order).idxOf? buddy with
    | some pos =>
      coalesce (update free order (swapRemove (free order) pos))
        (if addr ≤ buddy then addr else buddy) (order+1)
    | none => (free,addr,order)
  else (free,addr,order)
termination_by maxOrder-order

def deallocate (s : BuddyAllocator) (ptr : Addr) (layout : Layout) : Option BuddyAllocator :=
  match sizeToOrder (request layout) with
  | none => none
  | some order =>
    let (free,addr,order) := coalesce s.freeLists ptr order
    if order ≤ maxOrder then some { s with freeLists := push free order addr } else none

def freeBytes (s : BuddyAllocator) : ℕ :=
  ((List.range (maxOrder+1)).map fun o => (s.freeLists o).length*blockSize o).sum

open PowBlock
variable {free : ℕ → List Addr} {o order found : ℕ} {a block base : Addr}
section
variable (free : ℕ → List Addr)

def freeBlocks : List (Block Addr) :=
  (List.range (maxOrder+1)).flatMap fun o => (free o).map (⟨o,·⟩)

lemma freeBlocks_update {l : List Addr} (ho : o ≤ maxOrder) (h : (a :: l).Perm (free o)) :
    (⟨o,a⟩ :: freeBlocks (update free o l)).Perm (freeBlocks free) := by
  have hflat : ∀ {os : List ℕ}, os.Nodup → o ∈ os →
      (⟨o,a⟩ :: os.flatMap fun i => (update free o l i).map (Block.mk i)).Perm
        (os.flatMap fun i => (free i).map (Block.mk i)) := by
    intro os hnodup hmem
    induction os with
    | nil => cases hmem
    | cons i os ih =>
      obtain ⟨hi,hnodup⟩ := nodup_cons.mp hnodup
      rw [flatMap_cons,flatMap_cons]
      by_cases hoi : i = o
      · subst hoi
        have hrest : (os.flatMap fun j => (update free i l j).map (Block.mk j)) =
            os.flatMap fun j => (free j).map (Block.mk j) := by
          refine flatMap_congr fun j hj => ?_
          have hne : j ≠ i := by
            rintro rfl
            exact hi hj
          rw [update_of_ne hne]
        rw [update_self,hrest,← cons_append]
        exact (h.map (Block.mk i)).append_right _
      · rw [update_of_ne hoi]
        have htail := ih hnodup ((mem_cons.mp hmem).resolve_left (Ne.symm hoi))
        exact perm_middle.symm.trans (htail.append_left _)
  exact hflat nodup_range (mem_range.mpr (lt_succ_of_le ho))

lemma freeBlocks_push (a : Addr) (ho : o ≤ maxOrder) :
    (⟨o,a⟩ :: freeBlocks free).Perm (freeBlocks (push free o a)) := by
  have h := freeBlocks_update (push free o a) (l := free o) ho
    (by rw [push,update_self]; exact (perm_append_singleton a _).symm)
  rwa [push,update_idem,update_eq_self] at h

end

def page : Addr := 4096#64

lemma nsmul_page (n : ℕ) : n • page = ofNat 64 (4096*n) := by
  rw [nsmul_eq_mul,page,Nat.mul_comm]
  exact (BitVec.ofNat_mul n 4096).symm

lemma pow_nsmul_page (o : ℕ) : 2^o • page = ofNat 64 (blockSize o) := by
  rw [nsmul_page,blockSize_eq]

abbrev SameSpace : List (Block Addr) → List (Block Addr) → Prop := Same page maxOrder

lemma sameSpace_halves (ho : o < maxOrder) (l : List (Block Addr)) :
    SameSpace (⟨o+1,a⟩ :: l) (⟨o,a⟩ :: ⟨o,a+ofNat 64 (blockSize o)⟩ :: l) := by
  rw [← pow_nsmul_page]
  exact (Same.split ho).append (Same.refl l)

lemma splitDown_same (ho : order ≤ found) (hfound : found ≤ maxOrder) :
    SameSpace (⟨found,block⟩ :: freeBlocks free)
      (⟨order,block⟩ :: freeBlocks (splitDown free block order found)) := by
  obtain ⟨n,rfl⟩ := Nat.exists_eq_add_of_le ho
  rw [splitDown,Nat.add_sub_cancel_left]
  clear ho
  induction n generalizing free with
  | zero => exact Same.refl _
  | succ n ih =>
    rw [range'_1_concat,reverse_append,reverse_singleton,singleton_append,foldl_cons]
    have hpush := freeBlocks_push free (block+ofNat 64 (blockSize (order+n))) (le_of_succ_le hfound)
    exact ((sameSpace_halves hfound _).trans ((Same.of_perm hpush).cons _)).trans
      (ih (le_of_succ_le hfound))

variable {i k j n : ℕ}

lemma swapRemove_perm {l : List Addr} (h : l.idxOf? a = some i) :
    (a :: swapRemove l i).Perm l := by
  obtain ⟨hi,ha,-⟩ := findIdx?_eq_some_iff_getElem.mp h
  have ha : l[i] = a := by simpa using ha
  unfold swapRemove
  split
  · next hnone =>
    rw [getLast?_eq_none_iff.mp hnone] at hi
    cases hi
  · next last hlast =>
    obtain ⟨init,rfl⟩ := getLast?_eq_some_iff.mp hlast
    by_cases hlt : i < init.length
    · rw [getElem_append_left hlt] at ha
      rw [set_append_left _ _ hlt,dropLast_concat]
      have hset := set_perm_cons_eraseIdx hlt last
      have hget := getElem_cons_eraseIdx_perm hlt
      rw [ha] at hget
      exact ((hset.cons a).trans (.swap last a _)).trans
        ((hget.cons last).trans (perm_append_singleton last init).symm)
    · have hend : i = init.length := by
        rw [length_append,length_singleton] at hi
        omega
      subst hend
      rw [getElem_concat_length rfl] at ha
      rw [set_append_right _ _ (Nat.le_refl _),Nat.sub_self,set_cons_zero,dropLast_concat,ha]
      exact (perm_append_singleton a init).symm

lemma getLsbD_xor_twoPow (a : Addr) (hk : k < 64) :
    (a ^^^ twoPow 64 k).getLsbD j = (a.getLsbD j ^^ decide (k = j)) := by
  rw [BitVec.getLsbD_xor,getLsbD_twoPow,decide_eq_true hk,Bool.true_and]

lemma xor_eq_add (hk : k < 64) (hclear : a.getLsbD k = false) :
    a ^^^ twoPow 64 k = a+twoPow 64 k ∧ a ≤ a ^^^ twoPow 64 k := by
  have hand : a &&& twoPow 64 k = 0#64 := by
    refine BitVec.eq_of_getLsbD_eq fun j _ => ?_
    rw [BitVec.getLsbD_and,getLsbD_twoPow,BitVec.getLsbD_zero]
    by_cases hj : k = j
    · rw [← hj,hclear,Bool.false_and]
    · rw [decide_eq_false hj,Bool.and_false,Bool.and_false]
  have hor : a ^^^ twoPow 64 k = a ||| twoPow 64 k := by
    refine BitVec.eq_of_getLsbD_eq fun j _ => ?_
    rw [getLsbD_xor_twoPow a hk,BitVec.getLsbD_or,getLsbD_twoPow,decide_eq_true hk,Bool.true_and]
    by_cases hj : k = j
    · rw [← hj,hclear,Bool.false_xor,Bool.false_or]
    · rw [decide_eq_false hj,Bool.xor_false,Bool.or_false]
  rw [hor]
  refine ⟨(BitVec.add_eq_or_of_and_eq_zero _ _ hand).symm,?_⟩
  rw [le_def,BitVec.toNat_or]
  exact Nat.left_le_or

lemma buddy_adjacent (a : Addr) (hk : k < 64) :
    (a ≤ a ^^^ twoPow 64 k ∧ a ^^^ twoPow 64 k = a+twoPow 64 k) ∨
      (a ^^^ twoPow 64 k ≤ a ∧ a = (a ^^^ twoPow 64 k)+twoPow 64 k) := by
  have hback : (a ^^^ twoPow 64 k) ^^^ twoPow 64 k = a := by
    rw [BitVec.xor_assoc,BitVec.xor_self,BitVec.xor_zero]
  cases hbit : a.getLsbD k with
  | false =>
    obtain ⟨hadd,hle⟩ := xor_eq_add hk hbit
    exact .inl ⟨hle,hadd⟩
  | true =>
    have hclear : (a ^^^ twoPow 64 k).getLsbD k = false := by
      rw [getLsbD_xor_twoPow a hk,hbit,decide_eq_true rfl]
      rfl
    obtain ⟨hadd,hle⟩ := xor_eq_add hk hclear
    rw [hback] at hadd hle
    exact .inr ⟨hle,hadd⟩

lemma merge_same (ho : o < maxOrder) (l : List (Block Addr)) :
    let buddy := a ^^^ ofNat 64 (blockSize o)
    SameSpace (⟨o,a⟩ :: ⟨o,buddy⟩ :: l) (⟨o+1,if a ≤ buddy then a else buddy⟩ :: l) := by
  have hsize : ofNat 64 (blockSize o) = twoPow 64 (12+o) := by
    refine BitVec.eq_of_toNat_eq ?_
    rw [toNat_ofNat,BitVec.toNat_twoPow,blockSize_eq,Nat.pow_add]
  have hbound : 12+o < 64 := by
    rw [maxOrder] at ho
    omega
  have hadj := buddy_adjacent a hbound
  rw [← hsize] at hadj
  intro buddy
  obtain ⟨hle,habove⟩ | ⟨hle,hbelow⟩ := hadj
  · rw [if_pos hle]
    have hhalves := (sameSpace_halves (a := a) ho l).symm
    rwa [← habove] at hhalves
  · have hmin : (if a ≤ buddy then a else buddy) = buddy := by
      split
      · exact BitVec.le_antisymm ‹_› hle
      · rfl
    have hhalves := (sameSpace_halves (a := buddy) ho l).symm
    rw [← hbelow] at hhalves
    rw [hmin]
    exact (Same.of_perm (.swap _ _ _)).trans hhalves

lemma coalesce_same (free : ℕ → List Addr) (a : Addr) (ho : order ≤ maxOrder) :
    (coalesce free a order).2.2 ≤ maxOrder ∧ SameSpace (⟨order,a⟩ :: freeBlocks free)
        (⟨(coalesce free a order).2.2,(coalesce free a order).2.1⟩ ::
          freeBlocks (coalesce free a order).1) := by
  fun_induction coalesce free a order with
  | case1 free a order hlt buddy pos hpos ih =>
    obtain ⟨hle,hsame⟩ := ih hlt
    refine ⟨hle,Same.trans ?_ hsame⟩
    have hfree := freeBlocks_update free ho (swapRemove_perm hpos)
    exact ((Same.of_perm hfree.symm).cons _).trans (merge_same hlt _)
  | case2 free a order hlt buddy hnone => exact ⟨ho,Same.refl _⟩
  | case3 free a order hge => exact ⟨ho,Same.refl _⟩

lemma fillOrder_same (base : Addr) (free : ℕ → List Addr) (offset remaining : ℕ) (ho : order ≤ maxOrder) :
    let r := fillOrder base order free offset remaining
    r.2.2 < blockSize order ∧
    SameSpace (freeBlocks free ++ pages page (base+ofNat 64 offset) (remaining/4096))
      (freeBlocks r.1 ++ pages page (base+ofNat 64 r.2.1) (r.2.2/4096)) := by
  fun_induction fillOrder base order free offset remaining with
  | case1 free offset remaining hle ih =>
    obtain ⟨hlt,hsame⟩ := ih
    refine ⟨hlt,Same.trans ?_ hsame⟩
    have hcount : remaining/4096 = 2^order+(remaining-blockSize order)/4096 := by
      rw [blockSize_eq] at hle ⊢
      omega
    have hnext : base+ofNat 64 offset+2^order • page =
        base+ofNat 64 (offset+blockSize order) := by
      rw [pow_nsmul_page,BitVec.ofNat_add,BitVec.add_assoc]
    have hpush := freeBlocks_push free (base+ofNat 64 offset) ho
    rw [hcount,pages_add,hnext,← append_assoc]
    refine Same.append ?_ (Same.refl _)
    exact ((Same.refl _).append (Same.pages ho).symm).trans
      (Same.of_perm ((perm_append_singleton _ _).trans hpush))
  | case2 free offset remaining hlt => exact ⟨Nat.not_le.mp hlt,Same.refl _⟩

lemma fillOrders_same (base : Addr) (n : ℕ) (hn : n ≤ maxOrder+1) (s : (ℕ → List Addr) × ℕ × ℕ) :
    let r := (range n).reverse.foldl
      (fun s order => fillOrder base order s.1 s.2.1 s.2.2) s
    (n = 0 ∨ r.2.2 < blockSize 0) ∧
    SameSpace (freeBlocks s.1 ++ pages page (base+ofNat 64 s.2.1) (s.2.2/4096))
      (freeBlocks r.1 ++ pages page (base+ofNat 64 r.2.1) (r.2.2/4096)) := by
  induction n generalizing s with
  | zero => exact ⟨.inl rfl,Same.refl _⟩
  | succ n ih =>
    rw [range_succ,reverse_append,reverse_singleton,singleton_append,foldl_cons]
    obtain ⟨hlt,hfill⟩ := fillOrder_same base s.1 s.2.1 s.2.2 (le_of_succ_le_succ hn)
    obtain ⟨hend,hrest⟩ := ih (le_of_succ_le hn) (fillOrder base n s.1 s.2.1 s.2.2)
    refine ⟨.inr ?_,hfill.trans hrest⟩
    obtain rfl | hend := hend
    · exact hlt
    · exact hend

lemma new_same (base size : Addr) :
    SameSpace (freeBlocks (new base size).freeLists) (pages page base (size.toNat/4096)) := by
  obtain ⟨hend,hsame⟩ := fillOrders_same base (maxOrder+1) (Nat.le_refl _)
    (fun _ => [],0,size.toNat)
  have hzero := div_eq_of_lt (hend.resolve_left (succ_ne_zero _))
  have hempty : freeBlocks (fun _ => []) = [] := rfl
  rw [show blockSize 0 = 4096 from rfl] at hzero
  have hstart : base+ofNat 64 0 = base := BitVec.add_zero base
  have hnone : ∀ a : Addr, pages page a 0 = [] := fun _ => rfl
  rw [hzero,hempty,hstart,hnone,nil_append,append_nil] at hsame
  exact hsame.symm

def orderOf (layout : Layout) : ℕ := (sizeToOrder (request layout)).getD 0

lemma request_le (layout : Layout) : request layout ≤ 2^63 := by
  have := layout.size_le
  rw [request,minBlockSize]
  omega

lemma sizeToOrder_request (layout : Layout) : sizeToOrder (request layout) = some (orderOf layout) ∧
      request layout ≤ blockSize (orderOf layout) := by
  have hle := request_le layout
  let P : ℕ × ℕ → Prop := fun s => s.1 = blockSize s.2 ∧ s.2 ≤ 51
  have hstep : ∀ s s', P s → sizeToOrderStep (request layout) s = some s' →
      P s' ∧ 52-s'.2 < 52-s.2 := by
    intro s s' hs hstep
    obtain ⟨hsize,ho⟩ := hs
    rw [sizeToOrderStep] at hstep
    split at hstep
    · next hlt =>
      cases hstep
      have hpow : blockSize (s.2+1) = s.1*2 := by
        rw [hsize,blockSize_eq,blockSize_eq,Nat.pow_succ]
        omega
      have hs51 : s.2 ≠ 51 := by
        intro h51
        rw [hsize,h51] at hlt
        exact absurd (Nat.lt_of_lt_of_le hlt hle) (by decide)
      refine ⟨⟨?_,?_⟩,?_⟩
      · rw [hpow]
        exact mod_eq_of_lt (by omega)
      · show s.2+1 ≤ 51
        omega
      · show 52-(s.2+1) < 52-s.2
        omega
    · cases hstep
  have hinit : P (minBlockSize,0) := ⟨rfl,Nat.zero_le _⟩
  obtain ⟨t,ht⟩ := Loop.run_terminates (fun s => 52 - s.2) hstep hinit (show 52 < 64 by decide)
  obtain ⟨⟨hsize,-⟩,hexit⟩ := Loop.run_invariant (fun s s' hs h => (hstep s s' hs h).1) hinit ht
  have horder : sizeToOrder (request layout) = some t.2 := by rw [sizeToOrder,ht,Option.map_some]
  have heq : orderOf layout = t.2 := by rw [orderOf,horder,Option.getD_some]
  rw [heq]
  refine ⟨horder,?_⟩
  rw [sizeToOrderStep] at hexit
  split at hexit
  · cases hexit
  · next hge => exact hsize ▸ Nat.not_lt.mp hge

lemma allocate_cases (s : BuddyAllocator) (layout : Layout) : s.allocate layout = some (none,s) ∨
      ∃ p s', s.allocate layout = some (some p,s') ∧ orderOf layout ≤ maxOrder ∧
        SameSpace (freeBlocks s.freeLists) (⟨orderOf layout,p⟩ :: freeBlocks s'.freeLists) := by
  rw [allocate,(sizeToOrder_request layout).1]
  simp only
  split
  · exact .inl rfl
  · next hle =>
    split
    · exact .inl rfl
    · next found hfound =>
      split
      · exact .inl rfl
      · next block hblock =>
        obtain ⟨hlo,hhi⟩ := mem_range'_1.mp (mem_of_find?_eq_some hfound)
        have hfound : found ≤ maxOrder := by omega
        obtain ⟨init,hinit⟩ := getLast?_eq_some_iff.mp hblock
        have hperm : (block :: (s.freeLists found).dropLast).Perm (s.freeLists found) := by
          rw [hinit,dropLast_concat]
          exact (perm_append_singleton block init).symm
        refine .inr ⟨block,_,rfl,Nat.not_lt.mp hle,?_⟩
        exact (Same.of_perm (freeBlocks_update _ hfound hperm).symm).trans
          (splitDown_same hlo hfound)

lemma deallocate_same (s : BuddyAllocator) (p : Addr) {layout : Layout}
    (ho : orderOf layout ≤ maxOrder) :
    ∃ s', s.deallocate p layout = some s' ∧
      SameSpace (⟨orderOf layout,p⟩ :: freeBlocks s.freeLists) (freeBlocks s'.freeLists) := by
  obtain ⟨hle,hsame⟩ := coalesce_same s.freeLists p ho
  rw [deallocate,(sizeToOrder_request layout).1]
  refine ⟨_,if_pos hle,hsame.trans (Same.of_perm (freeBlocks_push _ _ hle))⟩

structure Live where
  addr : Addr
  layout : Layout

def Live.toBlock (l : Live) : Block Addr := ⟨orderOf l.layout,l.addr⟩

/-- The states after calls in which each deallocation returns a live block with its own
layout. -/
inductive Run (base size : Addr) : BuddyAllocator → List Live → Prop
  | new : Run base size (new base size) []
  | allocate {s live s' p} (layout : Layout) (h : Run base size s live)
      (hcall : s.allocate layout = some (some p,s')) : Run base size s' (⟨p,layout⟩ :: live)
  | refuse {s live s'} (layout : Layout) (h : Run base size s live)
      (hcall : s.allocate layout = some (none,s')) : Run base size s' live
  | deallocate {s live s'} (before after : List Live) (l : Live)
      (h : Run base size s live) (hlive : live = before ++ l :: after)
      (hcall : s.deallocate l.addr l.layout = some s') : Run base size s' (before ++ after)

variable {size : Addr} {s : BuddyAllocator} {live : List Live}

lemma Run.same (h : Run base size s live) : (∀ l ∈ live, orderOf l.layout ≤ maxOrder) ∧
      SameSpace (live.map Live.toBlock ++ freeBlocks s.freeLists)
        (pages page base (size.toNat/4096)) := by
  induction h with
  | new => exact ⟨forall_mem_nil _,new_same base size⟩
  | @allocate s live s' p layout _ hcall ih =>
    obtain ⟨hlive,hsame⟩ := ih
    obtain hnone | ⟨p',s'',hsome,ho,halloc⟩ := allocate_cases s layout
    · rw [hnone] at hcall
      cases hcall
    · rw [hsome] at hcall
      cases hcall
      refine ⟨forall_mem_cons.mpr ⟨ho,hlive⟩,Same.trans ?_ hsame⟩
      exact (Same.of_perm perm_middle.symm).trans ((Same.refl _).append halloc.symm)
  | @refuse s live s' layout _ hcall ih =>
    obtain hnone | ⟨p',s'',hsome,-,-⟩ := allocate_cases s layout
    · rw [hnone] at hcall
      cases hcall
      exact ih
    · rw [hsome] at hcall
      cases hcall
  | @deallocate s live s' before after l _ hsplit hcall ih =>
    obtain ⟨hlive,hsame⟩ := ih
    subst hsplit
    obtain ⟨s'',hsome,hfree⟩ := deallocate_same s l.addr
      (hlive l (mem_append_right _ (mem_cons_self)))
    rw [hsome] at hcall
    cases hcall
    refine ⟨fun k hk => hlive k (by simp at hk ⊢; tauto),Same.trans ?_ hsame⟩
    rw [map_append,map_append,map_cons]
    refine ((Same.refl _).append hfree.symm).trans (Same.of_perm ?_)
    rw [append_assoc _ (_ :: _) _,cons_append,append_assoc]
    exact (perm_middle.append_left _).trans (.refl _)

def covers (b : Addr) (x : Block Addr) : Bool := (b-x.addr).toNat < blockSize x.order

lemma toNat_sub_add (b a : Addr) (hk : k < 2^64) :
    (b-(a+ofNat 64 k)).toNat = (2^64-k+(b-a).toNat)%2^64 := by
  rw [sub_add_eq_sub_sub,BitVec.toNat_sub,toNat_ofNat,mod_eq_of_lt hk]

lemma additive_covers (b : Addr) : Additive page maxOrder fun x => (covers b x).toNat := by
  intro o a ho
  have hsize : blockSize (o+1) = 2*blockSize o := by
    rw [blockSize_eq,blockSize_eq,Nat.pow_succ]
    omega
  have hbound : blockSize o ≤ 2^32 := by
    rw [blockSize_eq]
    exact Nat.mul_le_mul_left 4096 (Nat.pow_le_pow_right (by decide) (Nat.le_of_lt ho))
  have hx := (b-a).isLt
  rw [pow_nsmul_page]
  simp only [covers]
  rw [hsize,toNat_sub_add b a (by omega)]
  generalize (b-a).toNat = x at hx
  by_cases hlow : x < blockSize o
  · have hwrap : (2^64-blockSize o+x)%2^64 = 2^64-blockSize o+x :=
      mod_eq_of_lt (by omega)
    rw [hwrap,decide_eq_true (by omega),decide_eq_true hlow,decide_eq_false (by omega)]
    rfl
  · have hwrap : (2^64-blockSize o+x)%2^64 = x-blockSize o := by
      rw [show 2^64-blockSize o+x = x-blockSize o+2^64 by omega,add_mod_right,
        mod_eq_of_lt (by omega)]
    rw [hwrap,decide_eq_false hlow,Bool.toNat_false,Nat.zero_add]
    congr 1
    exact decide_eq_decide.mpr (by omega)

lemma additive_blockSize : Additive page maxOrder fun x : Block Addr => blockSize x.order := by
  intro o a _
  simp only [blockSize_eq,Nat.pow_succ]
  omega

lemma sum_toNat_eq_countP (p : Block Addr → Bool) (l : List (Block Addr)) :
    (l.map fun x => (p x).toNat).sum = l.countP p := by
  induction l with
  | nil => rfl
  | cons x l ih =>
    rw [map_cons,sum_cons,countP_cons,ih,Nat.add_comm]
    cases p x <;> rfl

lemma countP_pages (b base : Addr) (hn : 4096*n ≤ 2^64) :
    (pages page base n).countP (covers b) = if (b-base).toNat < 4096*n then 1 else 0 := by
  induction n with
  | zero => rfl
  | succ n ih =>
    have hlast : covers b ⟨0,base+n • page⟩ = decide
        ((2^64-4096*n+(b-base).toNat)%2^64 < 4096) := by
      rw [covers,nsmul_page,toNat_sub_add b base (by omega)]
      rfl
    have hx := (b-base).isLt
    rw [pages_add,countP_append,ih (by omega)]
    have hone : pages page (base+n • page) 1 = [⟨0,base+n • page⟩] := by simp [pages]
    rw [hone,countP_singleton,hlast]
    generalize (b-base).toNat = x at hx
    by_cases hlow : x < 4096*n
    · have hwrap : (2^64-4096*n+x)%2^64 = 2^64-4096*n+x :=
        mod_eq_of_lt (by omega)
      rw [hwrap,if_pos hlow,decide_eq_false (by omega),if_neg Bool.false_ne_true,
        if_pos (show x < 4096*(n+1) by omega)]
    · have hwrap : (2^64-4096*n+x)%2^64 = x-4096*n := by
        rw [show 2^64-4096*n+x = x-4096*n+2^64 by omega,add_mod_right,
          mod_eq_of_lt (by omega)]
      rw [hwrap,if_neg hlow,Nat.zero_add]
      simp only [decide_eq_true_eq]
      exact if_congr (by omega) rfl rfl

def blocks (s : BuddyAllocator) (live : List Live) : List (Block Addr) :=
  live.map Live.toBlock ++ freeBlocks s.freeLists

lemma freeBytes_eq (s : BuddyAllocator) :
    s.freeBytes = ((freeBlocks s.freeLists).map fun x => blockSize x.order).sum := by
  have h : ∀ os : List ℕ, (os.map fun o => (s.freeLists o).length*blockSize o).sum =
      ((os.flatMap fun o => (s.freeLists o).map (Block.mk o)).map fun x => blockSize x.order).sum := by
    intro os
    induction os with
    | nil => rfl
    | cons o os ih =>
      rw [map_cons,sum_cons,ih,flatMap_cons,map_append,List.sum_append,map_map]
      congr 1
      exact (by simp : ((s.freeLists o).map fun _ => blockSize o).sum = _).symm
  exact h _

lemma Run.countP_covers (h : Run base size s live) (b : Addr) : (s.blocks live).countP (covers b) =
      if (b-base).toNat < 4096*(size.toNat/4096) then 1 else 0 := by
  have hsize := size.isLt
  have hsum := h.same.2 _ (additive_covers b)
  rw [sum_toNat_eq_countP,sum_toNat_eq_countP,countP_pages b base (by omega)] at hsum
  exact hsum

lemma Run.covers_iff (h : Run base size s live) (b : Addr) :
    (∃ x ∈ s.blocks live, covers b x = true) ↔
      (b-base).toNat < 4096*(size.toNat/4096) := by
  rw [← countP_pos_iff,h.countP_covers b]
  split <;> simp_all

lemma Run.disjoint (h : Run base size s live) :
    (s.blocks live).Pairwise fun x y => ∀ b, ¬ (covers b x = true ∧ covers b y = true) := by
  refine (Cover.pairwise_disjoint_iff covers _).mpr fun b => ?_
  rw [h.countP_covers b]
  split <;> decide

lemma covers_addr (x : Block Addr) : covers x.addr x = true := by
  rw [covers,sub_self]
  exact decide_eq_true (blockSize_pos x.order)

lemma Run.block_inside (h : Run base size s live) (hwrap : base.toNat+size.toNat ≤ 2^64)
    {x : Block Addr} (hx : x ∈ s.blocks live) :
    base.toNat ≤ x.addr.toNat ∧ x.addr.toNat+blockSize x.order ≤ base.toNat+size.toNat := by
  have hstart := (h.covers_iff x.addr).mp ⟨x,hx,covers_addr x⟩
  have hlt := size.isLt
  have hoff : (x.addr-base).toNat < size.toNat := by omega
  have haddr : x.addr.toNat = base.toNat+(x.addr-base).toNat := by
    have hsum : x.addr = base+(x.addr-base) := (add_sub_cancel base x.addr).symm
    conv_lhs => rw [hsum,BitVec.toNat_add]
    exact mod_eq_of_lt (by omega)
  refine ⟨haddr ▸ Nat.le_add_right _ _,?_⟩
  -- Otherwise the block covers the first address past the pages.
  by_contra hover
  have hend := (h.covers_iff (base+ofNat 64 (4096*(size.toNat/4096)))).mp ⟨x,hx,?_⟩
  · rw [add_sub_cancel_left,toNat_ofNat,mod_eq_of_lt (by omega)] at hend
    exact absurd hend (Nat.lt_irrefl _)
  · have hdiff : base+ofNat 64 (4096*(size.toNat/4096))-x.addr =
        ofNat 64 (4096*(size.toNat/4096))-(x.addr-base) := by
      rw [sub_sub_eq_add_sub,add_comm]
    have hnat : (ofNat 64 (4096*(size.toNat/4096))-(x.addr-base)).toNat =
        4096*(size.toNat/4096)-(x.addr-base).toNat := by
      rw [BitVec.toNat_sub_of_le,toNat_ofNat,mod_eq_of_lt (by omega)]
      rw [le_def,toNat_ofNat,mod_eq_of_lt (by omega)]
      omega
    rw [covers,hdiff,hnat]
    exact decide_eq_true (by omega)

lemma Run.freeBytes_add (h : Run base size s live) :
    s.freeBytes+(live.map fun l => blockSize (orderOf l.layout)).sum =
      (BuddyAllocator.new base size).freeBytes := by
  have hrun := h.same.2 _ additive_blockSize
  have hnew := (Run.new : Run base size _ []).same.2 _ additive_blockSize
  rw [map_nil,nil_append,← freeBytes_eq] at hnew
  rw [map_append,List.sum_append,← freeBytes_eq,map_map,Nat.add_comm] at hrun
  exact hrun.trans hnew.symm

/-- What holds of free and live blocks: they tile the pages of the region. -/
structure Tiled (base size : Addr) (s : BuddyAllocator) (live : List Live) : Prop where
  disjoint : (s.blocks live).Pairwise fun x y => ∀ b, ¬ (covers b x = true ∧ covers b y = true)
  union : ∀ b, (∃ x ∈ s.blocks live, covers b x = true) ↔ (b-base).toNat < 4096*(size.toNat/4096)
  inside : base.toNat+size.toNat ≤ 2^64 → ∀ x ∈ s.blocks live,
    base.toNat ≤ x.addr.toNat ∧ x.addr.toNat+blockSize x.order ≤ base.toNat+size.toNat
  conserved : s.freeBytes+(live.map fun l => blockSize (orderOf l.layout)).sum =
    (new base size).freeBytes
  distinct : (live.map Live.addr).Nodup
  restored : live = [] → s.freeBytes = (new base size).freeBytes

lemma nodup_of_disjoint {l : List Live}
    (h : (l.map Live.toBlock).Pairwise fun x y => ∀ b, ¬ (covers b x = true ∧ covers b y = true)) :
    (l.map Live.addr).Nodup := by
  rw [pairwise_map] at h
  rw [List.Nodup,pairwise_map]
  refine h.imp fun {x y} hxy heq => hxy x.addr ⟨covers_addr x.toBlock,?_⟩
  rw [heq]
  exact covers_addr y.toBlock

/-- Whatever is allocated and returned, free and live blocks of an allocator tile the pages of
its region, and the calls return. -/
theorem run_conserves_blocks (h : Run base size s live) :
    Tiled base size s live ∧ (∀ layout, ∃ r, s.allocate layout = some r) ∧
      ∀ l ∈ live, ∃ s', s.deallocate l.addr l.layout = some s' := by
  have hbytes := h.freeBytes_add
  refine ⟨⟨h.disjoint,h.covers_iff,fun hwrap x hx => h.block_inside hwrap hx,hbytes,
    nodup_of_disjoint (pairwise_append.mp h.disjoint).1,?_⟩,fun layout => ?_,
    fun l hl => ?_⟩
  · rintro rfl
    rwa [map_nil,sum_nil,Nat.add_zero] at hbytes
  · obtain hnone | ⟨p,s',hsome,-⟩ := allocate_cases s layout
    · exact ⟨_,hnone⟩
    · exact ⟨_,hsome⟩
  · obtain ⟨s',hcall,-⟩ := deallocate_same s l.addr (h.same.1 l hl)
    exact ⟨s',hcall⟩

/-- A page of two, allocated from a region that is not aligned to a block. -/
theorem run_conserves_blocks_one_page :
    ∃ s live, live.length = 1 ∧ Run 0x3000 0x2800 s live ∧ Tiled 0x3000 0x2800 s live := by
  let layout : Layout := ⟨100,8,⟨3,by decide⟩,by decide⟩
  have hcall : ((new 0x3000 0x2800).allocate layout).map (·.1) = some (some 0x3000) := by
    decide +kernel
  obtain ⟨⟨p,s⟩,hsome,hp⟩ := Option.map_eq_some_iff.mp hcall
  cases hp
  have hrun : Run 0x3000 0x2800 s [⟨0x3000,layout⟩] := .allocate layout .new hsome
  exact ⟨s,_,rfl,hrun,(run_conserves_blocks hrun).1⟩

end BuddyAllocator
end Enlil.Memory
