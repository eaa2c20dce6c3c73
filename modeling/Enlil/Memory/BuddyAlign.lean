import Enlil.Memory.Buddy

/-! # Alignment of the buddy allocator's blocks -/

namespace Enlil.Memory.BuddyAllocator
open List Function BitVec
variable {k o order found : ℕ} {free : ℕ → List Addr} {a b block base size : Addr}

/-- The address is a multiple of `2 ^ k` and of the block size, or of the smaller of the two. -/
def Aligned (k o : ℕ) (a : Addr) : Prop := 2^min k (12+o) ∣ a.toNat

def AllAligned (k : ℕ) (free : ℕ → List Addr) : Prop := ∀ o, ∀ a ∈ free o, Aligned k o a

lemma blockSize_eq_pow (o : ℕ) : blockSize o = 2^(12+o) := by
  rw [blockSize_eq,Nat.pow_add]

lemma Aligned.mono (h : Aligned k found a) (ho : order ≤ found) : Aligned k order a :=
  (pow_dvd_pow 2 (by omega)).trans h

lemma Aligned.add (h : Aligned k o a) (hk : k ≤ 64) {n : ℕ} (hn : 2^min k (12+o) ∣ n) :
    Aligned k o (a+BitVec.ofNat 64 n) := by
  rw [Aligned,toNat_add,toNat_ofNat,Nat.add_mod_mod]
  exact (Nat.dvd_mod_iff (pow_dvd_pow 2 (by omega))).mpr (Nat.dvd_add h hn)

lemma AllAligned.push (h : AllAligned k free) (ha : Aligned k o a) : AllAligned k (push free o a) := by
  intro o' b hb
  by_cases ho : o' = o
  · subst ho
    rw [BuddyAllocator.push,update_self,mem_append,mem_singleton] at hb
    obtain hb | rfl := hb
    · exact h _ b hb
    · exact ha
  · rw [BuddyAllocator.push,update_of_ne ho] at hb
    exact h o' b hb

lemma AllAligned.update (h : AllAligned k free) {l : List Addr} (hl : ∀ a ∈ l, a ∈ free o) :
    AllAligned k (update free o l) := by
  intro o' b hb
  by_cases ho : o' = o
  · subst ho
    rw [update_self] at hb
    exact h _ b (hl b hb)
  · rw [update_of_ne ho] at hb
    exact h o' b hb

lemma Aligned.succ (h : Aligned k o a) (hclear : a.getLsbD (12+o) = false) : Aligned k (o+1) a := by
  by_cases hk : k ≤ 12+o
  · rw [Aligned,min_eq_left (by omega)]
    rwa [Aligned,min_eq_left hk] at h
  · rw [Aligned,min_eq_right (by omega)] at h ⊢
    obtain ⟨n,hn⟩ := h
    have hbit : a.toNat/2^(12+o)%2 = 0 := by
      rw [← testBit_toNat,Nat.testBit_eq_decide_div_mod_eq,decide_eq_false_iff_not] at hclear
      omega
    rw [hn,Nat.mul_div_cancel_left _ (Nat.two_pow_pos _)] at hbit
    rw [hn,← add_assoc,Nat.pow_succ]
    exact Nat.mul_dvd_mul_left _ (Nat.dvd_of_mod_eq_zero hbit)

lemma Aligned.merge (ha : Aligned k o a) (hb : Aligned k o (a ^^^ BitVec.ofNat 64 (blockSize o)))
    (ho : o < maxOrder) :
    Aligned k (o+1) (if a ≤ a ^^^ BitVec.ofNat 64 (blockSize o) then a
      else a ^^^ BitVec.ofNat 64 (blockSize o)) := by
  have hsize : BitVec.ofNat 64 (blockSize o) = twoPow 64 (12+o) := by
    refine eq_of_toNat_eq ?_
    rw [toNat_ofNat,toNat_twoPow,blockSize_eq_pow]
  have hlt : 12+o < 64 := by
    rw [maxOrder] at ho
    omega
  rw [hsize] at hb ⊢
  cases hbit : a.getLsbD (12+o) with
  | false =>
    rw [if_pos (xor_eq_add hlt hbit).2]
    exact ha.succ hbit
  | true =>
    have hclear : (a ^^^ twoPow 64 (12+o)).getLsbD (12+o) = false := by
      rw [getLsbD_xor_twoPow a hlt,hbit,decide_eq_true rfl]
      rfl
    have hback := (xor_eq_add hlt hclear).2
    rw [BitVec.xor_assoc,BitVec.xor_self,BitVec.xor_zero] at hback
    split_ifs with hle
    · rw [BitVec.le_antisymm hle hback]
      exact hb.succ hclear
    · exact hb.succ hclear

lemma coalesce_aligned (h : AllAligned k free) (ha : Aligned k order a) :
    AllAligned k (coalesce free a order).1 ∧
      Aligned k (coalesce free a order).2.2 (coalesce free a order).2.1 := by
  fun_induction coalesce free a order with
  | case1 free a order hlt buddy pos hpos ih =>
    have hperm := swapRemove_perm hpos
    have hbuddy : Aligned k order buddy := h _ _ (hperm.mem_iff.mp (mem_cons_self ..))
    exact ih (h.update fun b hb => hperm.mem_iff.mp (mem_cons_of_mem _ hb)) (ha.merge hbuddy hlt)
  | case2 free a order hlt buddy hnone => exact ⟨h,ha⟩
  | case3 free a order hge => exact ⟨h,ha⟩

lemma splitDown_aligned (h : AllAligned k free) (hb : Aligned k found block) (hk : k ≤ 64) :
    AllAligned k (splitDown free block order found) := by
  rw [splitDown]
  refine List.foldlRecOn _ _ h fun free hfree o ho => hfree.push ?_
  have hmem := mem_range'_1.mp (mem_reverse.mp ho)
  refine (hb.mono (by omega)).add hk ?_
  rw [blockSize_eq_pow]
  exact pow_dvd_pow 2 (by omega)

lemma fillOrder_aligned (hk : k ≤ 64) (hbase : 2^k ∣ base.toNat) {offset remaining : ℕ}
    (h : AllAligned k free) (hoff : blockSize o ∣ offset) :
    AllAligned k (fillOrder base o free offset remaining).1 ∧
      blockSize o ∣ (fillOrder base o free offset remaining).2.1 := by
  fun_induction fillOrder base o free offset remaining with
  | case1 free offset remaining hle ih =>
    refine ih (h.push (Aligned.add ((pow_dvd_pow 2 (by omega)).trans hbase) hk ?_))
      (Nat.dvd_add hoff (Nat.dvd_refl _))
    rw [blockSize_eq_pow] at hoff
    exact (pow_dvd_pow 2 (by omega)).trans hoff
  | case2 free offset remaining hlt => exact ⟨h,hoff⟩

lemma initRegion_aligned (hk : k ≤ 64) (hbase : 2^k ∣ base.toNat) (n : ℕ)
    (s : (ℕ → List Addr) × ℕ × ℕ) (h : AllAligned k s.1) (hoff : blockSize n ∣ s.2.1) :
    AllAligned k ((List.range n).reverse.foldl
      (fun s order => fillOrder base order s.1 s.2.1 s.2.2) s).1 := by
  induction n generalizing s with
  | zero => exact h
  | succ n ih =>
    rw [range_succ,List.reverse_append,reverse_singleton,singleton_append,foldl_cons]
    have hoff' : blockSize n ∣ s.2.1 := by
      rw [blockSize_eq_pow] at hoff ⊢
      exact (pow_dvd_pow 2 (by omega)).trans hoff
    obtain ⟨hfill,hnext⟩ := fillOrder_aligned hk hbase h hoff'
    exact ih _ hfill hnext

variable {s s' : BuddyAllocator}

lemma allocate_aligned (hk : k ≤ 64) {layout : Layout}
    (h : AllAligned k s.freeLists) (hcall : s.allocate layout = some (some a,s')) :
    AllAligned k s'.freeLists ∧ Aligned k (orderOf layout) a := by
  simp only [allocate,(sizeToOrder_request layout).1] at hcall
  split at hcall
  · cases hcall
  · split at hcall
    · cases hcall
    · next found hfound =>
      split at hcall
      · cases hcall
      · next block hblock =>
        cases hcall
        have hmem := mem_range'_1.mp (mem_of_find?_eq_some hfound)
        have hblock' : Aligned k found a := h found a (mem_of_getLast? hblock)
        exact ⟨splitDown_aligned (h.update fun b hb => mem_of_mem_dropLast hb) hblock' hk,
          hblock'.mono hmem.1⟩

lemma Run.aligned {live : List Live} (hk : k ≤ 64) (hbase : 2^k ∣ base.toNat)
    (h : Run base size s live) :
    AllAligned k s.freeLists ∧ ∀ l ∈ live, Aligned k (orderOf l.layout) l.addr := by
  induction h with
  | new =>
    exact ⟨initRegion_aligned hk hbase _ _ (fun _ _ ha => nomatch ha) (dvd_zero _),by simp⟩
  | @allocate s live s' p layout _ hcall ih =>
    obtain ⟨hfree,hp⟩ := allocate_aligned hk ih.1 hcall
    exact ⟨hfree,forall_mem_cons.mpr ⟨hp,ih.2⟩⟩
  | @refuse s live s' layout _ hcall ih =>
    obtain hnone | ⟨p',s'',hsome,-,-⟩ := allocate_cases s layout
    · cases hnone.symm.trans hcall
      exact ih
    · cases hsome.symm.trans hcall
  | @deallocate s live s' before after l _ hsplit hcall ih =>
    subst hsplit
    obtain ⟨hfree,hlive⟩ := ih
    have hl := hlive l (by simp)
    simp only [BuddyAllocator.deallocate,(sizeToOrder_request l.layout).1] at hcall
    split at hcall
    · cases hcall
      obtain ⟨hfree',hp⟩ := coalesce_aligned hfree hl
      exact ⟨hfree'.push hp,fun x hx => hlive x (by simp at hx ⊢; tauto)⟩
    · cases hcall

/-- Whatever was allocated and returned before, an allocated block is aligned for its layout if the
base of the region is, and the bytes of the layout from its address on are in the region and in no
free and no other live block. -/
theorem run_allocates_aligned {s s' : BuddyAllocator} {live : List Live} {layout : Layout}
    (h : Run base size s live) (hbase : layout.align ∣ base.toNat)
    (hcall : s.allocate layout = some (some a,s')) :
    layout.align ∣ a.toNat ∧ ∀ b : Addr, (b-a).toNat < layout.size →
      (b-base).toNat < 4096*(size.toNat/4096) ∧ ∀ x ∈ s'.blocks live, covers b x = false := by
  obtain ⟨k,hk,halign⟩ := layout.align_pow
  have hrequest := (sizeToOrder_request layout).2
  rw [request] at hrequest
  have hle : layout.align ≤ blockSize (orderOf layout) := by omega
  refine ⟨?_,fun b hb => ?_⟩
  · rw [halign] at hbase hle ⊢
    have hmin : min k (12+orderOf layout) = k := by
      rw [blockSize_eq_pow] at hle
      exact min_eq_left ((Nat.pow_le_pow_iff_right (by decide)).mp hle)
    have haligned := (allocate_aligned (by omega) (h.aligned (by omega) hbase).1 hcall).2
    rwa [Aligned,hmin] at haligned
  · have hrun : Run base size s' (⟨a,layout⟩ :: live) := .allocate layout h hcall
    have hblock : (b-a).toNat < blockSize (orderOf layout) := by omega
    have hcovers : covers b (Live.toBlock ⟨a,layout⟩) = true := decide_eq_true hblock
    refine ⟨(hrun.covers_iff b).mp ⟨_,mem_cons_self,hcovers⟩,fun x hx => ?_⟩
    exact Bool.eq_false_iff.mpr fun hx' => (pairwise_cons.mp hrun.disjoint).1 x hx b ⟨hcovers,hx'⟩

def twoPages : Layout := ⟨0x2000,0x2000,⟨13,by decide⟩,by decide⟩

/-- Two pages of three, with the third one live. -/
theorem run_allocates_aligned_two_pages :
    ∃ s live s', live.length = 1 ∧ Run 0x4000 0x3000 s live ∧
      s.allocate twoPages = some (some 0x4000,s') ∧ 0x2000 ∣ (0x4000 : Addr).toNat ∧
      ∀ b : Addr, (b-0x4000).toNat < 0x2000 → ∀ x ∈ s'.blocks live, covers b x = false := by
  let page : Layout := ⟨100,8,⟨3,by decide⟩,by decide⟩
  have hpage : ((new 0x4000 0x3000).allocate page).map (·.1) = some (some 0x6000) := by
    decide +kernel
  obtain ⟨⟨p,s⟩,hone,hp⟩ := Option.map_eq_some_iff.mp hpage
  cases hp
  have hboth : ((new 0x4000 0x3000).allocate page).bind
      (fun r => (r.2.allocate twoPages).map (·.1)) = some (some 0x4000) := by
    decide +kernel
  rw [hone] at hboth
  obtain ⟨⟨q,s'⟩,htwo,hq⟩ := Option.map_eq_some_iff.mp hboth
  cases hq
  have hrun : Run 0x4000 0x3000 s [⟨0x6000,page⟩] := .allocate page .new hone
  obtain ⟨haligned,hfree⟩ := run_allocates_aligned hrun (by decide) htwo
  exact ⟨s,_,s',rfl,hrun,htwo,haligned,fun b hb => (hfree b hb).2⟩

/-- A region of two pages at `0x1000` serves a layout aligned to two pages at its base. -/
theorem allocate_misaligned :
    ((new 0x1000 0x2000).allocate twoPages).map (·.1) = some (some 0x1000) ∧
      ¬ twoPages.align ∣ (0x1000 : Addr).toNat := by
  decide +kernel

end Enlil.Memory.BuddyAllocator
