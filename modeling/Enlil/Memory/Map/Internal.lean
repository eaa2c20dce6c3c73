import Enlil.Memory.Map.Kinds

/-! # Memory maps: proof internals -/

namespace Enlil.Memory
open MemoryMap List Word
variable {m : MemoryMap} {pre post pieces : List MemoryRegion} {r : MemoryRegion}
  {start size : ℕ}

lemma wf_replace (hwf : WF ⟨pre ++ r :: post⟩) (hord : pieces.Pairwise MemoryRegion.Before)
    (hin : ∀ p ∈ pieces, r.base ≤ p.base ∧ p.base+p.size ≤ r.base+r.size) :
    WF ⟨pre ++ pieces ++ post⟩ := by
  obtain ⟨hpre,hrest,hcross⟩ := pairwise_append.mp hwf.sorted
  obtain ⟨hrpost,hpost⟩ := pairwise_cons.mp hrest
  have hr : r.Bounded := hwf.bounded r (by simp)
  refine ⟨?_,?_⟩
  · intro p hp
    rcases mem_append.mp hp with hp | hp
    · rcases mem_append.mp hp with hp | hp
      · exact hwf.bounded p (by simp [hp])
      · have := hin p hp
        unfold MemoryRegion.Bounded at *
        omega
    · exact hwf.bounded p (by simp [hp])
  · refine pairwise_append.mpr ⟨pairwise_append.mpr ⟨hpre,hord,?_⟩,hpost,?_⟩
    · intro x hx p hp
      have hxr := hcross x hx r mem_cons_self
      have := hin p hp
      unfold MemoryRegion.Before at *
      omega
    · intro x hx y hy
      rcases mem_append.mp hx with hx | hx
      · exact hcross x hx y (mem_cons_of_mem _ hy)
      · have hry := hrpost y hy
        have := hin x hx
        unfold MemoryRegion.Before at *
        omega

/-- A usable region `r` of the map, with the span `[start, start + size)` inside it. -/
structure SplitAt (m : MemoryMap) (pre : List MemoryRegion) (r : MemoryRegion)
    (post : List MemoryRegion) (start size : ℕ) : Prop where
  regions : m.regions = pre ++ r :: post
  usable : r.kind = .usable
  base_le : r.base ≤ start
  le_end : start+size ≤ r.base+r.size

lemma SplitAt.splitReserve (h : SplitAt m pre r post start size) :
    m.splitReserve pre.length start size = ⟨pre ++ splitPieces r start size ++ post⟩ := by
  have hget : m.regions[pre.length]? = some r := by simp [h.regions]
  have htake : m.regions.take pre.length = pre := by simp [h.regions]
  have hdrop : m.regions.drop (pre.length+1) = post := by
    rw [h.regions,← drop_drop,drop_left]
    rfl
  rw [MemoryMap.splitReserve,hget]
  simp only
  rw [htake,hdrop]

lemma splitPieces_eq (hr : r.Bounded) (hend : start+size ≤ r.base+r.size) :
    splitPieces r start size = (if r.base < start then [⟨r.base,start-r.base,r.kind⟩] else [])
      ++ [⟨start,size,.reserved⟩]
      ++ (if start+size < r.base+r.size then
            [⟨start+size,r.base+r.size-(start+size),r.kind⟩] else []) := by
  unfold MemoryRegion.Bounded at hr
  have hstop : Word.add64 start size = start+size := add64_of_lt (by omega)
  rw [splitPieces,hstop,MemoryRegion.Bounded.endAddr hr]

lemma splitPieces_inside (hr : r.Bounded) (hbase : r.base ≤ start)
    (hend : start+size ≤ r.base+r.size) :
    ∀ p ∈ splitPieces r start size, r.base ≤ p.base ∧ p.base+p.size ≤ r.base+r.size := by
  intro p hp
  rw [splitPieces_eq hr hend] at hp
  split at hp <;> split at hp <;> simp only [List.cons_append,nil_append,append_nil,
    mem_cons,not_mem_nil,or_false] at hp
  · rcases hp with rfl | rfl | rfl <;> simp only <;> omega
  · rcases hp with rfl | rfl <;> simp only <;> omega
  · rcases hp with rfl | rfl <;> simp only <;> omega
  · subst hp
    simp only
    omega

lemma splitPieces_ordered (hr : r.Bounded) (hend : start+size ≤ r.base+r.size) :
    (splitPieces r start size).Pairwise MemoryRegion.Before := by
  rw [splitPieces_eq hr hend]
  split <;> split <;> simp [MemoryRegion.Before] <;> omega

lemma kindIn_splitPieces (hr : r.Bounded) (hbase : r.base ≤ start)
    (hend : start+size ≤ r.base+r.size) (a : ℕ) :
    kindIn (splitPieces r start size) a =
      if start ≤ a ∧ a < start+size then some .reserved
      else if r.base ≤ a ∧ a < r.base+r.size then some r.kind else none := by
  have hbd : ∀ p ∈ splitPieces r start size, p.Bounded := by
    intro p hp
    have := splitPieces_inside hr hbase hend p hp
    unfold MemoryRegion.Bounded at *
    omega
  rw [splitPieces_eq hr hend] at hbd ⊢
  have hcont : ∀ p : MemoryRegion, p.Bounded →
      (p.contains a = true ↔ p.base ≤ a ∧ a < p.base+p.size) := fun p hp => hp.contains a
  have hmid := hcont ⟨start,size,.reserved⟩ (hbd _ (by simp))
  by_cases hl : r.base < start <;> by_cases hs : start+size < r.base+r.size <;>
    simp only [hl,hs,if_true,if_false,List.cons_append,nil_append,append_nil] at hbd ⊢ <;>
    simp only [kindIn_cons,kindIn_nil] <;>
    simp only [hmid]
  · have hleft := hcont ⟨r.base,start-r.base,r.kind⟩ (hbd _ (by simp))
    have hright := hcont ⟨start+size,r.base+r.size-(start+size),r.kind⟩ (hbd _ (by simp))
    simp only [hleft,hright]
    split_ifs <;> first | rfl | omega
  · have hleft := hcont ⟨r.base,start-r.base,r.kind⟩ (hbd _ (by simp))
    simp only [hleft]
    split_ifs <;> first | rfl | omega
  · have hright := hcont ⟨start+size,r.base+r.size-(start+size),r.kind⟩ (hbd _ (by simp))
    simp only [hright]
    split_ifs <;> first | rfl | omega
  · split_ifs <;> first | rfl | omega

section
variable (hwf : m.WF) (h : SplitAt m pre r post start size)
include hwf h

lemma SplitAt.wf_regions :
    WF ⟨pre ++ r :: post⟩ := by
  have hm : m = ⟨pre ++ r :: post⟩ := by rw [← h.regions]
  exact hm ▸ hwf

lemma SplitAt.grants :
    Grants m.kindAt [(start,size)] (m.splitReserve pre.length start size).kindAt := by
  have hwf' := h.wf_regions hwf
  have hr : r.Bounded := hwf'.bounded r (by simp)
  have hk : ∀ a, m.kindAt a = (kindIn pre a).or
      (if r.base ≤ a ∧ a < r.base+r.size then some r.kind else kindIn post a) := by
    intro a
    rw [kindAt,h.regions,kindIn_append,kindIn_cons]
    simp only [hr.contains]
  have hk' : ∀ a, (m.splitReserve pre.length start size).kindAt a = (kindIn pre a).or
      ((if start ≤ a ∧ a < start+size then some .reserved
        else if r.base ≤ a ∧ a < r.base+r.size then some r.kind else none).or
        (kindIn post a)) := by
    intro a
    rw [h.splitReserve,kindAt,List.append_assoc,kindIn_append,kindIn_append,
      kindIn_splitPieces hr h.base_le h.le_end]
  have hend := h.le_end
  have hbase := h.base_le
  have hpre : ∀ a, start ≤ a ∧ a < start+size → kindIn pre a = none :=
    fun a hin => kindIn_append_cons_of_mem hwf' (by omega)
  refine ⟨pairwise_singleton _ _,forall_mem_singleton.mpr fun a hin => ?_,
    forall_mem_singleton.mpr fun a hin => ?_,?_⟩
  · have hin' : start ≤ a ∧ a < start+size := hin
    rw [hk,hpre a hin,if_pos (by omega),h.usable]
    rfl
  · rw [hk',hpre a hin,if_pos (show start ≤ a ∧ a < start+size from hin)]
    rfl
  · intro a hout
    have hout := hout _ mem_cons_self
    unfold InSpan at hout
    rw [hk,hk',if_neg hout]
    congr 1
    split_ifs <;> simp

lemma SplitAt.wf :
    (m.splitReserve pre.length start size).WF := by
  have hwf' := h.wf_regions hwf
  have hr : r.Bounded := hwf'.bounded r (by simp)
  rw [h.splitReserve]
  exact wf_replace hwf' (splitPieces_ordered hr h.le_end) (splitPieces_inside hr h.base_le h.le_end)

end
variable {a k align limit i idx base stop len : ℕ}

lemma isPowerOfTwo_iff : isPowerOfTwo a = true ↔ ∃ k, a = 2^k := by
  rw [isPowerOfTwo,beq_iff_eq]
  constructor
  · intro h
    exact ⟨a.log2,h⟩
  · rintro ⟨k,rfl⟩
    rw [Nat.log2_two_pow]

lemma isAllocatable_iff {k : MemoryKind} : k.isAllocatable = true ↔ k = .usable := by
  cases k <;> simp [MemoryKind.isAllocatable]

def NoFit (size align limit : ℕ) (r : MemoryRegion) : Prop :=
  r.kind = .usable → ¬ ∃ s, align ∣ s ∧ r.base ≤ s ∧ s+size ≤ r.base+r.size ∧ s+size ≤ limit

lemma MemoryRegion.Bounded.add_lt {r : MemoryRegion} (hr : r.Bounded) (hk : k < 64) :
    r.base+(2^k-1) < 2^64 := by
  have hpow : (2 : ℕ)^k ≤ 2^63 := Nat.pow_le_pow_right (by decide) (by omega)
  simp only [MemoryRegion.Bounded] at hr
  omega

variable {rs : List MemoryRegion}

lemma carveScan_found (h : carveScan size align limit i rs = some (idx,start)) :
    ∃ pre r post, rs = pre ++ r :: post ∧ idx = i+pre.length ∧ r.kind = .usable ∧
      start = Word.alignUp64 r.base align ∧ start+size ≤ r.endAddr ∧
      start+size ≤ limit := by
  induction rs generalizing i with
  | nil => cases h
  | cons r rs ih =>
    have hskip : carveScan size align limit (i+1) rs = some (idx,start) →
        ∃ pre x post, r :: rs = pre ++ x :: post ∧ idx = i+pre.length ∧ x.kind = .usable ∧
          start = Word.alignUp64 x.base align ∧ start+size ≤ x.endAddr ∧
          start+size ≤ limit := by
      intro h'
      obtain ⟨pre,x,post,hrs,hidx,hrest⟩ := ih h'
      refine ⟨r :: pre,x,post,by rw [hrs]; rfl,?_,hrest⟩
      rw [hidx,length_cons]
      omega
    simp only [carveScan] at h
    split at h
    · rename_i husable
      split at h
      · exact hskip h
      · rename_i stop hstop
        obtain ⟨-,rfl⟩ := checkedAdd64_eq_some.mp hstop
        split at h
        · rename_i hfit
          cases h
          exact ⟨[],r,rs,rfl,rfl,isAllocatable_iff.mp husable,rfl,hfit.1,hfit.2⟩
        · exact hskip h
    · exact hskip h

lemma carveScan_some (hk : k < 64) (hb : ∀ r ∈ rs, r.Bounded)
    (h : carveScan size (2^k) limit i rs = some (idx,start)) :
    ∃ pre r post, rs = pre ++ r :: post ∧ idx = i+pre.length ∧ r.kind = .usable ∧
      r.base ≤ start ∧ start+size ≤ r.base+r.size ∧ start+size ≤ limit ∧
      2^k ∣ start := by
  obtain ⟨pre,r,post,rfl,hidx,husable,rfl,hend,hlimit⟩ := carveScan_found h
  have hr : r.Bounded := hb r (mem_append_right _ mem_cons_self)
  have hsum := hr.add_lt hk
  rw [hr.endAddr] at hend
  exact ⟨pre,r,post,rfl,hidx,husable,le_alignUp64 (by omega) hsum,hend,hlimit,
    dvd_alignUp64 (by omega)⟩

lemma carveScan_none (hk : k < 64)
    (hb : ∀ r ∈ rs, r.Bounded) (h : carveScan size (2^k) limit i rs = none) :
    ∀ r ∈ rs, NoFit size (2^k) limit r := by
  induction rs generalizing i with
  | nil => simp
  | cons r rs ih =>
    have hr : r.Bounded := hb r mem_cons_self
    have hsum := hr.add_lt hk
    have hskip : NoFit size (2^k) limit r → carveScan size (2^k) limit (i+1) rs = none →
        ∀ x ∈ r :: rs, NoFit size (2^k) limit x := by
      intro hno h' x hx
      cases hx with
      | head => exact hno
      | tail _ hx => exact ih (fun y hy => hb y (mem_cons_of_mem _ hy)) h' x hx
    simp only [carveScan] at h
    split at h
    · split at h
      · rename_i hover
        refine hskip ?_ h
        rintro - ⟨s,hdvd,hbase,hend,-⟩
        have hle := alignUp64_le (by omega) hsum hdvd hbase
        simp only [MemoryRegion.Bounded] at hr
        rw [checkedAdd64_of_lt (by omega)] at hover
        cases hover
      · rename_i stop hstop
        obtain ⟨-,rfl⟩ := checkedAdd64_eq_some.mp hstop
        split at h
        · cases h
        · rename_i hnofit
          refine hskip ?_ h
          rintro - ⟨s,hdvd,hbase,hend,hlim⟩
          have hle := alignUp64_le (by omega) hsum hdvd hbase
          rw [hr.endAddr] at hnofit
          omega
    · rename_i hkind
      refine hskip (fun husable => ?_) h
      rw [husable] at hkind
      exact absurd rfl hkind

def Overlaps (base stop : ℕ) (r : MemoryRegion) : Bool :=
  r.kind.isAllocatable && decide (max r.base base < min r.endAddr stop)

lemma firstUsableOverlap_some (h : firstUsableOverlap base stop i rs = some (idx,start,len)) :
    ∃ pre r post, rs = pre ++ r :: post ∧ idx = i+pre.length ∧ Overlaps base stop r = true ∧
      start = max r.base base ∧ len = min r.endAddr stop-start := by
  induction rs generalizing i with
  | nil => cases h
  | cons r rs ih =>
    simp only [firstUsableOverlap] at h
    split at h
    · rename_i hov
      cases h
      exact ⟨[],r,rs,rfl,rfl,by simpa [Overlaps] using hov,rfl,rfl⟩
    · obtain ⟨pre,x,post,hrs,hidx,hrest⟩ := ih h
      refine ⟨r :: pre,x,post,by rw [hrs]; rfl,?_,hrest⟩
      rw [hidx,length_cons]
      omega

lemma firstUsableOverlap_none (h : firstUsableOverlap base stop i rs = none) :
    ∀ r ∈ rs, Overlaps base stop r = false := by
  induction rs generalizing i with
  | nil => simp
  | cons r rs ih =>
    simp only [firstUsableOverlap] at h
    split at h
    · cases h
    · rename_i hov
      intro x hx
      cases hx with
      | head => simpa [Overlaps] using hov
      | tail _ hx => exact ih h x hx

end Enlil.Memory
