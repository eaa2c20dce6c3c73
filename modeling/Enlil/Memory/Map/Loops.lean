import Enlil.Memory.Map.Internal

/-! # Memory maps: the loops of `reserve_span` and `coalesce` -/

namespace Enlil.Memory
open MemoryMap List Bool
variable {m : MemoryMap} {base stop : ℕ}

/-- The loop of `reserve_span` has only retyped usable bytes of the span, and the flag says whether
there were any. -/
structure ReserveInv (m : MemoryMap) (base stop : ℕ) (s : MemoryMap × Bool) : Prop where
  wf : s.1.WF
  change : ∀ a, s.1.kindAt a = m.kindAt a ∨
    (base ≤ a ∧ a < stop ∧ m.kindAt a = some .usable ∧ s.1.kindAt a = some .reserved)
  flag_true : s.2 = true → ∃ a, base ≤ a ∧ a < stop ∧ m.kindAt a = some .usable
  flag_false : s.2 = false → s.1 = m

def overlapCount (base stop : ℕ) (s : MemoryMap × Bool) : ℕ :=
  s.1.regions.countP (Overlaps base stop)

variable {s s' : MemoryMap × Bool}

lemma reservePass_some (hwf : s.1.WF) (h : reservePass base stop s = some s') :
    ∃ pre r post, SplitAt s.1 pre r post (max r.base base)
        (min (r.base+r.size) stop-max r.base base) ∧
      max r.base base < min (r.base+r.size) stop ∧
      s' = (s.1.splitReserve pre.length (max r.base base)
        (min (r.base+r.size) stop-max r.base base),true) := by
  obtain ⟨m,b⟩ := s
  simp only [reservePass,Option.map_eq_some_iff,Prod.exists] at h
  obtain ⟨idx,start,len,hfind,rfl⟩ := h
  obtain ⟨pre,r,post,hrs,hidx,hov,rfl,rfl⟩ := firstUsableOverlap_some hfind
  have hr : r.Bounded := hwf.bounded r (by rw [hrs]; simp)
  rw [Overlaps,and_eq_true,decide_eq_true_eq,hr.endAddr,isAllocatable_iff] at hov
  refine ⟨pre,r,post,⟨hrs,hov.1,by omega,by omega⟩,hov.2,?_⟩
  rw [hidx,hr.endAddr,zero_add]

lemma reservePass_inv (hinv : ReserveInv m base stop s)
    (h : reservePass base stop s = some s') : ReserveInv m base stop s' := by
  obtain ⟨pre,r,post,hsplit,hlt,rfl⟩ := reservePass_some hinv.wf h
  have hgrant := hsplit.grants hinv.wf
  have hin : ∀ a, InSpan a (max r.base base,min (r.base+r.size) stop-max r.base base) →
      base ≤ a ∧ a < stop := by
    intro a ha
    simp only [InSpan] at ha
    omega
  have husable : ∀ a, InSpan a (max r.base base,min (r.base+r.size) stop-max r.base base) →
      m.kindAt a = some .usable := by
    intro a ha
    have hs := hgrant.usable _ mem_cons_self a ha
    rcases hinv.change a with heq | ⟨-,-,-,hres⟩
    · rw [← heq,hs]
    · rw [hres] at hs
      cases hs
  refine ⟨hsplit.wf hinv.wf,?_,?_,fun hf => absurd hf.symm Bool.false_ne_true⟩
  · intro a
    by_cases ha : InSpan a (max r.base base,min (r.base+r.size) stop-max r.base base)
    · exact Or.inr ⟨(hin a ha).1,(hin a ha).2,husable a ha, hgrant.reserved _ mem_cons_self a ha⟩
    · have hframe := hgrant.frame a (by simpa using ha)
      simp only [hframe]
      exact hinv.change a
  · intro _
    have ha : InSpan (max r.base base)
        (max r.base base,min (r.base+r.size) stop-max r.base base) := by
      simp only [InSpan]
      omega
    exact ⟨max r.base base,(hin _ ha).1,(hin _ ha).2,husable _ ha⟩

/-- The remainders of a split lie outside the span, so the pass removes one overlap. -/
lemma overlapCount_lt (hwf : s.1.WF) (h : reservePass base stop s = some s') :
    overlapCount base stop s' < overlapCount base stop s := by
  obtain ⟨pre,r,post,hsplit,hlt,rfl⟩ := reservePass_some hwf h
  have hr : r.Bounded := hwf.bounded r (by rw [hsplit.regions]; simp)
  have hrcount : Overlaps base stop r = true := by
    rw [Overlaps,and_eq_true,decide_eq_true_eq,hr.endAddr,hsplit.usable]
    exact ⟨rfl,hlt⟩
  have hzero : (splitPieces r (max r.base base)
      (min (r.base+r.size) stop-max r.base base)).countP (Overlaps base stop) = 0 := by
    rw [countP_eq_zero]
    intro p hp
    have hin := splitPieces_inside hr hsplit.base_le hsplit.le_end p hp
    have hpb : p.Bounded := by
      simp only [MemoryRegion.Bounded] at hr ⊢
      omega
    rw [splitPieces_eq hr hsplit.le_end] at hp
    rw [Overlaps,and_eq_true,decide_eq_true_eq,hpb.endAddr]
    rintro ⟨hkind,hov⟩
    -- The left remainder ends at `base`, the right one starts at `stop`.
    rcases mem_append.mp hp with hp | hp
    · rcases mem_append.mp hp with hp | hp
      · split at hp
        · rw [mem_singleton] at hp
          subst hp
          simp only at hov
          omega
        · cases hp
      · rw [mem_singleton] at hp
        subst hp
        cases hkind
    · split at hp
      · rw [mem_singleton] at hp
        subst hp
        simp only at hov
        omega
      · cases hp
  simp only [overlapCount,hsplit.splitReserve]
  rw [hsplit.regions,countP_append,countP_append,hzero,countP_append,countP_cons_of_pos hrcount]
  omega

/-- `reserve_span` on a span that does not wrap: the loop terminates, retypes exactly the
usable bytes of the span, and reports whether there were any. -/
lemma reserveSpan_spec (hwf : m.WF) (size : ℕ) (hspan : base+size < 2^64) :
    ∃ m' b, m.reserveSpan base size = some (m',b) ∧ m'.WF ∧
      (∀ a, base ≤ a → a < base+size → m.kindAt a = some .usable → m'.kindAt a = some .reserved) ∧
      (∀ a, ¬ (base ≤ a ∧ a < base+size ∧ m.kindAt a = some .usable) → m'.kindAt a = m.kindAt a) ∧
      (b = true ↔ ∃ a, base ≤ a ∧ a < base+size ∧ m.kindAt a = some .usable) := by
  by_cases hsize : size = 0
  · refine ⟨m,false,by simp [reserveSpan,hsize],hwf,?_,fun _ _ => rfl,?_⟩
    · intro a h1 h2
      omega
    · simp only [false_eq_true,false_iff]
      rintro ⟨a,h1,h2,-⟩
      omega
  have hinit : ReserveInv m base (base+size) (m,false) :=
    ⟨hwf,fun _ => Or.inl rfl,fun h => absurd h Bool.false_ne_true,fun _ => rfl⟩
  have hfuel : overlapCount base (base+size) (m,false) < m.regions.length+1 :=
    Nat.lt_succ_of_le countP_le_length
  have hterm := Loop.run_terminates (overlapCount base (base+size))
    (fun s s' hs hb => ⟨reservePass_inv hs hb,overlapCount_lt hs.wf hb⟩) hinit hfuel
  obtain ⟨⟨m',b⟩,hrun⟩ := hterm
  obtain ⟨hinv,hexit⟩ := Loop.run_invariant (fun s s' hs hb => reservePass_inv hs hb) hinit hrun
  have hnone : ∀ r ∈ m'.regions, Overlaps base (base+size) r = false := by
    simp only [reservePass,Option.map_eq_none_iff] at hexit
    exact firstUsableOverlap_none hexit
  -- At the exit no byte of the span is usable any more.
  have hdone : ∀ a, base ≤ a → a < base+size → m'.kindAt a ≠ some .usable := by
    intro a h1 h2 hk
    obtain ⟨r,hmem,hcont,hkind⟩ := exists_of_kindIn hk
    have hr : r.Bounded := hinv.wf.bounded r hmem
    have hov := hnone r hmem
    rw [hr.contains] at hcont
    rw [Overlaps,hkind,hr.endAddr] at hov
    simp only [MemoryKind.isAllocatable,Bool.true_and,decide_eq_false_iff_not] at hov
    omega
  refine ⟨m',b,?_,hinv.wf,?_,?_,?_⟩
  · rw [reserveSpan,if_neg hsize,Word.checkedAdd64_of_lt hspan]
    exact hrun
  · intro a h1 h2 hu
    rcases hinv.change a with heq | ⟨-,-,-,hres⟩
    · exact absurd (heq.trans hu) (hdone a h1 h2)
    · exact hres
  · intro a hout
    rcases hinv.change a with heq | ⟨h1,h2,h3,-⟩
    · exact heq
    · exact absurd ⟨h1,h2,h3⟩ hout
  · refine ⟨hinv.flag_true,?_⟩
    rintro ⟨a,h1,h2,hu⟩
    cases b with
    | true => rfl
    | false =>
      have heq : m' = m := hinv.flag_false rfl
      exact absurd (heq ▸ hu) (hdone a h1 h2)

variable {pre post : List MemoryRegion} {x y r : MemoryRegion}

lemma kindIn_merge (hx : x.Bounded)
    (hy : y.Bounded) (hadj : x.base+x.size = y.base) (hkind : x.kind = y.kind) (a : ℕ) :
    kindIn (pre ++ { x with size := x.size+y.size } :: post) a =
      kindIn (pre ++ x :: y :: post) a := by
  have hxy : MemoryRegion.Bounded { x with size := x.size+y.size } := by
    simp only [MemoryRegion.Bounded] at hy ⊢
    omega
  rw [kindIn_append,kindIn_append,kindIn_cons,kindIn_cons,kindIn_cons]
  simp only [hx.contains,hy.contains,hxy.contains]
  congr 1
  split_ifs <;> first | rfl | omega | rw [hkind]

lemma wf_merge (hwf : WF ⟨pre ++ x :: y :: post⟩) (hadj : x.base+x.size = y.base) :
    WF ⟨pre ++ { x with size := x.size+y.size } :: post⟩ := by
  obtain ⟨hpre,hrest,hcross⟩ := pairwise_append.mp hwf.sorted
  obtain ⟨-,hypost⟩ := pairwise_cons.mp hrest
  obtain ⟨hy,hpost⟩ := pairwise_cons.mp hypost
  have hyb : y.Bounded := hwf.bounded y (by simp)
  refine ⟨?_,?_⟩
  · intro r hr
    rcases mem_append.mp hr with hr | hr
    · exact hwf.bounded r (by simp [hr])
    · cases hr with
      | head =>
        simp only [MemoryRegion.Bounded] at hyb ⊢
        omega
      | tail _ hr =>
        exact hwf.bounded r (mem_append_right _ (mem_cons_of_mem _ (mem_cons_of_mem _ hr)))
  · refine pairwise_append.mpr ⟨hpre,pairwise_cons.mpr ⟨?_,hpost⟩,?_⟩
    · intro z hz
      have := hy z hz
      simp only [MemoryRegion.Before] at this ⊢
      omega
    · intro w hw z hz
      cases hz with
      | head => exact hcross w hw x mem_cons_self
      | tail _ hz =>
        exact hcross w hw z (mem_cons_of_mem _ (mem_cons_of_mem _ hz))

variable {merged rest : List MemoryRegion}

lemma coalescePush_spec (hwf : WF ⟨merged ++ r :: rest⟩) : WF ⟨coalescePush merged r ++ rest⟩ ∧
      ∀ a, kindIn (coalescePush merged r ++ rest) a = kindIn (merged ++ r :: rest) a := by
  have hpush : merged ++ [r] ++ rest = merged ++ r :: rest := by simp
  rcases eq_nil_or_concat merged with rfl | ⟨ini,last,rfl⟩
  · exact ⟨hwf,fun _ => rfl⟩
  · have hlast : (ini.concat last).getLast? = some last := by simp
    have hinit : (ini.concat last).dropLast = ini := by simp
    have hlb : last.Bounded := hwf.bounded last (by simp)
    have hrb : r.Bounded := hwf.bounded r (by simp)
    simp only [coalescePush,hlast,hinit]
    by_cases hm : last.kind = r.kind ∧ last.endAddr = r.base
    · have hadj : last.base+last.size = r.base := by rw [← hlb.endAddr]; exact hm.2
      have hsize : Word.add64 last.size r.size = last.size+r.size := by
        apply Word.add64_of_lt
        simp only [MemoryRegion.Bounded] at hlb hrb
        omega
      have hcat : ini.concat last ++ r :: rest = ini ++ last :: r :: rest := by simp
      rw [if_pos hm,hsize,List.append_assoc,hcat]
      rw [hcat] at hwf
      exact ⟨wf_merge hwf hadj,fun a => kindIn_merge hlb hrb hadj hm.1 a⟩
    · rw [if_neg hm,hpush]
      exact ⟨hwf,fun _ => rfl⟩

lemma coalesce_foldl (hwf : WF ⟨merged ++ rest⟩) : WF ⟨rest.foldl coalescePush merged⟩ ∧
      ∀ a, kindIn (rest.foldl coalescePush merged) a = kindIn (merged ++ rest) a := by
  induction rest generalizing merged with
  | nil =>
    rw [append_nil] at hwf
    exact ⟨hwf,fun a => by rw [foldl_nil,append_nil]⟩
  | cons r rest ih =>
    obtain ⟨hwf',hk⟩ := coalescePush_spec hwf
    obtain ⟨hdone,hkind⟩ := ih hwf'
    exact ⟨hdone,fun a => (hkind a).trans (hk a)⟩

lemma coalesce_spec (hwf : m.WF) : m.coalesce.WF ∧ ∀ a, m.coalesce.kindAt a = m.kindAt a :=
  @coalesce_foldl [] m.regions hwf

def Unmergeable (a b : MemoryRegion) : Prop := ¬(a.kind = b.kind ∧ a.endAddr = b.base)

lemma isChain_coalescePush (h : merged.IsChain Unmergeable) (r : MemoryRegion) :
    (coalescePush merged r).IsChain Unmergeable := by
  rcases eq_nil_or_concat merged with rfl | ⟨ini,last,rfl⟩
  · exact .singleton r
  rw [concat_eq_append] at h ⊢
  simp only [coalescePush,getLast?_concat,dropLast_concat]
  split
  · -- the merged region begins where the last one did
    have hlast := (isChain_append.mp h).2.2
    exact h.left_of_append.append (.singleton _) (by simpa [Unmergeable] using hlast)
  next hne => exact h.append (.singleton r) (by simpa [Unmergeable] using hne)

lemma foldl_coalescePush (h : (merged ++ rest).IsChain Unmergeable) :
    rest.foldl coalescePush merged = merged ++ rest := by
  induction rest generalizing merged with
  | nil => rw [foldl_nil,append_nil]
  | cons r rest ih =>
    have hpush : coalescePush merged r = merged ++ [r] := by
      rw [coalescePush]
      split
      next last hlast => exact if_neg ((isChain_append.mp h).2.2 last hlast r rfl)
      next => rfl
    rw [foldl_cons,hpush,ih (by rwa [append_assoc]),append_assoc]
    rfl

/-- Coalescing leaves no two neighbours to merge, so coalescing again does nothing. -/
theorem coalesce_canonical (m : MemoryMap) :
    m.coalesce.regions.IsChain Unmergeable ∧ m.coalesce.coalesce = m.coalesce := by
  have hchain : m.coalesce.regions.IsChain Unmergeable :=
    foldlRecOn (motive := (List.IsChain Unmergeable ·)) _ _ .nil
      fun _ hl r _ => isChain_coalescePush hl r
  exact ⟨hchain,congrArg MemoryMap.mk (foldl_coalescePush hchain)⟩

/-- The scan, by induction on the regions: none of those to come has a byte below the end of one
that was passed. -/
lemma spanScan_iff {cursor : ℕ} (hb : ∀ r ∈ rest, r.Bounded) (hs : rest.Pairwise MemoryRegion.Before)
    (hlt : cursor < stop) : spanScan stop cursor rest = true ↔
      ∀ a, cursor ≤ a → a < stop → kindIn rest a = some .reserved := by
  induction rest generalizing cursor with
  | nil =>
    refine iff_of_false false_ne_true fun h => ?_
    cases h cursor le_rfl hlt
  | cons r rest ih =>
    obtain ⟨hr,hb⟩ := forall_mem_cons.mp hb
    obtain ⟨hbefore,hs⟩ := pairwise_cons.mp hs
    have hafter : ∀ a < r.base+r.size, kindIn rest a = none := fun a ha =>
      kindIn_eq_none fun x hx => by
        have hx' : r.base+r.size ≤ x.base := hbefore x hx
        rw [← Bool.not_eq_true,(hb x hx).contains]
        omega
    simp only [spanScan,kindIn_cons,hr.contains,hr.endAddr]
    split
    · -- a region of another kind
      rw [ih hb hs hlt]
      grind
    split
    · -- one below the cursor
      rw [ih hb hs hlt]
      grind
    split
    · -- no region has the byte at the cursor
      refine iff_of_false false_ne_true fun h => ?_
      have hgap := h cursor le_rfl hlt
      grind
    split
    · grind
    · -- the cursor moves to the end of the region
      rw [ih hb hs (by omega)]
      grind

/-- `span_is_reserved` is exact: the span is not empty, does not wrap, and all of it is reserved. -/
theorem spanIsReserved_iff (h : m.WF) (base size : ℕ) : m.spanIsReserved base size = true ↔
    0 < size ∧ base+size < 2^64 ∧
      ∀ a, base ≤ a → a < base+size → m.kindAt a = some .reserved := by
  rw [spanIsReserved,Word.checkedAdd64]
  by_cases hfit : base+size < 2^64
  · rw [if_pos hfit]
    by_cases hsize : size = 0
    · simp [hsize]
    · have hpos : 0 < size := Nat.pos_of_ne_zero hsize
      simp only [if_neg hsize,spanScan_iff h.bounded h.sorted (Nat.lt_add_of_pos_right hpos)]
      exact ⟨fun hall => ⟨hpos,hfit,hall⟩,fun hall => hall.2.2⟩
  · rw [if_neg hfit]
    exact iff_of_false false_ne_true fun hall => hfit hall.2.1

theorem spanIsReserved_iff_two_regions :
    (⟨[⟨0,2,.reserved⟩,⟨2,2,.reserved⟩]⟩ : MemoryMap).spanIsReserved 1 2 = true ∧
      ∀ a, 1 ≤ a → a < 1+2 →
        (⟨[⟨0,2,.reserved⟩,⟨2,2,.reserved⟩]⟩ : MemoryMap).kindAt a = some .reserved :=
  ⟨rfl,((spanIsReserved_iff ((wf_iff _).mpr ⟨rfl,by simp [MemoryRegion.Bounded]⟩) 1 2).mp rfl).2.2⟩

end Enlil.Memory
