import Enlil.Memory.HostMm.Tables

/-! # The region list of an address space -/

namespace Enlil.Memory
open Word List Checked

@[ext]
structure Cell where
  va : ℕ
  prot : UInt8
  owned : Bool
deriving DecidableEq

def pageRun (base n : ℕ) (prot : UInt8) (owned : Bool) : List Cell :=
  (List.range n).map fun i => ⟨base+i*4096,prot,owned⟩

def Region.cells (r : Region) : List Cell := pageRun r.base r.pages r.prot r.owned

def cellsOf (regions : List Region) : List Cell := regions.flatMap Region.cells

/-- The usable pages are aligned and lie in the low canonical half. -/
structure Region.Fits (r : Region) : Prop where
  aligned : r.base%4096 = 0
  nonempty : 0 < r.pages
  canonical : r.base+r.pages*4096 ≤ 2^48

variable {r r' x : Region} {regions merged rest : List Region} {base m n : ℕ} {prot : UInt8}
  {owned : Bool}

lemma mem_pageRun {c : Cell} :
    c ∈ pageRun base n prot owned ↔ ∃ i < n, c = ⟨base+i*4096,prot,owned⟩ := by
  simp only [pageRun,mem_map,mem_range]
  exact exists_congr fun i => and_congr_right fun _ => eq_comm

lemma pageRun_add : pageRun base (m+n) prot owned =
      pageRun base m prot owned ++ pageRun (base+m*4096) n prot owned := by
  rw [pageRun,range_add,map_append,map_map,pageRun,pageRun]
  congr 2
  funext i
  simp only [Function.comp_apply,Cell.mk.injEq,and_true]
  ring

lemma cellsOf_append (l l' : List Region) : cellsOf (l ++ l') = cellsOf l ++ cellsOf l' :=
  flatMap_append

lemma cellsOf_cons (r : Region) (l : List Region) : cellsOf (r :: l) = r.cells ++ cellsOf l :=
  rfl

lemma cellsOf_singleton (r : Region) : cellsOf [r] = r.cells := by
  rw [cellsOf_cons]
  exact append_nil _

lemma Region.Fits.usableEnd (h : r.Fits) : r.usableEnd = r.base+r.pages*4096 := by
  have hcanon := h.canonical
  have hmul : mul64 r.pages 4096 = r.pages*4096 := mul64_of_lt (by omega)
  rw [Region.usableEnd,hmul,add64_of_lt (by omega)]

lemma Region.Fits.mem_cells (h : r.Fits) {va : ℕ} :
    (∃ c ∈ r.cells, c.va = va/4096*4096) ↔ r.base ≤ va ∧ va < r.usableEnd := by
  have hal := h.aligned
  rw [h.usableEnd]
  constructor
  · rintro ⟨c,hc,hva⟩
    obtain ⟨i,hi,rfl⟩ := mem_pageRun.mp hc
    have hva : r.base+i*4096 = va/4096*4096 := hva
    omega
  · rintro ⟨hlo,hhi⟩
    refine ⟨⟨r.base+(va/4096-r.base/4096)*4096,_,_⟩,
      mem_pageRun.mpr ⟨va/4096-r.base/4096,by omega,rfl⟩,?_⟩
    show r.base+(va/4096-r.base/4096)*4096 = va/4096*4096
    omega

/-! ### Extents -/

def Region.lo (r : Region) : ℕ := r.base-r.guardLow*4096
def Region.hi (r : Region) : ℕ := r.base+(r.pages+r.guardHigh)*4096

structure Region.Placed (r : Region) : Prop extends r.Fits where
  low : r.guardLow*4096 ≤ r.base
  high : r.hi ≤ 2^48

/-- The reserved extents are in ascending order and disjoint. -/
structure Laid (regions : List Region) : Prop where
  placed : ∀ r ∈ regions, r.Placed
  ordered : regions.Pairwise fun r r' => r.hi ≤ r'.lo

lemma Region.Placed.reservedBase (h : r.Placed) : r.reservedBase = r.lo := by
  have hlow := h.low
  have hcanon := h.canonical
  have hmul : mul64 r.guardLow 4096 = r.guardLow*4096 := mul64_of_lt (by omega)
  rw [Region.reservedBase,hmul,sub64_of_le hlow (by omega),Region.lo]

lemma Region.Placed.reservedEnd (h : r.Placed) : r.reservedEnd = r.hi := by
  have hlow := h.low
  have hhigh := h.high
  rw [Region.hi] at hhigh
  have hpages : r.reservedPages = r.guardLow+r.pages+r.guardHigh := by
    have hsum : add64 r.guardLow r.pages = r.guardLow+r.pages := add64_of_lt (by omega)
    rw [Region.reservedPages,hsum,add64_of_lt (by omega)]
  have hmul : mul64 r.reservedPages 4096 = (r.guardLow+r.pages+r.guardHigh)*4096 := by
    rw [hpages]
    exact mul64_of_lt (by omega)
  rw [Region.reservedEnd,h.reservedBase,hmul,Region.lo,Region.hi,add64_of_lt (by omega)]
  omega

lemma Region.Placed.bounds (h : r.Placed) :
    r.lo ≤ r.base ∧ r.base < r.usableEnd ∧ r.usableEnd ≤ r.hi := by
  have hpos := h.nonempty
  rw [h.usableEnd,Region.lo,Region.hi]
  omega

lemma Region.Placed.lo_lt_hi (h : r.Placed) : r.lo < r.hi := by
  have := h.bounds
  omega

lemma laid_append_cons {init : List Region} :
    Laid (init ++ r :: rest) ↔ Laid (init ++ rest) ∧ r.Placed ∧
      (∀ a ∈ init, a.hi ≤ r.lo) ∧ ∀ b ∈ rest, r.hi ≤ b.lo := by
  constructor
  · rintro ⟨hplaced,hord⟩
    rw [pairwise_append,pairwise_cons] at hord
    obtain ⟨hinit,⟨hhead,hrest⟩,hcross⟩ := hord
    refine ⟨⟨?_,?_⟩,hplaced r (by simp),fun a ha => hcross a ha r (by simp),hhead⟩
    · intro a ha
      refine hplaced a ?_
      rw [mem_append] at ha ⊢
      exact ha.imp id (mem_cons_of_mem r)
    · rw [pairwise_append]
      exact ⟨hinit,hrest,fun a ha b hb => hcross a ha b (mem_cons_of_mem r hb)⟩
  · rintro ⟨⟨hplaced,hord⟩,hr,hbefore,hafter⟩
    rw [pairwise_append] at hord
    refine ⟨?_,?_⟩
    · intro a ha
      rw [mem_append,mem_cons] at ha
      obtain ha | rfl | ha := ha
      · exact hplaced a (mem_append_left _ ha)
      · exact hr
      · exact hplaced a (mem_append_right _ ha)
    · rw [pairwise_append,pairwise_cons]
      refine ⟨hord.1,⟨hafter,hord.2.1⟩,?_⟩
      intro a ha b hb
      obtain rfl | hb := mem_cons.mp hb
      · exact hbefore a ha
      · exact hord.2.2 a ha b hb

namespace HostAddressSpace

/-! ### Coalescing -/

lemma coalescePush_cases (merged : List Region) (r : Region) :
    coalescePush merged r = merged ++ [r] ∨
      ∃ init last, merged = init ++ [last] ∧ last.usableEnd = r.base ∧ last.prot = r.prot ∧
        last.owned = r.owned ∧ last.guardHigh = 0 ∧ r.guardLow = 0 ∧
        coalescePush merged r =
          init ++ [{ last with pages := last.pages+r.pages, guardHigh := r.guardHigh }] := by
  rw [coalescePush]
  cases hlast : merged.getLast? with
  | none =>
    rw [getLast?_eq_none_iff.mp hlast]
    exact Or.inl rfl
  | some last =>
    have hsplit : merged.dropLast ++ [last] = merged :=
      dropLast_append_getLast? last hlast
    simp only
    split_ifs with hmerge
    · exact Or.inr ⟨merged.dropLast,last,hsplit.symm,hmerge.1,hmerge.2.1,hmerge.2.2.1,
        hmerge.2.2.2.1,hmerge.2.2.2.2,rfl⟩
    · exact Or.inl rfl

lemma coalescePush_cells (hm : ∀ a ∈ merged, a.Fits) (hr : r.Fits) :
    (∀ a ∈ coalescePush merged r, a.Fits) ∧
      cellsOf (coalescePush merged r) = cellsOf merged ++ r.cells := by
  obtain hpush | ⟨init,last,rfl,hadj,hprot,howned,-,-,hpush⟩ := coalescePush_cases merged r
  · rw [hpush,cellsOf_append,cellsOf_singleton]
    refine ⟨?_,rfl⟩
    intro a ha
    obtain ha | rfl := mem_append.mp ha |>.imp id mem_singleton.mp
    · exact hm a ha
    · exact hr
  · have hlast : last.Fits := hm last (by simp)
    rw [hlast.usableEnd] at hadj
    rw [hpush]
    refine ⟨?_,?_⟩
    · intro a ha
      obtain ha | rfl := mem_append.mp ha |>.imp id mem_singleton.mp
      · exact hm a (mem_append_left _ ha)
      · refine ⟨hlast.aligned,Nat.add_pos_left hlast.nonempty _,?_⟩
        have hcanon := hr.canonical
        show last.base+(last.pages+r.pages)*4096 ≤ 2^48
        omega
    · rw [cellsOf_append,cellsOf_singleton,cellsOf_append,cellsOf_singleton,append_assoc]
      congr 1
      show pageRun last.base (last.pages+r.pages) last.prot last.owned = _
      rw [pageRun_add,hadj,Region.cells,Region.cells,hprot,howned]

lemma coalesce_cells (h : ∀ a ∈ regions, a.Fits) :
    (∀ a ∈ coalesce regions, a.Fits) ∧ cellsOf (coalesce regions) = cellsOf regions := by
  have hfold : ∀ (l merged : List Region), (∀ a ∈ merged, a.Fits) → (∀ a ∈ l, a.Fits) →
      (∀ a ∈ l.foldl coalescePush merged, a.Fits) ∧
        cellsOf (l.foldl coalescePush merged) = cellsOf merged ++ cellsOf l := by
    intro l
    induction l with
    | nil =>
      intro merged hm _
      exact ⟨hm,(append_nil _).symm⟩
    | cons r l ih =>
      intro merged hm hl
      obtain ⟨hfits,hcells⟩ := coalescePush_cells hm (hl r mem_cons_self)
      obtain ⟨hfits',hcells'⟩ := ih _ hfits fun a ha => hl a (mem_cons_of_mem r ha)
      refine ⟨hfits',?_⟩
      rw [foldl_cons,hcells',hcells,cellsOf_cons,append_assoc]
  exact hfold regions [] (by simp) h

lemma coalescePush_laid (h : Laid (merged ++ r :: rest)) :
    Laid (coalescePush merged r ++ rest) := by
  obtain hpush | ⟨init,last,rfl,hadj,-,-,hhigh,hlow,hpush⟩ := coalescePush_cases merged r
  · rw [hpush,append_assoc]
    exact h
  · rw [hpush,append_assoc,singleton_append]
    obtain ⟨hwhole,hr,hbefore,hafter⟩ := laid_append_cons.mp h
    rw [append_assoc,singleton_append] at hwhole
    obtain ⟨hrest,hlast,hbefore',-⟩ := laid_append_cons.mp hwhole
    rw [hlast.usableEnd] at hadj
    -- The merged region reserves from the start of `last` to the end of `r`.
    have hhi : ({ last with pages := last.pages+r.pages, guardHigh := r.guardHigh } :
        Region).hi = r.hi := by
      show last.base+(last.pages+r.pages+r.guardHigh)*4096 = r.base+(r.pages+r.guardHigh)*4096
      lia
    have hcanon := hr.canonical
    refine laid_append_cons.mpr ⟨hrest,⟨⟨hlast.aligned,?_,?_⟩,hlast.low,?_⟩,hbefore',?_⟩
    · exact Nat.add_pos_left hlast.nonempty _
    · show last.base+(last.pages+r.pages)*4096 ≤ 2^48
      omega
    · rw [hhi]
      exact hr.high
    · rw [hhi]
      exact hafter

lemma coalesce_laid (h : Laid regions) : Laid (coalesce regions) := by
  have hfold : ∀ (l merged : List Region), Laid (merged ++ l) →
      Laid (l.foldl coalescePush merged) := by
    intro l
    induction l with
    | nil =>
      intro merged hm
      rwa [append_nil] at hm
    | cons r l ih =>
      intro merged hm
      exact ih _ (coalescePush_laid hm)
  exact hfold regions [] h

/-! ### Insertion -/

lemma insertRegion_eq (regions : List Region) (x : Region) :
    ∃ l l', regions = l ++ l' ∧ insertRegion regions x = l ++ x :: l' ∧
      (∀ a ∈ l, ¬ x.reservedBase < a.reservedBase) ∧
      ∀ b, l'.head? = some b → x.reservedBase < b.reservedBase := by
  refine ⟨_,_,(take_append_drop _ regions).symm,rfl,?_⟩
  induction regions with
  | nil => exact ⟨fun a ha => (nomatch ha),fun b hb => (nomatch hb)⟩
  | cons r l ih =>
    rw [findIdx_cons]
    by_cases hr : x.reservedBase < r.reservedBase
    · rw [decide_eq_true hr]
      refine ⟨fun a ha => (nomatch ha),?_⟩
      rintro b ⟨⟩
      exact hr
    · rw [decide_eq_false hr]
      refine ⟨?_,ih.2⟩
      intro a ha
      obtain rfl | ha := mem_cons.mp ha
      · exact hr
      · exact ih.1 a ha

lemma insertRegion_laid (h : Laid regions) (hx : x.Placed)
    (hdisj : ∀ r ∈ regions, r.hi ≤ x.lo ∨ x.hi ≤ r.lo) : Laid (insertRegion regions x) := by
  obtain ⟨l,l',rfl,hins,hbefore,hafter⟩ := insertRegion_eq regions x
  have hlt := hx.lo_lt_hi
  rw [hins]
  refine laid_append_cons.mpr ⟨h,hx,?_,?_⟩
  · intro a ha
    have hmem : a ∈ l ++ l' := mem_append_left _ ha
    have hle := hbefore a ha
    rw [hx.reservedBase,(h.placed a hmem).reservedBase] at hle
    have := hdisj a hmem
    omega
  · cases l' with
    | nil => exact fun b hb => (nomatch hb)
    | cons d tail =>
      have hd : d ∈ l ++ d :: tail := by simp
      have hfirst := hafter d rfl
      have hplaced := h.placed d hd
      rw [hx.reservedBase,hplaced.reservedBase] at hfirst
      have hd_lt := hplaced.lo_lt_hi
      have hxd : x.hi ≤ d.lo := by
        have := hdisj d hd
        omega
      intro b hb
      obtain rfl | hb := mem_cons.mp hb
      · exact hxd
      · have := (laid_append_cons.mp h).2.2.2 b hb
        omega

/-! ### Splitting -/

/-- The edited range `[os, oe)` is a non-empty range of whole usable pages of `r`. -/
structure EditRange (r : Region) (os oe : ℕ) : Prop where
  lower : r.base ≤ os
  nonempty : os < oe
  upper : oe ≤ r.usableEnd
  aligned : os%4096 = 0 ∧ oe%4096 = 0

variable {os oe a b : ℕ} {remove : Bool} {mid : Option UInt8}

lemma add_div_pages (ha : a%4096 = 0) (hb : b%4096 = 0) (hab : a ≤ b) :
    a+(b-a)/4096*4096 = b := by omega

lemma usableEnd_aligned (hr : r.Fits) : r.usableEnd%4096 = 0 := by
  have hal := hr.aligned
  rw [hr.usableEnd]
  omega

lemma usableEnd_sub_base (hr : r.Fits) : (r.usableEnd-r.base)/4096 = r.pages := by
  rw [hr.usableEnd,Nat.add_sub_cancel_left,Nat.mul_div_cancel _ (by decide)]

lemma pageRun_split (ha : a%4096 = 0) (hos : os%4096 = 0) (hb : b%4096 = 0) (hlo : a ≤ os)
    (hhi : os ≤ b) :
    pageRun a ((b-a)/4096) prot owned =
      pageRun a ((os-a)/4096) prot owned ++ pageRun os ((b-os)/4096) prot owned := by
  have hfirst := add_div_pages ha hos hlo
  have hpages : (b-a)/4096 = (os-a)/4096+(b-os)/4096 := by omega
  rw [hpages,pageRun_add,hfirst]

lemma EditRange.cells (he : EditRange r os oe) (hr : r.Fits) :
    r.cells = pageRun r.base ((os-r.base)/4096) r.prot r.owned ++
      (pageRun os ((oe-os)/4096) r.prot r.owned ++
        pageRun oe ((r.usableEnd-oe)/4096) r.prot r.owned) := by
  have hend := usableEnd_aligned hr
  have hle : os ≤ r.usableEnd := he.nonempty.le.trans he.upper
  rw [Region.cells,← usableEnd_sub_base hr,pageRun_split hr.aligned he.aligned.1 hend he.lower hle,
    pageRun_split he.aligned.1 he.aligned.2 hend he.nonempty.le he.upper]

lemma pageRun_of_le (h : b ≤ a) : pageRun a ((b-a)/4096) prot owned = [] := by
  rw [Nat.sub_eq_zero_of_le h]
  rfl

lemma survivors_cells (r : Region) (os oe : ℕ) (remove : Bool) (mid : Option UInt8) :
    cellsOf (survivors r os oe remove mid) =
      pageRun r.base ((os-r.base)/4096) r.prot r.owned ++
        ((if remove then [] else pageRun os ((oe-os)/4096) (mid.getD r.prot) r.owned) ++
          pageRun oe ((r.usableEnd-oe)/4096) r.prot r.owned) := by
  rw [survivors,cellsOf_append,cellsOf_append,append_assoc]
  congr 1
  · by_cases h : r.base < os
    · rw [if_pos h,cellsOf_singleton]
      rfl
    · rw [if_neg h,pageRun_of_le (Nat.not_lt.mp h)]
      rfl
  congr 1
  · cases remove with
    | true => rfl
    | false => exact cellsOf_singleton _
  · by_cases h : oe < r.usableEnd
    · rw [if_pos h,cellsOf_singleton]
      rfl
    · rw [if_neg h,pageRun_of_le (Nat.not_lt.mp h)]
      rfl

def slice (a b guardLow guardHigh : ℕ) (prot : UInt8) (owned : Bool) : Region :=
  ⟨a,(b-a)/4096,guardLow,guardHigh,prot,owned⟩

variable {gl gh : ℕ}

lemma slice_fits (ha : a%4096 = 0) (hb : b%4096 = 0) (hab : a < b)
    (hcanon : b ≤ 2^48) : (slice a b gl gh prot owned).Fits := by
  have hend := add_div_pages ha hb hab.le
  refine ⟨ha,?_,?_⟩
  · show 0 < (b-a)/4096
    omega
  · show a+(b-a)/4096*4096 ≤ 2^48
    rw [hend]
    exact hcanon

lemma slice_hi (ha : a%4096 = 0) (hb : b%4096 = 0) (hab : a ≤ b) :
    (slice a b gl gh prot owned).hi = b+gh*4096 := by
  show a+((b-a)/4096+gh)*4096 = _
  rw [add_mul,← add_assoc,add_div_pages ha hb hab]

lemma survivors_eq (r : Region) (os oe : ℕ) (remove : Bool) (mid : Option UInt8) :
    survivors r os oe remove mid =
      (if r.base < os then [slice r.base os r.guardLow 0 r.prot r.owned] else []) ++
      ((if remove then [] else [slice os oe 0 0 (mid.getD r.prot) r.owned]) ++
        (if oe < r.usableEnd then [slice oe r.usableEnd 0 r.guardHigh r.prot r.owned]
          else [])) := by
  rw [survivors,append_assoc]
  rfl

lemma mem_survivors : x ∈ survivors r os oe remove mid ↔
      (r.base < os ∧ x = slice r.base os r.guardLow 0 r.prot r.owned) ∨
      (remove = false ∧ x = slice os oe 0 0 (mid.getD r.prot) r.owned) ∨
      (oe < r.usableEnd ∧ x = slice oe r.usableEnd 0 r.guardHigh r.prot r.owned) := by
  rw [survivors_eq,mem_append,mem_append]
  refine or_congr ?_ (or_congr ?_ ?_)
  · by_cases h : r.base < os <;> simp [h]
  · cases remove <;> simp
  · by_cases h : oe < r.usableEnd <;> simp [h]

lemma survivors_fits (he : EditRange r os oe) (hr : r.Fits)
    (hx : x ∈ survivors r os oe remove mid) : x.Fits := by
  have hcanon : r.usableEnd ≤ 2^48 := by
    rw [hr.usableEnd]
    exact hr.canonical
  obtain ⟨hlt,rfl⟩ | ⟨-,rfl⟩ | ⟨hlt,rfl⟩ := mem_survivors.mp hx
  · exact slice_fits hr.aligned he.aligned.1 hlt (he.nonempty.le.trans (he.upper.trans hcanon))
  · exact slice_fits he.aligned.1 he.aligned.2 he.nonempty (he.upper.trans hcanon)
  · exact slice_fits he.aligned.2 (usableEnd_aligned hr) hlt hcanon

lemma slice_placed (ha : a%4096 = 0) (hb : b%4096 = 0) (hab : a < b)
    (hlow : gl*4096 ≤ a) (hhigh : b+gh*4096 ≤ 2^48) :
    (slice a b gl gh prot owned).Placed := by
  refine ⟨slice_fits ha hb hab (by omega),hlow,?_⟩
  rw [slice_hi ha hb hab.le]
  exact hhigh

lemma slice_lo : (slice a b gl gh prot owned).lo = a-gl*4096 := rfl

lemma survivors_laid (he : EditRange r os oe) (hr : r.Placed) :
    Laid (survivors r os oe remove mid) ∧
      ∀ x ∈ survivors r os oe remove mid, r.lo ≤ x.lo ∧ x.hi ≤ r.hi := by
  obtain ⟨hlo,hne,hup,hos,hoe⟩ := he
  have hEnd := usableEnd_aligned hr.toFits
  have hbounds := hr.bounds
  have hlow := hr.low
  have hhigh := hr.high
  have hrhi : r.hi = r.usableEnd+r.guardHigh*4096 := by
    rw [hr.usableEnd,Region.hi]
    omega
  have hfirst : (slice r.base os r.guardLow 0 r.prot r.owned).hi = os := by
    rw [slice_hi hr.aligned hos hlo,zero_mul,add_zero]
  have hmid : (slice os oe 0 0 (mid.getD r.prot) r.owned).hi = oe := by
    rw [slice_hi hos hoe hne.le,zero_mul,add_zero]
  have hlast : (slice oe r.usableEnd 0 r.guardHigh r.prot r.owned).hi = r.hi := by
    rw [slice_hi hoe hEnd hup,hrhi]
  refine ⟨⟨?_,?_⟩,?_⟩
  · intro x hx
    obtain ⟨hlt,rfl⟩ | ⟨-,rfl⟩ | ⟨hlt,rfl⟩ := mem_survivors.mp hx
    · exact slice_placed hr.aligned hos hlt hlow (by lia)
    · exact slice_placed hos hoe hne (by lia) (by lia)
    · exact slice_placed hoe hEnd hlt (by lia) (by lia)
  · rw [survivors_eq]
    split_ifs <;> simp [hfirst,hmid,slice_lo,hne.le]
  · intro x hx
    obtain ⟨-,rfl⟩ | ⟨-,rfl⟩ | ⟨-,rfl⟩ := mem_survivors.mp hx
    · rw [hfirst]
      exact ⟨le_rfl,by omega⟩
    · rw [hmid,slice_lo]
      exact ⟨by omega,by omega⟩
    · rw [hlast,slice_lo]
      exact ⟨by omega,le_rfl⟩

def pieces (start last : ℕ) (remove : Bool) (mid : Option UInt8) (r : Region) : List Region :=
  if min last r.usableEnd ≤ max start r.base then [r]
  else survivors r (max start r.base) (min last r.usableEnd) remove mid

variable {start last : ℕ}

lemma editRange_of_lt (hr : r.Fits) (hstart : start%4096 = 0) (hlast : last%4096 = 0)
    (h : ¬ min last r.usableEnd ≤ max start r.base) :
    EditRange r (max start r.base) (min last r.usableEnd) := by
  have hal := hr.aligned
  have hEnd := usableEnd_aligned hr
  refine ⟨Nat.le_max_right _ _,Nat.not_le.mp h,Nat.min_le_right _ _,?_,?_⟩
  · obtain hmax | hmax := max_choice start r.base <;> rw [hmax] <;> assumption
  · obtain hmin | hmin := min_choice last r.usableEnd <;> rw [hmin] <;> assumption

lemma pieces_fits (hr : r.Fits) (hstart : start%4096 = 0) (hlast : last%4096 = 0)
    (hx : x ∈ pieces start last remove mid r) : x.Fits := by
  rw [pieces] at hx
  split_ifs at hx with h
  · rw [mem_singleton.mp hx]
    exact hr
  · exact survivors_fits (editRange_of_lt hr hstart hlast h) hr hx

lemma pieces_piece (hstart : start%4096 = 0) (hlast : last%4096 = 0) (hr : r.Placed) :
    Laid (pieces start last remove mid r) ∧
      ∀ x ∈ pieces start last remove mid r, r.lo ≤ x.lo ∧ x.hi ≤ r.hi := by
  rw [pieces]
  split_ifs with hout
  · refine ⟨⟨?_,pairwise_singleton _ _⟩,?_⟩
    · intro x hx
      rw [mem_singleton.mp hx]
      exact hr
    · intro x hx
      rw [mem_singleton.mp hx]
      exact ⟨le_rfl,le_rfl⟩
  · exact survivors_laid (editRange_of_lt hr.toFits hstart hlast hout) hr

lemma pieces_laid (hstart : start%4096 = 0) (hlast : last%4096 = 0) (h : Laid regions) :
    Laid (regions.flatMap (pieces start last remove mid)) := by
  have hpiece := fun r hr => @pieces_piece r remove mid start last hstart hlast (h.placed r hr)
  refine ⟨?_,?_⟩
  · intro x hx
    obtain ⟨r,hr,hx⟩ := mem_flatMap.mp hx
    exact (hpiece r hr).1.placed x hx
  · rw [pairwise_flatMap]
    refine ⟨fun r hr => (hpiece r hr).1.ordered,?_⟩
    refine h.ordered.imp_of_mem ?_
    intro r r' hr hr' hrr' x hx y hy
    exact ((hpiece r hr).2 x hx).2.trans (hrr'.trans ((hpiece r' hr').2 y hy).1)

/-! ### Placement
-/

section Placement
variable {s : HostAddressSpace} {len cursor c : ℕ}

lemma scanGap_spec (h : Laid regions) (hcursor : cursor%4096 = 0) :
    match scanGap len cursor regions with
    | .ok c => c%4096 = 0 ∧ cursor ≤ c ∧ (∃ r ∈ regions, c+len ≤ r.lo) ∧
        ∀ r ∈ regions, r.hi ≤ c ∨ c+len ≤ r.lo
    | .error c => c%4096 = 0 ∧ cursor ≤ c ∧ ∀ r ∈ regions, r.hi ≤ c := by
  induction regions generalizing cursor with
  | nil => exact ⟨hcursor,le_rfl,fun r hr => (nomatch hr)⟩
  | cons r rest ih =>
    obtain ⟨hrest,hr,-,hafter⟩ := laid_append_cons.mp (show Laid ([] ++ r :: rest) from h)
    have hlt := hr.lo_lt_hi
    rw [scanGap,hr.reservedBase,hr.reservedEnd]
    by_cases hgap : cursor < r.lo ∧ len ≤ r.lo-cursor
    · rw [if_pos hgap]
      refine ⟨hcursor,le_rfl,⟨r,mem_cons_self,by omega⟩,?_⟩
      intro b hb
      obtain rfl | hb := mem_cons.mp hb
      · exact Or.inr (by omega)
      · have := hafter b hb
        exact Or.inr (by omega)
    · rw [if_neg hgap]
      have hnext : (if cursor < r.hi then r.hi else cursor) = max cursor r.hi := by
        rw [max_def_lt]
      have haligned : max cursor r.hi%4096 = 0 := by
        have hal := hr.aligned
        rw [Region.hi]
        omega
      have hstep := ih hrest haligned
      rw [hnext]
      cases hscan : scanGap len (max cursor r.hi) rest with
      | ok c =>
        rw [hscan] at hstep
        obtain ⟨hc,hle,⟨x,hx,hfit⟩,hclear⟩ := hstep
        refine ⟨hc,by omega,⟨x,mem_cons_of_mem r hx,hfit⟩,?_⟩
        intro b hb
        obtain rfl | hb := mem_cons.mp hb
        · exact Or.inl (by omega)
        · exact hclear b hb
      | error c =>
        rw [hscan] at hstep
        obtain ⟨hc,hle,hclear⟩ := hstep
        refine ⟨hc,by omega,?_⟩
        intro b hb
        obtain rfl | hb := mem_cons.mp hb
        · omega
        · exact hclear b hb

/-- An aligned extent of `pages` pages from `c` on, clear of every recorded extent. -/
structure Clear (s : HostAddressSpace) (c pages : ℕ) : Prop where
  aligned : c%4096 = 0
  canonical : c+pages*4096 ≤ 2^48
  disjoint : ∀ r ∈ s.mappings, r.hi ≤ c ∨ c+pages*4096 ≤ r.lo

variable {pages last : ℕ}

lemma findFreeVa_clear (h : Laid s.mappings) (hbase : s.vaBase%4096 = 0)
    (hlimit : s.vaLimit ≤ 2^48) (hfind : s.findFreeVa pages = .ok c) : Clear s c pages := by
  have hscan := @scanGap_spec s.mappings (pages*4096) s.vaBase h hbase
  simp only [findFreeVa,bind_eq_ok,ofOption_eq_ok,checkedMul64_eq_some] at hfind
  obtain ⟨_,⟨-,rfl⟩,hfind⟩ := hfind
  cases hres : scanGap (pages*4096) s.vaBase s.mappings with
  | ok c' =>
    rw [hres] at hscan hfind
    cases hfind
    obtain ⟨hal,-,⟨r,hr,hfit⟩,hclear⟩ := hscan
    have hlt := (h.placed r hr).lo_lt_hi
    have hhigh := (h.placed r hr).high
    exact ⟨hal,by omega,hclear⟩
  | error c' =>
    rw [hres] at hscan hfind
    simp only [bind_eq_ok,ensure_eq_ok,pure_eq_ok] at hfind
    obtain ⟨-,hfit,rfl⟩ := hfind
    refine ⟨hscan.1,?_,fun r hr => Or.inl (hscan.2.2 r hr)⟩
    have hfit : c' ≤ s.vaLimit ∧ pages*4096 ≤ s.vaLimit-c' := hfit
    omega

lemma checkNoOverlap_eq_ok {u : Unit} (h : Laid s.mappings) :
    s.checkNoOverlap base last = .ok u ↔ ∀ r ∈ s.mappings, r.hi ≤ base ∨ last ≤ r.lo := by
  rw [checkNoOverlap,ensure_eq_ok]
  refine forall₂_congr fun r hr => ?_
  rw [(h.placed r hr).reservedEnd,(h.placed r hr).reservedBase]
  omega

lemma mmapBase_clear {opts : MmapOptions} (h : Laid s.mappings)
    (hbase : s.vaBase%4096 = 0) (hlimit : s.vaLimit ≤ 2^48)
    (hguard : opts.guard.low+opts.guard.high < 2^64)
    (hplace : s.mmapBase pages opts = .ok c) :
    Clear s c (opts.guard.low+opts.guard.high+pages) := by
  have hcount : opts.guard.count = opts.guard.low+opts.guard.high := add64_of_lt hguard
  simp only [mmapBase,hcount,bind_eq_ok,ensure_eq_ok,ofOption_eq_ok,
    checkedAdd64_eq_some,checkedMul64_eq_some] at hplace
  obtain ⟨-,-,_,⟨-,rfl⟩,_,⟨-,rfl⟩,hplace⟩ := hplace
  cases hva : opts.va with
  | none =>
    rw [hva] at hplace
    exact findFreeVa_clear h hbase hlimit hplace
  | some b =>
    rw [hva] at hplace
    simp only [bind_eq_ok,ensure_eq_ok,ofOption_eq_ok,
      checkedAdd64_eq_some,pure_eq_ok,validateVa_eq_ok] at hplace
    obtain ⟨_,⟨haligned,-⟩,_,⟨-,rfl⟩,_,hin,_,hclear,rfl⟩ := hplace
    exact ⟨haligned,hin.trans hlimit,(checkNoOverlap_eq_ok h).mp hclear⟩

end Placement
end HostAddressSpace
end Enlil.Memory
