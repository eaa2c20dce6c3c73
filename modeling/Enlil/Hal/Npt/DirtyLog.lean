import Enlil.Hal.Npt.DirtyLog.Defs

/-! # No dirty page is lost -/

namespace Enlil.Npt
open Word List Buf Prog Bitmap NptDirtyLog Flags Nat
variable {buf : Buf} {physBase gpa : ℕ}

/-! ### Toggling one leaf -/

def withWritable (e : ℕ) (w : Bool) : ℕ :=
  if w then e ||| writable else e &&& not64 writable

section Toggle
variable {e k : ℕ} {w : Bool}

lemma withWritable_and (hset : writable &&& k = 0)
    (hclear : not64 writable &&& k = k) : withWritable e w &&& k = e &&& k := by
  cases w with
  | true =>
    show (e ||| writable) &&& k = _
    rw [and_or_distrib_right,hset,or_zero]
  | false =>
    show e &&& not64 writable &&& k = _
    rw [Nat.and_assoc,hclear]

lemma withWritable_present : withWritable e w &&& present = e &&& present :=
  withWritable_and (by decide) (by decide)

lemma withWritable_huge : withWritable e w &&& hugePage = e &&& hugePage :=
  withWritable_and (by decide) (by decide)

lemma withWritable_writable : withWritable e w &&& writable ≠ 0 ↔ w = true := by
  cases w with
  | true =>
    show (e ||| writable) &&& writable ≠ 0 ↔ _
    rw [and_or_distrib_right,Nat.and_self]
    have hle : writable ≤ e &&& writable ||| writable := right_le_or
    exact iff_of_true (Nat.pos_iff_ne_zero.mp (lt_of_lt_of_le (by decide) hle)) rfl
  | false =>
    show e &&& not64 writable &&& writable ≠ 0 ↔ _
    rw [Nat.and_assoc,show not64 writable &&& writable = 0 by decide,and_zero]
    decide

lemma withWritable_lt (he : e < 2^64) : withWritable e w < 2^64 := by
  cases w with
  | true => exact or_lt_two_pow he (by decide)
  | false => exact lt_of_le_of_lt and_le_left he

end Toggle

structure IsLeaf (buf : Buf) (off : ℕ) : Prop where
  aligned : off%8 = 0
  inside : off+8 ≤ buf.len
  present : buf.readLE off 8 &&& present ≠ 0
  huge : buf.readLE off 8 &&& hugePage ≠ 0

variable {t i off e : ℕ}

lemma childOffset_aligned (hbase : physBase%4096 = 0)
    (h : childOffset buf physBase t i = .ok off) : off%4096 = 0 := by
  obtain ⟨-,-,-,hle,-,rfl⟩ := childOffset_eq_ok.mp h
  rw [and_addrMask] at hle ⊢
  omega

variable {off : ℕ}

lemma leafOff_eq_ok : leafOff buf physBase gpa = .ok off ↔
      ∃ pdptOff pdOff, childOffset buf physBase 0 (pml4Index gpa) = .ok pdptOff ∧
        childOffset buf physBase pdptOff (pdptIndex gpa) = .ok pdOff ∧
        pdOff+pdIndex gpa*8 = off := by
  simp only [leafOff,bind,Except.bind]
  cases h1 : childOffset buf physBase 0 (pml4Index gpa) with
  | error e => simp
  | ok pdptOff =>
    cases h2 : childOffset buf physBase pdptOff (pdptIndex gpa) with
    | error e => simp [h2]
    | ok pdOff => simp [h2]

lemma leafOff_aligned (hbase : physBase%4096 = 0)
    (h : leafOff buf physBase gpa = .ok off) : off%8 = 0 := by
  obtain ⟨pdptOff,pdOff,-,h2,rfl⟩ := leafOff_eq_ok.mp h
  have := childOffset_aligned hbase h2
  omega

lemma childOffset_toggle (hleaf : IsLeaf buf off)
    (he : withWritable (buf.readLE off 8) w = e) (ht : t%8 = 0) :
    childOffset (buf.writeLE off 8 e) physBase t i = childOffset buf physBase t i := by
  have haligned := hleaf.aligned
  by_cases h : t+i*8 = off
  · subst h
    subst he
    have hread : (buf.writeLE (t+i*8) 8 (withWritable (buf.readLE (t+i*8) 8) w)).readLE (t+i*8) 8 =
        withWritable (buf.readLE (t+i*8) 8) w :=
      readLE_writeLE (withWritable_lt readLE_lt)
    rw [childOffset,childOffset,readEntry,readEntry,len_writeLE,if_pos hleaf.inside,
      if_pos hleaf.inside,hread]
    simp only [bind,Except.bind,withWritable_present,withWritable_huge,if_neg hleaf.present,
      if_pos hleaf.huge]
  · rw [childOffset,childOffset,readEntry,readEntry,len_writeLE,
      readLE_writeLE_of_disjoint (by omega)]

lemma leafOff_toggle (hbase : physBase%4096 = 0) (hleaf : IsLeaf buf off)
    (he : withWritable (buf.readLE off 8) w = e) :
    leafOff (buf.writeLE off 8 e) physBase gpa = leafOff buf physBase gpa := by
  simp only [leafOff,bind,Except.bind,childOffset_toggle hleaf he (zero_mod 8)]
  cases h1 : childOffset buf physBase 0 (pml4Index gpa) with
  | error e => simp only
  | ok pdptOff =>
    have hal := childOffset_aligned hbase h1
    simp only [childOffset_toggle hleaf he (show pdptOff%8 = 0 by omega)]

lemma wp_setNpt2mibLeafWritable (hgpa : gpa%2^21 = 0)
    (hoff : leafOff buf physBase gpa = .ok off) (hleaf : IsLeaf buf off) (w : Bool) :
    (setNpt2mibLeafWritable physBase gpa w).wp buf
      (fun _ b => buf.writeLE off 8 (withWritable (buf.readLE off 8) w) = b)
      (fun _ _ => False) := by
  obtain ⟨pdptOff,pdOff,h1,h2,rfl⟩ := leafOff_eq_ok.mp hoff
  have hread : readEntry buf (pdOff+pdIndex gpa*8) =
      .ok (buf.readLE (pdOff+pdIndex gpa*8) 8) := if_pos hleaf.inside
  rw [← and_huge2mib_sub_one] at hgpa
  simp only [setNpt2mibLeafWritable,wp_bind,wp_ensure,hgpa,wp_gets,id,h1,h2,
    hread,wp_ofExcept,Except.ok.injEq,forall_eq',reduceCtorEq,implies_true,and_true,
    hleaf.present,hleaf.huge,ne_eq,not_false_eq_true,and_self,forall_const,not_true_eq_false,
    false_implies,wp_writeEntry]
  exact ⟨hleaf.inside,rfl⟩

/-! ### The log as a set of pages -/

namespace NptDirtyLog
variable {log : NptDirtyLog} {i j g : ℕ}
section
variable (log : NptDirtyLog)

def pageGpa (i : ℕ) : ℕ := log.baseGpa+i*2^21

def bit (i : ℕ) : Bool := Bitmap.bit log.bits i

lemma base_mod : log.baseGpa%2^21 = 0 := by
  rw [← and_huge2mib_sub_one]
  exact log.aligned

lemma pageGpa_mod (i : ℕ) : log.pageGpa i%2^21 = 0 := by
  have := log.base_mod
  rw [pageGpa]
  omega

end

lemma pageGpa_lt (hi : i < log.numPages) : log.pageGpa i+2^21 < 2^64 := by
  have hrange : log.baseGpa+log.numPages*2^21 < 2^64 := log.inRange
  rw [pageGpa]
  lia

lemma numPages_le (log : NptDirtyLog) : log.numPages ≤ 64*log.bits.length := by
  have hcover := divCeil_mul_ge log.numPages (b := 64) (by decide)
  have henough : divCeil log.numPages 64 ≤ log.bits.length := log.enough
  omega

lemma word_lt (hi : i < log.numPages) : i/64 < log.bits.length := by
  have := log.numPages_le
  omega

lemma mask_eq_zero : log.wordAt (i/64) &&& (1 <<< (i%64)) = 0 ↔ log.bit i = false :=
  and_one_shiftLeft_eq_zero

lemma pageIndex_eq_some : log.pageIndex g = some i ↔
    i < log.numPages ∧ log.pageGpa i ≤ g ∧ g < log.pageGpa i+2^21 := by
  have hdef : log.pageIndex g = if g < log.baseGpa then none
      else if (g-log.baseGpa)/2^21 < log.numPages then some ((g-log.baseGpa)/2^21)
      else none := rfl
  rw [hdef,pageGpa]
  by_cases hlt : g < log.baseGpa
  · rw [if_pos hlt]
    simp only [reduceCtorEq,false_iff]
    omega
  · rw [if_neg hlt]
    by_cases hpage : (g-log.baseGpa)/2^21 < log.numPages
    · rw [if_pos hpage,Option.some.injEq]
      omega
    · rw [if_neg hpage]
      simp only [reduceCtorEq,false_iff]
      omega

lemma pageIndex_pageGpa (hi : i < log.numPages) : log.pageIndex (log.pageGpa i) = some i :=
  pageIndex_eq_some.mpr ⟨hi,le_rfl,by omega⟩

lemma dirtyPages_eq (log : NptDirtyLog) :
    log.dirtyPages = ((List.range log.numPages).filter log.bit).map log.pageGpa := by
  have hterm : ∀ page ∈ List.range log.numPages,
      (if log.wordAt (page/64) &&& (1 <<< (page%64)) = 0 then none
        else checkedAdd64 log.baseGpa (page*huge2mib)) =
      if log.bit page = true then some (log.pageGpa page) else none := by
    intro page hpage
    have hlt := pageGpa_lt (mem_range.mp hpage)
    cases hbit : log.bit page with
    | false => rw [if_pos (mask_eq_zero.mpr hbit),if_neg Bool.false_ne_true]
    | true =>
      have hne : ¬ log.wordAt (page/64) &&& (1 <<< (page%64)) = 0 := by
        rw [mask_eq_zero,hbit]
        decide
      rw [if_neg hne,if_pos rfl]
      refine checkedAdd64_of_lt ?_
      show log.baseGpa+page*2^21 < 2^64
      rw [pageGpa] at hlt
      omega
  rw [dirtyPages]
  refine (filterMap_congr hterm).trans ?_
  rw [← filterMap_eq_map,filterMap_filter]
  rfl

lemma mem_dirtyPages : g ∈ log.dirtyPages ↔
    ∃ i < log.numPages, log.bit i = true ∧ log.pageGpa i = g := by
  rw [dirtyPages_eq]
  simp [and_assoc]

lemma pairwise_dirtyPages (log : NptDirtyLog) : log.dirtyPages.Pairwise (· < ·) := by
  rw [dirtyPages_eq,pairwise_map]
  refine List.Pairwise.imp ?_ (pairwise_lt_range.filter _)
  intro a b hab
  rw [pageGpa,pageGpa]
  omega

/-- Bits past the tracked pages do not disturb the count as long as they are clear. -/
lemma dirtyPageCount_eq (hslack : ∀ i, log.numPages ≤ i → log.bit i = false) :
    log.dirtyPageCount = log.dirtyPages.length := by
  obtain ⟨k,hk⟩ := Nat.exists_eq_add_of_le log.numPages_le
  have htail : ((List.range k).map (log.numPages+·)).countP (Bitmap.bit log.bits) = 0 := by
    refine countP_eq_zero.mpr fun i hi => ?_
    obtain ⟨j,-,rfl⟩ := List.mem_map.mp hi
    have := hslack (log.numPages+j) (le_add_right _ _)
    rw [bit] at this
    simp [this]
  rw [dirtyPageCount,sum_countOnes,hk,range_add,countP_append,htail,
    dirtyPages_eq,length_map,← countP_eq_length_filter]
  rfl

lemma record_spec (hi : i < log.numPages) :
    ∃ fresh log', log.record (log.pageGpa i) = .ok (fresh,log') ∧
      log'.baseGpa = log.baseGpa ∧ log'.numPages = log.numPages ∧
      ∀ j, log'.bit j = (log.bit j || decide (j = i)) := by
  rw [record,pageIndex_pageGpa hi]
  exact ⟨_,_,rfl,rfl,rfl,fun j => bit_set (word_lt hi)⟩

end NptDirtyLog

/-! ### The invariant
-/

/-- The tables give every tracked page a present 2 MiB leaf of its own. -/
structure Geometry (npt : Buf) (physBase : ℕ) (log : NptDirtyLog) : Prop where
  base : physBase%4096 = 0
  leaf : ∀ i < log.numPages, ∃ off, leafOff npt physBase (log.pageGpa i) = .ok off ∧ IsLeaf npt off
  distinct : ∀ i < log.numPages, ∀ j < log.numPages, ∀ off,
    leafOff npt physBase (log.pageGpa i) = .ok off →
    leafOff npt physBase (log.pageGpa j) = .ok off → i = j

def LeafWritable (npt : Buf) (physBase gpa : ℕ) : Prop :=
  ∃ off, leafOff npt physBase gpa = .ok off ∧ npt.readLE off 8 &&& writable ≠ 0

variable {log : NptDirtyLog}

lemma Geometry.wp_set {npt : Buf} (h : Geometry npt physBase log)
    (hi : i < log.numPages) (w : Bool) :
    (setNpt2mibLeafWritable physBase (log.pageGpa i) w).wp npt
      (fun _ t => Geometry t physBase log ∧ ∀ j < log.numPages,
        (LeafWritable t physBase (log.pageGpa j) ↔
          if j = i then w = true else LeafWritable npt physBase (log.pageGpa j)))
      (fun _ _ => False) := by
  obtain ⟨off,hoff,hleaf⟩ := h.leaf i hi
  refine (wp_setNpt2mibLeafWritable (log.pageGpa_mod i) hoff hleaf w).mono ?_ fun _ _ h => h
  rintro _ _ rfl
  have hmove : ∀ g, leafOff (npt.writeLE off 8 (withWritable (npt.readLE off 8) w)) physBase g =
      leafOff npt physBase g := fun g => leafOff_toggle h.base hleaf rfl
  have hself : (npt.writeLE off 8 (withWritable (npt.readLE off 8) w)).readLE off 8 =
      withWritable (npt.readLE off 8) w := readLE_writeLE (withWritable_lt readLE_lt)
  have hother : ∀ {off'}, off'%8 = 0 → off' ≠ off →
      (npt.writeLE off 8 (withWritable (npt.readLE off 8) w)).readLE off' 8 =
        npt.readLE off' 8 := by
    intro off' hal hne
    have := hleaf.aligned
    exact readLE_writeLE_of_disjoint (by omega)
  refine ⟨⟨h.base,?_,?_⟩,?_⟩
  · intro j hj
    obtain ⟨off',hoff',hleaf'⟩ := h.leaf j hj
    refine ⟨off',(hmove _).trans hoff',hleaf'.aligned,hleaf'.inside,?_,?_⟩
    · by_cases heq : off' = off
      · rw [heq,hself,withWritable_present]
        exact hleaf.present
      · rw [hother hleaf'.aligned heq]
        exact hleaf'.present
    · by_cases heq : off' = off
      · rw [heq,hself,withWritable_huge]
        exact hleaf.huge
      · rw [hother hleaf'.aligned heq]
        exact hleaf'.huge
  · intro j hj k hk off' hj' hk'
    rw [hmove] at hj' hk'
    exact h.distinct j hj k hk off' hj' hk'
  · intro j hj
    simp only [LeafWritable,hmove]
    by_cases hji : j = i
    · subst hji
      rw [if_pos rfl]
      constructor
      · rintro ⟨off',hoff',hw⟩
        cases hoff.symm.trans hoff'
        rw [hself] at hw
        exact withWritable_writable.mp hw
      · intro hw
        refine ⟨off,hoff,?_⟩
        rw [hself]
        exact withWritable_writable.mpr hw
    · rw [if_neg hji]
      have hne : ∀ {off'}, leafOff npt physBase (log.pageGpa j) = .ok off' → off' ≠ off :=
        fun hoff' heq => hji (h.distinct j hj i hi off (heq ▸ hoff') hoff)
      constructor
      · rintro ⟨off',hoff',hw⟩
        rw [hother (leafOff_aligned h.base hoff') (hne hoff')] at hw
        exact ⟨off',hoff',hw⟩
      · rintro ⟨off',hoff',hw⟩
        refine ⟨off',hoff',?_⟩
        rw [hother (leafOff_aligned h.base hoff') (hne hoff')]
        exact hw

lemma Geometry.wp_reprotectPages (pages : List ℕ)
    (hpages : ∀ g ∈ pages, ∃ i < log.numPages, log.pageGpa i = g) (count : ℕ) {npt : Buf}
    (h : Geometry npt physBase log) :
    (reprotectPages physBase pages count).wp npt
      (fun _ t => Geometry t physBase log ∧ ∀ j < log.numPages,
        LeafWritable t physBase (log.pageGpa j) →
          LeafWritable npt physBase (log.pageGpa j) ∧ log.pageGpa j ∉ pages)
      (fun _ _ => False) := by
  induction pages generalizing npt count with
  | nil => exact ⟨h,fun j _ hw => ⟨hw,not_mem_nil⟩⟩
  | cons g pages ih =>
    obtain ⟨i,hi,rfl⟩ := hpages g mem_cons_self
    rw [reprotectPages,wp_bind]
    refine (h.wp_set hi false).mono ?_ fun _ _ h => h
    rintro _ t ⟨ht,hset⟩
    refine (ih (fun g hg => hpages g (mem_cons_of_mem _ hg)) (count+1) ht).mono ?_ fun _ _ h => h
    rintro _ u ⟨hu,hrest⟩
    refine ⟨hu,fun j hj hw => ?_⟩
    obtain ⟨hwt,hnot⟩ := hrest j hj hw
    have hji : j ≠ i := by
      rintro rfl
      have := (hset j hj).mp hwt
      rw [if_pos rfl] at this
      cases this
    have hwn := (hset j hj).mp hwt
    rw [if_neg hji] at hwn
    refine ⟨hwn,?_⟩
    rw [mem_cons,not_or]
    refine ⟨fun heq => hji ?_,hnot⟩
    rw [pageGpa,pageGpa] at heq
    omega

namespace Tracked
variable {σ σ' : Tracked}

structure Inv (σ : Tracked) : Prop where
  geometry : Geometry σ.npt σ.physBase σ.log
  recorded : ∀ i < σ.log.numPages,
    LeafWritable σ.npt σ.physBase (σ.log.pageGpa i) → σ.log.bit i = true
  slack : ∀ i, σ.log.numPages ≤ i → σ.log.bit i = false
  history : ∀ g ∈ σ.written, ∃ i < σ.log.numPages, σ.log.pageGpa i = g ∧ σ.log.bit i = true

def SameRange (log log' : NptDirtyLog) : Prop :=
  log'.baseGpa = log.baseGpa ∧ log'.numPages = log.numPages

variable {log log' : NptDirtyLog}

lemma SameRange.pageGpa (h : SameRange log log') (i : ℕ) :
    log'.pageGpa i = log.pageGpa i := by
  rw [NptDirtyLog.pageGpa,NptDirtyLog.pageGpa,h.1]

lemma SameRange.pageIndex (h : SameRange log log') (g : ℕ) :
    log'.pageIndex g = log.pageIndex g := by
  rw [NptDirtyLog.pageIndex,NptDirtyLog.pageIndex,h.1,h.2]

lemma Geometry.congr_log {npt : Buf} (h : Geometry npt physBase log)
    (hsame : SameRange log log') : Geometry npt physBase log' := by
  refine ⟨h.base,?_,?_⟩
  · intro i hi
    rw [hsame.pageGpa]
    exact h.leaf i (hsame.2 ▸ hi)
  · intro i hi j hj off
    rw [hsame.pageGpa,hsame.pageGpa]
    exact h.distinct i (hsame.2 ▸ hi) j (hsame.2 ▸ hj) off

def InRange (log : NptDirtyLog) : TrackEvent → Prop
  | .write gpa => ∃ i, log.pageIndex gpa = some i
  | _ => True

variable {g off gpa i baseGpa numPages : ℕ}

lemma leafEntry_eq (hoff : leafOff σ.npt σ.physBase g = .ok off)
    (hleaf : IsLeaf σ.npt off) : σ.leafEntry g = .ok (σ.npt.readLE off 8) := by
  rw [leafEntry,hoff]
  simp only [bind,Except.bind]
  rw [readEntry,if_pos hleaf.inside]

lemma write_spec (h : Inv σ) (hgpa : σ.log.pageIndex gpa = some i) :
    ∃ σ', σ.write gpa = some σ' ∧ Inv σ' ∧ SameRange σ.log σ'.log := by
  obtain ⟨hi,hlo,hhi⟩ := pageIndex_eq_some.mp hgpa
  have hbound := pageGpa_lt hi
  have hmod := σ.log.pageGpa_mod i
  have hpage : gpa &&& not64 (huge2mib-1) = σ.log.pageGpa i := by
    have hlow : gpa &&& not64 (huge2mib-1) = gpa/2^21*2^21 :=
      and_not64_low (k := 21) (by omega) (by decide)
    rw [hlow]
    lia
  obtain ⟨off,hoff,hleaf⟩ := h.geometry.leaf i hi
  simp only [write,hpage,leafEntry_eq hoff hleaf]
  by_cases hw : σ.npt.readLE off 8 &&& writable = 0
  · -- Fault: the handler records the page, then grants the write.
    rw [if_neg (not_not.mpr hw)]
    obtain ⟨fresh,log',hrec,hbase,hnum,hbit⟩ := record_spec hi
    have hsame : SameRange σ.log log' := ⟨hbase,hnum⟩
    obtain ⟨_,npt',hset,hgeo,hleaves⟩ | ⟨_,_,_,hfalse⟩ :=
      (h.geometry.wp_set hi true).exists
    · rw [hrec,hset]
      refine ⟨_,rfl,⟨Geometry.congr_log hgeo hsame,?_,?_,?_⟩,hsame⟩
      · intro j hj hwj
        rw [hbit]
        by_cases hji : j = i
        · rw [decide_eq_true hji,Bool.or_true]
        · have hj' : j < σ.log.numPages := hnum ▸ hj
          have hold := (hleaves j hj').mp (hsame.pageGpa j ▸ hwj)
          rw [if_neg hji] at hold
          rw [h.recorded j hj' hold,Bool.true_or]
      · intro j hj
        have hj' : σ.log.numPages ≤ j := hnum ▸ hj
        rw [hbit,h.slack j hj',decide_eq_false (by omega),Bool.or_false]
      · intro g hg
        cases mem_cons.mp hg with
        | inl hg =>
          refine ⟨i,hnum.symm ▸ hi,(hsame.pageGpa i).trans hg.symm,?_⟩
          rw [hbit,decide_eq_true rfl,Bool.or_true]
        | inr hg =>
          obtain ⟨j,hj,hgj,hbj⟩ := h.history g hg
          refine ⟨j,hnum.symm ▸ hj,(hsame.pageGpa j).trans hgj,?_⟩
          rw [hbit,hbj,Bool.true_or]
    · exact hfalse.elim
  · -- No fault: the page was granted before, hence recorded.
    rw [if_pos hw]
    refine ⟨_,rfl,⟨h.geometry,h.recorded,h.slack,?_⟩,rfl,rfl⟩
    intro g hg
    cases mem_cons.mp hg with
    | inl hg => exact ⟨i,hi,hg.symm,h.recorded i hi ⟨off,hoff,hw⟩⟩
    | inr hg => exact h.history g hg

lemma wp_reprotectRecorded (h : Inv σ) : (σ.log.reprotectRecorded σ.physBase).wp σ.npt
      (fun _ t => Geometry t σ.physBase σ.log ∧
        ∀ j < σ.log.numPages, ¬ LeafWritable t σ.physBase (σ.log.pageGpa j))
      (fun _ _ => False) := by
  have hpages : ∀ g ∈ σ.log.dirtyPages, ∃ i < σ.log.numPages, σ.log.pageGpa i = g := by
    intro g hg
    obtain ⟨i,hi,-,hgi⟩ := mem_dirtyPages.mp hg
    exact ⟨i,hi,hgi⟩
  refine (Geometry.wp_reprotectPages _ hpages 0 h.geometry).mono ?_ fun _ _ h => h
  rintro _ t ⟨ht,hleaves⟩
  refine ⟨ht,fun j hj hw => ?_⟩
  obtain ⟨hold,hnot⟩ := hleaves j hj hw
  exact hnot (mem_dirtyPages.mpr ⟨j,hj,h.recorded j hj hold,rfl⟩)

lemma step_spec (h : Inv σ) {e : TrackEvent} (he : InRange σ.log e) :
    ∃ σ', σ.step e = some σ' ∧ Inv σ' ∧ SameRange σ.log σ'.log := by
  cases e with
  | write gpa =>
    obtain ⟨i,hi⟩ := he
    exact write_spec h hi
  | reprotect =>
    obtain ⟨_,t,hrun,ht,hleaves⟩ | ⟨_,_,_,hfalse⟩ := (wp_reprotectRecorded h).exists
    · have hstep : σ.step .reprotect = some { σ with npt := t } := by
        rw [step,hrun]
        rfl
      refine ⟨_,hstep,⟨ht,?_,h.slack,h.history⟩,rfl,rfl⟩
      intro i hi hw
      exact absurd hw (hleaves i hi)
    · exact hfalse.elim
  | endEpoch =>
    obtain ⟨count,t,hrun,ht,hleaves⟩ | ⟨_,_,_,hfalse⟩ := (wp_reprotectRecorded h).exists
    · have hstep : σ.step .endEpoch =
          some { σ with npt := t, log := σ.log.clear, written := [] } := by
        rw [step,endEpoch]
        simp only [bind,hrun]
        rfl
      refine ⟨_,hstep,⟨Geometry.congr_log ht ⟨rfl,rfl⟩,?_,?_,?_⟩,rfl,rfl⟩
      · intro i hi hw
        exact absurd hw (hleaves i hi)
      · intro i _
        exact bit_replicate_zero _ i
      · intro g hg
        exact absurd hg not_mem_nil
    · exact hfalse.elim

/-- The state in which tracking starts: a fresh log over write-protected leaves, one entry
for each page. -/
structure Start (σ : Tracked) : Prop where
  fresh : ∃ bits, NptDirtyLog.new σ.log.baseGpa σ.log.numPages bits = .ok σ.log
  geometry : Geometry σ.npt σ.physBase σ.log
  writeProtected : ∀ i < σ.log.numPages, ¬ LeafWritable σ.npt σ.physBase (σ.log.pageGpa i)
  history : σ.written = []

lemma new_bits {bits : List ℕ} {log : NptDirtyLog}
    (h : new baseGpa numPages bits = .ok log) (i : ℕ) : log.bit i = false := by
  rw [new] at h
  split_ifs at h
  cases h
  exact bit_replicate_zero _ i

lemma Start.inv (h : Start σ) : Inv σ := by
  obtain ⟨bits,hnew⟩ := h.fresh
  refine ⟨h.geometry,fun i hi hw => absurd hw (h.writeProtected i hi),fun i _ => new_bits hnew i,?_⟩
  rw [h.history]
  exact fun g hg => absurd hg not_mem_nil

lemma run_spec {events : List TrackEvent} (h : Inv σ)
    (hev : ∀ e ∈ events, InRange σ.log e) (hrun : σ.run events = some σ') : Inv σ' := by
  induction events generalizing σ with
  | nil =>
    cases hrun
    exact h
  | cons e es ih =>
    obtain ⟨σ₁,hstep,hinv,hsame⟩ := step_spec h (hev e mem_cons_self)
    rw [run,hstep,Option.bind_some] at hrun
    refine ih hinv (fun e' he' => ?_) hrun
    have := hev e' (mem_cons_of_mem _ he')
    cases e' with
    | write gpa =>
      obtain ⟨i,hi⟩ := this
      exact ⟨i,(hsame.pageIndex gpa).trans hi⟩
    | _ => trivial

/-- No dirty page is lost: a tracked page with a writable leaf is marked dirty, every page written
since the last successful `end_epoch` is listed once, in order, and no step gets stuck. -/
theorem run_no_page_lost {σ₀ : Tracked} {events : List TrackEvent} (hstart : Start σ₀)
    (hev : ∀ e ∈ events, InRange σ₀.log e) (hrun : σ₀.run events = some σ) :
    (∀ i < σ.log.numPages, ∀ entry, σ.leafEntry (σ.log.pageGpa i) = .ok entry →
      entry &&& Flags.writable ≠ 0 → σ.log.isDirty (σ.log.pageGpa i) = .ok true) ∧
    (∀ g ∈ σ.written, g ∈ σ.log.dirtyPages) ∧
    σ.log.dirtyPages.Pairwise (· < ·) ∧
    σ.log.dirtyPageCount = σ.log.dirtyPages.length ∧
    (∀ e, InRange σ.log e → ∃ σ', σ.step e = some σ') := by
  have h := run_spec hstart.inv hev hrun
  refine ⟨?_,?_,σ.log.pairwise_dirtyPages,dirtyPageCount_eq h.slack,?_⟩
  · intro i hi entry hentry hw
    obtain ⟨off,hoff,hleaf⟩ := h.geometry.leaf i hi
    have hread := Except.ok.inj ((leafEntry_eq hoff hleaf).symm.trans hentry)
    rw [← hread] at hw
    have hbit := h.recorded i hi ⟨off,hoff,hw⟩
    have hne : ¬ σ.log.wordAt (i/64) &&& (1 <<< (i%64)) = 0 := by
      rw [mask_eq_zero,hbit]
      decide
    rw [isDirty,pageIndex_pageGpa hi]
    exact congrArg Except.ok (decide_eq_true hne)
  · intro g hg
    obtain ⟨i,hi,hgi,hbit⟩ := h.history g hg
    exact mem_dirtyPages.mpr ⟨i,hi,hbit,hgi⟩
  · intro e he
    obtain ⟨σ',hstep,-⟩ := step_spec h he
    exact ⟨σ',hstep⟩

def sharedTables : Buf :=
  ((Buf.writeLE ⟨3*4096,fun i => if i%8 = 0 then 0x85 else 0⟩ 0 8 0x11007).writeLE
    4096 8 0x12007).writeLE 4104 8 0x12007

def sharedStart : Tracked :=
  ⟨sharedTables,0x10000, ⟨0,513,replicate 9 0,by decide,by decide,by decide⟩,[]⟩

lemma leafOff_sharedTables (hi : i < 513) :
    leafOff sharedTables 0x10000 (i*2^21) = .ok (8192+i%512*8) := by
  have hroot : childOffset sharedTables 0x10000 0 0 = .ok 4096 :=
    toOption_eq_some.mp (by decide +kernel)
  have hlow : childOffset sharedTables 0x10000 4096 0 = .ok 8192 :=
    toOption_eq_some.mp (by decide +kernel)
  have hhigh : childOffset sharedTables 0x10000 4096 1 = .ok 8192 :=
    toOption_eq_some.mp (by decide +kernel)
  refine leafOff_eq_ok.mpr ⟨4096,8192,?_,?_,?_⟩
  · rw [pml4Index_eq,show i*2^21/2^39%512 = 0 by omega]
    exact hroot
  · rw [pdptIndex_eq]
    by_cases h : i < 512
    · rw [show i*2^21/2^30%512 = 0 by omega]
      exact hlow
    · rw [show i*2^21/2^30%512 = 1 by omega]
      exact hhigh
  · rw [pdIndex_eq]
    omega

lemma readLE_sharedTables (i : ℕ) : sharedTables.readLE (8192+i%512*8) 8 = 0x85 := by
  rw [sharedTables,readLE_writeLE_of_disjoint (by omega),
    readLE_writeLE_of_disjoint (by omega),readLE_writeLE_of_disjoint (by omega),
    readLE_of_digits (v := 0x85)]
  · rfl
  intro k hk
  have hmod : (8192+i%512*8+k)%8 = k := by omega
  have hdigit : ∀ k < 8, (if k = 0 then (0x85 : UInt8) else 0).toNat = 0x85/256^k%256 := by decide
  simp only [hmod]
  exact hdigit k hk

lemma isLeaf_sharedTables (i : ℕ) : IsLeaf sharedTables (8192+i%512*8) := by
  refine ⟨by omega,?_,?_,?_⟩
  · show 8192+i%512*8+8 ≤ 3*4096
    omega
  · rw [readLE_sharedTables]
    decide
  · rw [readLE_sharedTables]
    decide

/-- Two pages with a leaf of their own. -/
def twoPages : Tracked :=
  ⟨sharedTables,0x10000,⟨0,2,[0],by decide,by decide,by decide⟩,[]⟩

lemma start_twoPages : Start twoPages := by
  have hleaf : ∀ i < 2, leafOff sharedTables 0x10000 (twoPages.log.pageGpa i) =
      .ok (8192+i%512*8) := by
    intro i hi
    rw [show twoPages.log.pageGpa i = i*2^21 from Nat.zero_add _]
    exact leafOff_sharedTables (by omega)
  refine ⟨⟨[0],?_⟩,⟨rfl,fun i hi => ⟨_,hleaf i hi,isLeaf_sharedTables i⟩,?_⟩,?_,rfl⟩
  · rw [new,if_neg (by decide),dif_pos (by decide),dif_neg (by decide),
      if_pos (by decide),dif_pos (by decide)]
    rfl
  · intro i (hi : i < 2) j (hj : j < 2) off hoff hoff'
    have hi' := Except.ok.inj ((hleaf i hi).symm.trans hoff)
    have hj' := Except.ok.inj ((hleaf j hj).symm.trans hoff')
    omega
  · rintro i hi ⟨off,hoff,hw⟩
    cases (hleaf i hi).symm.trans hoff
    exact hw ((congrArg (· &&& Flags.writable) (readLE_sharedTables i)).trans (by decide))

theorem run_no_page_lost_two_pages :
    ∃ σ, Start twoPages ∧
      twoPages.run [.write 0x1234,.endEpoch,.write 0x1234,.write 0x200000] = some σ ∧
      (0 ∈ σ.log.dirtyPages ∧ 0x200000 ∈ σ.log.dirtyPages) ∧
      σ.log.dirtyPages.Pairwise (· < ·) ∧ σ.log.dirtyPageCount = σ.log.dirtyPages.length := by
  have hsome : (twoPages.run [.write 0x1234,.endEpoch,.write 0x1234,.write 0x200000]).map
      (·.written) = some [0x200000,0] := by decide +kernel
  obtain ⟨σ,hrun,hwritten⟩ := Option.map_eq_some_iff.mp hsome
  have hrange : ∀ e ∈ [TrackEvent.write 0x1234,.endEpoch,.write 0x1234,.write 0x200000],
      InRange twoPages.log e := by
    simp only [forall_mem_cons]
    exact ⟨⟨0,rfl⟩,trivial,⟨0,rfl⟩,⟨1,rfl⟩,nofun⟩
  obtain ⟨-,hlisted,hsorted,hcount,-⟩ := run_no_page_lost start_twoPages hrange hrun
  rw [hwritten] at hlisted
  exact ⟨σ,start_twoPages,hrun,⟨hlisted 0 (by decide),hlisted _ (by decide)⟩,hsorted,hcount⟩

/-- With a shared leaf a page is lost: granting the write to page 0 opens page 512 as well,
whose write then neither faults nor is recorded. -/
theorem shared_leaf_loses_page : (∃ bits, NptDirtyLog.new 0 513 bits = .ok sharedStart.log) ∧
    (∀ i < 513, ∃ off, leafOff sharedTables 0x10000 (i*2^21) = .ok off ∧
      IsLeaf sharedTables off ∧ sharedTables.readLE off 8 &&& Flags.writable = 0) ∧
    ((sharedStart.run [.write 0,.write (512*2^21)]).map fun σ =>
      (σ.written,σ.log.dirtyPages,(σ.log.isDirty (512*2^21)).toOption,
        (σ.leafEntry (512*2^21)).toOption.map (· &&& Flags.writable))) =
      some ([512*2^21,0],[0],some false,some Flags.writable) := by
  refine ⟨⟨replicate 9 0,?_⟩,fun i hi => ?_,by decide +kernel⟩
  · rw [new,if_neg (by decide),dif_pos (by decide),dif_neg (by decide),
      if_pos (by decide),dif_pos (by decide)]
    rfl
  · refine ⟨8192+i%512*8,leafOff_sharedTables hi,isLeaf_sharedTables i,?_⟩
    rw [readLE_sharedTables]
    decide

end Tracked
end Enlil.Npt
