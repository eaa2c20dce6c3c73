import Enlil.Memory.HostMm.Pages

/-! # The operations of an address space -/

namespace Enlil.Memory
open Word Paging List Nat Prog Checked Page

attribute [local irreducible] Prog.wp

namespace HostAddressSpace
variable {F : Type} {P : Policy} {Held : F → Multiset ℕ → Prop}
  {s t u : HostAddressSpace} {a b : F} {E : Multiset ℕ} {p : Page} {pages pages' : List Page}
  {n va usable i j : ℕ} {prot : UInt8} {opts : MmapOptions} {frames : List PhysFrame}

/-- The region list describes the pages of the tables, whose owned frames are out. -/
structure Inv (P : Policy) (Held : F → Multiset ℕ → Prop) (s : HostAddressSpace) (a : F) :
    Prop where
  fits : ∀ r ∈ s.mappings, r.Fits
  pages : ∃ pages, pages.map Page.cell = cellsOf s.mappings ∧ Holds P Held s a 0 pages

/-! ### mmap -/

lemma startAddress_eq {f : PhysFrame} (h : f.number < 2^40) : f.startAddress = f.number*4096 :=
  mul64_of_lt (by omega)

/-- The pages of a usable range from page `i` on, backed by `frames`. -/
def backing (usable : ℕ) (prot : UInt8) : ℕ → List PhysFrame → List Page
  | _, [] => []
  | i, f :: rest => ⟨usable+i*4096,f.number,prot,true⟩ :: backing usable prot (i+1) rest

variable {i k : ℕ}

lemma backing_append (l l' : List PhysFrame) : backing usable prot i (l ++ l') =
      backing usable prot i l ++ backing usable prot (i+l.length) l' := by
  induction l generalizing i with
  | nil => rfl
  | cons f l ih =>
    rw [cons_append,backing,backing,ih,cons_append,length_cons,add_assoc,add_comm 1]

lemma backing_cells (frames : List PhysFrame) : (backing usable prot i frames).map cell =
      pageRun (usable+i*4096) frames.length prot true := by
  induction frames generalizing i with
  | nil => rfl
  | cons f rest ih =>
    have hstep : usable+i*4096+1*4096 = usable+(i+1)*4096 := by omega
    rw [backing,map_cons,ih,length_cons,add_comm rest.length,pageRun_add,hstep]
    simp [pageRun,cell]

/-- The first `k` pages of the range are pages of the low canonical half. -/
def Canonical (usable k : ℕ) : Prop :=
  k ≠ 0 → usable%4096 = 0 ∧ usable+k*4096 ≤ 2^48

lemma Canonical.zero : Canonical usable 0 := fun h => absurd rfl h

lemma Canonical.pageVa (hu : usable < 2^64) (h : Canonical usable k) (hi : i ≤ k) :
    pageVa usable i = usable+i*4096 := by
  cases k with
  | zero =>
    obtain rfl : i = 0 := le_zero.mp hi
    show add64 usable (mul64 0 4096) = usable+0*4096
    rw [mul64,zero_mul,zero_mod,add64_of_lt (by omega)]
  | succ k =>
    have hcanon := (h (succ_ne_zero k)).2
    have hmul : mul64 i 4096 = i*4096 := mul64_of_lt (by omega)
    rw [HostAddressSpace.pageVa,hmul,add64_of_lt (by omega)]

lemma wp_mapFrames (hu : usable < 2^64) (hextra : P.Extra opts.extraFlags)
    {first rest : List PhysFrame} (hphys : ∀ f ∈ rest, f.number < 2^40)
    (hcanon : Canonical usable first.length)
    (h : Holds P Held s a (numbers rest+E) (backing usable opts.prot 0 first ++ pages)) :
    (mapFrames usable opts first.length rest).wp s
      (fun r t => r.2 = none → Shell s t ∧ Canonical usable (first ++ rest).length ∧
        Holds P Held t a (0+E) (backing usable opts.prot 0 (first ++ rest) ++ pages))
      (fun _ _ => False) := by
  induction rest generalizing first s with
  | nil =>
    rw [mapFrames,wp_pure,append_nil]
    exact fun _ => ⟨rfl,hcanon,h⟩
  | cons f rest ih =>
    have hf : f.number < 2^40 := hphys f mem_cons_self
    have hframe : f.startAddress/4096 = f.number := by
      rw [startAddress_eq hf,Nat.mul_div_cancel _ (by decide)]
    have hlt : f.startAddress < 2^52 := by
      rw [startAddress_eq hf]
      omega
    have hpay : (numbers rest+E)+ledger (⟨usable+first.length*4096,
        f.startAddress/4096,opts.prot,true⟩ :: (backing usable opts.prot 0 first ++ pages)) =
          (numbers (f :: rest)+E)+ledger (backing usable opts.prot 0 first ++ pages) := by
      rw [ledger_cons,if_pos rfl,numbers_cons,hframe,Multiset.add_cons,Multiset.cons_add,
        Multiset.cons_add]
    rw [mapFrames,wp_bind,wp_attempt,hcanon.pageVa hu le_rfl]
    refine (wp_mapPage h hextra hlt hpay).mono ?_ fun e t _ => ?_
    swap
    · rw [wp_pure]
      exact fun hnone => nomatch hnone
    rintro _ t ⟨hshell,hva,hbound,ht⟩
    have hlen : (first ++ [f]).length = first.length+1 := by simp
    have hcanon' : Canonical usable (first ++ [f]).length := by
      intro _
      omega
    have hperm := ht.perm (perm_middle.symm)
    rw [hframe,append_cons] at hperm
    have hback : backing usable opts.prot 0 (first ++ [f]) = backing usable opts.prot 0 first ++
        [⟨usable+first.length*4096,f.number,opts.prot,true⟩] := by
      rw [backing_append,zero_add]
      rfl
    rw [← hback] at hperm
    have hrest := ih (fun g hg => hphys g (mem_cons_of_mem f hg)) hcanon' hperm
    rw [hlen,append_assoc,singleton_append] at hrest
    refine hrest.mono (fun r u hu hnone => ?_) fun _ _ hfail => hfail
    obtain ⟨hshell',hdone⟩ := hu hnone
    exact ⟨hshell.trans hshell',hdone⟩

/-- The pages from `i` to `j` of a range are mapped now and were not in `s`; no other leaf differs. -/
structure Filled (H : HugeLeaves) (usable i j : ℕ) (s t : HostAddressSpace) : Prop where
  shell : Shell s t
  valid : ∀ k, i ≤ k → k < j → pageVa usable k%4096 = 0 ∧ pageVa usable k < 2^48 ∧
    H (pageVa usable k) = none
  absent : ∀ k, i ≤ k → k < j → s.leafAt (pageVa usable k) = none
  frame : ∀ va, (∀ k, i ≤ k → k < j → va/4096%2^36 ≠ pageVa usable k/4096%2^36) →
    t.leafAt va = s.leafAt va

variable {H : HugeLeaves}

lemma Filled.refl (usable : ℕ) (s : HostAddressSpace) : Filled H usable 0 0 s s :=
  ⟨rfl,fun _ _ hk => (nomatch hk),fun _ _ hk => (nomatch hk),fun _ _ => rfl⟩

lemma Filled.map (h : Filled H usable 0 j s t) (hshell : Shell t u)
    (hvalid : pageVa usable j%4096 = 0 ∧ pageVa usable j < 2^48 ∧ H (pageVa usable j) = none)
    (hnone : t.leafAt (pageVa usable j) = none)
    (hframe : ∀ va, va/4096%2^36 ≠ pageVa usable j/4096%2^36 →
      u.leafAt va = t.leafAt va) : Filled H usable 0 (j+1) s u := by
  refine ⟨h.shell.trans hshell,fun k hk hlt => ?_,fun k hk hlt => ?_,fun va hva => ?_⟩
  · obtain hlt | rfl := Nat.lt_succ_iff_lt_or_eq.mp hlt
    · exact h.valid k hk hlt
    · exact hvalid
  · obtain hlt | rfl := Nat.lt_succ_iff_lt_or_eq.mp hlt
    · exact h.absent k hk hlt
    -- a page that was mapped before has a leaf in `t`, but was absent in `s` like the others
    · by_cases hsame : ∃ l < k, pageVa usable k/4096%2^36 = pageVa usable l/4096%2^36
      · obtain ⟨l,hl,hpage⟩ := hsame
        rw [leafAt_congr hpage]
        exact h.absent l (zero_le l) hl
      · rw [← h.frame _ fun l _ hl hpage => hsame ⟨l,hl,hpage⟩]
        exact hnone
  · rw [hframe va (hva j (zero_le j) (lt_succ_self j))]
    exact h.frame va fun k hk hlt => hva k hk (lt_succ_of_lt hlt)

lemma Filled.unmap (h : Filled H usable i j s t) (hij : i < j) (hshell : Shell t u)
    (hnone : u.leafAt (pageVa usable i) = none)
    (hframe : ∀ va, va/4096%2^36 ≠ pageVa usable i/4096%2^36 →
      u.leafAt va = t.leafAt va) : Filled H usable (i+1) j s u := by
  refine ⟨h.shell.trans hshell,fun k hk => h.valid k (by omega),
    fun k hk => h.absent k (by omega),fun va hva => ?_⟩
  by_cases hpage : va/4096%2^36 = pageVa usable i/4096%2^36
  · rw [leafAt_congr hpage u,leafAt_congr hpage s,hnone,h.absent i le_rfl hij]
  · rw [hframe va hpage]
    refine h.frame va fun k hk hlt => ?_
    obtain rfl | hk := hk.eq_or_lt
    · exact hpage
    · exact hva k hk hlt

lemma wp_mapFrames_filled (hextra : opts.extraFlags < 2^64) (ht : TableInv t H)
    (h : Filled H usable 0 i s t) :
    (mapFrames usable opts i frames).wp t
      (fun r u => r.1 ≤ i+frames.length ∧ TableInv u H ∧ Filled H usable 0 r.1 s u)
      (fun _ _ => False) := by
  induction frames generalizing t i with
  | nil =>
    rw [mapFrames,wp_pure]
    exact ⟨le_rfl,ht,h⟩
  | cons f rest ih =>
    rw [mapFrames,wp_bind,wp_attempt,length_cons]
    refine (ht.wp_mapPage hextra).mono ?_ ?_
    · rintro _ u ⟨hu,hgrown,hvalid,-,hnone,-,hframe⟩
      refine (ih hu (h.map hgrown.shell hvalid hnone hframe)).mono ?_ fun _ _ hfail => hfail
      rintro r v ⟨hr,hv⟩
      exact ⟨by omega,hv⟩
    · rintro _ u ⟨hu,hshell,hleaf,-⟩
      rw [wp_pure]
      exact ⟨Nat.le_add_right _ _,hu,h.shell.trans hshell,h.valid,h.absent,
        fun va hva => (hleaf va).trans (h.frame va hva)⟩

variable [FrameSource F]

lemma wp_rollback_filled (law : FrameSource.Lawful F Held) (ht : TableInv t H)
    (h : Filled H usable i (i+frames.length) s t) (hheld : Held a (numbers frames+E)) :
    (rollback (F := F) usable i frames).wp (t,a)
      (fun _ q => TableInv q.1 H ∧ Shell s q.1 ∧ (∀ va, q.1.leafAt va = s.leafAt va) ∧ Held q.2 E)
      (fun _ _ => False) := by
  induction frames generalizing t a i with
  | nil =>
    rw [rollback,wp_pure]
    rw [show numbers [] = 0 from rfl,Multiset.zero_add] at hheld
    exact ⟨ht,h.shell,fun va => h.frame va fun k hk hlt => absurd hlt (Nat.not_lt.mpr hk),hheld⟩
  | cons f rest ih =>
    rw [length_cons] at h
    rw [numbers_cons,Multiset.cons_add] at hheld
    rw [rollback,wp_bind,wp_focus,wp_attempt]
    refine ht.wp_unmapPage.mono ?_ fun _ _ hfail => absurd (h.valid i le_rfl (by omega)) hfail.2
    rintro _ u ⟨hu,hshell,-,hnone,hframe⟩
    rw [wp_bind]
    refine (wp_freeFrame law hheld).mono ?_ fun _ _ hfail => hfail
    rintro _ ⟨_,b⟩ ⟨rfl,hb⟩
    have hnext := h.unmap (by omega) hshell hnone hframe
    rw [← add_assoc,Nat.add_right_comm] at hnext
    exact ih hu hnext hb

lemma TableInv.wp_mmap (h : TableInv s H) (law : FrameSource.Lawful F Held) (hheld : Held a E)
    (hextra : opts.extraFlags < 2^64) :
    (mmap (F := F) n opts).wp (s,a) (fun _ _ => True)
      (fun _ q => TableInv q.1 H ∧ Shell s q.1 ∧ (∀ va, q.1.leafAt va = s.leafAt va) ∧
        Held q.2 E) := by
  simp only [mmap,wp_bind,wp_gets,id,wp_ofExcept]
  refine ⟨fun base _ => ?_,fun _ _ => ⟨h,rfl,fun _ => trivial,hheld⟩⟩
  have hstart : Held a (numbers []+E) := by
    rw [show numbers [] = 0 from rfl,Multiset.zero_add]
    exact hheld
  refine (wp_allocFrames law (by simp) hstart).mono ?_ ?_
  · rintro frames ⟨_,b⟩ ⟨rfl,-,-,hb⟩
    rw [wp_focus]
    refine (wp_mapFrames_filled hextra h (.refl _ _)).mono ?_ fun _ _ hfail => hfail.elim
    rintro ⟨mapped,failed⟩ t ⟨hmapped,ht,hfilled⟩
    cases failed with
    | none => simp only [addRegion,wp_bind,wp_focus,wp_modify,wp_pure]
    | some e =>
      rw [zero_add] at hmapped
      have htake : (frames.take mapped).length = mapped := length_take_of_le hmapped
      rw [← htake,← zero_add (length _)] at hfilled
      rw [← take_append_drop mapped frames,numbers_append,Multiset.add_assoc] at hb
      simp only [wp_bind,wp_throw]
      refine (wp_rollback_filled law ht hfilled hb).mono ?_ fun _ _ hfail => hfail.elim
      rintro _ ⟨v,c⟩ ⟨hv,hshell,hleaf,hc⟩
      refine (wp_freeFrames law hc).mono ?_ fun _ _ hfail => hfail.elim
      rintro _ ⟨_,d⟩ ⟨rfl,hd⟩
      exact ⟨hv,hshell,hleaf,hd⟩
  · rintro _ ⟨_,b⟩ ⟨rfl,hb⟩
    exact ⟨h,rfl,fun _ => rfl,hb⟩

def mmapRegion (base pages : ℕ) (opts : MmapOptions) : Region :=
  ⟨add64 base (mul64 opts.guard.low pageSize),pages,opts.guard.low,opts.guard.high,opts.prot, true⟩

omit [FrameSource F] in
lemma Inv.addRegion {r : Region} {new : List Page} (hfits : ∀ x ∈ s.mappings, x.Fits)
    (hr : r.Fits) (hnew : new.map Page.cell = r.cells)
    (hcells : pages.map Page.cell = cellsOf s.mappings)
    (h : Holds P Held s a 0 (new ++ pages)) :
    Inv P Held { s with mappings := coalesce (insertRegion s.mappings r) } a := by
  obtain ⟨l,l',hsplit,hins,-,-⟩ := insertRegion_eq s.mappings r
  have hall : ∀ x ∈ insertRegion s.mappings r, x.Fits := by
    rw [hsplit] at hfits
    intro x hx
    rw [hins,mem_append,mem_cons] at hx
    obtain hx | rfl | hx := hx
    · exact hfits x (mem_append_left _ hx)
    · exact hr
    · exact hfits x (mem_append_right _ hx)
  obtain ⟨hfits',hcoal⟩ := coalesce_cells hall
  rw [hsplit,cellsOf_append] at hcells
  obtain ⟨pl,pl',rfl,hpl,hpl'⟩ := map_eq_append_iff.mp hcells
  refine ⟨hfits',pl ++ (new ++ pl'),?_,?_⟩
  · show _ = cellsOf (coalesce (insertRegion s.mappings r))
    rw [hcoal,hins,cellsOf_append,cellsOf_cons,map_append,map_append,hpl,hpl',hnew]
  · refine (h.perm ?_).setMappings _
    rw [← List.append_assoc,← List.append_assoc]
    exact perm_append_comm.append_right pl'

omit [FrameSource F] in
lemma mmapBase_pages {base : ℕ} (h : s.mmapBase n opts = .ok base) : n ≠ 0 := by
  rw [mmapBase,bind_eq_ok] at h
  obtain ⟨_,hn,-⟩ := h
  exact ensure_eq_ok.mp hn

lemma wp_mmap (law : FrameSource.Lawful F Held) (h : Inv P Held s a)
    (hextra : P.Extra opts.extraFlags) :
    (mmap (F := F) n opts).wp (s,a)
      (fun _ q => Inv P Held q.1 q.2) (fun _ q => Inv P Held q.1 q.2) := by
  obtain ⟨hfits,pages,hcells,hholds⟩ := h
  refine ((hholds.tables.wp_mmap law hholds.held (P.extra_lt hextra)).and_wlp ?_).mono
    (fun _ _ hok => hok.2) fun _ q (hq : _ ∧ True) => ?_
  swap
  · obtain ⟨⟨ht,hshell,hleaf,hq⟩,-⟩ := hq
    refine ⟨?_,pages,?_,hholds.of_leaves ht hleaf hq⟩
    · rw [hshell.mappings]
      exact hfits
    · rw [hshell.mappings]
      exact hcells
  simp only [mmap,wlp_bind,wlp_gets,id,wlp_ofExcept]
  refine ⟨fun base hbase => ?_,fun _ _ => trivial⟩
  have hstart : Held a (numbers []+(0+ledger pages)) := hholds.held
  refine (wp_allocFrames law (by simp) hstart).wlp.mono ?_ fun _ _ _ => trivial
  rintro frames ⟨s,b⟩ ⟨rfl,hlen,hlt,hb⟩
  rw [← Multiset.add_assoc] at hb
  generalize husable : add64 base (mul64 opts.guard.low pageSize) = usable
  have hu : usable < 2^64 := by
    rw [← husable]
    exact add64_lt _ _
  have hnone : Holds P Held s b (numbers frames+0) (backing usable opts.prot 0 [] ++ pages) :=
    hholds.of_held hb
  rw [wlp_focus]
  refine (wp_mapFrames hu hextra hlt Canonical.zero hnone).wlp.mono ?_ fun _ _ hfail => hfail.elim
  rintro ⟨mapped,failed⟩ t hdone
  cases failed with
  | none =>
    obtain ⟨hshell,hcanon,ht⟩ := hdone rfl
    simp only [addRegion,wlp_bind,wlp_focus,wlp_modify,wlp_pure]
    rw [length_nil,zero_add] at hlen
    rw [nil_append] at hcanon ht
    have hpos : n ≠ 0 := mmapBase_pages hbase
    obtain ⟨hal,hend⟩ := hcanon (by rw [hlen]; exact hpos)
    have hregion : (mmapRegion base n opts).Fits := by
      refine ⟨?_,Nat.pos_of_ne_zero hpos,?_⟩
      · show add64 base (mul64 opts.guard.low pageSize)%4096 = 0
        rw [husable]
        exact hal
      · show add64 base (mul64 opts.guard.low pageSize)+n*4096 ≤ 2^48
        rw [husable,← hlen]
        exact hend
    have hnew : (backing usable opts.prot 0 frames).map cell =
        (mmapRegion base n opts).cells := by
      rw [backing_cells,zero_mul,add_zero,hlen,← husable]
      rfl
    rw [← husable]
    exact Inv.addRegion (hshell.mappings ▸ hfits) hregion (husable ▸ hnew) (hshell.mappings ▸ hcells)
      (husable ▸ ht)
  | some e =>
    simp only [wlp_bind,wlp_throw]
    exact wlp_true.mono (fun _ _ _ => wlp_true) fun _ _ h => h

/-! ### map_fixed -/

section MapFixed
omit [FrameSource F]
variable {pa k extraFlags : ℕ}

def fixedPages (va pa : ℕ) (prot : UInt8) (k : ℕ) : List Page :=
  (List.range k).map fun i => ⟨va+i*4096,(pa+i*4096)/4096,prot,false⟩

lemma fixedPages_succ : fixedPages va pa prot (k+1) =
      fixedPages va pa prot k ++ [⟨va+k*4096,(pa+k*4096)/4096,prot,false⟩] := by
  rw [fixedPages,range_succ,map_append]
  rfl

lemma fixedPages_cells :
    (fixedPages va pa prot k).map cell = pageRun va k prot false := by
  rw [fixedPages,map_map]
  rfl

lemma mapFixedCheck_ok {u : Unit} (h : s.mapFixedCheck va pa n = .ok u) :
    n ≠ 0 ∧ va%4096 = 0 ∧ va+n*4096 ≤ s.vaLimit ∧
      s.checkNoOverlap va (va+n*4096) = .ok () ∧ pa%4096 = 0 ∧
      s.checkUnmapped va n = .ok () := by
  simp only [mapFixedCheck,bind_eq_ok,ensure_eq_ok,ofOption_eq_ok,
    checkedAdd64_eq_some,checkedMul64_eq_some,validateVa_eq_ok,and_pageSize_sub_one] at h
  obtain ⟨-,hn,-,⟨hal,-⟩,-,hpa,_,⟨-,rfl⟩,_,⟨-,rfl⟩,-,hin,_,hclear,hfree⟩ := h
  exact ⟨hn,hal,hin,hclear,hpa,hfree⟩

/-- A caller-owned mapping adds its region. A failure part-way leaves the pages mapped so
far, in no region. -/
lemma wp_mapFixed (h : Inv P Held s a) (hlimit : s.vaLimit ≤ 2^48)
    (hextra : P.Extra extraFlags) (hphys : pa+n*4096 ≤ 2^52) :
    (mapFixed va pa n prot extraFlags).wp s
      (fun _ q => Inv P Held q a) (fun _ q => Shell s q ∧ ∃ k pages, pages.map cell = cellsOf s.mappings ∧
        Holds P Held q a 0 (fixedPages va pa prot k ++ pages)) := by
  obtain ⟨hfits,pages,hcells,hholds⟩ := h
  simp only [mapFixed,wp_bind,wp_gets,id,wp_ofExcept]
  refine ⟨fun _ hcheck => ?_,fun _ _ => ⟨rfl,0,pages,hcells,hholds⟩⟩
  obtain ⟨hn,hal,hend,-⟩ := mapFixedCheck_ok hcheck
  refine (wp_forN (fun k t => Shell s t ∧ Holds P Held t a 0 (fixedPages va pa prot k ++ pages))
    ⟨Shell.refl s,hholds⟩ ?_).mono ?_ fun _ _ hfail => hfail
  swap
  · rintro _ t ⟨hshell,ht⟩
    rw [addRegion,wp_modify]
    exact Inv.addRegion (hshell.mappings ▸ hfits) ⟨hal,Nat.pos_of_ne_zero hn,hend.trans hlimit⟩
      fixedPages_cells (hshell.mappings ▸ hcells) ht
  · rintro k t hk ⟨hshell,ht⟩
    have hpa : add64 pa (mul64 k pageSize) = pa+k*4096 := by
      have hmul : mul64 k 4096 = k*4096 := mul64_of_lt (by omega)
      rw [hmul,add64_of_lt (by omega)]
    rw [hpa]
    have hpay : 0+ledger (⟨va+k*pageSize,(pa+k*4096)/4096,prot,false⟩ ::
        (fixedPages va pa prot k ++ pages)) = 0+ledger (fixedPages va pa prot k ++ pages) := by
      rw [ledger_cons]
      rfl
    refine (wp_mapPage ht hextra (by omega) hpay).mono ?_ ?_
    · rintro _ q ⟨hshell',-,-,hq⟩
      refine ⟨hshell.trans hshell',?_⟩
      have hperm := hq.perm perm_middle.symm
      rw [append_cons,← fixedPages_succ] at hperm
      exact hperm
    · rintro _ q ⟨hshell',hq⟩
      exact ⟨hshell.trans hshell',k,pages,hcells,hq⟩

end MapFixed

/-! ### munmap and mprotect
-/

section Reshape
omit [FrameSource F]
variable {start last : ℕ} {remove : Bool} {mid : Option UInt8} {edit : Edit F}
  {upd : Page → List Page}

/-- `edit` replaces the page it is called for by `upd`. -/
def Edits (P : Policy) (Held : F → Multiset ℕ → Prop) (edit : Edit F) (upd : Page → List Page) :
    Prop :=
  ∀ {s : HostAddressSpace} {a : F} {X Y : List Page} {p : Page} {r : Region},
    p.owned = r.owned → Holds P Held s a 0 (X ++ p :: Y) →
    (edit p.va r).wp (s,a)
      (fun _ q => Shell s q.1 ∧ Holds P Held q.1 q.2 0 (X ++ upd p ++ Y)) (fun _ _ => False)

variable {X M Y K R : List Page}

lemma wp_editRun (hedit : Edits P Held edit upd) {os : ℕ} {r : Region}
    (hM : M.map cell = pageRun os n r.prot r.owned)
    (h : Holds P Held s a 0 (X ++ M ++ Y)) :
    (Prog.forN n fun k => edit (os+k*pageSize) r).wp (s,a)
      (fun _ q => Holds P Held q.1 q.2 0 (X ++ M.flatMap upd ++ Y)) (fun _ _ => False) := by
  have hlen : M.length = n := by
    have := congrArg length hM
    rwa [length_map,pageRun,length_map,length_range] at this
  refine (wp_forN (fun k q => Holds P Held q.1 q.2 0
    (X ++ (M.take k).flatMap upd ++ (M.drop k ++ Y))) ?_ ?_).mono ?_ fun _ _ hfail => hfail
  · rw [take_zero,drop_zero,flatMap_nil,append_nil,← append_assoc]
    exact h
  · rintro k ⟨t,b⟩ hk ht
    have hkM : k < M.length := hlen ▸ hk
    have hcell : M[k].cell = ⟨os+k*4096,r.prot,r.owned⟩ := by
      have hget : (M.map cell)[k]? = (pageRun os n r.prot r.owned)[k]? := by rw [hM]
      rw [getElem?_map,getElem?_eq_getElem hkM,pageRun,getElem?_map,getElem?_range hk] at hget
      exact Option.some.inj hget
    have hva : M[k].va = os+k*4096 := congrArg Cell.va hcell
    have howned : M[k].owned = r.owned := congrArg Cell.owned hcell
    rw [drop_eq_getElem_cons hkM,cons_append] at ht
    show (edit (os+k*4096) r).wp (t,b) _ _
    rw [← hva]
    refine (hedit howned ht).mono ?_ fun _ _ hfail => hfail
    rintro _ q ⟨-,hq⟩
    rw [take_succ_eq_append_getElem hkM,flatMap_append,flatMap_singleton,← append_assoc X]
    exact hq
  · intro _ q hq
    rw [← hlen,take_length,drop_length,nil_append] at hq
    exact hq

/-- The cells that `upd` leaves agree with what the region records will say. -/
def Agrees (remove : Bool) (mid : Option UInt8) (upd : Page → List Page) : Prop :=
  ∀ p, (upd p).map Page.cell = if remove then [] else [⟨p.va,mid.getD p.prot,p.owned⟩]

lemma Agrees.run (hagree : Agrees remove mid upd) {os : ℕ} {owned : Bool}
    (hM : M.map cell = pageRun os n prot owned) :
    (M.flatMap upd).map cell =
      if remove then [] else pageRun os n (mid.getD prot) owned := by
  have hflat : ∀ l : List Page, (l.flatMap upd).map cell =
      if remove then [] else (l.map cell).map fun c => ⟨c.va,mid.getD c.prot,c.owned⟩ := by
    intro l
    induction l with
    | nil => cases remove <;> rfl
    | cons p l ih =>
      rw [flatMap_cons,map_append,ih,hagree p]
      cases remove <;> rfl
  rw [hflat,hM,pageRun,pageRun,map_map]
  rfl

lemma wp_reshapeLoop (hedit : Edits P Held edit upd) (hagree : Agrees remove mid upd)
    (hstart : start%4096 = 0) (hlast : last%4096 = 0) {kept rest : List Region}
    (hfits : ∀ r ∈ rest, r.Fits) (hK : K.map cell = cellsOf kept)
    (hR : R.map cell = cellsOf rest) (h : Holds P Held s a 0 (K ++ R)) :
    (reshapeLoop start last remove mid edit kept rest).wp (s,a)
      (fun kept' q => kept' = kept ++ rest.flatMap (pieces start last remove mid) ∧
        ∃ K', K'.map cell = cellsOf kept' ∧ Holds P Held q.1 q.2 0 K')
      (fun _ _ => False) := by
  induction rest generalizing kept K R s a with
  | nil =>
    rw [reshapeLoop,wp_pure,flatMap_nil,append_nil]
    obtain rfl : R = [] := map_eq_nil_iff.mp hR
    rw [append_nil] at h
    exact ⟨rfl,K,hK,h⟩
  | cons r rest ih =>
    have hr : r.Fits := hfits r mem_cons_self
    have hrest : ∀ x ∈ rest, x.Fits := fun x hx => hfits x (mem_cons_of_mem r hx)
    rw [cellsOf_cons] at hR
    obtain ⟨Rr,R',rfl,hRr,hR'⟩ := map_eq_append_iff.mp hR
    rw [reshapeLoop,flatMap_cons,← append_assoc kept]
    by_cases hout : min last r.usableEnd ≤ max start r.base
    · rw [if_pos hout,pieces,if_pos hout]
      refine ih hrest (K := K ++ Rr) ?_ hR' ?_
      · rw [map_append,hK,hRr,cellsOf_append,cellsOf_singleton]
      · rw [append_assoc]
        exact h
    · rw [if_neg hout,pieces,if_neg hout,wp_bind]
      have hrange := editRange_of_lt hr hstart hlast hout
      rw [hrange.cells hr] at hRr
      obtain ⟨A,MB,rfl,hA,hMB⟩ := map_eq_append_iff.mp hRr
      obtain ⟨M,B,rfl,hM,hB⟩ := map_eq_append_iff.mp hMB
      have hcount : divCeil (min last r.usableEnd-max start r.base) pageSize =
          (min last r.usableEnd-max start r.base)/4096 := by
        have hal := hrange.aligned
        have hrem : (min last r.usableEnd-max start r.base)%4096 = 0 := by omega
        rw [divCeil,if_pos hrem]
      have hpages : Holds P Held s a 0 ((K ++ A) ++ M ++ (B ++ R')) := by
        simpa only [append_assoc] using h
      rw [hcount]
      refine (wp_editRun hedit hM hpages).mono ?_ fun _ _ hfail => hfail
      rintro _ ⟨t,b⟩ ht
      refine ih hrest (K := K ++ (A ++ (M.flatMap upd ++ B))) ?_ hR' ?_
      · rw [map_append,hK,map_append,hA,map_append,hB,hagree.run hM,cellsOf_append,survivors_cells]
      · simpa only [append_assoc] using ht

lemma wp_reshape (hedit : Edits P Held edit upd) (hagree : Agrees remove mid upd)
    (hstart : start%4096 = 0) (hlast : last%4096 = 0) (h : Inv P Held s a) :
    (reshape start last remove mid edit).wp (s,a)
      (fun _ q => Inv P Held q.1 q.2) (fun _ _ => False) := by
  obtain ⟨hfits,pages,hcells,hholds⟩ := h
  simp only [reshape,wp_bind,wp_gets,id,wp_focus,wp_modify]
  have hnone : ([] : List Page).map cell = cellsOf [] := rfl
  refine (wp_reshapeLoop hedit hagree hstart hlast hfits hnone hcells
    (hholds.setMappings [])).mono ?_ fun _ _ hfail => hfail
  rintro kept ⟨t,b⟩ ⟨hkept,K,hK,ht⟩
  rw [nil_append] at hkept
  have hall : ∀ x ∈ kept, x.Fits := by
    intro x hx
    rw [hkept] at hx
    obtain ⟨r,hr,hx⟩ := mem_flatMap.mp hx
    exact pieces_fits (hfits r hr) hstart hlast hx
  obtain ⟨hfits',hcoal⟩ := coalesce_cells hall
  exact ⟨hfits',K,hK.trans hcoal.symm,ht.setMappings _⟩

lemma validateEditRange_ok {q : ℕ × ℕ} (h : s.validateEditRange va n = .ok q) :
    q = (va,va+n*4096) ∧ va%4096 = 0 := by
  simp only [validateEditRange,bind_eq_ok,ensure_eq_ok,ofOption_eq_ok,
    checkedAdd64_eq_some,checkedMul64_eq_some,validateVa_eq_ok,pure_eq_ok] at h
  obtain ⟨_,-,_,⟨hal,-⟩,_,⟨-,rfl⟩,_,⟨-,rfl⟩,_,-,rfl⟩ := h
  exact ⟨rfl,hal⟩

lemma edits_munmap [FrameSource F] (law : FrameSource.Lawful F Held) :
    Edits P Held (munmapEdit (F := F)) fun _ => [] := by
  intro s a X Y p r howned h
  rw [munmapEdit,wp_bind,wp_focus]
  refine (wp_unmapPage (h.perm perm_middle)).mono ?_ fun _ _ hfail => hfail
  rintro _ t ⟨rfl,hshell,ht⟩
  rw [append_nil]
  simp only [wp_bind,wp_ofOption,Option.some.injEq,forall_eq',reduceCtorEq,false_implies,and_true]
  rw [handAfter,howned] at ht
  by_cases hr : r.owned = true
  · rw [if_pos hr] at ht ⊢
    refine (holds_freeFrame law ht).mono ?_ fun _ _ hfail => hfail
    rintro _ ⟨_,b⟩ ⟨rfl,hb⟩
    exact ⟨hshell,hb⟩
  · rw [if_neg hr] at ht ⊢
    rw [wp_pure]
    exact ⟨hshell,ht⟩

lemma edits_mprotect (prot : UInt8) :
    Edits P Held (F := F) (fun va _ => onSpace (reprotectPage va prot))
      fun p => [{ p with prot := prot }] := by
  intro s a X Y p r _ h
  rw [wp_focus]
  refine (wp_reprotectPage (h.perm perm_middle)).mono ?_ fun _ _ hfail => hfail
  rintro _ t ⟨hshell,ht⟩
  refine ⟨hshell,?_⟩
  rw [append_assoc,singleton_append]
  exact ht.perm perm_middle.symm

lemma wp_munmap [FrameSource F] (law : FrameSource.Lawful F Held) (h : Inv P Held s a) :
    (munmap (F := F) va n).wp (s,a)
      (fun _ q => Inv P Held q.1 q.2) (fun _ q => q = (s,a)) := by
  simp only [munmap,wp_bind,wp_gets,id,wp_ofExcept]
  refine ⟨fun q hq => ?_,fun _ _ => trivial⟩
  obtain ⟨rfl,hal⟩ := validateEditRange_ok hq
  exact (wp_reshape (edits_munmap law) (fun _ => rfl) hal (by omega) h).mono
    (fun _ _ hinv => hinv) fun _ _ hfail => hfail.elim

lemma wp_mprotect (h : Inv P Held s a) : (mprotect (F := F) va n prot).wp (s,a)
      (fun _ q => Inv P Held q.1 q.2) (fun _ q => q = (s,a)) := by
  simp only [mprotect,wp_bind,wp_gets,id,wp_ofExcept]
  refine ⟨fun q hq => ?_,fun _ _ => trivial⟩
  obtain ⟨rfl,hal⟩ := validateEditRange_ok hq
  exact (wp_reshape (edits_mprotect prot) (fun _ => rfl) hal (by omega) h).mono
    (fun _ _ hinv => hinv) fun _ _ hfail => hfail.elim

end Reshape
end HostAddressSpace
end Enlil.Memory
