import Mathlib.Data.List.Pairwise
import Enlil.Memory.HostMm.Extents

/-! # Runs of an address space -/

namespace Enlil.Memory
open Word Paging List Checked Prog BitmapFrameAllocator Flags Option PhysFrame Nat Prot

attribute [local irreducible] Prog.wp

inductive MmOp where
  | mmap (pages : ℕ) (opts : MmapOptions)
  | mapFixed (va pa pages : ℕ) (prot : UInt8) (extraFlags : ℕ)
  | munmap (va pages : ℕ)
  | mprotect (va pages : ℕ) (prot : UInt8)

def MmOp.apply {F : Type} [FrameSource F] : MmOp → Prog (HostAddressSpace × F) MmError Unit
  | .mmap pages opts => do
    let _ ← HostAddressSpace.mmap pages opts
    pure ()
  | .mapFixed va pa pages prot extraFlags =>
    HostAddressSpace.onSpace (HostAddressSpace.mapFixed va pa pages prot extraFlags)
  | .munmap va pages => HostAddressSpace.munmap va pages
  | .mprotect va pages prot => HostAddressSpace.mprotect va pages prot

/-- Some calls, each allowed where it was made, that returned, with an error or not. -/
inductive MmRun {F : Type} [FrameSource F] (Allowed : HostAddressSpace → MmOp → Prop) :
    HostAddressSpace × F → HostAddressSpace × F → Prop
  | refl (w : HostAddressSpace × F) : MmRun Allowed w w
  | step {w w₁ w₂ : HostAddressSpace × F} {op : MmOp} {res : Except MmError Unit} :
      MmRun Allowed w w₁ → Allowed w₁.1 op → op.apply w₁ = some (res,w₂) → MmRun Allowed w w₂

variable {Allowed : HostAddressSpace → MmOp → Prop}

lemma MmRun.invariant {F : Type} [FrameSource F]
    {I : HostAddressSpace → F → Prop}
    (hstep : ∀ s a op, I s a → Allowed s op →
      (op.apply (F := F)).wlp (s,a) (fun _ q => I q.1 q.2) (fun _ q => I q.1 q.2))
    {w w' : HostAddressSpace × F} (hrun : MmRun Allowed w w') (h : I w.1 w.2) :
    I w'.1 w'.2 := by
  induction hrun with
  | refl => exact h
  | @step w₁ w₂ op res _ hop happly ih =>
    have hwlp := hstep w₁.1 w₁.2 op ih hop
    cases res with
    | ok _ => exact hwlp.of_ok happly
    | error e => exact hwlp.of_error happly

lemma MmRun.one {F : Type} [FrameSource F]
    {w : HostAddressSpace × F} (op : MmOp) (p : HostAddressSpace × F → Bool) (hop : Allowed w.1 op)
    (h : ((op.apply w).any fun r => p r.2) = true) : ∃ w', MmRun Allowed w w' ∧ p w' = true := by
  obtain ⟨⟨res,w'⟩,happly,hp⟩ := (any_eq_true _ _).mp h
  exact ⟨w',MmRun.step (MmRun.refl w) hop happly,hp⟩

namespace HostAddressSpace
variable {F : Type} [FrameSource F] {P : Policy} {Held : F → Multiset ℕ → Prop}
  {s t : HostAddressSpace} {a : F} {n va : ℕ} {opts : MmapOptions}

/-! ### The fresh address space -/

section Empty
omit [FrameSource F]
variable {image : Buf} {imagePhysBase poolBase poolPages vaBase vaLen : ℕ}

lemma empty_eq_ok (h : empty image imagePhysBase poolBase poolPages vaBase vaLen = .ok s) :
    poolPages ≠ 0 ∧ poolBase%4096 = 0 ∧ imagePhysBase ≤ poolBase ∧
      poolBase-imagePhysBase+poolPages*4096 ≤ image.len ∧ vaBase%4096 = 0 ∧
      vaBase+vaLen ≤ 2^48 ∧
      s = ⟨image.zero (poolBase-imagePhysBase) 4096,imagePhysBase,poolBase,
        poolBase-imagePhysBase,poolBase-imagePhysBase+4096,
        poolBase-imagePhysBase+poolPages*4096,vaBase,vaBase+vaLen,[]⟩ := by
  have hlimit : Memory.vaLimit = 2^48 := by decide
  simp only [empty,initTablePool,bind_eq_ok,ensure_eq_ok,
    ofOption_eq_ok,pure_eq_ok,checkedAdd64_eq_some,checkedMul64_eq_some,
    and_pageSize_sub_one,hlimit] at h
  obtain ⟨_,⟨hpages,-⟩,_,⟨hpool,hva⟩,_,⟨-,rfl⟩,_,hcanon,_,-,_,-,_,hbase,_,
    ⟨-,rfl⟩,_,⟨-,rfl⟩,_,hfit,rfl⟩ := h
  exact ⟨hpages,hpool,hbase,hfit,hva,hcanon,rfl⟩

lemma overIdentity_eq_ok {cr3 : ℕ} (h : overIdentity image cr3 vaBase vaLen = .ok s) :
    vaBase%4096 = 0 ∧ vaBase+vaLen ≤ 2^48 ∧
      s = ⟨image,0,cr3,0,0,0,vaBase,vaBase+vaLen,[]⟩ := by
  have hlimit : Memory.vaLimit = 2^48 := by decide
  simp only [overIdentity,bind_eq_ok,ensure_eq_ok,ofOption_eq_ok,
    pure_eq_ok,checkedAdd64_eq_some,and_pageSize_sub_one,hlimit] at h
  obtain ⟨-,-,-,hva,_,⟨-,rfl⟩,-,hcanon,rfl⟩ := h
  exact ⟨hva,hcanon,rfl⟩

lemma empty_inv (h : empty image imagePhysBase poolBase poolPages vaBase vaLen = .ok s)
    (hphys : poolBase+poolPages*4096 ≤ 2^52) (ha : Held a 0) :
    Inv P Held s a ∧ s.mappings = [] ∧ s.vaBase%4096 = 0 ∧ s.vaLimit ≤ 2^48 := by
  obtain ⟨hpages,hpool,hbase,hfit,hva,hcanon,hs⟩ := empty_eq_ok h
  have hbase : s.tableBase ≤ poolBase := by
    rw [tableBase,hs]
    show (imagePhysBase+4095)/4096*4096 ≤ poolBase
    omega
  have hge := s.tableBase_ge
  have hbase0 : s.tableBase%4096 = 0 := Nat.mul_mod_left _ _
  have hphysBase : s.imagePhysBase = imagePhysBase := by rw [hs]
  have hcr3 : s.cr3 = poolBase := by rw [hs]
  have hcursor : s.tableCursor = poolBase-imagePhysBase+4096 := by rw [hs]
  have hroot : s.cr3 = s.tableBase+s.rootTable*4096 := by
    rw [rootTable,hcr3]
    omega
  have hnext : s.nextTable = s.rootTable+1 := by
    rw [nextTable,rootTable,hcursor,hcr3,hphysBase]
    omega
  have hzero : ∀ i, s.tableWord s.rootTable i = 0 := by
    intro i
    have hlead : s.tableLead+(s.rootTable*4096+i*8) = poolBase-imagePhysBase+i*8 := by
      rw [tableLead,hphysBase]
      omega
    rw [tableWord,Npt.entryAt,Buf.readLE_drop,hlead,hs]
    exact Buf.readLE_zero_of_mem (le_add_right _ _) (by omega)
  obtain ⟨htree,hwalk⟩ : Radix.Tree (decode s.tableBase) (WordOk s.tableBase) s.InUse
      s.tableWord s.rootTable ∧ ∀ q, s.walkAt q = none := by
    refine Radix.Tree.of_empty ?_ ?_ ⟨?_,.inl (hnext ▸ lt_add_one _)⟩
    · intro i
      rw [hzero]
      exact decode_absent (zero_and _)
    · intro i _ hpres
      rw [hzero] at hpres
      exact absurd (zero_and _) hpres
    · have hlen : s.image.len = image.len := by rw [hs]; rfl
      rw [hlen]
      omega
  have hleaf : ∀ va, s.leafAt va = none := by
    intro va
    rw [leafAt,hwalk]
    split <;> rfl
  have hpos := Nat.pos_of_ne_zero hpages
  have hmappings : s.mappings = [] := by rw [hs]
  have htables : s.TableInv fun _ => none := by
    refine ⟨hroot,?_,?_,?_,?_,htree,funext fun _ => hwalk _⟩
    · rw [hnext,hcursor]
      omega
    · rw [hs]
      show poolBase-imagePhysBase+4096 ≤ poolBase-imagePhysBase+poolPages*4096
      omega
    · rw [hs]
      exact hfit
    · rw [hs]
      show imagePhysBase+(poolBase-imagePhysBase+poolPages*4096) ≤ 2^52
      omega
  refine ⟨⟨?_,[],?_,htables,nodup_nil,?_,?_,?_,?_⟩,hmappings,?_,?_⟩
  · rw [hmappings]
    exact fun r hr => by cases hr
  · rw [hmappings]
    rfl
  · exact fun p hp => by cases hp
  · exact fun p hp => by cases hp
  · exact fun va _ _ hne => absurd (hleaf va) hne
  · exact ha
  · rw [hs]
    exact hva
  · rw [hs]
    exact hcanon

end Empty

/-! ### Regions and tables -/

def protMask : ℕ := writable ||| noExecute

def CleanFlags (x : ℕ) : Prop :=
  x < 2^64 ∧ x &&& (frameAddrMask ||| present ||| writable ||| hugePage ||| noExecute) = 0

lemma CleanFlags.and_eq_zero {x m : ℕ} (h : CleanFlags x)
    (hm : (frameAddrMask ||| present ||| writable ||| hugePage |||
      noExecute) &&& m = m) : x &&& m = 0 := by
  rw [← hm,← Nat.and_assoc,h.2,zero_and]

def cleanPolicy : Policy where
  Extra := CleanFlags
  Shows prot w := w &&& protMask = protFlags prot &&& protMask
  extra_lt h := h.1
  extra_addr h := h.and_eq_zero (by decide)
  shows_pte {x pa prot} h := by
    have haddr : pa &&& tableAddrMask &&& protMask = 0 := by
      rw [Nat.and_assoc,show tableAddrMask &&& protMask = 0 by decide,and_zero]
    rw [pteEntry,and_or_distrib_right,and_or_distrib_right,haddr,
      h.and_eq_zero (by decide),zero_or,or_zero]
  shows_reprotect {w prot prot'} _ := by
    have hmask : w &&& not64 protMask &&& protMask = 0 := by
      rw [Nat.and_assoc,show not64 protMask &&& protMask = 0 by decide,and_zero]
    show (w &&& not64 protMask ||| protFlags prot') &&& protMask = _
    rw [and_or_distrib_right,hmask,zero_or]

def Careful (s : HostAddressSpace) : MmOp → Prop
  | .mmap _ opts => opts.guard.low+opts.guard.high < 2^64 ∧ CleanFlags opts.extraFlags
  | .mapFixed va pa pages prot extraFlags =>
    CleanFlags extraFlags ∧ pa+pages*4096 ≤ 2^52 ∧
      ∀ e s', mapFixed va pa pages prot extraFlags s = some (.error e,s') →
        ∀ v, s'.translate v = s.translate v
  | .munmap _ _ => True
  | .mprotect _ _ _ => True

def Usable (s : HostAddressSpace) (va : ℕ) : Prop :=
  ∃ r ∈ s.mappings, r.base ≤ va ∧ va < r.usableEnd

/-- The region list and the tables agree. -/
structure Consistent (s : HostAddressSpace) : Prop where
  extent : ∀ r ∈ s.mappings,
    r.reservedBase ≤ r.base ∧ r.base < r.usableEnd ∧ r.usableEnd ≤ r.reservedEnd
  sorted : s.mappings.Pairwise fun r r' => r.reservedEnd ≤ r'.reservedBase
  present_iff : ∀ va < 2^48, (∃ w, s.leafEntry va = .ok (some w)) ↔ s.Usable va
  protection : ∀ r ∈ s.mappings, ∀ va, r.base ≤ va → va < r.usableEnd →
    ∀ w, s.leafEntry va = .ok (some w) → (w &&& writable ≠ 0 ↔ r.prot &&& write ≠ 0) ∧
      (w &&& noExecute ≠ 0 ↔ r.prot &&& exec = 0)
  guard : ∀ va, s.isGuard va = true → s.translate va = none

/-- The invariant behind `Consistent`. -/
structure RegionInv (Held : F → Multiset ℕ → Prop) (s : HostAddressSpace) (a : F) : Prop
    extends Extents s where
  inv : Inv cleanPolicy Held s a

omit [FrameSource F] in
lemma Inv.of_mapFixed_error (h : Inv P Held s a) {pa k : ℕ} {prot : UInt8}
    (hshell : Shell s t) {pages : List Page} (hcells : pages.map Page.cell = cellsOf s.mappings)
    (ht : Holds P Held t a 0 (fixedPages va pa prot k ++ pages))
    (hsame : ∀ v, t.translate v = s.translate v) : Inv P Held t a := by
  obtain ⟨hfits,pages₀,hcells₀,hs⟩ := h
  have hk : k = 0 := by
    by_contra hk
    have hmem : (⟨va+0*4096,(pa+0*4096)/4096,prot,false⟩ : Page) ∈
        fixedPages va pa prot k :=
      List.mem_map.mpr ⟨0,mem_range.mpr (Nat.pos_of_ne_zero hk),rfl⟩
    rw [zero_mul,add_zero] at hmem
    obtain ⟨hva,hcanon⟩ := ht.valid _ (mem_append_left _ hmem)
    obtain ⟨w,hw,-⟩ := ht.live _ (mem_append_left _ hmem)
    have hlimit48 : ¬ Memory.vaLimit ≤ va := Nat.not_le.mpr hcanon
    -- The page is mapped now, so by the equal translations it was mapped before.
    have hold : s.leafAt va ≠ none := by
      intro hnone
      have htr := hsame va
      rw [ht.tables.translate,hs.tables.translate,if_neg hlimit48,if_neg hlimit48,hnone,hw] at htr
      cases htr
    obtain ⟨p,hp,hpva⟩ := hs.only va hva hcanon hold
    have hcell : p.cell ∈ pages.map Page.cell := by
      rw [hcells,← hcells₀]
      exact List.mem_map_of_mem hp
    obtain ⟨q,hq,hqp⟩ := List.mem_map.mp hcell
    have hqva : q.va = va := (congrArg Cell.va hqp).trans hpva
    have hnodup := ht.nodup
    rw [map_append] at hnodup
    exact (disjoint_of_nodup_append hnodup (List.mem_map_of_mem hmem)
      (List.mem_map.mpr ⟨q,hq,hqva⟩)).elim
  subst hk
  refine ⟨?_,pages,?_,ht⟩
  · rw [hshell.mappings]
    exact hfits
  · rw [hshell.mappings]
    exact hcells

def Follows (P : Policy) (s : HostAddressSpace) : MmOp → Prop
  | .mmap _ opts => P.Extra opts.extraFlags
  | .mapFixed va pa pages prot extraFlags =>
    P.Extra extraFlags ∧ pa+pages*4096 ≤ 2^52 ∧ s.vaLimit ≤ 2^48 ∧
      ∀ e s', mapFixed va pa pages prot extraFlags s = some (.error e,s') →
        ∀ v, s'.translate v = s.translate v
  | .munmap _ _ | .mprotect _ _ _ => True

variable {op : MmOp}

lemma Inv.step (law : FrameSource.Lawful F Held) (h : Inv P Held s a) (hop : Follows P s op) :
    (op.apply (F := F)).wp (s,a) (fun _ q => Inv P Held q.1 q.2)
      (fun _ q => Inv P Held q.1 q.2) := by
  cases op with
  | mmap pages opts =>
    rw [MmOp.apply,wp_bind]
    refine (wp_mmap law h hop).mono (fun _ q hinv => ?_) fun _ _ hinv => hinv
    rw [wp_pure]
    exact hinv
  | mapFixed va pa pages prot extraFlags =>
    obtain ⟨hflags,hphys,hlimit,hfail⟩ := hop
    have hwp : (mapFixed va pa pages prot extraFlags).wp s _ _ :=
      wp_mapFixed h hlimit hflags hphys
    rw [MmOp.apply,wp_focus]
    obtain ⟨_,q,hrun,hinv⟩ | ⟨e,q,hrun,hshell,k,l,hcells,hq⟩ := hwp.exists
    · exact Prog.wp.intro_ok hrun hinv
    · exact Prog.wp.intro_error hrun (h.of_mapFixed_error hshell hcells hq (hfail e q hrun))
  | munmap va pages =>
    refine (wp_munmap law h).mono (fun _ _ hinv => hinv) ?_
    rintro _ _ rfl
    exact h
  | mprotect va pages prot =>
    refine (wp_mprotect h).mono (fun _ _ hinv => hinv) ?_
    rintro _ _ rfl
    exact h

/-- The sum of the guard counts of a call does not overflow. -/
def GuardsFit : MmOp → Prop
  | .mmap _ opts => opts.guard.low+opts.guard.high < 2^64
  | _ => True

lemma Extents.step (h : Extents s) (hop : GuardsFit op) :
    (op.apply (F := F)).wlp (s,a) (fun _ q => Extents q.1) (fun _ q => Extents q.1) := by
  cases op with
  | mmap pages opts =>
    rw [MmOp.apply,wlp_bind]
    refine wlp_mmap.mono ?_ fun _ q hq => h.of_shell hq.1.shell
    rintro _ ⟨q,b⟩ ⟨base,t,hbase,hkept,-,rfl⟩
    rw [wlp_pure]
    exact h.of_mmap hkept.shell hop hbase
  | mapFixed va pa pages prot extraFlags =>
    rw [MmOp.apply,wlp_focus]
    refine wlp_mapFixed.mono ?_ fun _ q hq => h.of_shell hq.shell
    rintro _ q ⟨hcheck,t,hkept,rfl⟩
    exact h.of_mapFixed hkept.shell hcheck
  | munmap va pages =>
    refine wlp_munmap.mono ?_ fun _ q hq => h.of_edit_error hq
    rintro _ ⟨q,b⟩ ⟨hal,t,hkept,rfl⟩
    exact h.of_edit hkept.shell hal
  | mprotect va pages prot =>
    refine wlp_mprotect.mono ?_ fun _ q hq => h.of_edit_error hq
    rintro _ ⟨q,b⟩ ⟨hal,t,hkept,rfl⟩
    exact h.of_edit hkept.shell hal

def Words : MmOp → Prop
  | .mmap _ opts => opts.extraFlags < 2^64
  | .mapFixed _ _ _ _ extraFlags => extraFlags < 2^64
  | _ => True

lemma apply_kept : (op.apply (F := F)).wlp (s,a)
      (fun _ q => ∃ t l, Kept (Words op) s t ∧ q.1 = { t with mappings := l })
      (fun _ q => ∃ t l, Kept (Words op) s t ∧ q.1 = { t with mappings := l }) := by
  have hedit (u : HostAddressSpace)
      (h : ∃ t, Kept True s t ∧ (u = t ∨ u = { t with mappings := [] })) :
      ∃ t l, Kept True s t ∧ u = { t with mappings := l } := by
    obtain ⟨t,hkept,rfl | rfl⟩ := h
    · exact ⟨u,u.mappings,hkept,rfl⟩
    · exact ⟨t,[],hkept,rfl⟩
  cases op with
  | mmap pages opts =>
    rw [MmOp.apply,wlp_bind]
    refine wlp_mmap.mono ?_ fun _ q hq => ⟨q.1,q.1.mappings,hq.1,rfl⟩
    rintro _ ⟨q,b⟩ ⟨base,t,-,hkept,-,rfl⟩
    exact ⟨t,_,hkept,rfl⟩
  | mapFixed va pa pages prot extraFlags =>
    rw [MmOp.apply,wlp_focus]
    refine wlp_mapFixed.mono ?_ fun _ q hq => ⟨q,q.mappings,hq,rfl⟩
    rintro _ q ⟨-,t,hkept,rfl⟩
    exact ⟨t,_,hkept,rfl⟩
  | munmap va pages =>
    refine wlp_munmap.mono ?_ fun _ q hq => hedit q.1 hq
    rintro _ ⟨q,b⟩ ⟨-,t,hkept,rfl⟩
    exact ⟨t,_,hkept,rfl⟩
  | mprotect va pages prot =>
    refine wlp_mprotect.mono ?_ fun _ q hq => hedit q.1 hq
    rintro _ ⟨q,b⟩ ⟨-,t,hkept,rfl⟩
    exact ⟨t,_,hkept,rfl⟩

lemma RegionInv.step (law : FrameSource.Lawful F Held) (h : RegionInv Held s a)
    (hop : Careful s op) :
    (op.apply (F := F)).wp (s,a) (fun _ q => RegionInv Held q.1 q.2)
      (fun _ q => RegionInv Held q.1 q.2) := by
  have hfollows : Follows cleanPolicy s op := by
    cases op with
    | mmap => exact hop.2
    | mapFixed => exact ⟨hop.1,hop.2.1,h.limit,hop.2.2⟩
    | munmap => trivial
    | mprotect => trivial
  have hguards : GuardsFit op := by
    cases op with
    | mmap => exact hop.1
    | mapFixed => trivial
    | munmap => trivial
    | mprotect => trivial
  refine ((h.inv.step law hfollows).and_wlp (h.toExtents.step hguards)).mono ?_ ?_
  · rintro _ q ⟨hinv,hq⟩
    exact ⟨hq,hinv⟩
  · rintro _ q ⟨hinv,hq⟩
    exact ⟨hq,hinv⟩

/-! ### What the invariant says -/

section Read
omit [FrameSource F]

lemma leafAt_page (s : HostAddressSpace) (va : ℕ) : s.leafAt va = s.leafAt (va/4096*4096) :=
  leafAt_congr (by omega) s

lemma Inv.page_of_region {r : Region} (h : Inv P Held s a) (hr : r ∈ s.mappings)
    (hlo : r.base ≤ va) (hhi : va < r.usableEnd) {pages : List Page}
    (hcells : pages.map Page.cell = cellsOf s.mappings) :
    ∃ p ∈ pages, p.va = va/4096*4096 ∧ p.prot = r.prot ∧ p.owned = r.owned := by
  obtain ⟨c,hc,hva⟩ := (h.fits r hr).mem_cells.mpr ⟨hlo,hhi⟩
  have hmem : c ∈ pages.map Page.cell := by
    rw [hcells]
    exact mem_flatMap.mpr ⟨r,hr,hc⟩
  obtain ⟨i,-,rfl⟩ := mem_pageRun.mp hc
  obtain ⟨p,hp,hpc⟩ := List.mem_map.mp hmem
  exact ⟨p,hp,(congrArg Cell.va hpc).trans hva,congrArg Cell.prot hpc,congrArg Cell.owned hpc⟩

lemma Inv.leaf_iff (h : Inv P Held s a) (hva : va < 2^48) :
    s.leafAt va ≠ none ↔ s.Usable va := by
  obtain ⟨pages,hcells,hholds⟩ := h.pages
  rw [leafAt_page]
  constructor
  · intro hleaf
    obtain ⟨p,hp,hpva⟩ := hholds.only (va/4096*4096) (by omega) (by omega) hleaf
    have hcell : p.cell ∈ cellsOf s.mappings := by
      rw [← hcells]
      exact List.mem_map_of_mem hp
    obtain ⟨r,hr,hc⟩ := mem_flatMap.mp hcell
    exact ⟨r,hr,(h.fits r hr).mem_cells.mp ⟨p.cell,hc,hpva⟩⟩
  · rintro ⟨r,hr,hlo,hhi⟩ hnone
    obtain ⟨p,hp,hpva,-⟩ := h.page_of_region hr hlo hhi hcells
    obtain ⟨w,hw,-⟩ := hholds.live p hp
    rw [hpva,hnone] at hw
    cases hw

lemma shows_iff {w : ℕ} {prot : UInt8} (h : w &&& protMask = protFlags prot &&& protMask) :
    (w &&& writable ≠ 0 ↔ prot &&& write ≠ 0) ∧
      (w &&& noExecute ≠ 0 ↔ prot &&& exec = 0) := by
  have hw : w &&& writable = protFlags prot &&& writable := by
    rw [show writable = protMask &&& writable by decide,← Nat.and_assoc,h,
      Nat.and_assoc]
  have hx : w &&& noExecute = protFlags prot &&& noExecute := by
    rw [show noExecute = protMask &&& noExecute by decide,← Nat.and_assoc,h,
      Nat.and_assoc]
  rw [hw,hx,protFlags]
  by_cases h1 : prot &&& write = 0 <;> by_cases h2 : prot &&& exec = 0 <;>
    simp only [h1,h2,ne_eq,not_true_eq_false,not_false_eq_true,if_true,if_false] <;> decide

lemma Laid.eq_of_mem {regions : List Region} (h : Laid regions) {r r' : Region}
    (hr : r ∈ regions) (hr' : r' ∈ regions) (hlo : r.lo ≤ va) (hhi : va < r.hi)
    (hlo' : r'.lo ≤ va) (hhi' : va < r'.hi) : r = r' := by
  by_contra hne
  have : Std.Symm fun x y : Region => x.hi ≤ y.lo ∨ y.hi ≤ x.lo := ⟨fun _ _ h => h.symm⟩
  have hpair : regions.Pairwise fun x y => x.hi ≤ y.lo ∨ y.hi ≤ x.lo := h.ordered.imp Or.inl
  have hapart := hpair.forall hr hr' hne
  omega

lemma RegionInv.consistent (h : RegionInv Held s a) : Consistent s := by
  obtain ⟨⟨hlaid,-,-,-⟩,hinv⟩ := h
  obtain ⟨pages,hcells,hholds⟩ := hinv.pages
  refine ⟨?_,?_,?_,?_,?_⟩
  · intro r hr
    have hplaced := hlaid.placed r hr
    rw [hplaced.reservedBase,hplaced.reservedEnd]
    exact hplaced.bounds
  · refine hlaid.ordered.imp_of_mem fun {r r'} hr hr' hrr' => ?_
    rw [(hlaid.placed r hr).reservedEnd,(hlaid.placed r' hr').reservedBase]
    exact hrr'
  · intro va hva
    rw [← hinv.leaf_iff hva,ne_none_iff_exists',hholds.tables.leafEntry]
    exact exists_congr fun w => ⟨Except.ok.inj,congrArg _⟩
  · intro r hr va hlo hhi w hw
    obtain ⟨p,hp,hpva,hprot,-⟩ := hinv.page_of_region hr hlo hhi hcells
    obtain ⟨w',hw',-,hshows⟩ := hholds.live p hp
    rw [hpva,← leafAt_page] at hw'
    rw [hholds.tables.leafEntry,hw'] at hw
    cases hw
    rw [← hprot]
    exact shows_iff hshows
  · intro va hguard
    obtain ⟨r,hr,hin⟩ := List.any_eq_true.mp hguard
    have hplaced := hlaid.placed r hr
    rw [decide_eq_true_iff,hplaced.reservedBase,hplaced.reservedEnd] at hin
    obtain ⟨hlo,hhi,hout⟩ := hin
    rw [hholds.tables.translate]
    split_ifs with hlimit
    · rfl
    rw [map_eq_none_iff]
    by_contra hleaf
    obtain ⟨r',hr',hlo',hhi'⟩ := (hinv.leaf_iff (Nat.not_le.mp hlimit)).mp hleaf
    have hbounds' := (hlaid.placed r' hr').bounds
    obtain rfl := Laid.eq_of_mem hlaid hr hr' hlo hhi (hbounds'.1.trans hlo')
      (hhi'.trans_le hbounds'.2.2)
    omega

end Read

/-- The region list is sorted and disjoint, the present leaves are the usable pages and carry the
protection of their region, and guard pages are absent. -/
theorem run_regions_match_tables (law : FrameSource.Lawful F Held) {image : Buf}
    {imagePhysBase poolBase poolPages vaBase vaLen : ℕ} {s₀ : HostAddressSpace} {a₀ : F}
    (hempty : empty image imagePhysBase poolBase poolPages vaBase vaLen = .ok s₀)
    (hpool : poolBase+poolPages*4096 ≤ 2^52) (ha : Held a₀ 0)
    (hrun : MmRun Careful (s₀,a₀) (s,a)) : Consistent s := by
  obtain ⟨hinv,hnil,hbase,hlimit⟩ := empty_inv (P := cleanPolicy) hempty hpool ha
  have hstart : Extents s₀ := .of_nil hnil hbase hlimit
  have hfinal : RegionInv Held s a :=
    hrun.invariant (I := RegionInv Held) (fun _ _ _ h hop => (h.step law hop).wlp) ⟨hstart,hinv⟩
  exact hfinal.consistent

/-- A fresh space with a pool of eight tables and sixteen pages of addresses. -/
def sampleSpace : HostAddressSpace :=
  ⟨Buf.zero ⟨65536,fun _ => 0⟩ 4096 4096,0,4096,4096,8192,36864,0x10000,0x20000,[]⟩

lemma sampleSpace_empty : empty ⟨65536,fun _ => 0⟩ 0 4096 8 0x10000 0x10000 = .ok sampleSpace :=
  rfl

def sampleMmap : MmOp := .mmap 2 ⟨read ||| write,⟨1,1⟩,none,0⟩

theorem run_regions_match_tables_guarded : ∃ a₀ w,
    BitmapFrameAllocator.new 0x100000 0x10000 = some a₀ ∧
      MmRun Careful (sampleSpace,a₀) w ∧ w.1.mappings.length = 1 ∧ Consistent w.1 := by
  obtain ⟨w,hrun,hlen⟩ : ∃ w : HostAddressSpace × BitmapFrameAllocator,
      MmRun Careful (sampleSpace,⟨[0],256,16,16⟩) w ∧
        (w.1.mappings.length == 1) = true := by
    refine MmRun.one sampleMmap (fun w => w.1.mappings.length == 1) ?_ ?_
    · exact ⟨by decide,by decide,by decide⟩
    · decide +kernel
  have hnew : new 0x100000 0x10000 = some ⟨[0],256,16,16⟩ := rfl
  refine ⟨_,w,hnew,hrun,of_decide_eq_true hlen,?_⟩
  exact run_regions_match_tables lawful sampleSpace_empty (by decide)
    (held_new hnew (by decide)) hrun

/-! ### Frames
-/

/-- Extra flags without address bits; what a leaf shows of its protection does not matter. -/
def framePolicy : Policy where
  Extra x := x < 2^64 ∧ x &&& frameAddrMask = 0
  Shows _ _ := True
  extra_lt h := h.1
  extra_addr h := h.2
  shows_pte _ := trivial
  shows_reprotect _ := trivial

def FrameCalls (_ : HostAddressSpace) : MmOp → Prop
  | .mmap _ opts => opts.extraFlags < 2^64 ∧ opts.extraFlags &&& frameAddrMask = 0
  | .mapFixed _ _ _ _ _ => False
  | .munmap _ _ => True
  | .mprotect _ _ _ => True

def OwnedPage (s : HostAddressSpace) (va : ℕ) : Prop :=
  va%4096 = 0 ∧ ∃ r ∈ s.mappings, r.owned = true ∧ r.base ≤ va ∧ va < r.usableEnd

def ownedPages (s : HostAddressSpace) : ℕ :=
  ((s.mappings.filter (·.owned)).map Region.pages).sum

/-- The allocator's frames are either free or behind one owned page. -/
structure Conserved (s : HostAddressSpace) (a : BitmapFrameAllocator) : Prop where
  balance : a.freeCount+s.ownedPages = a.totalFrames
  backed : ∀ va, s.OwnedPage va → ∃ pa, s.translate va = some pa ∧
    a.isAllocated (containingAddress pa) = true
  distinct : ∀ va va' pa pa', s.OwnedPage va → s.OwnedPage va' → s.translate va = some pa →
    s.translate va' = some pa' →
    containingAddress pa = containingAddress pa' → va = va'
  clear : a.freeCount = (List.range a.totalFrames).countP fun i => !Bitmap.bit a.bitmap i

lemma follows_of_frameCalls (hop : FrameCalls s op) : Follows framePolicy s op := by
  cases op with
  | mmap => exact hop
  | mapFixed => exact hop.elim
  | munmap => trivial
  | mprotect => trivial

section Conserved
omit [FrameSource F]

lemma countP_cellsOf (regions : List Region) : (cellsOf regions).countP (·.owned) =
      ((regions.filter (·.owned)).map Region.pages).sum := by
  induction regions with
  | nil => rfl
  | cons r regions ih =>
    have hrun : r.cells.countP (·.owned) = if r.owned then r.pages else 0 := by
      rw [Region.cells,pageRun,countP_map]
      cases r.owned
      · exact countP_eq_zero.mpr fun _ _ => Bool.false_ne_true
      · exact (countP_eq_length.mpr fun _ _ => rfl).trans length_range
    rw [cellsOf,flatMap_cons,countP_append,hrun,filter_cons]
    rw [cellsOf] at ih
    rw [ih]
    cases r.owned
    · exact zero_add _
    · rfl

lemma Inv.owned_page (h : Inv P Held s a) {pages : List Page}
    (hcells : pages.map Page.cell = cellsOf s.mappings) (hholds : Holds P Held s a 0 pages)
    (hva : s.OwnedPage va) :
    ∃ p ∈ pages.filter (·.owned), p.va = va ∧ ∃ pa, s.translate va = some pa ∧
      containingAddress pa = ⟨p.frame⟩ := by
  obtain ⟨hal,r,hr,howned,hlo,hhi⟩ := hva
  obtain ⟨p,hp,hpva,-,hpo⟩ := h.page_of_region hr hlo hhi hcells
  have hpage : va/4096*4096 = va := by omega
  rw [hpage] at hpva
  obtain ⟨-,hcanon⟩ := hholds.valid p hp
  obtain ⟨w,hw,hframe,-⟩ := hholds.live p hp
  rw [hpva] at hw hcanon
  have hoff : va &&& (pageSize-1) = 0 := by
    rw [and_pageSize_sub_one]
    exact hal
  refine ⟨p,mem_filter.mpr ⟨hp,hpo.trans howned⟩,hpva,w &&& frameAddrMask,?_,?_⟩
  · have hlimit48 : ¬ Memory.vaLimit ≤ va := Nat.not_le.mpr hcanon
    rw [hholds.tables.translate,if_neg hlimit48,hw,map_some,hoff,or_zero]
  · rw [containingAddress,hframe]

lemma Inv.conserved {a : BitmapFrameAllocator} (h : Inv P BitmapFrameAllocator.Held s a) :
    Conserved s a := by
  obtain ⟨pages,hcells,hholds⟩ := h.pages
  have hheld := hholds.held
  rw [Multiset.zero_add] at hheld
  refine ⟨?_,?_,?_,hheld.1.freeCount_eq⟩
  · have hcard : Multiset.card (ledger pages) = s.ownedPages := by
      rw [ownedPages,← countP_cellsOf,← hcells,countP_map,ledger,Multiset.coe_card,
        length_map,← countP_eq_length_filter]
      rfl
    rw [← hcard]
    exact hheld.free_add_card
  · intro va hva
    obtain ⟨p,hp,-,pa,hpa,hframe⟩ := h.owned_page hcells hholds hva
    refine ⟨pa,hpa,?_⟩
    rw [hframe]
    exact hheld.isAllocated (List.mem_map_of_mem hp)
  · intro va va' pa pa' hva hva' hpa hpa' hsame
    obtain ⟨p,hp,rfl,q,hq,hframe⟩ := h.owned_page hcells hholds hva
    obtain ⟨p',hp',rfl,q',hq',hframe'⟩ := h.owned_page hcells hholds hva'
    rw [hpa] at hq
    rw [hpa'] at hq'
    cases hq
    cases hq'
    rw [hframe,hframe',PhysFrame.mk.injEq] at hsame
    have hnodup : ((pages.filter (·.owned)).map Page.frame).Nodup := hheld.nodup
    rw [inj_on_of_nodup_map hnodup hp hp' hsame]

end Conserved

/-- Along every run the frames are conserved, and the next call reaches no assertion of the
allocator. -/
theorem run_conserves_frames {image : Buf}
    {imagePhysBase poolBase poolPages vaBase vaLen base size : ℕ} {s₀ : HostAddressSpace}
    {a a₀ : BitmapFrameAllocator}
    (hempty : empty image imagePhysBase poolBase poolPages vaBase vaLen = .ok s₀)
    (hpool : poolBase+poolPages*4096 ≤ 2^52)
    (hnew : BitmapFrameAllocator.new base size = some a₀) (hframes : base+size ≤ 2^52)
    (hrun : MmRun FrameCalls (s₀,a₀) (s,a)) :
    Conserved s a ∧ ∀ op, FrameCalls s op → (op.apply (s,a)).isSome := by
  obtain ⟨hinv,-⟩ := empty_inv (P := framePolicy) hempty hpool
    (held_new hnew hframes)
  have hfinal : Inv framePolicy BitmapFrameAllocator.Held s a :=
    hrun.invariant (I := Inv framePolicy BitmapFrameAllocator.Held) (fun _ _ _ h hop =>
      (h.step lawful (follows_of_frameCalls hop)).wlp) hinv
  refine ⟨hfinal.conserved,fun op hop => ?_⟩
  obtain ⟨_,q,hq,-⟩ | ⟨e,q,hq,-⟩ := (hfinal.step lawful (follows_of_frameCalls hop)).exists
  · rw [hq]
    rfl
  · rw [hq]
    rfl

theorem run_conserves_frames_two : ∃ a₀ w, BitmapFrameAllocator.new 0x100000 0x10000 = some a₀ ∧
      MmRun FrameCalls (sampleSpace,a₀) w ∧ w.1.ownedPages = 2 ∧
      (Conserved w.1 w.2 ∧ ∀ op, FrameCalls w.1 op → (op.apply w).isSome) := by
  obtain ⟨w,hrun,hpages⟩ : ∃ w : HostAddressSpace × BitmapFrameAllocator,
      MmRun FrameCalls (sampleSpace,⟨[0],256,16,16⟩) w ∧
        (w.1.ownedPages == 2) = true := by
    refine MmRun.one sampleMmap (fun w => w.1.ownedPages == 2) ?_ ?_
    · exact ⟨by decide,by decide⟩
    · decide +kernel
  have hnew : new 0x100000 0x10000 = some ⟨[0],256,16,16⟩ := rfl
  refine ⟨_,w,hnew,hrun,of_decide_eq_true hpages,?_⟩
  exact run_conserves_frames sampleSpace_empty (by decide) hnew (by decide) hrun

/-- Leaves keep bits 12 to 51 of an address: pages mapped from frames at `2 ^ 52` are given
back as other frames, and unmapping them reaches the allocator's range assertion. -/
theorem munmap_of_high_frames_panics : ∃ a₀ w, BitmapFrameAllocator.new (2^52) 0x10000 = some a₀ ∧
      MmRun FrameCalls (sampleSpace,a₀) w ∧ w.1.ownedPages = 2 ∧
      (MmOp.munmap 0x11000 1).apply w = none := by
  obtain ⟨w,hrun,hw⟩ : ∃ w : HostAddressSpace × BitmapFrameAllocator,
      MmRun FrameCalls (sampleSpace,⟨[0],2^40,16,16⟩) w ∧
        (w.1.ownedPages == 2 && ((MmOp.munmap 0x11000 1).apply w).isNone) = true := by
    refine MmRun.one sampleMmap
      (fun w => w.1.ownedPages == 2 && ((MmOp.munmap 0x11000 1).apply w).isNone) ?_ ?_
    · exact ⟨by decide,by decide⟩
    · decide +kernel
  obtain ⟨hpages,hpanic⟩ := Bool.and_eq_true_iff.mp hw
  exact ⟨_,w,rfl,hrun,of_decide_eq_true hpages,isNone_iff_eq_none.mp hpanic⟩

end HostAddressSpace
end Enlil.Memory
