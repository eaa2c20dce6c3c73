import Enlil.Memory.HostMm

/-! # Where mappings are placed -/

namespace Enlil.Memory
open Word Paging List Option Checked
namespace HostAddressSpace
variable {F : Type} [FrameSource F]

/-- The states that calls reach, in which every call of the run is one of `Allowed`. -/
inductive Reachable (Allowed : MmOp → Prop) : HostAddressSpace × F → Prop
  | empty {s : HostAddressSpace} {image : Buf} {physBase poolBase poolPages vaBase vaLen : ℕ}
      (a : F) (h : empty image physBase poolBase poolPages vaBase vaLen = .ok s) :
      Reachable Allowed (s,a)
  | overIdentity {s : HostAddressSpace} {image : Buf} {cr3 vaBase vaLen : ℕ} (a : F)
      (h : overIdentity image cr3 vaBase vaLen = .ok s) : Reachable Allowed (s,a)
  | setTablePool {s t : HostAddressSpace} {a : F} {base pages : ℕ} (hs : Reachable Allowed (s,a))
      (h : s.setTablePool base pages = .ok t) : Reachable Allowed (t,a)
  | call {w w' : HostAddressSpace × F} {op : MmOp} {res : Except MmError Unit}
      (hw : Reachable Allowed w) (hop : Allowed op) (h : op.apply w = some (res,w')) :
      Reachable Allowed w'

variable {s t : HostAddressSpace} {a b : F} {n va pa p : ℕ} {prot : UInt8} {opts : MmapOptions}
omit [FrameSource F] in
lemma setTablePool_shell {base pages : ℕ} (h : s.setTablePool base pages = .ok t) :
    t.mappings = s.mappings ∧ t.vaBase = s.vaBase ∧ t.vaLimit = s.vaLimit := by
  simp only [setTablePool,initTablePool,bind_eq_ok,pure_eq_ok] at h
  obtain ⟨-,-,-,-,-,-,_,-,_,-,-,-,rfl⟩ := h
  exact ⟨rfl,rfl,rfl⟩

omit [FrameSource F] in
lemma overIdentity_extents {image : Buf} {cr3 vaBase vaLen : ℕ}
    (h : overIdentity image cr3 vaBase vaLen = .ok s) : Extents s := by
  obtain ⟨hva,hcanon,rfl⟩ := overIdentity_eq_ok h
  exact .of_nil rfl hva hcanon

variable {w : HostAddressSpace × F}

lemma Reachable.limit_le {Allowed : MmOp → Prop}
    (h : Reachable Allowed w) : w.1.vaLimit ≤ 2^48 := by
  induction h with
  | empty a h =>
    obtain ⟨-,-,-,-,-,hcanon,rfl⟩ := empty_eq_ok h
    exact hcanon
  | overIdentity a h => exact (overIdentity_extents h).limit
  | setTablePool _ h ih =>
    rw [(setTablePool_shell h).2.2]
    exact ih
  | @call w w' op res _ _ h ih =>
    obtain ⟨t,l,hkept,hw'⟩ : ∃ t l, Kept (Words op) w.1 t ∧ w'.1 = { t with mappings := l } := by
      cases res with
      | ok _ => exact apply_kept.of_ok h
      | error e => exact apply_kept.of_error h
    rw [hw']
    exact hkept.shell.vaLimit.trans_le ih

lemma Reachable.extents (h : Reachable GuardsFit w) : Extents w.1 := by
  induction h with
  | empty a h =>
    obtain ⟨-,-,-,-,hva,hcanon,rfl⟩ := empty_eq_ok h
    exact .of_nil rfl hva hcanon
  | overIdentity a h => exact overIdentity_extents h
  | setTablePool _ h ih =>
    obtain ⟨hmap,hbase,hlimit⟩ := setTablePool_shell h
    refine ⟨hmap ▸ ih.laid,hbase ▸ ih.base,hlimit ▸ ih.limit,?_⟩
    rw [hmap,hlimit]
    exact ih.below
  | @call w w' op res _ hop h ih =>
    have hstep := ih.step (F := F) (a := w.2) hop
    cases res with
    | ok _ => exact hstep.of_ok h
    | error e => exact hstep.of_error h

def Reserved (s : HostAddressSpace) (va : ℕ) : Prop :=
  ∃ r ∈ s.mappings, r.reservedBase ≤ va ∧ va < r.reservedEnd

omit [FrameSource F] in
lemma Extents.reserved_iff (h : Extents s) : s.Reserved p ↔ Covers s.mappings p := by
  refine exists_congr fun r => and_congr_right fun hr => ?_
  rw [(h.laid.placed r hr).reservedBase,(h.laid.placed r hr).reservedEnd]

section Guards
variable {start last : ℕ} {r : Region} {mid : Option UInt8}

/-- What is left of an extent whose usable pages in `[start, last)` get a new record. -/
def keptLo (start last : ℕ) (r : Region) : ℕ := if start ≤ r.base ∧ r.base < last then r.base else r.lo
def keptHi (start last : ℕ) (r : Region) : ℕ :=
  if start < r.usableEnd ∧ r.usableEnd ≤ last then r.usableEnd else r.hi

lemma pieces_covers (hr : r.Placed) (hstart : start%4096 = 0) (hlast : last%4096 = 0) :
    Covers (pieces start last false mid r) p ↔ keptLo start last r ≤ p ∧ p < keptHi start last r := by
  have hbounds := hr.bounds
  rw [pieces]
  by_cases hout : min last r.usableEnd ≤ max start r.base
  · rw [if_pos hout,covers_singleton,keptLo,keptHi,if_neg (by omega),if_neg (by omega)]
  · have he := editRange_of_lt hr.toFits hstart hlast hout
    have hend := usableEnd_aligned hr.toFits
    have hmid : (slice (max start r.base) (min last r.usableEnd) 0 0 (mid.getD r.prot) r.owned).hi =
        min last r.usableEnd := by
      rw [slice_hi he.aligned.1 he.aligned.2 he.nonempty.le,zero_mul,add_zero]
    have hfirst : (slice r.base (max start r.base) r.guardLow 0 r.prot r.owned).hi =
        max start r.base := by
      rw [slice_hi hr.aligned he.aligned.1 he.lower,zero_mul,add_zero]
    have hlast' : (slice (min last r.usableEnd) r.usableEnd 0 r.guardHigh r.prot r.owned).hi = r.hi := by
      rw [slice_hi he.aligned.2 hend he.upper,hr.usableEnd,Region.hi]
      omega
    have hlo : r.base-r.guardLow*4096 = r.lo := rfl
    simp only [if_neg hout,Covers,mem_survivors,or_and_right,exists_or,and_assoc,
      exists_eq_left,exists_and_left,true_and,hmid,hfirst,hlast',slice_lo,hlo,zero_mul,
      Nat.sub_zero,keptLo,keptHi]
    split_ifs <;> omega

omit [FrameSource F] in
lemma Extents.guard_iff (h : Extents s) : s.isGuard p = true ↔ s.Reserved p ∧ ¬ s.Usable p := by
  rw [isGuard,List.any_eq_true]
  constructor
  · rintro ⟨r,hr,hin⟩
    obtain ⟨hlo,hhi,hout⟩ := of_decide_eq_true hin
    refine ⟨⟨r,hr,hlo,hhi⟩,?_⟩
    rintro ⟨r',hr',hlo',hhi'⟩
    have hplaced := h.laid.placed r hr
    have hbounds' := (h.laid.placed r' hr').bounds
    rw [hplaced.reservedBase] at hlo
    rw [hplaced.reservedEnd] at hhi
    obtain rfl := Laid.eq_of_mem h.laid hr hr' hlo hhi (hbounds'.1.trans hlo')
      (hhi'.trans_le hbounds'.2.2)
    omega
  · rintro ⟨⟨r,hr,hlo,hhi⟩,hno⟩
    refine ⟨r,hr,decide_eq_true ⟨hlo,hhi,?_⟩⟩
    by_contra hin
    exact hno ⟨r,hr,by omega⟩

omit [FrameSource F] in
lemma Extents.usable_iff (h : Extents s) :
    s.Usable p ↔ ∃ v ∈ (cellsOf s.mappings).map Cell.va, v = p/4096*4096 := by
  constructor
  · rintro ⟨r,hr,hin⟩
    obtain ⟨c,hc,hva⟩ := (h.laid.placed r hr).toFits.mem_cells.mpr hin
    exact ⟨c.va,List.mem_map_of_mem (mem_flatMap.mpr ⟨r,hr,hc⟩),hva⟩
  · rintro ⟨_,hv,hva⟩
    obtain ⟨c,hc,rfl⟩ := List.mem_map.mp hv
    obtain ⟨r,hr,hc⟩ := mem_flatMap.mp hc
    exact ⟨r,hr,(h.laid.placed r hr).toFits.mem_cells.mp ⟨c,hc,hva⟩⟩

lemma pieces_va (hr : r.Fits) (hstart : start%4096 = 0) (hlast : last%4096 = 0) :
    (cellsOf (pieces start last false mid r)).map Cell.va = r.cells.map Cell.va := by
  have hva : ∀ b k prot owned, (pageRun b k prot owned).map Cell.va =
      (List.range k).map fun i => b+i*4096 := fun b k prot owned => by
    rw [pageRun,List.map_map]
    rfl
  rw [pieces]
  split_ifs with hout
  · rw [cellsOf_singleton]
  · rw [survivors_cells,(editRange_of_lt hr hstart hlast hout).cells hr]
    simp only [map_append,hva,Bool.false_eq_true,if_false]

omit [FrameSource F] in
lemma Extents.usable_edited (h : Extents s) (ht : Extents t) (hal : va%4096 = 0)
    (hmap : t.mappings = s.edited va n false mid) : t.Usable p ↔ s.Usable p := by
  have hfits : ∀ x ∈ s.mappings.flatMap (pieces va (va+n*4096) false mid), x.Fits := by
    intro x hx
    obtain ⟨r,hr,hx⟩ := mem_flatMap.mp hx
    exact pieces_fits (h.laid.placed r hr).toFits hal (by omega) hx
  have hcells : (cellsOf (s.edited va n false mid)).map Cell.va =
      (cellsOf s.mappings).map Cell.va := by
    rw [edited,(coalesce_cells hfits).2,cellsOf,cellsOf,flatMap_assoc,map_flatMap,
      map_flatMap]
    refine flatMap_congr fun r hr => ?_
    exact pieces_va (h.laid.placed r hr).toFits hal (by omega)
  rw [ht.usable_iff,h.usable_iff,hmap,hcells]

/-- A change of protection keeps the reserved extents, the guards and the usable pages iff it touches
no guarded edge of a region. -/
theorem mprotect_keeps_guards_iff (hreach : Reachable GuardsFit (s,a))
    (hrun : mprotect va n prot (s,a) = some (.ok (),(t,b))) :
    (∀ p, (t.Reserved p ↔ s.Reserved p) ∧ t.isGuard p = s.isGuard p ∧ (t.Usable p ↔ s.Usable p)) ↔
      ∀ r ∈ s.mappings, (va ≤ r.base ∧ r.base < va+n*4096 → r.guardLow = 0) ∧
        (va < r.usableEnd ∧ r.usableEnd ≤ va+n*4096 → r.guardHigh = 0) := by
  have hs : Extents s := hreach.extents
  have ht : Extents t :=
    (hreach.call (show GuardsFit (.mprotect va n prot) from trivial) hrun).extents
  obtain ⟨hal,u,-,hu⟩ := wlp_mprotect.of_ok hrun
  have hmap : t.mappings = s.edited va n false (some prot) := by rw [show t = _ from hu]
  have husable : ∀ p, t.Usable p ↔ s.Usable p := fun p => hs.usable_edited ht hal hmap
  have hcovers : ∀ p, t.Reserved p ↔ ∃ r ∈ s.mappings, keptLo va (va+n*4096) r ≤ p ∧
      p < keptHi va (va+n*4096) r := fun p => by
    rw [ht.reserved_iff,hmap,edited,coalesce_covers (pieces_laid hal (by omega) hs.laid),Covers]
    simp only [mem_flatMap]
    constructor
    · rintro ⟨x,⟨r,hr,hx⟩,hin⟩
      exact ⟨r,hr,(pieces_covers (hs.laid.placed r hr) hal (by omega)).mp ⟨x,hx,hin⟩⟩
    · rintro ⟨r,hr,hin⟩
      obtain ⟨x,hx,hin⟩ : Covers (pieces va (va+n*4096) false (some prot) r) p :=
        (pieces_covers (hs.laid.placed r hr) hal (by omega)).mpr hin
      exact ⟨x,⟨r,hr,hx⟩,hin⟩
  constructor
  · intro hsame r hr
    have hbounds := (hs.laid.placed r hr).bounds
    -- an address of the extent that the edit drops would be in another region's extent
    have hkept : ∀ p, r.lo ≤ p → p < r.hi →
        keptLo va (va+n*4096) r ≤ p ∧ p < keptHi va (va+n*4096) r := by
      intro p hlo hhi
      have hold : s.Reserved p := hs.reserved_iff.mpr ⟨r,hr,hlo,hhi⟩
      obtain ⟨r',hr',hin⟩ := (hcovers p).mp ((hsame p).1.mpr hold)
      have hbounds' := (hs.laid.placed r' hr').bounds
      have hin' : r'.lo ≤ p ∧ p < r'.hi := by
        rw [keptLo,keptHi] at hin
        split_ifs at hin <;> omega
      obtain rfl := Laid.eq_of_mem hs.laid hr hr' hlo hhi hin'.1 hin'.2
      exact hin
    refine ⟨fun hin => ?_,fun hin => ?_⟩
    · have h := (hkept r.lo le_rfl (by omega)).1
      rw [keptLo,if_pos hin,Region.lo] at h
      have hlow := (hs.laid.placed r hr).low
      have hpos := (hs.laid.placed r hr).nonempty
      omega
    · have h := (hkept (r.hi-1) (by omega) (by omega)).2
      rw [keptHi,if_pos hin,(hs.laid.placed r hr).usableEnd,Region.hi] at h
      omega
  · intro hedge p
    have hreserved : t.Reserved p ↔ s.Reserved p := by
      rw [hcovers,hs.reserved_iff,Covers]
      refine exists_congr fun r => and_congr_right fun hr => ?_
      obtain ⟨hlow,hhigh⟩ := hedge r hr
      have hlo : keptLo va (va+n*4096) r = r.lo := by
        rw [keptLo]
        split_ifs with hin
        · rw [Region.lo,hlow hin,zero_mul,Nat.sub_zero]
        · rfl
      have hhi : keptHi va (va+n*4096) r = r.hi := by
        rw [keptHi]
        split_ifs with hin
        · rw [(hs.laid.placed r hr).usableEnd,Region.hi,hhigh hin,add_zero]
        · rfl
      rw [hlo,hhi]
    refine ⟨hreserved,?_,husable p⟩
    rw [Bool.eq_iff_iff,ht.guard_iff,hs.guard_iff,hreserved,husable p]

def sampleFrames : BitmapFrameAllocator := ⟨[0],256,16,16⟩

lemma sampleSpace_reachable {Allowed : MmOp → Prop} :
    Reachable Allowed (sampleSpace,sampleFrames) :=
  .empty sampleFrames sampleSpace_empty

/-- Reprotecting the middle one of three guarded pages. -/
theorem mprotect_keeps_guards_middle : ∃ s t : HostAddressSpace, s.isGuard 0x10000 = true ∧
    ∀ p, (t.Reserved p ↔ s.Reserved p) ∧ t.isGuard p = s.isGuard p ∧ (t.Usable p ↔ s.Usable p) := by
  have hsome : ((MmOp.apply (.mmap 3 ⟨Prot.read,⟨1,1⟩,none,0⟩) (sampleSpace,sampleFrames)).bind
      fun w => if w.2.1.isGuard 0x10000 ∧ w.2.1.mappings = [⟨0x11000,3,1,1,Prot.read,true⟩] then
        (mprotect 0x12000 1 Prot.write w.2).bind fun r => r.1.toOption else none) = some () := by
    decide +kernel
  obtain ⟨⟨res,s,a⟩,hcall,hite⟩ := bind_eq_some_iff.mp hsome
  obtain ⟨⟨hguard,hregions⟩,hprot⟩ := ite_none_right_eq_some.mp hite
  obtain ⟨⟨r,t,b⟩,hrun,hok⟩ := bind_eq_some_iff.mp hprot
  cases Npt.toOption_eq_some.mp hok
  have hguards : GuardsFit (.mmap 3 ⟨Prot.read,⟨1,1⟩,none,0⟩) := by simp [GuardsFit]
  have hreach := sampleSpace_reachable.call hguards hcall
  refine ⟨s,t,hguard,(mprotect_keeps_guards_iff hreach hrun).mpr ?_⟩
  rw [show s.mappings = _ from hregions]
  decide

/-- A guarded mapping loses its guards when its protection is changed. -/
theorem mprotect_drops_guards :
    ((do
      let u ← mmap 2 ⟨Prot.read,⟨1,1⟩,none,0⟩
      let before ← Prog.gets fun q => q.1.isGuard 0x10000
      mprotect u 2 Prot.write
      let after ← Prog.gets fun q => q.1.isGuard 0x10000
      pure (before,after) : Prog (HostAddressSpace × BitmapFrameAllocator) MmError (Bool × Bool))
      (sampleSpace,sampleFrames)).map Prod.fst = some (.ok (true,false)) := by
  decide +kernel

end Guards

def reservedBytes (n : ℕ) (opts : MmapOptions) : ℕ := (opts.guard.low+opts.guard.high+n)*4096

omit [FrameSource F] in
lemma mmapBase_eq_findFreeVa (hva : opts.va = none) (hn : n ≠ 0)
    (hlt : reservedBytes n opts < 2^64) :
    s.mmapBase n opts = s.findFreeVa (opts.guard.low+opts.guard.high+n) := by
  rw [reservedBytes] at hlt
  have hcount : opts.guard.count = opts.guard.low+opts.guard.high := add64_of_lt (by omega)
  have hadd : checkedAdd64 opts.guard.count n = some (opts.guard.low+opts.guard.high+n) := by
    rw [hcount]
    exact checkedAdd64_eq_some.mpr ⟨by omega,rfl⟩
  have hmul : checkedMul64 (opts.guard.low+opts.guard.high+n) pageSize =
      some ((opts.guard.low+opts.guard.high+n)*4096) := checkedMul64_eq_some.mpr ⟨hlt,rfl⟩
  rw [mmapBase,hadd,hva,Checked.ensure,if_pos hn]
  show (Checked.ofOption _ (checkedMul64 _ pageSize) >>= fun _ => _) = _
  rw [hmul]
  rfl

/-- A call without an address gets the lowest extent that fits, and fails for want of addresses iff
none does. -/
theorem mmap_first_fit (hreach : Reachable GuardsFit (s,a)) (hva : opts.va = none) (hn : n ≠ 0)
    (hlt : reservedBytes n opts < 2^64) :
    (∀ u t b, mmap n opts (s,a) = some (.ok u,(t,b)) → ∃ c, u = c+opts.guard.low*4096 ∧
      FitsAt s (reservedBytes n opts) c ∧ (∀ c', FitsAt s (reservedBytes n opts) c' → c ≤ c') ∧
      ∀ p, t.Reserved p ↔ s.Reserved p ∨ (c ≤ p ∧ p < c+reservedBytes n opts)) ∧
    ((∃ q, mmap n opts (s,a) = some (.error .outOfVirtualMemory,q)) ↔
      ∀ c, ¬ FitsAt s (reservedBytes n opts) c) := by
  have hs : Extents s := hreach.extents
  have hguard : opts.guard.low+opts.guard.high < 2^64 := by
    rw [reservedBytes] at hlt
    omega
  have hbase := mmapBase_eq_findFreeVa (s := s) hva hn hlt
  have hpages : opts.guard.low+opts.guard.high+n ≠ 0 := by omega
  have hexact := findFreeVa_exact hs hpages hlt
  rw [← hbase] at hexact
  constructor
  · intro u t b hrun
    obtain ⟨c,v,hc,-,rfl,ht⟩ := wlp_mmap.of_ok hrun
    have ht' : Extents t := by
      have hcall : (MmOp.mmap n opts).apply (s,a) = some (.ok (),(t,b)) := by
        show (mmap n opts >>= fun _ => pure () : Prog _ _ _) (s,a) = _
        simp only [bind,hrun]
        rfl
      exact (hreach.call (show GuardsFit (.mmap n opts) from hguard) hcall).extents
    obtain ⟨c',hc',hfit,hleast⟩ | ⟨hc',-⟩ := hexact
    swap
    · cases hc'.symm.trans hc
    cases hc'.symm.trans hc
    have hclear := mmapBase_clear hs.laid hs.base hs.limit hguard hc
    obtain ⟨hplaced,hlo,hhi⟩ := mmapRegion_placed hn hclear
    have hcanon := hclear.canonical
    refine ⟨c,?_,hfit,hleast,fun p => ?_⟩
    · have hmul : mul64 opts.guard.low 4096 = opts.guard.low*4096 := mul64_of_lt (by omega)
      show add64 c (mul64 opts.guard.low 4096) = _
      rw [hmul,add64_of_lt (by omega)]
    · have hlaid := insertRegion_laid hs.laid hplaced (by rw [hlo,hhi]; exact hclear.disjoint)
      have hmap : t.mappings = coalesce (insertRegion s.mappings (mmapRegion c n opts)) := by
        rw [show t = _ from ht]
      rw [ht'.reserved_iff,hs.reserved_iff,hmap,coalesce_covers hlaid,insertRegion_covers,hlo,hhi]
      rfl
  · constructor
    · rintro ⟨q,hrun⟩
      obtain ⟨-,herr | hne⟩ := wlp_mmap.of_error hrun
      · obtain ⟨c,hc,-⟩ | ⟨-,hnone⟩ := hexact
        · cases hc.symm.trans herr
        · exact hnone
      · exact absurd rfl hne
    · intro hnone
      obtain ⟨c,-,hfit,-⟩ | ⟨herr,-⟩ := hexact
      · exact absurd hfit (hnone c)
      · refine ⟨(s,a),?_⟩
        show (Prog.ofExcept (s.mmapBase n opts) >>= fun _ => _ : Prog _ _ _) (s,a) = _
        rw [herr]
        rfl

/-- Two pages between guards in the fresh space. -/
theorem mmap_first_fit_fresh :
    ∃ c, FitsAt sampleSpace (4*4096) c ∧ (∀ c', FitsAt sampleSpace (4*4096) c' → c ≤ c') ∧
      c+4096 = 0x11000 := by
  have hrun : ((mmap 2 ⟨Prot.read,⟨1,1⟩,none,0⟩ (sampleSpace,sampleFrames)).bind
      fun r => r.1.toOption) = some 0x11000 := by decide +kernel
  obtain ⟨⟨r,t,b⟩,hcall,hok⟩ := bind_eq_some_iff.mp hrun
  cases Npt.toOption_eq_some.mp hok
  have hlt : reservedBytes 2 ⟨Prot.read,⟨1,1⟩,none,0⟩ < 2^64 := by decide
  obtain ⟨c,hu,hfit,hleast,-⟩ :=
    (mmap_first_fit sampleSpace_reachable rfl (by decide) hlt).1 _ _ _ hcall
  exact ⟨c,hfit,hleast,hu.symm⟩

/-- A request whose size overflows is refused as such, though no address fits it. -/
theorem mmap_of_overflowing_size :
    (mmap (2^52) ⟨Prot.read,⟨0,0⟩,none,0⟩ (sampleSpace,sampleFrames)).map Prod.fst =
      some (.error .addressOverflow) ∧
    ∀ c, ¬ FitsAt sampleSpace (reservedBytes (2^52) ⟨Prot.read,⟨0,0⟩,none,0⟩) c := by
  refine ⟨by decide +kernel,fun c hc => ?_⟩
  have hend : c+reservedBytes (2^52) ⟨Prot.read,⟨0,0⟩,none,0⟩ ≤ 0x20000 := hc.2.1
  rw [reservedBytes] at hend
  omega

/-- The reserved extent of a fixed mapping is manageable iff it does not start too low. -/
theorem fixed_extent_iff {Allowed : MmOp → Prop} (hreach : Reachable Allowed (s,a)) :
    (∀ n opts c u q, opts.va = some c → mmap n opts (s,a) = some (.ok u,q) →
      (s.vaBase ≤ c ∧ c+reservedBytes n opts ≤ s.vaLimit ↔
        s.vaBase ≤ c ∧ opts.guard.low+opts.guard.high < 2^64)) ∧
    ∀ va pa n prot extraFlags t, mapFixed va pa n prot extraFlags s = some (.ok (),t) →
      (s.vaBase ≤ va ∧ va+n*4096 ≤ s.vaLimit ↔ s.vaBase ≤ va) := by
  have hlimit : s.vaLimit ≤ 2^48 := hreach.limit_le
  refine ⟨fun n opts c u q hva hrun => and_congr_right fun _ => ?_,
    fun va pa n prot extraFlags t hrun => ?_⟩
  · obtain ⟨base,t,hbase,-⟩ := wlp_mmap.of_ok hrun
    constructor
    · intro hend
      rw [reservedBytes] at hend
      omega
    · intro hguard
      have hcount : opts.guard.count = opts.guard.low+opts.guard.high := add64_of_lt hguard
      simp only [mmapBase,hcount,hva,bind_eq_ok,ensure_eq_ok,ofOption_eq_ok,
        checkedAdd64_eq_some,checkedMul64_eq_some,pure_eq_ok] at hbase
      obtain ⟨-,-,_,⟨-,rfl⟩,_,⟨-,rfl⟩,-,-,_,⟨-,rfl⟩,-,hin,-⟩ := hbase
      exact hin
  · obtain ⟨hcheck,-⟩ := wlp_mapFixed.of_ok hrun
    exact and_iff_left_of_imp fun _ => (mapFixedCheck_ok hcheck).2.2.1

/-- A fixed page inside the fresh range. -/
theorem fixed_extent_iff_fresh : sampleSpace.vaBase ≤ 0x14000 ∧
    0x14000+4096 ≤ sampleSpace.vaLimit := by
  have hsome : (mapFixed 0x14000 0x8000 1 Prot.read 0 sampleSpace).any (·.1.isOk) = true := by
    decide +kernel
  obtain ⟨⟨_ | _,t⟩,hrun,hok⟩ := (Option.any_eq_true _ _).mp hsome
  · cases hok
  · have hreach : Reachable GuardsFit (sampleSpace,sampleFrames) := sampleSpace_reachable
    exact ((fixed_extent_iff hreach).2 _ _ _ _ _ _ hrun).mpr (by decide)

/-- A mapping below the manageable range. -/
theorem fixed_below_range : sampleSpace.vaBase = 0x10000 ∧
    (mmap 1 ⟨Prot.read,⟨0,0⟩,some 0x1000,0⟩ (sampleSpace,sampleFrames)).map Prod.fst =
      some (.ok 0x1000) ∧
    (mapFixed 0x1000 0x8000 1 Prot.read 0 sampleSpace).map Prod.fst = some (.ok ()) := by
  decide +kernel

end HostAddressSpace
end Enlil.Memory
