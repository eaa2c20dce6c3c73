import Mathlib.Data.Finset.Union
import Enlil.Memory.HostMm.Placement

/-! # Calls that fail part-way -/

namespace Enlil.Memory
open Word Paging Prog
namespace HostAddressSpace

attribute [local irreducible] Prog.wp

variable {F : Type} {Held : F → Multiset ℕ → Prop} {s t : HostAddressSpace} {a b : F}
  {E : Multiset ℕ} {n va pa extraFlags base pages : ℕ} {prot : UInt8} {opts : MmapOptions}
  {e : MmError} {H : HugeLeaves}

/-! ### Pools apart from the tables -/

/-- No table that a walk passes lies in the pool, and entries can hold the pool's addresses. -/
def PoolApart (s : HostAddressSpace) (base pages : ℕ) : Prop :=
  base+pages*4096 ≤ 2^52 ∧ ∀ p n, s.reachAt p = some n →
    s.tableBase+n*4096+4096 ≤ base ∨ base+pages*4096 ≤ s.tableBase+n*4096

/-- The states that calls reach from an empty space, or from one over tables that form a tree, if
every pool given later is apart from the tables then in use. -/
inductive Pooled [FrameSource F] : HostAddressSpace × F → Prop
  | empty {s : HostAddressSpace} {image : Buf} {physBase poolBase poolPages vaBase vaLen : ℕ}
      (a : F) (h : empty image physBase poolBase poolPages vaBase vaLen = .ok s)
      (hpool : poolBase+poolPages*4096 ≤ 2^52) : Pooled (s,a)
  | overIdentity {s : HostAddressSpace} {image : Buf} {cr3 vaBase vaLen : ℕ} (a : F)
      (h : overIdentity image cr3 vaBase vaLen = .ok s) (htables : TableInv s s.hugeAt) :
      Pooled (s,a)
  | setTablePool {s t : HostAddressSpace} {a : F} {base pages : ℕ} (hs : Pooled (s,a))
      (h : s.setTablePool base pages = .ok t) (hapart : s.PoolApart base pages) : Pooled (t,a)
  | call {w w' : HostAddressSpace × F} {op : MmOp} {res : Except MmError Unit} (hw : Pooled w)
      (hop : Words op) (h : op.apply w = some (res,w')) : Pooled w'

lemma TableInv.setTablePool (h : TableInv s H) (hpool : s.setTablePool base pages = .ok t)
    (hapart : s.PoolApart base pages) : TableInv t H := by
  simp only [HostAddressSpace.setTablePool,initTablePool,Checked.bind_eq_ok,Checked.pure_eq_ok,
    Checked.ensure_eq_ok,Checked.ofOption_eq_ok,checkedMul64_eq_some,checkedAdd64_eq_some,
    and_pageSize_sub_one] at hpool
  obtain ⟨-,-,-,hal,-,hge,_,⟨-,rfl⟩,_,⟨-,rfl⟩,-,hfit,rfl⟩ := hpool
  have hbase : s.tableBase ≤ base := by
    rw [tableBase]
    omega
  have hbase0 : s.tableBase%4096 = 0 := Nat.mul_mod_left _ _
  have hnext : s.imagePhysBase+(base-s.imagePhysBase) =
      s.tableBase+(s.imagePhysBase+(base-s.imagePhysBase)-s.tableBase)/4096*4096 := by
    omega
  refine ⟨h.root,hnext,Nat.le_add_right _ _,hfit,?_,⟨h.tree.unique,h.tree.words,?_⟩,h.huge⟩
  · show s.imagePhysBase+(base-s.imagePhysBase+pages*4096) ≤ 2^52
    have := hapart.1
    omega
  · intro p n hp
    refine ⟨(h.inUse hp).1,(hapart.2 p n hp).imp (fun hbelow => ?_) fun habove => ?_⟩
    · show n < (s.imagePhysBase+(base-s.imagePhysBase)-s.tableBase)/4096
      omega
    · show s.imagePhysBase+(base-s.imagePhysBase+pages*4096) ≤ s.tableBase+n*4096
      omega

lemma tableInv_of_empty {image : Buf} {physBase poolBase poolPages vaBase vaLen : ℕ}
    (h : empty image physBase poolBase poolPages vaBase vaLen = .ok s)
    (hpool : poolBase+poolPages*4096 ≤ 2^52) : TableInv s fun _ => none := by
  obtain ⟨⟨-,pages,-,hholds⟩,-⟩ : Inv framePolicy (fun (_ : Unit) _ => True) s () ∧ _ :=
    empty_inv h hpool trivial
  exact hholds.tables

lemma Pooled.tables [FrameSource F] {w : HostAddressSpace × F} (h : Pooled w) :
    w.1.vaLimit ≤ 2^48 ∧ ∃ H, TableInv w.1 H := by
  induction h with
  | empty a h hpool =>
    refine ⟨?_,_,tableInv_of_empty h hpool⟩
    obtain ⟨-,-,-,-,-,hcanon,rfl⟩ := empty_eq_ok h
    exact hcanon
  | overIdentity a h htables => exact ⟨(overIdentity_extents h).limit,_,htables⟩
  | setTablePool _ h hapart ih =>
    obtain ⟨hlimit,H,htables⟩ := ih
    exact ⟨(setTablePool_shell h).2.2.trans_le hlimit,H,htables.setTablePool h hapart⟩
  | @call w w' op res _ hop h ih =>
    obtain ⟨hlimit,H,htables⟩ := ih
    obtain ⟨t,l,hkept,hw'⟩ : ∃ t l, Kept (Words op) w.1 t ∧ w'.1 = { t with mappings := l } := by
      cases res with
      | ok _ => exact apply_kept.of_ok h
      | error e => exact apply_kept.of_error h
    rw [hw']
    exact ⟨hkept.shell.vaLimit.trans_le hlimit,H,(hkept.tables hop H htables).setMappings l⟩

lemma TableInv.translate_congr (hs : TableInv s H) (ht : TableInv t H)
    (h : ∀ va, t.leafAt va = s.leafAt va) (va : ℕ) : t.translate va = s.translate va := by
  rw [hs.translate,ht.translate,h]

/-- A failed `mmap` shows in no translation, no region and no frame, as long as no pool is given that
holds a live table. -/
theorem mmap_error_unchanged [FrameSource F] (law : FrameSource.Lawful F Held) (hs : Pooled (s,a))
    (hextra : opts.extraFlags < 2^64) (hheld : Held a E)
    (herr : mmap n opts (s,a) = some (.error e,(t,b))) :
    (∀ va, t.translate va = s.translate va) ∧ t.mappings = s.mappings ∧ Held b E := by
  obtain ⟨-,H,htables⟩ := hs.tables
  obtain ⟨ht,-,hleaf,hb⟩ := (htables.wp_mmap law hheld hextra).of_error herr
  exact ⟨htables.translate_congr ht hleaf,(wlp_mmap.of_error herr).1.shell.mappings,hb⟩

/-- A fresh space with a pool of `k` tables and 4 MiB of addresses. -/
def poolSpace (k : ℕ) : HostAddressSpace :=
  ⟨Buf.zero ⟨65536,fun _ => 0⟩ 4096 4096,0,4096,4096,8192,4096+k*4096,0,0x400000,[]⟩

lemma poolSpace_empty : empty ⟨65536,fun _ => 0⟩ 0 4096 4 0 0x400000 = .ok (poolSpace 4) := rfl

/-- In a pool given later, two pages need two page tables, of which it has one: the first page is
mapped and unmapped again. -/
theorem mmap_error_unchanged_crossing : ∃ s e t b, (poolSpace 4).setTablePool 0x8000 3 = .ok s ∧
    mmap 2 ⟨Prot.read,⟨0,0⟩,some 0x1ff000,0⟩ (s,sampleFrames) = some (.error e,(t,b)) ∧
      ∀ va, t.translate va = s.translate va := by
  have hapart : (poolSpace 4).PoolApart 0x8000 3 := by
    refine ⟨by decide,fun p n hp => ?_⟩
    have hwords : ∀ i, (poolSpace 4).tableWord 1 i = 0 := by decide +kernel
    cases p with
    | nil =>
      cases hp
      decide
    | cons i p =>
      have hroot : (poolSpace 4).rootTable = 1 := by decide
      rw [reachAt,hroot,Radix.reach,hwords] at hp
      cases hp
  have hsome : (((poolSpace 4).setTablePool 0x8000 3).toOption.bind fun s =>
      mmap 2 ⟨Prot.read,⟨0,0⟩,some 0x1ff000,0⟩ (s,sampleFrames)).any
        (fun r => r.1.toOption.isNone) = true := by
    decide +kernel
  cases hs : (poolSpace 4).setTablePool 0x8000 3 with
  | error e =>
    rw [hs] at hsome
    cases hsome
  | ok s =>
  rw [hs] at hsome
  obtain ⟨⟨_ | _,t,b⟩,hcall,hr⟩ := (Option.any_eq_true _ _).mp hsome
  · have hheld : sampleFrames.Held 0 := BitmapFrameAllocator.held_new
      (show BitmapFrameAllocator.new 0x100000 0x10000 = some sampleFrames from rfl) (by decide)
    have hpooled : Pooled (s,sampleFrames) :=
      .setTablePool (.empty _ poolSpace_empty (by decide)) hs hapart
    exact ⟨s,_,t,b,rfl,hcall,(mmap_error_unchanged BitmapFrameAllocator.lawful hpooled
      (by decide) hheld hcall).1⟩
  · cases hr

/-- The pool is replaced by its own first page before anything is mapped. The next table then is the
root, and the failed call leaves it pointing at itself. -/
theorem mmap_error_maps_root : ((poolSpace 4).setTablePool 4096 1).toOption.bind (fun s =>
      (mmap 1 ⟨Prot.read,⟨0,0⟩,some 0x200000,0⟩ (s,sampleFrames)).map fun r =>
        (r.1.toOption,s.translate 0,r.2.1.translate 0)) = some (none,none,some 4096) := by
  decide +kernel

/-! ### `map_fixed` -/

/-- The paths of the tables that the pages of a range need. -/
def rangeTables (va n : ℕ) : Finset (List (Fin 512)) :=
  (Finset.range n).biUnion fun k => pathTables (va+k*4096)

lemma rangeTables_succ : rangeTables va (n+1) = rangeTables va n ∪ pathTables (va+n*4096) := by
  rw [rangeTables,Finset.range_add_one,Finset.biUnion_insert,Finset.union_comm,rangeTables]

/-- The tables that are missing for the first `n` pages from `va`. -/
def tablesNeeded (s : HostAddressSpace) (va n : ℕ) : ℕ := (s.missing (rangeTables va n)).card

lemma tablesNeeded_mono {k : ℕ} (h : k ≤ n) : s.tablesNeeded va k ≤ s.tablesNeeded va n :=
  missing_mono (Finset.biUnion_subset_biUnion_of_subset_left _ (Finset.range_subset_range.mpr h))

lemma TableInv.le_tablePagesLeft (h : TableInv s H) {k : ℕ} :
    k ≤ s.tablePagesLeft ↔ s.tableCursor+4096*k ≤ s.tableLimit := by
  have hused := h.used
  have hleft : s.tablePagesLeft = (s.tableLimit-s.tableCursor)/4096 := rfl
  rw [hleft]
  omega

lemma checkUnmapped_ok {u : Unit} (hs : TableInv s H) (h : s.checkUnmapped va n = .ok u) :
    ∀ k < n, H (va+k*4096) = none ∧ s.leafAt (va+k*4096) = none := by
  induction n with
  | zero => exact fun k hk => absurd hk (Nat.not_lt_zero k)
  | succ n ih =>
    rw [checkUnmapped,hs.leafEntry,Checked.bind_eq_ok] at h
    obtain ⟨_,hrest,hlast⟩ := h
    intro k hk
    obtain hk | rfl := Nat.lt_succ_iff_lt_or_eq.mp hk
    · exact ih hrest k hk
    · cases hhuge : H (va+k*pageSize) with
      | some _ =>
        rw [hhuge] at hlast
        cases hlast
      | none =>
        refine ⟨rfl,?_⟩
        cases hleaf : s.leafAt (va+k*pageSize) with
        | none => rfl
        | some w =>
          rw [hhuge,hleaf] at hlast
          cases hlast

/-- If the pool has the tables for the range, the call succeeds. A failure leaves the leaves as they
were if the tables for the first page are lacking, and else leaves that page mapped. -/
lemma TableInv.wp_mapFixed (h : TableInv s H) (hlimit : s.vaLimit ≤ 2^48)
    (hextra : extraFlags < 2^64) (hcheck : s.mapFixedCheck va pa n = .ok ()) :
    (mapFixed va pa n prot extraFlags).wp s
      (fun _ _ => s.tablesNeeded va n ≤ s.tablePagesLeft)
      (fun _ t => TableInv t H ∧ ((∀ v, t.leafAt v = s.leafAt v) ∧
          s.tablePagesLeft < s.tablesNeeded va 1 ∨
        t.leafAt va ≠ none ∧ s.tablesNeeded va 1 ≤ s.tablePagesLeft ∧
          s.tablePagesLeft < s.tablesNeeded va n)) := by
  simp only [mapFixed,wp_bind,wp_gets,id,wp_ofExcept]
  refine ⟨fun _ _ => ?_,fun _ herr => by cases hcheck.symm.trans herr⟩
  obtain ⟨-,hal,hend,-,hpa,hfree⟩ := mapFixedCheck_ok hcheck
  have habsent := checkUnmapped_ok h hfree
  have hroom : ∀ {k t}, TableInv t H → Grown (rangeTables va k) s t →
      s.tablesNeeded va k ≤ s.tablePagesLeft := by
    intro k t ht hgrown
    have hused := ht.used
    rw [hgrown.cursor,hgrown.shell.tableLimit] at hused
    exact h.le_tablePagesLeft.mpr hused
  refine (wp_forN (fun k t => TableInv t H ∧ Grown (rangeTables va k) s t ∧
      (∀ v, (∀ l < k, v/4096%2^36 ≠ (va+l*4096)/4096%2^36) → t.leafAt v = s.leafAt v) ∧
      (0 < k → t.leafAt va ≠ none))
    ⟨h,.of_reached rfl,fun _ _ => rfl,fun hk => absurd hk (lt_irrefl 0)⟩ ?_).mono ?_
    fun _ _ herr => herr
  swap
  · rintro _ t ⟨ht,hgrown,-⟩
    rw [addRegion,wp_modify]
    exact hroom ht hgrown
  rintro k t hk ⟨ht,hgrown,hframe,hfirst⟩
  refine (ht.wp_mapPage hextra).mono ?_ ?_
  · rintro _ u ⟨hu,hgrown',-,-,-,hnew,hframe'⟩
    refine ⟨hu,rangeTables_succ ▸ hgrown.trans hgrown',fun v hv => ?_,fun _ => ?_⟩
    · rw [hframe' v (hv k (Nat.lt_succ_self k))]
      exact hframe v fun l hl => hv l (Nat.lt_succ_of_lt hl)
    · obtain rfl | hpos := Nat.eq_zero_or_pos k
      · rw [zero_mul,add_zero] at hnew
        exact hnew ▸ Option.some_ne_none _
      · rw [hframe' va (show va/4096%2^36 ≠ (va+k*4096)/4096%2^36 by omega)]
        exact hfirst hpos
  · rintro _ u ⟨hu,-,hleaf,hfull⟩
    -- the page can be mapped, so only the pool can refuse it
    have hpage : t.leafAt (va+k*4096) = none := by
      rw [hframe _ fun l hl => by omega]
      exact (habsent k hk).2
    have hpa' : add64 pa (mul64 k pageSize)%4096 = 0 := by
      show (pa+k*4096%2^64)%2^64%4096 = 0
      omega
    have hout := hfull (show (va+k*4096)%4096 = 0 by omega)
      (show va+k*4096 < 2^48 by omega) hpa' (habsent k hk).1 hpage
    have hlack : s.tablePagesLeft < s.tablesNeeded va (k+1) := by
      rw [hgrown.shell.tableLimit,hgrown.cursor] at hout
      refine Nat.lt_of_not_le fun hle => ?_
      have hfit := h.le_tablePagesLeft.mp hle
      rw [tablesNeeded,rangeTables_succ,hgrown.card_missing] at hfit
      have hout : s.tableLimit < s.tableCursor+4096*(s.missing (rangeTables va k)).card+
        4096*(t.missing (pathTables (va+k*4096))).card := hout
      omega
    refine ⟨hu,?_⟩
    obtain rfl | hpos := Nat.eq_zero_or_pos k
    · exact .inl ⟨fun v => (hleaf v).trans (hframe v fun l hl => by omega),hlack⟩
    · have hmapped : u.leafAt va ≠ none := by
        rw [hleaf]
        exact hfirst hpos
      exact .inr ⟨hmapped,(tablesNeeded_mono hpos).trans (hroom ht hgrown),
        hlack.trans_le (tablesNeeded_mono hk)⟩

/-- A `map_fixed` that fails shows in no translation and no region, except when its checks pass and
the pool has the tables for its first page but not for all of them. -/
theorem mapFixed_error_unchanged_iff [FrameSource F] (hs : Pooled (s,a))
    (hextra : extraFlags < 2^64) :
    (∀ e t, mapFixed va pa n prot extraFlags s = some (.error e,t) →
      (∀ v, t.translate v = s.translate v) ∧ t.mappings = s.mappings) ↔
    (s.mapFixedCheck va pa n = .ok () → s.tablePagesLeft < s.tablesNeeded va 1 ∨
      s.tablesNeeded va n ≤ s.tablePagesLeft) := by
  obtain ⟨hlimit,H,htables⟩ : s.vaLimit ≤ 2^48 ∧ ∃ H, TableInv s H := hs.tables
  constructor
  · intro hall hcheck
    obtain ⟨hn,hal,hend,-,-,hfree⟩ := mapFixedCheck_ok hcheck
    have habsent := checkUnmapped_ok htables hfree 0 (Nat.pos_of_ne_zero hn)
    rw [zero_mul,add_zero] at habsent
    have hwp : (mapFixed va pa n prot extraFlags).wp s _ _ :=
      htables.wp_mapFixed hlimit hextra hcheck
    obtain ⟨_,_,-,hroom⟩ | ⟨e,t,hcall,ht,⟨-,hlack⟩ | ⟨hmapped,-⟩⟩ := hwp.exists
    · exact .inr hroom
    · exact .inl hlack
    · -- the first page has a translation now
      have hsame := (hall e t hcall).1 va
      have hlow : ¬ Memory.vaLimit ≤ va := Nat.not_le.mpr (show va < 2^48 by omega)
      rw [ht.translate,htables.translate,if_neg hlow,if_neg hlow,habsent.1,habsent.2] at hsame
      exact absurd (Option.map_eq_none_iff.mp hsame) hmapped
  · intro hcond e t herr
    refine ⟨?_,(wlp_mapFixed.of_error herr).shell.mappings⟩
    cases hcheck : s.mapFixedCheck va pa n with
    | error e' =>
      have hrefused : (mapFixed va pa n prot extraFlags).wp s (fun _ _ => True)
          fun _ t => t = s := by
        simp only [mapFixed,wp_bind,wp_gets,id,wp_ofExcept,hcheck]
        exact ⟨fun _ hok => (by cases hok),fun _ _ => trivial⟩
      obtain rfl := hrefused.of_error herr
      exact fun _ => rfl
    | ok u =>
      obtain ⟨ht,⟨hleaf,-⟩ | ⟨-,hroom,hlack⟩⟩ :=
        (htables.wp_mapFixed hlimit hextra hcheck).of_error herr
      · exact htables.translate_congr ht hleaf
      · obtain hfirst | hall := hcond hcheck
        · exact absurd hroom (Nat.not_le.mpr hfirst)
        · exact absurd hall (Nat.not_le.mpr hlack)

/-- The tables that `build_identity_map_2mib` leaves for 4 MiB, in two huge leaves. -/
def adoptedImage : Buf :=
  ⟨0x14000,fun a => match a with
    | 0x1000 | 0x2000 => 3
    | 0x1001 | 0x300a => 0x20
    | 0x2001 => 0x30
    | 0x3000 | 0x3008 => 0x83
    | _ => 0⟩

def adopted : HostAddressSpace := ⟨adoptedImage,0,0x1000,0,0,0,0,0x80000000,[]⟩

lemma tableWord_adopted : (∀ i, adopted.tableWord 1 i = if i = 0 then 0x2003 else 0) ∧
    (∀ i, adopted.tableWord 2 i = if i = 0 then 0x3003 else 0) ∧
    ∀ i, adopted.tableWord 3 i = if i = 0 then 0x83 else if i = 1 then 0x200083 else 0 := by
  decide +kernel

lemma reachAt_adopted {p : List (Fin 512)} (h : adopted.reachAt p = some n) :
    p = [] ∧ n = 1 ∨ p = [0] ∧ n = 2 ∨ p = [0,0] ∧ n = 3 := by
  obtain ⟨h1,h2,h3⟩ := tableWord_adopted
  have hstep : ∀ {d u v w q}, (∀ i, adopted.tableWord u i = if i = 0 then w else 0) →
      decode adopted.tableBase d w = .table v →
      Radix.reach (decode adopted.tableBase) adopted.tableWord d u q = some n →
      q = [] ∧ n = u ∨ ∃ r, q = 0 :: r ∧
        Radix.reach (decode adopted.tableBase) adopted.tableWord (d+1) v r = some n := by
    intro d u v w q hwords hslot hq
    rcases q with _ | ⟨i,r⟩
    · exact .inl ⟨rfl,(Option.some.inj hq).symm⟩
    · rw [Radix.reach,hwords] at hq
      by_cases hi : i = 0
      · rw [if_pos hi,hslot] at hq
        exact .inr ⟨r,hi ▸ rfl,hq⟩
      · rw [if_neg hi,decode_absent (Nat.zero_and _)] at hq
        cases hq
  obtain hroot | ⟨q,rfl,hq⟩ := hstep (v := 2) h1 rfl (show Radix.reach _ _ 0 1 p = some n from h)
  · exact .inl hroot
  obtain ⟨rfl,hn⟩ | ⟨r,rfl,hr⟩ := hstep (v := 3) h2 rfl hq
  · exact .inr (.inl ⟨rfl,hn⟩)
  rcases r with _ | ⟨i,r⟩
  · exact .inr (.inr ⟨rfl,(Option.some.inj hr).symm⟩)
  · rw [Radix.reach,h3] at hr
    split_ifs at hr
    · cases hr
    · cases hr
    · cases hr

lemma tableInv_adopted : TableInv adopted adopted.hugeAt := by
  obtain ⟨h1,h2,h3⟩ := tableWord_adopted
  refine ⟨by decide,by decide,by decide,by decide +kernel,by decide,⟨?_,?_,?_⟩,rfl⟩
  · intro p q n hp hq
    obtain ⟨rfl,rfl⟩ | ⟨rfl,rfl⟩ | ⟨rfl,rfl⟩ := reachAt_adopted hp <;>
      obtain ⟨rfl,hn⟩ | ⟨rfl,hn⟩ | ⟨rfl,hn⟩ := reachAt_adopted hq <;> first | rfl | cases hn
  · intro p n hp i _ _
    obtain ⟨rfl,rfl⟩ | ⟨rfl,rfl⟩ | ⟨rfl,rfl⟩ := reachAt_adopted hp
    · rw [h1]
      split_ifs <;> decide
    · rw [h2]
      split_ifs <;> decide
    · rw [h3]
      split_ifs <;> decide
  · intro p n hp
    obtain ⟨-,rfl⟩ | ⟨-,rfl⟩ | ⟨-,rfl⟩ := reachAt_adopted hp <;>
      exact ⟨by decide +kernel,.inr (by decide)⟩

/-- Over an adopted map, a pool of one table that is apart from it: two pages that need two tables
before the first of them can be mapped. -/
theorem mapFixed_error_unchanged_iff_adopted : ∃ s e t,
    overIdentity adoptedImage 0x1000 0 0x80000000 = .ok adopted ∧
    adopted.setTablePool 0xc000 1 = .ok s ∧
    mapFixed 0x40000000 0x8000 2 Prot.read 0 s = some (.error e,t) ∧
      ∀ v, t.translate v = s.translate v := by
  have hsome : ((adopted.setTablePool 0xc000 1).toOption.bind fun s =>
      mapFixed 0x40000000 0x8000 2 Prot.read 0 s).any (fun r => r.1.toOption.isNone) = true := by
    decide +kernel
  have hneeded : ((adopted.setTablePool 0xc000 1).toOption.all fun s =>
      decide (s.tablePagesLeft < s.tablesNeeded 0x40000000 1)) = true := by
    decide +kernel
  have hempty : overIdentity adoptedImage 0x1000 0 0x80000000 = .ok adopted := rfl
  have hapart : adopted.PoolApart 0xc000 1 := by
    refine ⟨by decide,fun p n hp => .inl ?_⟩
    obtain ⟨-,rfl⟩ | ⟨-,rfl⟩ | ⟨-,rfl⟩ := reachAt_adopted hp <;> decide
  cases hs : adopted.setTablePool 0xc000 1 with
  | error e =>
    rw [hs] at hsome
    cases hsome
  | ok s =>
  rw [hs] at hsome hneeded
  obtain ⟨⟨_ | _,t⟩,hcall,hr⟩ := (Option.any_eq_true _ _).mp hsome
  · have hpooled : Pooled (s,sampleFrames) :=
      .setTablePool (.overIdentity _ hempty tableInv_adopted) hs hapart
    exact ⟨s,_,t,hempty,rfl,hcall,((mapFixed_error_unchanged_iff hpooled (by decide)).mpr
      (fun _ => .inl (of_decide_eq_true hneeded)) _ t hcall).1⟩
  · cases hr

/-- Two pages that need two page tables, of which the pool has one: the first page stays mapped. -/
theorem mapFixed_error_maps : (poolSpace 4).translate 0x1ff000 = none ∧
    (mapFixed 0x1ff000 0x8000 2 Prot.read 0 (poolSpace 4)).map
      (fun r => (r.1.toOption,r.2.translate 0x1ff000)) = some (none,some 0x8000) := by
  decide +kernel

end HostAddressSpace
end Enlil.Memory
