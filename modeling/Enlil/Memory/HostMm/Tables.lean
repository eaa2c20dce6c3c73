import Enlil.Hal.Npt.Walk
import Enlil.Memory.HostMm.Defs

/-! # The tables of an address space -/

namespace Enlil.Memory
open Nat Prog Except
namespace HostAddressSpace
open Word Radix Paging
open Flags (hugePage noExecute present writable)
open Npt (entryAt gpaPath pdFin pdPath pdptFin pml4Fin ptFin)

attribute [local irreducible] Prog.wp

variable {s s' t : HostAddressSpace} {p : List (Fin 512)} {n d w base va pa : ℕ} {i : Fin 512}

/-- What an entry of a table at depth `d` means. Below the root a huge entry is a leaf; tables are
numbered from the address `base`. -/
def decode (base d w : ℕ) : Slot ℕ ℕ :=
  if w &&& present = 0 then .empty
  else if d = 3 ∨ d ≠ 0 ∧ w &&& hugePage ≠ 0 then .leaf w
  else .table (((w &&& frameAddrMask)-base)/4096)

/-- A present word of the root is not huge, and a pointer is not below `base`. -/
def WordOk (base d w : ℕ) : Prop :=
  d ≠ 3 → w &&& present ≠ 0 → (d = 0 → w &&& hugePage = 0) ∧
    (w &&& hugePage = 0 → base ≤ w &&& frameAddrMask)

/-- The huge leaf over an address, with the indices that its walk leaves unused. -/
abbrev HugeLeaves := ℕ → Option (ℕ × List (Fin 512))

section
variable (s : HostAddressSpace)

/-- The first page boundary of the image. -/
def tableBase : ℕ := (s.imagePhysBase+4095)/4096*4096

def tableLead : ℕ := s.tableBase-s.imagePhysBase

def rootTable : ℕ := (s.cr3-s.tableBase)/4096

/-- The table that the pool hands out next. -/
def nextTable : ℕ := (s.imagePhysBase+s.tableCursor-s.tableBase)/4096

def tableWord : ℕ → Fin 512 → ℕ :=
  entryAt (s.image.drop s.tableLead)

def reachAt (q : List (Fin 512)) : Option ℕ :=
  reach (decode s.tableBase) s.tableWord 0 s.rootTable q

def walkAt (q : List (Fin 512)) : Option (ℕ × List (Fin 512)) :=
  walk (decode s.tableBase) s.tableWord 0 s.rootTable q

def hugeAt : HugeLeaves := fun va => s.walkAt (pdPath va)

def leafAt (va : ℕ) : Option ℕ :=
  if (s.hugeAt va).isSome then none else (s.walkAt (gpaPath va)).map Prod.fst

/-- A table in the image that the pool will not hand out. -/
def InUse (n : ℕ) : Prop :=
  s.tableBase+n*4096+4096 ≤ s.imagePhysBase+s.image.len ∧
    (n < s.nextTable ∨ s.imagePhysBase+s.tableLimit ≤ s.tableBase+n*4096)

end

/-- The tables form a tree outside the unused part of the pool, with the huge leaves `H`. -/
structure TableInv (s : HostAddressSpace) (H : HugeLeaves) : Prop where
  root : s.cr3 = s.tableBase+s.rootTable*4096
  cursor : s.imagePhysBase+s.tableCursor = s.tableBase+s.nextTable*4096
  used : s.tableCursor ≤ s.tableLimit
  inside : s.tableLimit ≤ s.image.len
  phys : s.imagePhysBase+s.tableLimit ≤ 2^52
  tree : Tree (decode s.tableBase) (WordOk s.tableBase) s.InUse s.tableWord s.rootTable
  huge : s.hugeAt = H

/-- `t` differs from `s` in table memory and the pool cursor only. -/
def Shell (s t : HostAddressSpace) : Prop :=
  t = { s with image := t.image, tableCursor := t.tableCursor }

lemma Shell.refl (s : HostAddressSpace) : Shell s s := rfl

lemma Shell.trans (h : Shell s s') (h' : Shell s' t) : Shell s t := by
  rw [Shell,h] at h'
  exact h'

lemma Shell.cr3 (h : Shell s t) : t.cr3 = s.cr3 := by rw [h]
lemma Shell.mappings (h : Shell s t) : t.mappings = s.mappings := by rw [h]
lemma Shell.vaBase (h : Shell s t) : t.vaBase = s.vaBase := by rw [h]
lemma Shell.vaLimit (h : Shell s t) : t.vaLimit = s.vaLimit := by rw [h]
lemma Shell.tableLimit (h : Shell s t) : t.tableLimit = s.tableLimit := by rw [h]
lemma Shell.tableBase (h : Shell s t) : t.tableBase = s.tableBase := by rw [h]; rfl

/-! ### The tables that a range needs -/

section Growth
variable {ps qs : Finset (List (Fin 512))} {u : HostAddressSpace}

def missing (s : HostAddressSpace) (ps : Finset (List (Fin 512))) : Finset (List (Fin 512)) :=
  ps.filter (s.reachAt · = none)

/-- `t` has the tables of `s`, and those at `ps` that were missing have come from the pool. -/
structure Grown (ps : Finset (List (Fin 512))) (s t : HostAddressSpace) : Prop where
  shell : Shell s t
  absent : ∀ p, t.reachAt p = none ↔ s.reachAt p = none ∧ p ∉ ps
  cursor : t.tableCursor = s.tableCursor+4096*(s.missing ps).card

lemma missing_singleton (h : s.reachAt p = none) : s.missing {p} = {p} := by
  rw [missing,Finset.filter_singleton,if_pos h]

lemma missing_mono (h : ps ⊆ qs) : (s.missing ps).card ≤ (s.missing qs).card :=
  Finset.card_le_card (Finset.filter_subset_filter _ h)

lemma Grown.of_reached (h : s.missing ps = ∅) : Grown ps s s := by
  refine ⟨rfl,fun p => ⟨fun hp => ⟨hp,fun hmem => ?_⟩,And.left⟩,by rw [h]; rfl⟩
  exact Finset.notMem_empty p (h ▸ Finset.mem_filter.mpr ⟨hmem,hp⟩)

lemma Grown.card_missing (h : Grown ps s t) :
    (s.missing (ps ∪ qs)).card = (s.missing ps).card+(t.missing qs).card := by
  have hdisjoint : Disjoint (s.missing ps) (t.missing qs) := by
    refine Finset.disjoint_left.mpr fun p hp hq => ?_
    exact ((h.absent p).mp (Finset.mem_filter.mp hq).2).2 (Finset.mem_filter.mp hp).1
  rw [← Finset.card_union_of_disjoint hdisjoint]
  congr 1
  ext p
  simp only [missing,Finset.mem_filter,Finset.mem_union,h.absent]
  tauto

lemma Grown.trans (h : Grown ps s t) (h' : Grown qs t u) : Grown (ps ∪ qs) s u := by
  refine ⟨h.shell.trans h'.shell,fun p => ?_,?_⟩
  · rw [h'.absent,h.absent,Finset.mem_union]
    tauto
  · rw [h'.cursor,h.cursor,h.card_missing]
    omega

end Growth

/-! ### Entries -/

lemma and_frameAddrMask (x : ℕ) : x &&& frameAddrMask = x/4096%2^40*4096 :=
  Npt.and_addrMask x

lemma and_frameAddrMask_of_aligned (h : pa%4096 = 0) (hlt : pa < 2^52) :
    pa &&& frameAddrMask = pa :=
  (Npt.and_addrMask_of_aligned h).trans (mod_eq_of_lt hlt)

lemma and_pageSize_sub_one (x : ℕ) : x &&& (pageSize-1) = x%4096 :=
  Npt.and_pageSize_sub_one x

lemma decode_absent (h : w &&& present = 0) : decode base d w = .empty := if_pos h

lemma decode_pointer (hd : d ≠ 3) (h : w &&& present ≠ 0) (hhuge : w &&& hugePage = 0)
    (haddr : w &&& frameAddrMask = base+n*4096) : decode base d w = .table n := by
  rw [decode,if_neg h,if_neg fun hleaf => hleaf.elim hd fun hleaf => hleaf.2 hhuge,haddr,
    Nat.add_sub_cancel_left,Nat.mul_div_cancel _ (by decide)]

lemma decode_huge (hd : d ≠ 0) (h : w &&& present ≠ 0) (hhuge : w &&& hugePage ≠ 0) :
    decode base d w = .leaf w := by
  rw [decode,if_neg h,if_pos (.inr ⟨hd,hhuge⟩)]

lemma decode_leaf (h : w &&& present ≠ 0) : decode base 3 w = .leaf w := by
  rw [decode,if_neg h,if_pos (.inl rfl)]

lemma decode_leaf_level : ¬ (decode base 3 w).isTable := by
  by_cases h : w &&& present = 0
  · rw [decode_absent h]
    exact id
  · rw [decode_leaf h]
    exact id

variable {a cursor b : ℕ}

lemma tableEntry_facts (hpa : pa%4096 = 0) (hlt : pa < 2^52) :
    let e := tableEntry pa (present ||| writable)
    e < 2^64 ∧ e &&& present ≠ 0 ∧ e &&& hugePage = 0 ∧
      e &&& frameAddrMask = pa := by
  refine ⟨Npt.entry_lt (by decide),?_,and_or_and_of_disjoint (by decide),?_⟩
  · show (pa &&& tableAddrMask ||| (present ||| writable)) &&& present ≠ 0
    rw [and_or_and_of_disjoint (by decide)]
    decide
  · exact (and_or_and_self (by decide)).trans (and_frameAddrMask_of_aligned hpa hlt)

variable {prot : UInt8} {extraFlags off index : ℕ}

lemma protFlags_lt : protFlags prot < 2^64 := by
  rw [protFlags]
  split_ifs <;> decide

lemma pteEntry_lt (hextra : extraFlags < 2^64) :
    pteEntry pa (protFlags prot ||| extraFlags) < 2^64 :=
  or_lt_two_pow (Nat.and_le_right.trans_lt (by decide)) (or_lt_two_pow protFlags_lt hextra)

lemma or_protFlags_present :
    (w ||| (protFlags prot ||| extraFlags)) &&& present ≠ 0 := by
  have hbit : ∀ x : ℕ, x &&& present = 0 ↔ x.testBit 0 = false := fun x =>
    Bitmap.and_one_shiftLeft_eq_zero
  have hflags : (protFlags prot).testBit 0 = true := by
    rw [protFlags]
    split_ifs <;> decide
  rw [ne_eq,hbit,testBit_or,testBit_or,hflags]
  simp

/-! ### Reading -/

variable {H : HugeLeaves}

lemma reachAt_root (s : HostAddressSpace) : s.reachAt [] = some s.rootTable := rfl

lemma tableBase_ge (s : HostAddressSpace) : s.imagePhysBase ≤ s.tableBase := by
  rw [tableBase]
  omega

section
variable (h : TableInv s H)
include h

omit h in
lemma InUse.tableByteOffset (hn : s.InUse n) :
    s.tableByteOffset (s.tableBase+n*4096) = .ok (s.tableLead+n*4096) := by
  have hge := s.tableBase_ge
  have hfit := hn.1
  have hoff : s.tableBase+n*4096-s.imagePhysBase = s.tableLead+n*4096 := by
    rw [tableLead]
    omega
  rw [HostAddressSpace.tableByteOffset,hoff,if_neg (by omega),if_neg]
  have hbytes : tableBytes = 4096 := rfl
  rw [tableLead]
  omega

omit h in
lemma InUse.readEntry (hn : s.InUse n) (i : Fin 512) :
    s.readEntry (s.tableBase+n*4096) i = .ok (s.tableWord n i) := by
  simp only [HostAddressSpace.readEntry,hn.tableByteOffset]
  rw [tableWord,entryAt,Buf.readLE_drop,add_assoc]

lemma TableInv.inUse (hp : s.reachAt p = some n) : s.InUse n := h.tree.owned hp

lemma TableInv.readEntry_root (i : Fin 512) :
    s.readEntry s.cr3 i = .ok (s.tableWord s.rootTable i) := by
  rw [h.root]
  exact (h.inUse s.reachAt_root).readEntry i

lemma TableInv.slot (hp : s.reachAt p = some n) (hd : p.length ≤ 2) (i : Fin 512) :
    (s.tableWord n i &&& present = 0 ∧ s.reachAt (p ++ [i]) = none ∧
        ∀ q, s.walkAt (p ++ i :: q) = none) ∨
      s.tableWord n i &&& present ≠ 0 ∧
        ((p ≠ [] ∧ s.tableWord n i &&& hugePage ≠ 0 ∧ s.reachAt (p ++ [i]) = none ∧
          ∀ q, s.walkAt (p ++ i :: q) = some (s.tableWord n i,q)) ∨
        s.tableWord n i &&& hugePage = 0 ∧
          ∃ m, s.tableWord n i &&& frameAddrMask = s.tableBase+m*4096 ∧
            s.reachAt (p ++ [i]) = some m) := by
  have hreach : ∀ m, s.reachAt (p ++ [i]) = some m →
      decode s.tableBase p.length (s.tableWord n i) = .table m := by
    intro m hm
    obtain ⟨u,hu,hslot⟩ := reach_snoc_zero.mp hm
    obtain rfl : u = n := Option.some.inj (hu.symm.trans hp)
    exact hslot
  have hwalk : ∀ q, s.walkAt (p ++ i :: q) =
      walk (decode s.tableBase) s.tableWord p.length n (i :: q) := fun q => walk_snoc hp
  by_cases hpres : s.tableWord n i &&& present = 0
  · refine .inl ⟨hpres,Option.eq_none_iff_forall_ne_some.mpr fun m hm => ?_,fun q => ?_⟩
    · cases (decode_absent hpres).symm.trans (hreach m hm)
    · rw [hwalk,walk,decode_absent hpres]
  obtain ⟨hroot,hge⟩ := h.tree.words hp i (by omega) hpres
  refine .inr ⟨hpres,?_⟩
  by_cases hhuge : s.tableWord n i &&& hugePage = 0
  · have hge := hge hhuge
    have haddr : s.tableWord n i &&& frameAddrMask =
        s.tableBase+((s.tableWord n i &&& frameAddrMask)-s.tableBase)/4096*4096 := by
      have hmask := and_frameAddrMask (s.tableWord n i)
      have hbase : s.tableBase%4096 = 0 := Nat.mul_mod_left _ _
      omega
    exact .inr ⟨hhuge,_,haddr,
      reach_snoc_zero.mpr ⟨n,hp,decode_pointer (by omega) hpres hhuge haddr⟩⟩
  · have hne : p.length ≠ 0 := fun h0 => hhuge (hroot h0)
    refine .inl ⟨fun hnil => hne (hnil ▸ rfl),hhuge,
      Option.eq_none_iff_forall_ne_some.mpr fun m hm => ?_,fun q => ?_⟩
    · cases (decode_huge hne hpres hhuge).symm.trans (hreach m hm)
    · rw [hwalk,walk,decode_huge hne hpres hhuge]

omit h in
lemma reachAt_append_none (h : s.reachAt p = none) (q : List (Fin 512)) :
    s.reachAt (p ++ q) = none := by
  rw [reachAt] at h
  rw [reachAt,reach_append,h]
  rfl

lemma TableInv.descend (va : ℕ) :
    s.descend va = .ok (match s.reachAt (pdPath va),H va with
      | some n, _ => .pageTable (s.tableBase+n*4096)
      | none, none => .absent
      | none, some (w,[]) => .huge2mib w
      | none, some (w,_ :: _) => .huge1gib w) := by
  rw [← h.huge,hugeAt]
  simp only [HostAddressSpace.descend,bind,Except.bind,pure,Except.pure]
  rw [show pml4Index va = pml4Fin va from rfl,show pdptIndex va = pdptFin va from rfl,
    show pdIndex va = pdFin va from rfl,h.readEntry_root]
  obtain ⟨habs,hnone,hwalk⟩ | ⟨hpres,⟨hne,-⟩ | ⟨-,n3,haddr,hp3⟩⟩ :=
    h.slot s.reachAt_root (by decide) (pml4Fin va)
  · have hreach : s.reachAt (pdPath va) = none := reachAt_append_none hnone [pdptFin va,pdFin va]
    have hhuge : s.walkAt (pdPath va) = none := hwalk [pdptFin va,pdFin va]
    rw [hreach,hhuge]
    simp only [if_pos habs]
  · exact absurd rfl hne
  simp only [if_neg hpres,haddr,(h.inUse hp3).readEntry]
  obtain ⟨habs,hnone,hwalk⟩ | ⟨hpres,⟨-,hhuge,hnone,hwalk⟩ | ⟨hhuge,n2,haddr,hp2⟩⟩ :=
    h.slot hp3 (show 1 ≤ 2 by decide) (pdptFin va)
  · have hreach : s.reachAt (pdPath va) = none := reachAt_append_none hnone [pdFin va]
    have hhuge : s.walkAt (pdPath va) = none := hwalk [pdFin va]
    rw [hreach,hhuge]
    simp only [if_pos habs]
  · have hreach : s.reachAt (pdPath va) = none := reachAt_append_none hnone [pdFin va]
    have hleaf : s.walkAt (pdPath va) = some _ := hwalk [pdFin va]
    rw [hreach,hleaf]
    simp only [if_neg hpres,ne_eq,hhuge,not_false_eq_true,if_true]
  simp only [if_neg hpres,hhuge,ne_eq,not_true_eq_false,if_false,haddr,(h.inUse hp2).readEntry]
  obtain ⟨habs,hnone,hwalk⟩ | ⟨hpres,⟨-,hhuge,hnone,hwalk⟩ | ⟨hhuge,n1,haddr,hp1⟩⟩ :=
    h.slot hp2 (show 2 ≤ 2 by decide) (pdFin va)
  · rw [show s.reachAt (pdPath va) = none from hnone,show s.walkAt (pdPath va) = none from hwalk []]
    simp only [if_pos habs]
  · rw [show s.reachAt (pdPath va) = none from hnone,
      show s.walkAt (pdPath va) = some _ from hwalk []]
    simp only [if_neg hpres,hhuge,not_false_eq_true,if_true]
  · rw [show s.reachAt (pdPath va) = some n1 from hp1]
    simp only [if_neg hpres,hhuge,not_true_eq_false,if_false,haddr]

omit h in
lemma hugeAt_of_reach (hp : s.reachAt (pdPath va) = some n) : s.hugeAt va = none := by
  have hwalk := walk_append (q := []) hp
  rwa [List.append_nil] at hwalk

omit h in
lemma leafAt_eq (s : HostAddressSpace) (va : ℕ) :
    s.leafAt va = match s.reachAt (Npt.pdPath va) with
      | none => none
      | some n =>
        if s.tableWord n (Npt.ptFin va) &&& Flags.present = 0 then none
        else some (s.tableWord n (Npt.ptFin va)) := by
  have hpath : Npt.gpaPath va = Npt.pdPath va ++ [Npt.ptFin va] := rfl
  rw [leafAt,walkAt,hpath]
  cases hp : s.reachAt (Npt.pdPath va) with
  | some n =>
    rw [hugeAt_of_reach hp,if_neg (by decide),walk_snoc hp,walk,
      show (Npt.pdPath va).length = 3 from rfl]
    by_cases hpres : s.tableWord n (Npt.ptFin va) &&& Flags.present = 0
    · rw [decode_absent hpres]
      exact (if_pos hpres).symm
    · rw [decode_leaf hpres]
      exact (if_neg hpres).symm
  | none =>
    split
    · rfl
    · rename_i hhuge
      rw [walk_append_of_none hp (Option.not_isSome_iff_eq_none.mp hhuge)]
      rfl

lemma TableInv.huge_of_reach (hp : s.reachAt (pdPath va) = some n) : H va = none := by
  rw [← h.huge]
  exact hugeAt_of_reach hp

lemma TableInv.leafEntry (va : ℕ) : s.leafEntry va = match H va with
      | none => .ok (s.leafAt va)
      | some _ => .error .hugePageOnPath := by
  simp only [HostAddressSpace.leafEntry,h.descend,leafAt_eq,bind,Except.bind,pure,Except.pure]
  cases hp : s.reachAt (pdPath va) with
  | none => rcases H va with _ | ⟨w,_ | _⟩ <;> rfl
  | some n =>
    simp only [show ptIndex va = ptFin va from rfl,(h.inUse hp).readEntry,h.huge_of_reach hp]
    rw [ite_not]

lemma TableInv.ptOf (va : ℕ) :
    s.ptOf va = match s.reachAt (pdPath va) with
      | none => .error .pageNotMapped
      | some n => .ok (s.tableBase+n*4096) := by
  simp only [HostAddressSpace.ptOf,h.descend,bind,Except.bind,pure,Except.pure]
  cases s.reachAt (pdPath va) with
  | none => rcases H va with _ | ⟨w,_ | _⟩ <;> rfl
  | some n => rfl

lemma TableInv.translate (va : ℕ) : s.translate va = if Memory.vaLimit ≤ va then none
      else match H va with
        | none => (s.leafAt va).map fun w => (w &&& frameAddrMask) ||| (va &&& (pageSize-1))
        | some (w,[]) => some ((w &&& huge2mibAddrMask) ||| (va &&& huge2mibOffsetMask))
        | some (w,_ :: _) => some ((w &&& huge1gibAddrMask) ||| (va &&& huge1gibOffsetMask)) := by
  simp only [HostAddressSpace.translate,h.descend,leafAt_eq]
  refine if_congr Iff.rfl rfl ?_
  cases hp : s.reachAt (pdPath va) with
  | none => rcases H va with _ | ⟨w,_ | _⟩ <;> rfl
  | some n =>
    simp only [show ptIndex va = ptFin va from rfl,(h.inUse hp).readEntry,h.huge_of_reach hp]
    split_ifs <;> rfl

end

/-! ### Writing -/

lemma tableWord_write (hw : w < 2^64)
    (ht : t = { s with
      image := s.image.writeLE (s.tableLead+n*4096+i*8) 8 w
      tableCursor := cursor }) :
    t.tableWord = set s.tableWord n i w := by
  subst ht
  rw [tableWord,tableWord,← Npt.entryAt_writeLE hw]
  show entryAt ((s.image.writeLE _ 8 w).drop s.tableLead) = _
  rw [add_assoc,Buf.writeLE,Buf.drop_splice,Buf.writeLE]

lemma tableWord_zero (ht : t = { s with
      image := s.image.zero (s.tableLead+n*4096) 4096
      tableCursor := cursor }) :
    t.tableWord = fun m i => if m = n then 0 else s.tableWord m i := by
  subst ht
  rw [tableWord,tableWord,← Npt.entryAt_zero_page]
  show entryAt ((s.image.zero _ 4096).drop s.tableLead) = _
  rw [Buf.zero,Buf.drop_splice,Buf.zero]

lemma leafAt_of_walk (h : ∀ q, t.walkAt q = s.walkAt q) (va : ℕ) : t.leafAt va = s.leafAt va := by
  rw [leafAt,leafAt,hugeAt,hugeAt,h,h]

lemma TableInv.tableCursor_eq (h : TableInv s H) :
    s.tableCursor = s.tableLead+s.nextTable*4096 := by
  have hcursor := h.cursor
  have hge := s.tableBase_ge
  rw [tableLead]
  omega

lemma TableInv.link (h : TableInv s H) (hp : s.reachAt p = some n) (hd : p.length ≤ 2)
    (habs : s.tableWord n i &&& present = 0) (hfit : s.tableCursor+4096 ≤ s.tableLimit)
    (ht : t = { s with
      image := (s.image.zero s.tableCursor 4096).writeLE (s.tableLead+n*4096+i*8) 8
        (tableEntry (s.tableBase+s.nextTable*4096) (present ||| writable))
      tableCursor := s.tableCursor+4096 }) :
    TableInv t H ∧ Grown {p ++ [i]} s t ∧ (∀ va, t.leafAt va = s.leafAt va) ∧
      t.reachAt (p ++ [i]) = some s.nextTable := by
  have hcur := h.cursor
  have hphys := h.phys
  have hinside := h.inside
  have hbase : s.tableBase%4096 = 0 := Nat.mul_mod_left _ _
  have hnone : s.reachAt (p ++ [i]) = none := by
    obtain ⟨-,hnone,-⟩ | ⟨hpres,-⟩ := h.slot hp hd i
    · exact hnone
    · exact absurd habs hpres
  have hnext : t.nextTable = s.nextTable+1 := by
    rw [nextTable,ht]
    show (s.imagePhysBase+(s.tableCursor+4096)-s.tableBase)/4096 = _
    omega
  have hinUse : ∀ m, t.InUse m ↔ s.tableBase+m*4096+4096 ≤ s.imagePhysBase+s.image.len ∧
      (m < s.nextTable+1 ∨ s.imagePhysBase+s.tableLimit ≤ s.tableBase+m*4096) := by
    intro m
    rw [InUse,hnext,ht]
    rfl
  generalize hz : ({ s with
    image := s.image.zero (s.tableLead+s.nextTable*4096) 4096
    tableCursor := s.tableCursor } : HostAddressSpace) = z
  obtain ⟨hlt,hpres,hhuge,haddr⟩ :=
    tableEntry_facts (by omega : (s.tableBase+s.nextTable*4096)%4096 = 0) (by omega)
  have hdec := decode_pointer (d := p.length) (by omega) hpres hhuge haddr
  have hok : WordOk s.tableBase p.length
      (tableEntry (s.tableBase+s.nextTable*4096) (present ||| writable)) := by
    intro _ _
    rw [haddr]
    exact ⟨fun _ => hhuge,fun _ => Nat.le_add_right _ _⟩
  have hwords : t.tableWord = set z.tableWord n i
      (tableEntry (s.tableBase+s.nextTable*4096) (present ||| writable)) := by
    have ht' : t = { z with
        image := z.image.writeLE (z.tableLead+n*4096+i*8) 8
          (tableEntry (s.tableBase+s.nextTable*4096) (present ||| writable))
        tableCursor := t.tableCursor } := by
      rw [ht,← hz,h.tableCursor_eq]
      rfl
    exact tableWord_write hlt ht'
  have hfresh : ¬ s.InUse s.nextTable := by
    rintro ⟨-,hlt | hge⟩
    · exact lt_irrefl _ hlt
    · omega
  obtain ⟨htree,hwalk,hreach⟩ := h.tree.link_next hp
    (decode_absent habs) hdec hok hfresh (tableWord_zero hz.symm)
    (fun _ => decode_absent (Nat.zero_and _)) (fun _ _ hne => absurd (Nat.zero_and _) hne)
    (fun m hm => (hinUse m).mpr ⟨hm.1,hm.2.imp_left lt_add_one_of_lt⟩)
    ((hinUse _).mpr ⟨by omega,.inl (Nat.lt_add_one _)⟩)
  have hshell : Shell s t := by rw [Shell,ht]
  have hroot : t.rootTable = s.rootTable := by rw [rootTable,hshell.cr3,hshell.tableBase,rootTable]
  have hwalkAt : ∀ q, t.walkAt q = s.walkAt q := fun q => by
    rw [walkAt,hwords,hshell.tableBase,hroot,hwalk,walkAt]
  have hreachAt : ∀ q u, t.reachAt q = some u ↔ s.reachAt q = some u ∨ q = p ++ [i] ∧
      u = s.nextTable := fun q u => by
    rw [reachAt,hwords,hshell.tableBase,hroot,hreach,reachAt]
  rw [← hwords,← hshell.tableBase,← hroot] at htree
  refine ⟨⟨?_,?_,?_,?_,?_,htree,?_⟩,⟨hshell,fun q => ?_,?_⟩,leafAt_of_walk hwalkAt,
    (hreachAt _ _).mpr (.inr ⟨rfl,rfl⟩)⟩
  · rw [hroot,hshell.cr3,hshell.tableBase]
    exact h.root
  · rw [hnext,hshell.tableBase,ht]
    show s.imagePhysBase+(s.tableCursor+4096) = s.tableBase+(s.nextTable+1)*4096
    omega
  · rw [ht]
    exact hfit
  · rw [ht]
    exact h.inside
  · rw [ht]
    exact hphys
  · rw [← h.huge]
    exact funext fun va => hwalkAt _
  · simp only [Option.eq_none_iff_forall_ne_some,ne_eq,hreachAt,Finset.mem_singleton,not_or,
      not_and,forall_and]
    exact and_congr_right fun _ => ⟨fun hne heq => hne _ heq rfl,fun hne _ heq => absurd heq hne⟩
  · rw [missing_singleton hnone,Finset.card_singleton,ht]

lemma gpaPath_ne (h : a/4096%2^36 ≠ b/4096%2^36) : ¬ gpaPath a <+: gpaPath b :=
  fun hprefix => h (Npt.gpaPath_prefix_iff.mp hprefix)

lemma leafAt_congr (h : a/4096%2^36 = b/4096%2^36) (s : HostAddressSpace) :
    s.leafAt a = s.leafAt b := by
  have hpath : gpaPath a = gpaPath b :=
    (Npt.gpaPath_prefix_iff.mpr h).eq_of_length rfl
  have hpd : pdPath a = pdPath b := congrArg List.dropLast hpath
  rw [leafAt,leafAt,hugeAt,hugeAt,hpath,hpd]

lemma TableInv.put (h : TableInv s H) (hp : s.reachAt (pdPath va) = some n)
    (hw : w < 2^64)
    (ht : t = { s with
      image := s.image.writeLE (s.tableLead+n*4096+ptFin va*8) 8 w }) :
    TableInv t H ∧ Grown ∅ s t ∧
      t.leafAt va = (if w &&& present = 0 then none else some w) ∧
      ∀ va', va'/4096%2^36 ≠ va/4096%2^36 → t.leafAt va' = s.leafAt va' := by
  have hwords : t.tableWord = set s.tableWord n (ptFin va) w := tableWord_write hw ht
  have hshell : Shell s t := by rw [Shell,ht]
  have hroot : t.rootTable = s.rootTable := by rw [rootTable,hshell.cr3,hshell.tableBase,rootTable]
  have hkeep : ∀ q, ¬ gpaPath va <+: q → t.reachAt q = s.reachAt q ∧ t.walkAt q = s.walkAt q := by
    intro q hq
    rw [reachAt,walkAt,hwords,hshell.tableBase,hroot]
    exact h.tree.reach_walk_set hp hq
  have hshort : ∀ v, ¬ gpaPath va <+: pdPath v := fun v hprefix =>
    absurd hprefix.length_le (show ¬ 4 ≤ 3 by decide)
  have hhuge : t.hugeAt = s.hugeAt := funext fun v => (hkeep _ (hshort v)).2
  have htree := h.tree.overwrite hp (i := ptFin va) (w := w) decode_leaf_level
    (fun hd => absurd rfl hd)
  have hinUse : t.InUse = s.InUse := by
    rw [ht]
    rfl
  rw [← hwords,← hroot,← hshell.tableBase,← hinUse] at htree
  refine ⟨⟨?_,?_,?_,?_,?_,htree,hhuge.trans h.huge⟩,⟨hshell,fun q => ?_,?_⟩,?_,
    fun va' hne => ?_⟩
  · rw [hroot,hshell.cr3,hshell.tableBase]
    exact h.root
  · rw [ht]
    exact h.cursor
  · rw [ht]
    exact h.used
  · rw [ht]
    exact h.inside
  · rw [ht]
    exact h.phys
  · -- no table hangs from an entry of a page table
    have hdeep : ∀ {u : HostAddressSpace} {m : ℕ}, u.reachAt (pdPath va) = some m →
        ∀ rest, u.reachAt (pdPath va ++ ptFin va :: rest) = none := by
      intro u m hm rest
      rw [reachAt] at hm
      rw [reachAt,reach_append,hm,Option.bind_some,reach]
      have hlevel : ¬ (decode u.tableBase 3 (u.tableWord m (ptFin va))).isTable :=
        decode_leaf_level
      cases hslot : decode u.tableBase 3 (u.tableWord m (ptFin va)) with
      | table k => exact absurd (hslot ▸ trivial) hlevel
      | _ => simp [show 0+(pdPath va).length = 3 from rfl,hslot]
    by_cases hq : gpaPath va <+: q
    · obtain ⟨rest,rfl⟩ := hq
      have hpt := (hkeep _ (hshort va)).1.trans hp
      rw [show gpaPath va ++ rest = pdPath va ++ ptFin va :: rest from rfl,hdeep hpt,hdeep hp]
      simp
    · rw [(hkeep q hq).1]
      simp
  · rw [ht]
    rfl
  · simp only [leafAt_eq,(hkeep _ (hshort va)).1,hp,hwords,set_self]
  · rw [leafAt,leafAt,hhuge,(hkeep _ (gpaPath_ne (Ne.symm hne))).2]

/-! ### Programs
-/

lemma wp_writeEntry (hoff : s.tableByteOffset pa = .ok off)
    {ok : Unit → HostAddressSpace → Prop} {err : MmError → HostAddressSpace → Prop} :
    (writeEntry pa index w).wp s ok err ↔
      ok () { s with image := s.image.writeLE (off+index*8) 8 w } := by
  simp only [writeEntry,wp_bind,wp_gets,id,hoff,wp_ofExcept,
    Except.ok.injEq,forall_eq',reduceCtorEq,false_implies,implies_true,and_true,
    wp_modify]

section
variable (h : TableInv s H)
include h

lemma TableInv.wp_allocTable : allocTable.wp s
      (fun table t => s.tableCursor+4096 ≤ s.tableLimit ∧ s.tableBase+s.nextTable*4096 = table ∧
        { s with
          image := s.image.zero s.tableCursor 4096
          tableCursor := s.tableCursor+4096 } = t)
      (fun _ t => s = t ∧ s.tableLimit < s.tableCursor+4096) := by
  have hcur := h.cursor
  have hphys := h.phys
  have hinside := h.inside
  have hused := h.used
  have hadd : checkedAdd64 s.tableCursor tableBytes = some (s.tableCursor+4096) :=
    checkedAdd64_eq_some.mpr ⟨show s.tableCursor+4096 < 2^64 by omega,rfl⟩
  simp only [allocTable,wp_bind,wp_gets,wp_ofOption,wp_ensure,
    wp_modify,wp_assert,wp_pure,id,hadd,Option.some.injEq,forall_eq',
    reduceCtorEq,false_implies,and_true]
  refine ⟨fun hfit => ?_,fun hfull => ⟨trivial,Nat.not_le.mp hfull⟩⟩
  have haddr : add64 s.imagePhysBase s.tableCursor = s.tableBase+s.nextTable*4096 := by
    rw [add64_of_lt (by omega)]
    omega
  exact ⟨hfit.trans hinside,hfit,haddr.symm⟩

/-- A table is found or comes from the pool; the call fails if the pool is used up or a huge leaf is
in the way. -/
lemma TableInv.wp_childTable (hp : s.reachAt p = some n) (hd : p.length ≤ 2) (i : Fin 512) :
    (childTable (s.tableBase+n*4096) i).wp s (fun pa t => TableInv t H ∧ Grown {p ++ [i]} s t ∧
        (∀ va, t.leafAt va = s.leafAt va) ∧
        ∃ m, s.tableBase+m*4096 = pa ∧ t.reachAt (p ++ [i]) = some m)
      (fun _ t => s = t ∧ s.reachAt (p ++ [i]) = none ∧
        (s.tableLimit < s.tableCursor+4096 ∨ ∀ q, s.walkAt (p ++ i :: q) ≠ none)) := by
  have hn := h.inUse hp
  simp only [childTable,wp_bind,wp_gets,id,hn.readEntry,wp_ofExcept,
    ok.injEq,forall_eq',reduceCtorEq,false_implies,implies_true,and_true]
  obtain ⟨habs,hnone,-⟩ | ⟨hpres,⟨-,hhuge,hnone,hwalk⟩ | ⟨hhuge,m,haddr,hm⟩⟩ := h.slot hp hd i
  · rw [if_pos habs,wp_bind]
    refine h.wp_allocTable.mono ?_ fun _ _ hfull => ⟨hfull.1,hnone,.inl hfull.2⟩
    rintro _ z ⟨hfit,rfl,hz⟩
    obtain ⟨hinv,hgrown,hleaf,hreach⟩ := h.link hp hd habs hfit rfl
    have hoff : z.tableByteOffset (s.tableBase+n*4096) = .ok (s.tableLead+n*4096) := by
      rw [← hz]
      exact hn.tableByteOffset
    rw [wp_bind,wp_writeEntry hoff,wp_pure,← hz]
    exact ⟨hinv,hgrown,hleaf,_,rfl,hreach⟩
  · rw [if_neg hpres]
    simp only [wp_bind,wp_ensure,wp_pure,hhuge,false_implies,true_and,not_false_eq_true,
      forall_const]
    exact ⟨hnone,.inr fun q => (hwalk q).trans_ne (Option.some_ne_none _)⟩
  · rw [if_neg hpres,hhuge,haddr]
    simp only [wp_bind,wp_ensure,wp_pure,not_true_eq_false,false_implies,and_true,forall_const]
    refine ⟨h,.of_reached ?_,trivial,m,rfl,hm⟩
    rw [missing,Finset.filter_singleton,if_neg (by rw [hm]; simp)]

omit h in
/-- The paths of the tables that a walk to `va` passes below the root. -/
def pathTables (va : ℕ) : Finset (List (Fin 512)) :=
  {[pml4Fin va]} ∪ {[pml4Fin va,pdptFin va]} ∪ {pdPath va}

lemma TableInv.wp_pageTable (va : ℕ) :
    (do let pdpt ← childTable s.cr3 (pml4Index va)
        let pd ← childTable pdpt (pdptIndex va)
        childTable pd (pdIndex va) : Prog HostAddressSpace MmError ℕ).wp s
      (fun pt t => TableInv t H ∧ Grown (pathTables va) s t ∧ (∀ v, t.leafAt v = s.leafAt v) ∧
        ∃ m, s.tableBase+m*4096 = pt ∧ t.reachAt (pdPath va) = some m)
      (fun _ t => TableInv t H ∧ Shell s t ∧ (∀ v, t.leafAt v = s.leafAt v) ∧
        (H va = none → s.tableLimit < s.tableCursor+4096*(s.missing (pathTables va)).card)) := by
  -- the table that the pool lacks is missing besides those found so far
  have herr : ∀ {u t : HostAddressSpace} {ps : Finset (List (Fin 512))} {p q : List (Fin 512)}
      {i : Fin 512}, TableInv u H → Grown ps s u → (∀ v, u.leafAt v = s.leafAt v) →
      pdPath va = p ++ i :: q → ps ∪ {p ++ [i]} ⊆ pathTables va →
      (u = t ∧ u.reachAt (p ++ [i]) = none ∧
        (u.tableLimit < u.tableCursor+4096 ∨ ∀ q, u.walkAt (p ++ i :: q) ≠ none)) →
      TableInv t H ∧ Shell s t ∧ (∀ v, t.leafAt v = s.leafAt v) ∧
        (H va = none → s.tableLimit < s.tableCursor+4096*(s.missing (pathTables va)).card) := by
    rintro u _ ps p q i hu hgrown hleaf hpath hsub ⟨rfl,hnone,hfull | hhuge⟩
    · refine ⟨hu,hgrown.shell,hleaf,fun _ => ?_⟩
      have hcard : (s.missing (ps ∪ {p ++ [i]})).card = _ := hgrown.card_missing
      rw [missing_singleton hnone,Finset.card_singleton] at hcard
      have hle := missing_mono (s := s) hsub
      rw [hgrown.shell.tableLimit,hgrown.cursor] at hfull
      omega
    · refine ⟨hu,hgrown.shell,hleaf,fun hH => absurd ?_ (hhuge q)⟩
      rw [← hpath,← hH,← hu.huge,hugeAt]
  rw [wp_bind,h.root]
  refine (h.wp_childTable s.reachAt_root (by decide) (pml4Fin va)).mono ?_ fun _ _ =>
    herr h (.of_reached rfl : Grown ∅ s s) (fun _ => rfl) rfl (by simp [pathTables])
  rintro _ t3 ⟨h3,hg3,hl3,n3,rfl,hp3⟩
  rw [wp_bind,← hg3.shell.tableBase]
  refine (h3.wp_childTable hp3 (show 1 ≤ 2 by decide) (pdptFin va)).mono ?_ fun _ _ =>
    herr h3 hg3 hl3 rfl (Finset.subset_union_left)
  rintro _ t2 ⟨h2,hg2,hl2,n2,rfl,hp2⟩
  rw [← hg2.shell.tableBase]
  have hl2 : ∀ v, t2.leafAt v = s.leafAt v := fun v => (hl2 v).trans (hl3 v)
  refine (h2.wp_childTable hp2 (show 2 ≤ 2 by decide) (pdFin va)).mono ?_ fun _ _ =>
    herr h2 (hg3.trans hg2) hl2 rfl (Finset.Subset.refl _)
  rintro _ t1 ⟨h1,hg1,hl1,n1,rfl,hp1⟩
  refine ⟨h1,(hg3.trans hg2).trans hg1,fun v => (hl1 v).trans (hl2 v),n1,?_,hp1⟩
  rw [hg2.shell.tableBase,hg3.shell.tableBase]

omit h in
lemma validateVa_eq_ok {u : Unit} :
    validateVa va = .ok u ↔ va%4096 = 0 ∧ va < 2^48 := by
  have hlimit : Memory.vaLimit = 2^48 := by decide
  rw [validateVa,hlimit]
  simp only [Checked.bind_eq_ok,Checked.ensure_eq_ok,and_pageSize_sub_one,exists_const]

/-- Mapping a page writes its leaf, which was absent; a failure shows in no leaf, and a page that can
be mapped fails for want of tables only. -/
lemma TableInv.wp_mapPage (hextra : extraFlags < 2^64) : (mapPage va pa prot extraFlags).wp s
      (fun _ t => TableInv t H ∧ Grown (pathTables va) s t ∧
        (va%4096 = 0 ∧ va < 2^48 ∧ H va = none) ∧ pa%4096 = 0 ∧ s.leafAt va = none ∧
        t.leafAt va = some (pteEntry pa (protFlags prot ||| extraFlags)) ∧
        ∀ va', va'/4096%2^36 ≠ va/4096%2^36 → t.leafAt va' = s.leafAt va')
      (fun _ t => TableInv t H ∧ Shell s t ∧ (∀ va', t.leafAt va' = s.leafAt va') ∧
        (va%4096 = 0 → va < 2^48 → pa%4096 = 0 → H va = none → s.leafAt va = none →
          s.tableLimit < s.tableCursor+4096*(s.missing (pathTables va)).card)) := by
  have hlt : pteEntry pa (protFlags prot ||| extraFlags) < 2^64 := pteEntry_lt hextra
  have hpres : pteEntry pa (protFlags prot ||| extraFlags) &&& present ≠ 0 :=
    or_protFlags_present
  simp only [mapPage,wp_bind,wp_ofExcept,wp_ensure,wp_gets,id,and_pageSize_sub_one]
  refine ⟨fun _ hva => ⟨fun hpa => ?_,fun hpa => ?_⟩,fun e hva => ?_⟩
  · obtain ⟨hal,hcanon⟩ := validateVa_eq_ok.mp hva
    have hdesc := h.wp_pageTable va
    simp only [wp_bind] at hdesc
    have herr : ∀ {t : HostAddressSpace}, (TableInv t H ∧ Shell s t ∧
        (∀ v, t.leafAt v = s.leafAt v) ∧
        (H va = none → s.tableLimit < s.tableCursor+4096*(s.missing (pathTables va)).card)) →
        TableInv t H ∧ Shell s t ∧ (∀ v, t.leafAt v = s.leafAt v) ∧
        (va%4096 = 0 → va < 2^48 → pa%4096 = 0 → H va = none → s.leafAt va = none →
          s.tableLimit < s.tableCursor+4096*(s.missing (pathTables va)).card) :=
      fun ht => ⟨ht.1,ht.2.1,ht.2.2.1,fun _ _ _ hH _ => ht.2.2.2 hH⟩
    refine hdesc.mono ?_ fun _ _ => herr
    rintro _ t3 h3
    refine h3.mono ?_ fun _ _ => herr
    rintro _ t2 h2
    refine h2.mono ?_ fun _ _ => herr
    rintro _ u ⟨hu,hgrown,hsame,n,rfl,hn⟩
    have hused := hu.inUse hn
    rw [← hgrown.shell.tableBase,show ptIndex va = ptFin va from rfl,hused.readEntry]
    simp only [ok.injEq,forall_eq',reduceCtorEq,false_implies,implies_true,and_true]
    have hleaf := leafAt_eq u va
    rw [hn,hsame] at hleaf
    refine ⟨fun habs => ?_,fun hlive => ⟨hu,hgrown.shell,hsame,fun _ _ _ _ hnone => ?_⟩⟩
    · rw [wp_writeEntry (hused.tableByteOffset)]
      obtain ⟨hinv,hput,hnew,hframe⟩ := hu.put hn hlt rfl
      rw [if_neg hpres] at hnew
      have hall := hgrown.trans hput
      rw [Finset.union_empty] at hall
      refine ⟨hinv,hall,⟨hal,hcanon,hu.huge_of_reach hn⟩,hpa,hleaf.trans (if_pos habs),hnew,?_⟩
      intro va' hne
      rw [hframe va' hne,hsame]
    · cases (hleaf.trans (if_neg hlive)).symm.trans hnone
  · exact ⟨h,rfl,fun _ => trivial,fun _ _ hpa' => absurd hpa' hpa⟩
  · refine ⟨h,rfl,fun _ => trivial,fun hal hcanon => ?_⟩
    rw [(validateVa_eq_ok (u := ())).mpr ⟨hal,hcanon⟩] at hva
    cases hva

lemma TableInv.wp_unmapPage : (unmapPage va).wp s (fun o t => TableInv t H ∧ Shell s t ∧
        o = (s.leafAt va).map (fun w => PhysFrame.containingAddress (w &&& frameAddrMask)) ∧
        t.leafAt va = none ∧
        ∀ va', va'/4096%2^36 ≠ va/4096%2^36 → t.leafAt va' = s.leafAt va')
      (fun _ t => s = t ∧ ¬ (va%4096 = 0 ∧ va < 2^48 ∧ H va = none)) := by
  have hleaf := leafAt_eq s va
  simp only [unmapPage,wp_bind,wp_ofExcept,wp_gets,id,h.descend]
  refine ⟨fun _ hva => ⟨?_,?_⟩,fun e hva => ⟨trivial,fun hok => ?_⟩⟩
  · rintro _ ⟨⟩
    cases hp : s.reachAt (pdPath va) with
    | none =>
      rw [hp] at hleaf
      rcases hH : H va with _ | ⟨w,_ | _⟩
      · rw [hleaf,wp_pure]
        exact ⟨h,rfl,rfl,hleaf,fun _ _ => rfl⟩
      · rw [wp_throw]
        exact ⟨rfl,fun hok => Option.some_ne_none _ hok.2.2⟩
      · rw [wp_throw]
        exact ⟨rfl,fun hok => Option.some_ne_none _ hok.2.2⟩
    | some n =>
      have hn := h.inUse hp
      rw [hp] at hleaf
      simp only [show ptIndex va = ptFin va from rfl,hn.readEntry,wp_bind,
        wp_ofExcept,ok.injEq,forall_eq',reduceCtorEq,false_implies,implies_true,
        and_true]
      by_cases habs : s.tableWord n (ptFin va) &&& present = 0
      · rw [if_pos habs,wp_pure]
        have hnone : s.leafAt va = none := hleaf.trans (if_pos habs)
        rw [hnone]
        exact ⟨h,rfl,rfl,rfl,fun _ _ => rfl⟩
      · rw [if_neg habs,wp_bind,wp_writeEntry (hn.tableByteOffset),wp_pure]
        obtain ⟨hinv,hput,hnew,hframe⟩ := h.put hp (Nat.two_pow_pos 64) rfl
        have hsome : s.leafAt va = some _ := hleaf.trans (if_neg habs)
        rw [hsome]
        exact ⟨hinv,hput.shell,rfl,hnew,hframe⟩
  · rintro _ ⟨⟩
  · rw [(validateVa_eq_ok (u := ())).mpr ⟨hok.1,hok.2.1⟩] at hva
    cases hva

lemma TableInv.wp_reprotectPage : (reprotectPage va prot).wp s
      (fun _ t => TableInv t H ∧ Shell s t ∧
        (∃ old, s.leafAt va = some old ∧ t.leafAt va =
          some ((old &&& not64 (writable ||| noExecute)) ||| protFlags prot)) ∧
        ∀ va', va'/4096%2^36 ≠ va/4096%2^36 → t.leafAt va' = s.leafAt va')
      (fun _ t => s = t ∧ s.leafAt va = none) := by
  have hleaf := leafAt_eq s va
  simp only [reprotectPage,wp_bind,wp_ofExcept,wp_gets,id,h.ptOf]
  cases hp : s.reachAt (pdPath va) with
  | none =>
    rw [hp] at hleaf
    refine ⟨?_,?_⟩
    · rintro _ ⟨⟩
    · rintro _ -
      exact ⟨trivial,hleaf⟩
  | some n =>
    have hn := h.inUse hp
    rw [hp] at hleaf
    simp only [show ptIndex va = ptFin va from rfl,hn.readEntry,ok.injEq,
      forall_eq',reduceCtorEq,false_implies,implies_true,and_true,wp_ensure]
    refine ⟨fun hpres => ?_,fun habs => ?_⟩
    · rw [wp_writeEntry (hn.tableByteOffset)]
      have hnew : ∀ x : ℕ, (x ||| protFlags prot) &&& present ≠ 0 := by
        intro x
        have hor : (x ||| (protFlags prot ||| 0)) &&& present ≠ 0 := or_protFlags_present
        rwa [Nat.or_zero] at hor
      have hmask : ∀ x : ℕ, x &&& not64 (writable ||| noExecute) < 2^64 :=
        fun x => Nat.and_le_right.trans_lt (by decide)
      obtain ⟨hinv,hput,hself,hframe⟩ := h.put hp
        (or_lt_two_pow (hmask (s.tableWord n (ptFin va))) protFlags_lt) rfl
      rw [if_neg (hnew _)] at hself
      exact ⟨hinv,hput.shell,⟨_,hleaf.trans (if_neg hpres),hself⟩,hframe⟩
    · exact ⟨trivial,hleaf.trans (if_pos (not_not.mp habs))⟩

end
end HostAddressSpace
end Enlil.Memory
