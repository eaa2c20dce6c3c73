import Enlil.Hal.Npt.Mapper.Tree

/-! # The mapper's steps -/

namespace Enlil.Npt
open Prog
namespace NptMapper
open Word Radix
variable {s s' : NptMapper} {p : List (Fin 512)} {n gpa spa : ℕ} {i : Fin 512}

@[simp]
lemma wp_onBuf {α : Type} {x : Prog Buf NptError α} {ok : α → NptMapper → Prop}
    {err : NptError → NptMapper → Prop} :
    (onBuf x).wp s ok err ↔ x.wp s.buf (fun a b => ok a { s with buf := b })
      (fun e b => err e { s with buf := b }) :=
  wp_focus

def withTable (s : NptMapper) : NptMapper :=
  ⟨s.buf.zero (s.tablesUsed*4096) 4096,s.physBase,s.tablesUsed+1⟩

lemma wp_allocTable : allocTable.wp s
      (fun r t => s.tablesUsed*4096+4096 ≤ s.buf.len ∧ s.withTable = t ∧
        (add64 s.physBase (s.tablesUsed*4096),s.tablesUsed*4096) = r)
      (fun _ t => s = t) := by
  simp only [allocTable,wp_bind,wp_gets,wp_ofOption,checkedMul64_eq_some,
    checkedAdd64_eq_some,wp_ensure,wp_onBuf,Buf.wp_storeZero,wp_modify,
    wp_pure,id,implies_true,and_true]
  rintro _ ⟨-,rfl⟩ _ ⟨-,rfl⟩ hfit
  refine ⟨⟨Nat.le_add_right _ _,hfit⟩,hfit,?_⟩
  rw [withTable,Nat.add_sub_cancel_left]
  exact ⟨rfl,rfl⟩

lemma pointerOff_eq (hbase : s.physBase%4096 = 0) {d w : ℕ}
    (h : decode s.physBase s.buf.len d w = .table n) : pointerOff s w = .ok (n*4096) := by
  obtain ⟨-,-,-,haddr,hfit⟩ := decode_eq_table hbase h
  rw [pointerOff,haddr,if_neg (by omega),if_neg (by omega),Nat.add_sub_cancel_left]

section
variable (h : Inv s) (hp : s.reachAt p = some n)
include h hp

lemma Inv.table_of_present (hpres : entryAt s.buf n i &&& Flags.present ≠ 0)
    (hleaf : ¬ (p.length = 3 ∨ p.length = 2 ∧ entryAt s.buf n i &&& Flags.hugePage ≠ 0)) :
    ∃ m, pointerOff s (entryAt s.buf n i) = .ok (m*4096) ∧ s.reachAt (p ++ [i]) = some m := by
  have hok := h.tree.words hp i hpres
  cases hdec : decode s.physBase s.buf.len p.length (entryAt s.buf n i) with
  | empty => exact absurd hdec hok
  | leaf a => exact absurd (decode_eq_leaf hdec).2.2 hleaf
  | table m => exact ⟨m,pointerOff_eq h.aligned hdec,reach_snoc_zero.mpr ⟨n,hp,hdec⟩⟩

lemma wp_allocTable_link (hd : p.length ≤ 2) (habs : entryAt s.buf n i &&& Flags.present = 0) :
    (do let (pa,off) ← allocTable
        onBuf (writeEntry (n*4096+i*8) ((pa &&& addrMask) ||| tableFlags))
        pure off : Prog NptMapper NptError ℕ).wp s
      (fun off t => Inv t ∧ Extends s t ∧ ∃ m, m*4096 = off ∧ t.reachAt (p ++ [i]) = some m)
      (fun _ t => s = t) := by
  rw [wp_bind]
  refine wp_allocTable.mono ?_ fun _ _ h => h
  rintro _ _ ⟨hfit,rfl,rfl⟩
  have hpage := h.page_fits hp
  simp only [wp_bind,wp_onBuf,wp_writeEntry,wp_pure]
  obtain ⟨hinv,hext,hreach⟩ := h.link hp hd habs hfit rfl
  refine ⟨?_,hinv,hext,s.tablesUsed,rfl,hreach⟩
  have hi := i.isLt
  show n*4096+i*8+8 ≤ s.buf.len
  lia

lemma wp_childTableOff (hd : p.length ≤ 1) : (childTableOff (n*4096) i).wp s
      (fun off t => Inv t ∧ Extends s t ∧ ∃ m, m*4096 = off ∧ t.reachAt (p ++ [i]) = some m)
      (fun _ t => s = t) := by
  simp only [childTableOff,wp_bind,wp_gets,id,h.readEntry hp,wp_ofExcept,
    Except.ok.injEq,forall_eq',reduceCtorEq,implies_true,and_true]
  by_cases hpres : entryAt s.buf n i &&& Flags.present = 0
  · rw [if_neg (not_not.mpr hpres)]
    exact wp_allocTable_link h hp (by omega) hpres
  · rw [if_pos hpres]
    obtain ⟨m,hoff,hm⟩ := h.table_of_present hp hpres (by omega)
    rw [hoff]
    exact ⟨h,Extends.refl s,m,rfl,hm⟩

end

lemma reachAt_root (s : NptMapper) : s.reachAt [] = some 0 := rfl

lemma wp_pdOffFor (h : Inv s) (gpa : ℕ) : (pdOffFor gpa).wp s (fun off t => Inv t ∧ Extends s t ∧
        ∃ m, m*4096 = off ∧ t.reachAt [pml4Fin gpa,pdptFin gpa] = some m)
      (fun _ t => Inv t ∧ Extends s t) := by
  rw [pdOffFor,wp_bind]
  refine (wp_childTableOff (i := pml4Fin gpa) h s.reachAt_root (Nat.zero_le _)).mono ?_ ?_
  · rintro _ t ⟨ht,hext,m,rfl,hm⟩
    refine (wp_childTableOff (i := pdptFin gpa) ht hm le_rfl).mono ?_ ?_
    · rintro _ u ⟨hu,hext',hm'⟩
      exact ⟨hu,hext.trans hext',hm'⟩
    · rintro _ _ rfl
      exact ⟨ht,hext⟩
  · rintro _ _ rfl
    exact ⟨h,Extends.refl s⟩

lemma pdChild_eq (h : Inv s) (hp : s.reachAt p = some n) (hd : p.length = 2) (gpa : ℕ) :
    (pdChild s (n*4096) (pdIndex gpa) = .ok .absent ∧
      entryAt s.buf n (pdFin gpa) &&& Flags.present = 0) ∨
    (pdChild s (n*4096) (pdIndex gpa) = .ok .hugeLeaf) ∨
    (∃ m, pdChild s (n*4096) (pdIndex gpa) = .ok (.table (m*4096)) ∧
      s.reachAt (p ++ [pdFin gpa]) = some m) := by
  simp only [pdChild,show pdIndex gpa = pdFin gpa from rfl,h.readEntry hp]
  by_cases hpres : entryAt s.buf n (pdFin gpa) &&& Flags.present = 0
  · rw [if_pos hpres]
    exact Or.inl ⟨rfl,hpres⟩
  by_cases hhuge : entryAt s.buf n (pdFin gpa) &&& Flags.hugePage = 0
  · rw [if_neg hpres,if_neg (not_not.mpr hhuge)]
    obtain ⟨m,hoff,hm⟩ := h.table_of_present hp hpres (by omega)
    rw [hoff]
    exact Or.inr (Or.inr ⟨m,rfl,hm⟩)
  · rw [if_neg hpres,if_pos hhuge]
    exact Or.inr (Or.inl rfl)

lemma wp_ptOffFor (h : Inv s) (gpa : ℕ) : (ptOffFor gpa).wp s (fun off t => Inv t ∧ Extends s t ∧
        ∃ m, m*4096 = off ∧ t.reachAt (pdPath gpa) = some m)
      (fun _ t => Inv t ∧ Extends s t) := by
  rw [ptOffFor,wp_bind]
  refine (wp_pdOffFor h gpa).mono ?_ fun _ _ h => h
  rintro _ t ⟨ht,hext,n,rfl,hn⟩
  simp only [wp_bind,wp_gets,id]
  obtain ⟨hc,habs⟩ | hc | ⟨m,hc,hm⟩ := pdChild_eq ht hn rfl gpa
  · rw [hc]
    refine (wp_allocTable_link ht hn le_rfl habs).mono ?_ ?_
    · rintro _ u ⟨hu,hext',hm⟩
      exact ⟨hu,hext.trans hext',hm⟩
    · rintro _ _ rfl
      exact ⟨ht,hext⟩
  · rw [hc]
    exact ⟨ht,hext⟩
  · rw [hc]
    exact ⟨ht,hext,m,rfl,hm⟩

lemma wp_mapHugeLeaf (h : Inv s) (gpa spa : ℕ) : (mapHugeLeaf gpa spa).wp s
      (fun _ t => Inv t ∧ t.physBase = s.physBase ∧
        (∀ q, ¬ pdPath gpa <+: q → t.walkAt q = s.walkAt q) ∧
        (∀ q, s.walkAt (pdPath gpa ++ q) = none ∧
          t.walkAt (pdPath gpa ++ q) = some ((spa &&& addrMask) ||| hugeLeafFlags,q)))
      (fun _ t => Inv t ∧ t.physBase = s.physBase ∧ ∀ q, t.walkAt q = s.walkAt q) := by
  rw [mapHugeLeaf,wp_bind]
  refine (wp_pdOffFor h gpa).mono ?_ fun _ t ht => ⟨ht.1,ht.2.base,ht.2.walk⟩
  rintro _ t ⟨ht,hext,n,rfl,hn⟩
  simp only [wp_bind,wp_gets,id]
  have hfail : Inv t ∧ t.physBase = s.physBase ∧ ∀ q, t.walkAt q = s.walkAt q :=
    ⟨ht,hext.base,hext.walk⟩
  obtain ⟨hc,habs⟩ | hc | ⟨m,hc,hm⟩ := pdChild_eq ht hn rfl gpa
  · have hpage := ht.page_fits hn
    have hi : pdIndex gpa < 512 := (pdFin gpa).isLt
    have hleaf : decode t.physBase t.buf.len 2 ((spa &&& addrMask) ||| hugeLeafFlags) = .leaf _ :=
      decode_leaf (by rw [hugeLeaf_present]; decide) (Or.inr ⟨rfl,by rw [hugeLeaf_huge]; decide⟩)
    obtain ⟨hinv,hframe,hnew,hold⟩ := ht.put hn habs (entry_lt (by decide)) hleaf rfl
    rw [hc]
    simp only [wp_ofExcept,Except.ok.injEq,forall_eq',reduceCtorEq,false_implies,
      implies_true,and_true,wp_ensure,not_true_eq_false,forall_const,wp_onBuf,
      wp_writeEntry]
    refine ⟨by omega,hinv,hext.base,?_,?_⟩
    · intro q hq
      exact (hframe q hq).trans (hext.walk q)
    · intro q
      exact ⟨(hext.walk _).symm.trans (hold q),hnew q⟩
  · rw [hc]
    exact hfail
  · rw [hc]
    exact hfail

lemma wp_mapSmallPage (h : Inv s) (gpa : ℕ) (spa : Option ℕ) : (mapSmallPage gpa spa).wp s
      (fun _ t => Inv t ∧ t.physBase = s.physBase ∧
        (∀ q, ¬ gpaPath gpa <+: q → t.walkAt q = s.walkAt q) ∧
        s.walkAt (gpaPath gpa) = none ∧
        t.walkAt (gpaPath gpa) = spa.map fun a => ((a &&& addrMask) ||| tableFlags,[]))
      (fun _ t => Inv t ∧ t.physBase = s.physBase ∧ ∀ q, t.walkAt q = s.walkAt q) := by
  rw [mapSmallPage,wp_bind]
  refine (wp_ptOffFor h gpa).mono ?_ fun _ t ht => ⟨ht.1,ht.2.base,ht.2.walk⟩
  rintro _ t ⟨ht,hext,n,rfl,hn⟩
  have hread : readEntry t.buf (n*4096+ptIndex gpa*8) = _ :=
    ht.readEntry (i := ptFin gpa) hn
  have hpage := ht.page_fits hn
  have hi : ptIndex gpa < 512 := (ptFin gpa).isLt
  simp only [wp_bind,wp_gets,id,hread,wp_ofExcept,Except.ok.injEq,
    forall_eq',reduceCtorEq,false_implies,implies_true,and_true,wp_ensure]
  refine ⟨fun habs => ?_,fun _ => ⟨ht,hext.base,hext.walk⟩⟩
  cases spa with
  | none =>
    have hwalk : t.walkAt (gpaPath gpa) = none := by
      show walk _ _ 0 0 (pdPath gpa ++ [ptFin gpa]) = none
      rw [walk_snoc hn,walk,decode_absent habs]
    exact ⟨ht,hext.base,fun q _ => hext.walk q,(hext.walk _).symm.trans hwalk,hwalk⟩
  | some a =>
    have hleaf : decode t.physBase t.buf.len 3 ((a &&& addrMask) ||| tableFlags) = .leaf _ :=
      decode_leaf (by rw [tableEntry_present]; decide) (Or.inl rfl)
    obtain ⟨hinv,hframe,hnew,hold⟩ := ht.put hn habs (entry_lt (by decide)) hleaf rfl
    rw [wp_onBuf,wp_writeEntry]
    refine ⟨by omega,hinv,hext.base,?_,?_,hnew []⟩
    · intro q hq
      exact (hframe q hq).trans (hext.walk q)
    · exact (hext.walk _).symm.trans (hold [])

end NptMapper
end Enlil.Npt
