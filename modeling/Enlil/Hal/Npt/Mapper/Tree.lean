import Enlil.Hal.Npt.Mapper.Defs
import Enlil.Hal.Npt.Walk

/-! # The mapper keeps a tree -/

namespace Enlil.Npt
namespace NptMapper
open Word Radix

def walkAt (s : NptMapper) (q : List (Fin 512)) : Option (ℕ × List (Fin 512)) :=
  walk (decode s.physBase s.buf.len) (entryAt s.buf) 0 0 q

def reachAt (s : NptMapper) (q : List (Fin 512)) : Option ℕ :=
  reach (decode s.physBase s.buf.len) (entryAt s.buf) 0 0 q

def WordOk (physBase len d w : ℕ) : Prop :=
  w &&& Flags.present ≠ 0 → decode physBase len d w ≠ .empty

structure Inv (s : NptMapper) : Prop where
  aligned : s.physBase%4096 = 0
  limit : s.physBase+s.buf.len ≤ 2^52
  root : 0 < s.tablesUsed
  fits : s.tablesUsed*4096 ≤ s.buf.len
  tree : Tree (decode s.physBase s.buf.len) (WordOk s.physBase s.buf.len) (· < s.tablesUsed)
    (entryAt s.buf) 0

/-- `s'` has the tables of `s` and perhaps more, and every walk ends as in `s`. -/
structure Extends (s s' : NptMapper) : Prop where
  base : s'.physBase = s.physBase
  len : s'.buf.len = s.buf.len
  walk : ∀ q, s'.walkAt q = s.walkAt q
  reach : ∀ {p t}, s.reachAt p = some t → s'.reachAt p = some t

lemma Extends.refl (s : NptMapper) : Extends s s := ⟨rfl,rfl,fun _ => rfl,id⟩

variable {s s' s'' : NptMapper} {p : List (Fin 512)} {n w gpa spa : ℕ} {i : Fin 512}

lemma Extends.trans (h : Extends s s') (h' : Extends s' s'') : Extends s s'' :=
  ⟨h'.base.trans h.base,h'.len.trans h.len,fun q => (h'.walk q).trans (h.walk q),
    fun hp => h'.reach (h.reach hp)⟩

section
variable (h : Inv s) (hp : s.reachAt p = some n)
include h hp

lemma Inv.page_fits :
    n*4096+4096 ≤ s.buf.len := by
  have hn : n < s.tablesUsed := h.tree.owned hp
  have hfits := h.fits
  lia

lemma Inv.readEntry :
    readEntry s.buf (n*4096+i*8) = .ok (entryAt s.buf n i) := by
  have hfit := h.page_fits hp
  exact readEntry_eq_ok.mpr ⟨by omega,rfl⟩

lemma Inv.link (hd : p.length ≤ 2)
    (habs : entryAt s.buf n i &&& Flags.present = 0)
    (hfit : s.tablesUsed*4096+4096 ≤ s.buf.len)
    (hs' : s' = ⟨(s.buf.zero (s.tablesUsed*4096) 4096).writeLE (n*4096+i*8) 8
      ((add64 s.physBase (s.tablesUsed*4096) &&& addrMask) ||| tableFlags),
      s.physBase,s.tablesUsed+1⟩) :
    Inv s' ∧ Extends s s' ∧ s'.reachAt (p ++ [i]) = some s.tablesUsed := by
  subst hs'
  have hal := h.aligned
  have hlim := h.limit
  have hn : n < s.tablesUsed := h.tree.owned hp
  have haddr : add64 s.physBase (s.tablesUsed*4096) &&& addrMask =
      s.physBase+s.tablesUsed*4096 := by
    rw [add64_of_lt (by omega),and_addrMask_of_aligned (by omega),Nat.mod_eq_of_lt (by omega)]
  have hdec : decode s.physBase s.buf.len p.length
      ((add64 s.physBase (s.tablesUsed*4096) &&& addrMask) ||| tableFlags) =
        .table s.tablesUsed := by
    rw [decode_pointer hd (by rw [tableEntry_present]; decide) tableEntry_huge
      (tableEntry_addr.trans haddr) hfit,Nat.mul_div_cancel _ (by decide)]
  obtain ⟨htree',hwalk,hreach⟩ := h.tree.link_next hp
    (decode_absent habs) hdec (fun _ => by rw [hdec]; simp) (lt_irrefl _)
    (entryAt_zero_page s.buf s.tablesUsed) (fun _ => decode_absent (Nat.zero_and _))
    (fun _ hpres => absurd (Nat.zero_and _) hpres) (fun _ => Nat.lt_add_one_of_lt)
    (Nat.lt_add_one s.tablesUsed)
  rw [← entryAt_writeLE (entry_lt (by decide))] at htree' hwalk hreach
  refine ⟨⟨hal,hlim,Nat.succ_pos _,by simp; omega,htree'⟩,⟨rfl,rfl,?_,?_⟩,?_⟩
  · exact hwalk
  · intro q t hq
    exact (hreach q t).mpr (Or.inl hq)
  · exact (hreach _ _).mpr (Or.inr ⟨rfl,rfl⟩)

lemma Inv.put (habs : entryAt s.buf n i &&& Flags.present = 0) (hw : w < 2^64)
    (hleaf : decode s.physBase s.buf.len p.length w = .leaf w)
    (hs' : s' = { s with buf := s.buf.writeLE (n*4096+i*8) 8 w }) :
    Inv s' ∧ (∀ q, ¬ p ++ [i] <+: q → s'.walkAt q = s.walkAt q) ∧
      (∀ q, s'.walkAt (p ++ i :: q) = some (w,q)) ∧
      (∀ q, s.walkAt (p ++ i :: q) = none) := by
  subst hs'
  have hempty : decode s.physBase s.buf.len p.length (entryAt s.buf n i) = .empty :=
    decode_absent habs
  have htree := h.tree.overwrite hp (i := i) (w := w) (by rw [hleaf]; exact id)
    (fun _ => by rw [hleaf]; simp)
  rw [← entryAt_writeLE hw] at htree
  refine ⟨⟨h.aligned,h.limit,h.root,h.fits,htree⟩,?_,?_,?_⟩
  · intro q hq
    show walk _ (entryAt (s.buf.writeLE _ _ _)) 0 0 q = _
    rw [entryAt_writeLE hw]
    exact (h.tree.reach_walk_set hp hq).2
  · intro q
    show walk (decode s.physBase s.buf.len) (entryAt (s.buf.writeLE _ _ _)) 0 0 _ = _
    rw [entryAt_writeLE hw,h.tree.walk_set_self hp,hleaf]
  · intro q
    show walk _ _ 0 0 _ = _
    rw [walk_snoc hp,walk,hempty]

end
end NptMapper
end Enlil.Npt
