import Enlil.Hal.Npt.Entries
import Enlil.Lib.Radix

/-! # Nested page tables as a radix tree -/

namespace Enlil.Npt
open Word Radix List Option Flags
variable {buf : Buf} {physBase len gpa n d w : ℕ} {i : Fin 512}

def entryAt (buf : Buf) (n : ℕ) (i : Fin 512) : ℕ := buf.readLE (n*4096+i*8) 8

def decode (physBase len d w : ℕ) : Slot ℕ ℕ :=
  if w &&& present = 0 then .empty
  else if d = 3 ∨ d = 2 ∧ w &&& hugePage ≠ 0 then .leaf w
  else if w &&& hugePage ≠ 0 then .empty
  else if w &&& addrMask < physBase then .empty
  else if len < (w &&& addrMask)-physBase+4096 then .empty
  else .table (((w &&& addrMask)-physBase)/4096)

def pml4Fin (gpa : ℕ) : Fin 512 := ⟨pml4Index gpa,by rw [pml4Index_eq]; omega⟩
def pdptFin (gpa : ℕ) : Fin 512 := ⟨pdptIndex gpa,by rw [pdptIndex_eq]; omega⟩
def pdFin (gpa : ℕ) : Fin 512 := ⟨pdIndex gpa,by rw [pdIndex_eq]; omega⟩
def ptFin (gpa : ℕ) : Fin 512 := ⟨ptIndex gpa,by rw [ptIndex_eq]; omega⟩

def pdPath (gpa : ℕ) : List (Fin 512) := [pml4Fin gpa,pdptFin gpa,pdFin gpa]

def gpaPath (gpa : ℕ) : List (Fin 512) := [pml4Fin gpa,pdptFin gpa,pdFin gpa,ptFin gpa]

lemma decode_absent (h : w &&& present = 0) : decode physBase len d w = .empty :=
  if_pos h

lemma decode_leaf (h : w &&& present ≠ 0)
    (hd : d = 3 ∨ d = 2 ∧ w &&& hugePage ≠ 0) : decode physBase len d w = .leaf w := by
  rw [decode,if_neg h,if_pos hd]

variable {a off n b : ℕ}

lemma decode_eq_leaf (h : decode physBase len d w = .leaf a) :
    w = a ∧ w &&& present ≠ 0 ∧ (d = 3 ∨ d = 2 ∧ w &&& hugePage ≠ 0) := by
  rw [decode] at h
  split_ifs at h with h1 h2
  cases h
  exact ⟨rfl,h1,h2⟩

lemma decode_pointer (hd : d ≤ 2) (h : w &&& present ≠ 0) (hh : w &&& hugePage = 0)
    (haddr : w &&& addrMask = physBase+off) (hfit : off+4096 ≤ len) :
    decode physBase len d w = .table (off/4096) := by
  rw [decode,if_neg h,if_neg (by omega),if_neg (not_not.mpr hh),haddr,if_neg (by omega),
    if_neg (by omega),Nat.add_sub_cancel_left]

lemma decode_eq_table (hbase : physBase%4096 = 0) (h : decode physBase len d w = .table n) :
    w &&& present ≠ 0 ∧ w &&& hugePage = 0 ∧ d ≠ 3 ∧
      w &&& addrMask = physBase+n*4096 ∧ n*4096+4096 ≤ len := by
  have haligned : (w &&& addrMask)%4096 = 0 := by
    rw [and_addrMask]
    omega
  rw [decode] at h
  split_ifs at h with h1 h2 h3 h4 h5
  cases h
  exact ⟨h1,not_not.mp h3,by omega,by omega,by omega⟩

lemma childOffset_page (hbase : physBase%4096 = 0) (hn : n*4096+4096 ≤ buf.len)
    (hd : d < 2 ∨ d = 2 ∧ entryAt buf n i &&& hugePage = 0) :
    (childOffset buf physBase (n*4096) i).toOption =
      match decode physBase buf.len d (entryAt buf n i) with
      | .table n' => some (n'*4096)
      | _ => none := by
  have hin : n*4096+i*8+8 ≤ buf.len := by omega
  cases hdec : decode physBase buf.len d (entryAt buf n i) with
  | table n' =>
    obtain ⟨h1,h2,-,h3,h4⟩ := decode_eq_table hbase hdec
    refine toOption_eq_some.mpr (childOffset_eq_ok.mpr ⟨hin,h1,h2,?_,h4,?_⟩)
    · show physBase ≤ entryAt buf n i &&& addrMask
      omega
    · show _ = (entryAt buf n i &&& addrMask)-physBase
      omega
  | leaf a =>
    have := (decode_eq_leaf hdec).2.2
    omega
  | empty =>
    refine eq_none_iff_forall_ne_some.mpr fun off hoff => ?_
    obtain ⟨-,h1,h2,h3,h4,h5⟩ := childOffset_eq_ok.mp (toOption_eq_some.mp hoff)
    have haddr : entryAt buf n i &&& addrMask = physBase+off := by
      rw [h5]
      exact (Nat.add_sub_cancel' h3).symm
    have hptr := decode_pointer (d := d) (by omega) h1 h2 haddr h4
    exact absurd (hdec.symm.trans hptr) (by simp)

lemma translateNpt_eq_walk (hbase : physBase%4096 = 0) (hlen : 4096 ≤ buf.len) (gpa : ℕ) :
    translateNpt buf physBase gpa =
      (walk (decode physBase buf.len) (entryAt buf) 0 0 (gpaPath gpa)).map fun r =>
        (r.1 &&& addrMask) ||| (gpa &&& (if r.2 = [] then pageSize-1 else huge2mib-1)) := by
  have hread : ∀ {n i}, n*4096+4096 ≤ buf.len → i < 512 →
      (readEntry buf (n*4096+i*8)).toOption = some (buf.readLE (n*4096+i*8) 8) :=
    fun hn hi => toOption_eq_some.mpr (readEntry_eq_ok.mpr ⟨by omega,rfl⟩)
  rw [translateNpt,gpaPath,walk,show pml4Index gpa = pml4Fin gpa from rfl,
    show pdptIndex gpa = pdptFin gpa from rfl,show pdIndex gpa = pdFin gpa from rfl,
    show ptIndex gpa = ptFin gpa from rfl]
  generalize pml4Fin gpa = i4
  generalize pdptFin gpa = i3
  generalize pdFin gpa = i2
  generalize ptFin gpa = i1
  have hroot := childOffset_page (d := 0) (n := 0) (i := i4) hbase (by omega)
    (Or.inl (by omega))
  rw [zero_mul] at hroot
  rw [hroot]
  cases hd4 : decode physBase buf.len 0 (entryAt buf 0 i4) with
  | empty => rfl
  | leaf a =>
    have := (decode_eq_leaf hd4).2.2
    omega
  | table n3 =>
    have hn3 := (decode_eq_table hbase hd4).2.2.2.2
    simp only [bind,bind_some,walk,zero_add]
    rw [childOffset_page (d := 1) hbase hn3 (Or.inl (by omega))]
    cases hd3 : decode physBase buf.len 1 (entryAt buf n3 i3) with
    | empty => rfl
    | leaf a =>
      have := (decode_eq_leaf hd3).2.2
      omega
    | table n2 =>
      have hn2 := (decode_eq_table hbase hd3).2.2.2.2
      simp only [bind_some,Nat.reduceAdd]
      rw [hread hn2 i2.isLt,bind_some]
      show (if entryAt buf n2 i2 &&& present = 0 then none
        else if entryAt buf n2 i2 &&& hugePage ≠ 0 then
          some ((entryAt buf n2 i2 &&& addrMask) ||| _) else _) = _
      by_cases hp : entryAt buf n2 i2 &&& present = 0
      · rw [if_pos hp,decode_absent hp]
        rfl
      rw [if_neg hp]
      by_cases hh : entryAt buf n2 i2 &&& hugePage ≠ 0
      · rw [if_pos hh,decode_leaf hp (Or.inr ⟨rfl,hh⟩)]
        rfl
      rw [if_neg hh,childOffset_page (d := 2) hbase hn2 (Or.inr ⟨rfl,not_not.mp hh⟩)]
      cases hd2 : decode physBase buf.len 2 (entryAt buf n2 i2) with
      | empty => rfl
      | leaf a =>
        have := (decode_eq_leaf hd2).2.2
        omega
      | table n1 =>
        have hn1 := (decode_eq_table hbase hd2).2.2.2.2
        simp only [bind_some]
        rw [hread hn1 i1.isLt,bind_some]
        show (if entryAt buf n1 i1 &&& present = 0 then none
          else some ((entryAt buf n1 i1 &&& addrMask) ||| _)) = _
        by_cases hp1 : entryAt buf n1 i1 &&& present = 0
        · rw [if_pos hp1,decode_absent hp1]
          rfl
        · rw [if_neg hp1,decode_leaf hp1 (Or.inl rfl)]
          rfl

lemma gpaPath_prefix_iff :
    gpaPath a <+: gpaPath b ↔ a/4096%2^36 = b/4096%2^36 := by
  simp only [gpaPath,cons_prefix_cons, nil_prefix,and_true,pml4Fin,pdptFin,pdFin,
    ptFin,Fin.mk.injEq,pml4Index_eq,pdptIndex_eq,pdIndex_eq,ptIndex_eq]
  omega

lemma pdPath_prefix_iff :
    pdPath a <+: gpaPath b ↔ a/2^21%2^27 = b/2^21%2^27 := by
  simp only [pdPath,gpaPath,cons_prefix_cons, nil_prefix,and_true,pml4Fin,
    pdptFin,pdFin,Fin.mk.injEq,pml4Index_eq,pdptIndex_eq,pdIndex_eq]
  omega

lemma entryAt_writeLE (hw : w < 2^64) :
    entryAt (buf.writeLE (n*4096+i*8) 8 w) = set (entryAt buf) n i w := by
  funext m j
  by_cases h : m = n ∧ j = i
  · obtain ⟨rfl,rfl⟩ := h
    rw [set_self,entryAt,Buf.readLE_writeLE hw]
  · rw [set_of_ne h,entryAt,entryAt,Buf.readLE_writeLE_of_disjoint]
    have hne : m = n → j.val ≠ i.val := fun hm hv => h ⟨hm,Fin.ext hv⟩
    omega

lemma entryAt_zero_page (buf : Buf) (n : ℕ) :
    entryAt (buf.zero (n*4096) 4096) = fun m i => if m = n then 0 else entryAt buf m i := by
  funext m i
  by_cases h : m = n
  · rw [if_pos h,entryAt,h,Buf.readLE_zero_of_mem (by omega) (by omega)]
  · rw [if_neg h]
    exact Buf.readLE_splice_of_disjoint (by omega)

end Enlil.Npt
