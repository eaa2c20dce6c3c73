import Enlil.Hal.Npt.Defs

/-! # Nested page tables: facts about single entries -/

namespace Enlil.Npt
open Word
variable {buf : Buf} {physBase gpa x : ℕ}

lemma and_addrMask (x : ℕ) : x &&& addrMask = x/4096%2^40*4096 :=
  and_shifted_mask x 40 12

lemma and_addrMask_of_aligned (h : x%4096 = 0) : x &&& addrMask = x%2^52 := by
  rw [and_addrMask]
  omega

lemma and_pageSize_sub_one (x : ℕ) : x &&& (pageSize-1) = x%4096 :=
  Nat.and_two_pow_sub_one_eq_mod x 12

lemma and_huge2mib_sub_one (x : ℕ) : x &&& (huge2mib-1) = x%2^21 :=
  Nat.and_two_pow_sub_one_eq_mod x 21

lemma pml4Index_eq (gpa : ℕ) : pml4Index gpa = gpa/2^39%512 :=
  shiftRight_and_mask gpa 39 9

lemma pdptIndex_eq (gpa : ℕ) : pdptIndex gpa = gpa/2^30%512 :=
  shiftRight_and_mask gpa 30 9

lemma pdIndex_eq (gpa : ℕ) : pdIndex gpa = gpa/2^21%512 :=
  shiftRight_and_mask gpa 21 9

lemma ptIndex_eq (gpa : ℕ) : ptIndex gpa = gpa/2^12%512 :=
  shiftRight_and_mask gpa 12 9

variable {k pa off v tableOff index spa e : ℕ}

lemma frame_or_offset (hpa : pa%2^k = 0) (hoff : off < 2^k) :
    pa ||| off = pa+off := by
  obtain ⟨q,rfl⟩ := Nat.dvd_of_mod_eq_zero hpa
  exact (Nat.two_pow_add_eq_or_of_lt hoff q).symm

section Compose
variable {pa : ℕ}

@[simp]
lemma tableEntry_addr : (pa &&& addrMask ||| tableFlags) &&& addrMask = pa &&& addrMask :=
  and_or_and_self (by decide)

@[simp]
lemma tableEntry_present : (pa &&& addrMask ||| tableFlags) &&& Flags.present = 1 :=
  and_or_and_of_disjoint (by decide)

@[simp]
lemma tableEntry_huge : (pa &&& addrMask ||| tableFlags) &&& Flags.hugePage = 0 :=
  and_or_and_of_disjoint (by decide)

@[simp]
lemma hugeLeaf_addr : (pa &&& addrMask ||| hugeLeafFlags) &&& addrMask = pa &&& addrMask :=
  and_or_and_self (by decide)

@[simp]
lemma hugeLeaf_present : (pa &&& addrMask ||| hugeLeafFlags) &&& Flags.present = 1 :=
  and_or_and_of_disjoint (by decide)

@[simp]
lemma hugeLeaf_huge : (pa &&& addrMask ||| hugeLeafFlags) &&& Flags.hugePage = 128 :=
  and_or_and_of_disjoint (by decide)

lemma entry_lt {f : ℕ} (hf : f < 2^12) : (pa &&& addrMask) ||| f < 256^8 := by
  have hmask : (pa &&& addrMask) < 2^64 :=
    lt_of_le_of_lt Nat.and_le_right (by decide)
  exact Nat.or_lt_two_pow hmask (lt_trans hf (by decide))

end Compose

lemma readEntry_eq_ok :
    readEntry buf off = .ok v ↔ off+8 ≤ buf.len ∧ buf.readLE off 8 = v := by
  by_cases h : off+8 ≤ buf.len
  · simp [readEntry,h]
  · simp [readEntry,h]

/-- The entry `e` points at a table inside the buffer, at offset `off`. -/
def PointsAt (buf : Buf) (physBase e off : ℕ) : Prop :=
  e &&& Flags.present ≠ 0 ∧ e &&& Flags.hugePage = 0 ∧ physBase ≤ e &&& addrMask ∧
    off+4096 ≤ buf.len ∧ off = (e &&& addrMask)-physBase

lemma childOffset_eq_ok :
    childOffset buf physBase tableOff index = .ok off ↔
      tableOff+index*8+8 ≤ buf.len ∧
        PointsAt buf physBase (buf.readLE (tableOff+index*8) 8) off := by
  by_cases h : tableOff+index*8+8 ≤ buf.len
  · rw [childOffset,readEntry_eq_ok.mpr ⟨h,rfl⟩]
    simp only [bind,Except.bind,PointsAt]
    split_ifs with h1 h2 h3 h4
    · simp [h1]
    · simp [h2]
    · simp only [false_iff]
      omega
    · simp only [false_iff]
      omega
    · simp only [Except.ok.injEq]
      have h2' := not_not.mp h2
      constructor
      · rintro rfl
        exact ⟨h,h1,h2',by omega,by omega,rfl⟩
      · rintro ⟨-,-,-,-,-,rfl⟩
        rfl
  · simp [childOffset,readEntry,h,bind,Except.bind]

lemma toOption_eq_some {ε α : Type} {r : Except ε α} {a : α} :
    r.toOption = some a ↔ r = .ok a := by
  cases r <;> simp [Except.toOption]

lemma translateNpt_eq_some : translateNpt buf physBase gpa = some spa ↔ ∃ pdptOff pdOff,
        childOffset buf physBase 0 (pml4Index gpa) = .ok pdptOff ∧
        childOffset buf physBase pdptOff (pdptIndex gpa) = .ok pdOff ∧
        pdOff+pdIndex gpa*8+8 ≤ buf.len ∧
        let pdEntry := buf.readLE (pdOff+pdIndex gpa*8) 8
        pdEntry &&& Flags.present ≠ 0 ∧
        (pdEntry &&& Flags.hugePage ≠ 0 ∧ spa = (pdEntry &&& addrMask) ||| (gpa &&& (huge2mib-1)) ∨
          ∃ ptOff, childOffset buf physBase pdOff (pdIndex gpa) = .ok ptOff ∧
            ptOff+ptIndex gpa*8+8 ≤ buf.len ∧
            let leaf := buf.readLE (ptOff+ptIndex gpa*8) 8
            leaf &&& Flags.present ≠ 0 ∧
            spa = (leaf &&& addrMask) ||| (gpa &&& (pageSize-1))) := by
  simp only [translateNpt,bind,Option.bind_eq_some_iff,toOption_eq_some,readEntry_eq_ok]
  constructor
  · rintro ⟨pdptOff,h1,pdOff,h2,e,⟨h3,rfl⟩,h⟩
    refine ⟨pdptOff,pdOff,h1,h2,h3,?_⟩
    split at h
    · cases h
    · rename_i hp
      refine ⟨hp,?_⟩
      split at h
      · rename_i hh
        cases h
        exact Or.inl ⟨hh,rfl⟩
      · simp only [Option.bind_eq_some_iff,toOption_eq_some,readEntry_eq_ok] at h
        obtain ⟨ptOff,h4,leaf,⟨h5,rfl⟩,h⟩ := h
        split at h
        · cases h
        · rename_i hl
          cases h
          exact Or.inr ⟨ptOff,h4,h5,hl,rfl⟩
  · rintro ⟨pdptOff,pdOff,h1,h2,h3,hp,h⟩
    refine ⟨pdptOff,h1,pdOff,h2,_,⟨h3,rfl⟩,?_⟩
    rw [if_neg hp]
    obtain ⟨hh,rfl⟩ | ⟨ptOff,h4,h5,hl,rfl⟩ := h
    · rw [if_pos hh]
    · have hnh := (childOffset_eq_ok.mp h4).2.2.1
      rw [if_neg (not_not.mpr hnh)]
      simp only [Option.bind_eq_some_iff,toOption_eq_some,readEntry_eq_ok]
      refine ⟨ptOff,h4,_,⟨h5,rfl⟩,?_⟩
      rw [if_neg hl]

@[simp]
lemma wp_writeEntry {ok : Unit → Buf → Prop} {err : NptError → Buf → Prop} :
    (writeEntry off e).wp buf ok err ↔ off+8 ≤ buf.len ∧ ok () (buf.writeLE off 8 e) :=
  Buf.wp_storeLE

end Enlil.Npt
