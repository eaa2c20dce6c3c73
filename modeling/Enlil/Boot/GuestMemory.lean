import Enlil.Lib.Le
import Mathlib.Data.List.GetD

/-! # Guest memory as a device sees it: model of the trait in `enlil-boot/src/virtio_blk.rs` -/

namespace Enlil.Boot

@[ext]
structure GuestMemory where
  ok : ℕ → ℕ → Bool
  byte : ℕ → UInt8
  ok_le : ∀ gpa n, ok gpa n = true → gpa+n ≤ 2^64

namespace GuestMemory

def read (m : GuestMemory) (gpa n : ℕ) : Option (List UInt8) :=
  if m.ok gpa n then some ((List.range n).map fun i => m.byte (gpa+i)) else none

section
variable (m : GuestMemory) (gpa : ℕ)

def write (data : List UInt8) : Option GuestMemory :=
  if m.ok gpa data.length then
    some { m with
      byte := fun a =>
        if gpa ≤ a ∧ a < gpa+data.length then data.getD (a-gpa) 0 else m.byte a }
  else none

def tryWrite (data : List UInt8) : GuestMemory :=
  (m.write gpa data).getD m

def rd16 : Option ℕ := (m.read gpa 2).map Le.toNat

def rd32 : Option ℕ := (m.read gpa 4).map Le.toNat

def rd64 : Option ℕ := (m.read gpa 8).map Le.toNat

end

structure ChangedOnly (P : ℕ → Prop) (m m' : GuestMemory) : Prop where
  ok_eq : m'.ok = m.ok
  byte_eq : ∀ a, ¬ P a → m'.byte a = m.byte a

variable {P : ℕ → Prop} {m m' : GuestMemory} {gpa n : ℕ} {data : List UInt8}
namespace ChangedOnly

lemma read_eq (h : ChangedOnly P m m') (hread : ∀ a, gpa ≤ a → a < gpa+n → ¬ P a) :
    m'.read gpa n = m.read gpa n := by
  rw [read,read,h.ok_eq]
  split
  · congr 1
    refine List.map_congr_left fun i hi => ?_
    have := List.mem_range.mp hi
    exact h.byte_eq _ (hread _ (Nat.le_add_right _ _) (by omega))
  · rfl

end ChangedOnly

lemma write_changedOnly (h : m.write gpa data = some m') :
    ChangedOnly (fun a => gpa ≤ a ∧ a < gpa+data.length) m m' := by
  unfold write at h
  split at h
  · cases h
    exact ⟨rfl,fun a ha => if_neg ha⟩
  · cases h

lemma ok_of_write (h : m.write gpa data = some m') : m.ok gpa data.length = true := by
  unfold write at h
  split at h
  · assumption
  · cases h

lemma read_write (h : m.write gpa data = some m') : m'.read gpa data.length = some data := by
  have hok := ok_of_write h
  rw [write,if_pos hok] at h
  cases h
  rw [read,if_pos hok]
  congr 1
  refine List.ext_getElem (by simp) fun i _ hi => ?_
  have hin : gpa ≤ gpa+i ∧ gpa+i < gpa+data.length := by omega
  simp only [List.getElem_map,List.getElem_range,if_pos hin,Nat.add_sub_cancel_left]
  rw [List.getD_eq_getElem _ _ hi]

end GuestMemory
end Enlil.Boot
