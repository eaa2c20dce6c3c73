import Mathlib.Algebra.BigOperators.Ring.List
import Mathlib.Algebra.Ring.Nat
import Mathlib.Data.List.Pairwise

/-! # Tilings of a range by extents -/

namespace Extents
open List

/-- One of the extents `(base, size)` ends before the other begins. -/
def Apart (a b : ℕ × ℕ) : Prop := a.1+a.2 ≤ b.1 ∨ b.1+b.2 ≤ a.1

lemma Apart.symm {a b : ℕ × ℕ} (h : Apart a b) : Apart b a := Or.symm h

/-- The extents of `l` are non-empty multiples of `p` and tile the range from `lo` to `hi`. -/
structure Tiles (p lo hi : ℕ) (l : List (ℕ × ℕ)) : Prop where
  apart : l.Pairwise Apart
  inside : ∀ e ∈ l, lo ≤ e.1 ∧ e.1+e.2 ≤ hi
  aligned : ∀ e ∈ l, p ∣ e.1 ∧ p ∣ e.2
  pos : ∀ e ∈ l, 0 < e.2
  covers : (l.map Prod.snd).sum+lo = hi

namespace Tiles
variable {p lo hi : ℕ} {l l' : List (ℕ × ℕ)}

lemma nil : Tiles p lo lo [] where
  apart := .nil
  inside := nofun
  aligned := nofun
  pos := nofun
  covers := zero_add lo

lemma perm (h : Tiles p lo hi l) (hl : l.Perm l') : Tiles p lo hi l' where
  apart := (hl.pairwise_iff Apart.symm).mp h.apart
  inside e he := h.inside e (hl.mem_iff.mpr he)
  aligned e he := h.aligned e (hl.mem_iff.mpr he)
  pos e he := h.pos e (hl.mem_iff.mpr he)
  covers := (hl.map Prod.snd).sum_eq ▸ h.covers

lemma dvd_hi (h : Tiles p lo hi l) (hlo : p ∣ lo) : p ∣ hi := by
  rw [← h.covers]
  refine Nat.dvd_add (dvd_sum fun n hn => ?_) hlo
  obtain ⟨e,he,rfl⟩ := List.mem_map.mp hn
  exact (h.aligned e he).2

variable {b m n : ℕ}

lemma split (h : Tiles p lo hi ((b,m+n) :: l)) (hp : p ∣ m) (hm : 0 < m)
    (hn : 0 < n) : Tiles p lo hi ((b,m) :: (b+m,n) :: l) := by
  obtain ⟨hb,hl⟩ := pairwise_cons.mp h.apart
  have hin := h.inside _ mem_cons_self
  have hal := h.aligned _ mem_cons_self
  dsimp only at hin hal
  constructor
  · refine pairwise_cons.mpr ⟨fun e he => ?_,pairwise_cons.mpr ⟨fun e he => ?_,hl⟩⟩
    · rcases mem_cons.mp he with rfl | he
      · exact .inl (le_refl _)
      · have := hb e he
        simp only [Apart] at this ⊢
        omega
    · have := hb e he
      simp only [Apart] at this ⊢
      omega
  · simp only [mem_cons,forall_eq_or_imp]
    exact ⟨by omega,by omega,fun e he => h.inside e (mem_cons_of_mem _ he)⟩
  · simp only [mem_cons,forall_eq_or_imp]
    exact ⟨⟨hal.1,hp⟩,⟨Nat.dvd_add hal.1 hp,(Nat.dvd_add_right hp).mp hal.2⟩,
      fun e he => h.aligned e (mem_cons_of_mem _ he)⟩
  · simp only [mem_cons,forall_eq_or_imp]
    exact ⟨hm,hn,fun e he => h.pos e (mem_cons_of_mem _ he)⟩
  · have := h.covers
    simp only [map_cons,sum_cons] at this ⊢
    omega

lemma merge (h : Tiles p lo hi ((b,m) :: (b+m,n) :: l)) :
    Tiles p lo hi ((b,m+n) :: l) := by
  obtain ⟨hb,hl'⟩ := pairwise_cons.mp h.apart
  obtain ⟨hbm,hl⟩ := pairwise_cons.mp hl'
  have hin := h.inside
  have hal := h.aligned
  have hpos := h.pos
  simp only [mem_cons,forall_eq_or_imp] at hb hin hal hpos
  constructor
  · refine pairwise_cons.mpr ⟨fun e he => ?_,hl⟩
    have h₁ := hb.2 e he
    have h₂ := hbm e he
    have h₃ := hpos.2.2 e he
    simp only [Apart] at h₁ h₂ ⊢
    omega
  · simp only [mem_cons,forall_eq_or_imp]
    exact ⟨⟨hin.1.1,by omega⟩,hin.2.2⟩
  · simp only [mem_cons,forall_eq_or_imp]
    exact ⟨⟨hal.1.1,Nat.dvd_add hal.1.2 hal.2.1.2⟩,hal.2.2⟩
  · simp only [mem_cons,forall_eq_or_imp]
    exact ⟨by omega,hpos.2.2⟩
  · have := h.covers
    simp only [map_cons,sum_cons] at this ⊢
    omega

lemma grow (h : Tiles p lo hi l) (hhi : p ∣ hi) (hp : p ∣ n) (hn : 0 < n) :
    Tiles p lo (hi+n) ((hi,n) :: l) := by
  have hle : lo ≤ hi := by have := h.covers; omega
  constructor
  · exact pairwise_cons.mpr ⟨fun e he => .inr (h.inside e he).2,h.apart⟩
  · simp only [mem_cons,forall_eq_or_imp]
    refine ⟨⟨hle,le_refl _⟩,fun e he => ?_⟩
    have := h.inside e he
    omega
  · simp only [mem_cons,forall_eq_or_imp]
    exact ⟨⟨hhi,hp⟩,h.aligned⟩
  · simp only [mem_cons,forall_eq_or_imp]
    exact ⟨hn,h.pos⟩
  · have := h.covers
    simp only [map_cons,sum_cons]
    omega

end Tiles
end Extents
