import Mathlib.Algebra.BigOperators.Group.List.Basic
import Mathlib.Algebra.GroupWithZero.Nat
import Mathlib.Data.List.Range

/-!
# Blocks of a power of two of pages

A block of order `o` is `2 ^ o` consecutive pages. Two lists of blocks take the same space if
no additive measure tells them apart; splitting a block and merging its halves keep the space.
-/

namespace PowBlock
variable {A : Type*}

structure Block (A : Type*) where
  order : ℕ
  addr : A
deriving DecidableEq

variable [AddCommMonoid A] {page : A} {top : ℕ}

/-- Up to order `top`, a block measures as much as its halves. -/
def Additive (page : A) (top : ℕ) (μ : Block A → ℕ) : Prop :=
  ∀ o a, o < top → μ ⟨o+1,a⟩ = μ ⟨o,a⟩+μ ⟨o,a+2^o • page⟩

def Same (page : A) (top : ℕ) (l l' : List (Block A)) : Prop :=
  ∀ μ, Additive page top μ → (l.map μ).sum = (l'.map μ).sum

def pages (page a : A) (n : ℕ) : List (Block A) :=
  (List.range n).map fun i => ⟨0,a+i • page⟩

lemma pages_add (a : A) (m n : ℕ) :
    pages page a (m+n) = pages page a m ++ pages page (a+m • page) n := by
  rw [pages,List.range_add,List.map_append,List.map_map]
  congr 1
  refine List.map_congr_left fun i _ => ?_
  rw [Function.comp_apply,add_nsmul,add_assoc]

namespace Same
variable {l l' m m' : List (Block A)} {x : Block A} {o : ℕ} {a : A}

lemma refl (l : List (Block A)) : Same page top l l := fun _ _ => rfl

lemma symm (h : Same page top l l') : Same page top l' l := fun μ hμ => (h μ hμ).symm

lemma trans (h : Same page top l l') (h' : Same page top l' m) : Same page top l m :=
  fun μ hμ => (h μ hμ).trans (h' μ hμ)

lemma of_perm (h : l.Perm l') : Same page top l l' := fun μ _ => (h.map μ).sum_eq

lemma append (h : Same page top l l') (h' : Same page top m m') :
    Same page top (l ++ m) (l' ++ m') := by
  intro μ hμ
  rw [List.map_append,List.map_append,List.sum_append,List.sum_append,h μ hμ,h' μ hμ]

lemma cons (x : Block A) (h : Same page top l l') : Same page top (x :: l) (x :: l') :=
  (refl [x]).append h

lemma split (ho : o < top) :
    Same page top [⟨o+1,a⟩] [⟨o,a⟩,⟨o,a+2^o • page⟩] := by
  intro μ hμ
  simpa using hμ o a ho

lemma pages (ho : o ≤ top) : Same page top [⟨o,a⟩] (pages page a (2^o)) := by
  induction o generalizing a with
  | zero =>
    have hone : PowBlock.pages page a (2^0) = [⟨0,a⟩] := by simp [PowBlock.pages]
    rw [hone]
    exact refl _
  | succ o ih =>
    rw [pow_succ,Nat.mul_two,pages_add]
    exact (split ho).trans ((ih (Nat.le_of_succ_le ho)).append (ih (Nat.le_of_succ_le ho)))

end Same
end PowBlock
