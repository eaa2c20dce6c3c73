import Mathlib.Order.Basic
import Mathlib.Tactic.Common

/-!
# Computations with fuel

A computation that may not end is a function of its fuel, with `none` for running out.
-/

namespace Fuel
open Option
variable {α β : Type} {f : ℕ → Option α} {g : α → ℕ → Option β}

/-- With more fuel, what has returned returns the same. -/
def Mono (f : ℕ → Option α) : Prop := ∀ n m a, n ≤ m → f n = some a → f m = some a

/-- With enough fuel the computation returns `a`. -/
def Returns (f : ℕ → Option α) (a : α) : Prop := ∃ n, f n = some a

/-- With enough fuel the computation returns. -/
def Halts (f : ℕ → Option α) : Prop := ∃ a, Returns f a

lemma mono_const (x : Option α) : Mono fun _ => x := fun _ _ _ _ h => h

lemma halts_some (a : α) : Halts fun _ => some a := ⟨a,0,rfl⟩

lemma Mono.unique (h : Mono f) {a b : α} (ha : Returns f a) (hb : Returns f b) : a = b := by
  obtain ⟨n,hn⟩ := ha
  obtain ⟨m,hm⟩ := hb
  rcases Nat.le_total n m with hle | hle
  · exact Option.some.inj ((h n m a hle hn).symm.trans hm)
  · exact Option.some.inj (hn.symm.trans (h m n b hle hm))

lemma Mono.bind (hf : Mono f) (hg : ∀ a, Mono (g a)) : Mono fun n => (f n).bind (g · n) := by
  intro n m b hle hb
  obtain ⟨a,ha,hb⟩ := bind_eq_some_iff.mp hb
  exact bind_eq_some_iff.mpr ⟨a,hf n m a hle ha,hg a n m b hle hb⟩

lemma Mono.map (hf : Mono f) (k : α → β) : Mono fun n => (f n).map k := by
  intro n m b hle hb
  obtain ⟨a,ha,rfl⟩ := map_eq_some_iff.mp hb
  exact map_eq_some_iff.mpr ⟨a,hf n m a hle ha,rfl⟩

lemma halts_map_iff {k : α → β} : Halts (fun n => (f n).map k) ↔ Halts f := by
  constructor
  · rintro ⟨_,n,hn⟩
    obtain ⟨a,ha,_⟩ := map_eq_some_iff.mp hn
    exact ⟨a,n,ha⟩
  · rintro ⟨a,n,hn⟩
    exact ⟨k a,n,map_eq_some_iff.mpr ⟨a,hn,rfl⟩⟩

lemma halts_bind_iff (hf : Mono f) (hg : ∀ a, Mono (g a)) :
    Halts (fun n => (f n).bind (g · n)) ↔ Halts f ∧ ∀ a, Returns f a → Halts (g a) := by
  constructor
  · rintro ⟨b,n,hn⟩
    obtain ⟨a,ha,hb⟩ := bind_eq_some_iff.mp hn
    refine ⟨⟨a,n,ha⟩,fun a' ha' => ?_⟩
    rw [hf.unique ha' ⟨n,ha⟩]
    exact ⟨b,n,hb⟩
  · rintro ⟨⟨a,n,hn⟩,hrest⟩
    obtain ⟨b,m,hm⟩ := hrest a ⟨n,hn⟩
    refine ⟨b,max n m,bind_eq_some_iff.mpr ⟨a,?_,?_⟩⟩
    · exact hf n _ a (Nat.le_max_left _ _) hn
    · exact hg a m _ b (Nat.le_max_right _ _) hm

end Fuel
