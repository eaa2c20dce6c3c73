import Mathlib.Data.Set.Finite.Basic
import Mathlib.Data.Fintype.Pigeonhole

/-!
# Chains of references

Following a partial function from an element gives a chain, which ends or goes on forever.
-/

namespace Chain
variable {α : Type} (f : α → Option α) (a : α)

def after : ℕ → α → Option α
  | 0, a => some a
  | k+1, a => (f a).bind (after k)

lemma after_add (m n : ℕ) : after f (m+n) a = (after f m a).bind (after f n) := by
  induction m generalizing a with
  | zero =>
    rw [Nat.zero_add]
    rfl
  | succ m ih =>
    rw [Nat.succ_add,after,after]
    cases f a with
    | none => rfl
    | some b => exact ih b

lemma after_succ_right (k : ℕ) : after f (k+1) a = (after f k a).bind f := by
  have hone : after f 1 = f := by
    funext b
    rw [after]
    cases f b <;> rfl
  rw [after_add,hone]

variable {f a} {k m i d j : ℕ}

lemma after_none_of_le (h : after f k a = none) (hkm : k ≤ m) :
    after f m a = none := by
  obtain ⟨n,rfl⟩ := Nat.exists_eq_add_of_le hkm
  rw [after_add,h]
  rfl

lemma after_add_of_return {b : α} (hi : after f i a = some b)
    (hj : after f (i+d) a = some b) (n : ℕ) : after f (i+n*d) a = some b := by
  induction n with
  | zero => rwa [Nat.zero_mul]
  | succ n ih =>
    have hround : after f d b = some b := by
      rw [after_add,hi] at hj
      exact hj
    rw [Nat.succ_mul,← Nat.add_assoc,after_add,ih]
    exact hround

lemma not_ends_of_return {b : α} (hij : i < j) (hi : after f i a = some b)
    (hj : after f j a = some b) (k : ℕ) : after f k a ≠ none := by
  intro hk
  obtain ⟨d,rfl⟩ := Nat.exists_eq_add_of_lt hij
  have hround := after_add_of_return (d := d+1) hi hj k
  have hfar : k ≤ i+k*(d+1) := by
    have := Nat.le_mul_of_pos_right k (show 0 < d+1 by omega)
    omega
  rw [after_none_of_le hk hfar] at hround
  cases hround

lemma exists_return (hfin : {b | (f b).isSome}.Finite) (h : ∀ k, after f k a ≠ none) :
    ∃ i j b, i < j ∧ after f i a = some b ∧ after f j a = some b := by
  have hsome : ∀ k, ∃ b, after f k a = some b := fun k => Option.ne_none_iff_exists'.mp (h k)
  choose b hb using hsome
  have hdefined : ∀ k, b k ∈ {b | (f b).isSome} := by
    intro k
    have hnext := hb (k+1)
    rw [after_succ_right,hb k] at hnext
    show (f (b k)).isSome
    rw [show f (b k) = some (b (k+1)) from hnext]
    rfl
  have : Finite {b | (f b).isSome} := hfin
  obtain ⟨i,j,hne,heq⟩ := Finite.exists_ne_map_eq_of_infinite
    fun k : ℕ => (⟨b k,hdefined k⟩ : {b | (f b).isSome})
  have heq' : b i = b j := congrArg Subtype.val heq
  rcases Nat.lt_or_gt_of_ne hne with hlt | hlt
  · exact ⟨i,j,b i,hlt,hb i,heq' ▸ hb j⟩
  · exact ⟨j,i,b j,hlt,hb j,heq' ▸ hb i⟩

lemma ends_iff (hfin : {b | (f b).isSome}.Finite) :
    (∃ k, after f k a = none) ↔
      ∀ i j b, i < j → after f i a = some b → after f j a ≠ some b := by
  constructor
  · rintro ⟨k,hk⟩ i j b hij hi hj
    exact not_ends_of_return hij hi hj k hk
  · intro hreturn
    by_contra hends
    obtain ⟨i,j,b,hij,hi,hj⟩ := exists_return hfin fun k hk => hends ⟨k,hk⟩
    exact hreturn i j b hij hi hj

end Chain
