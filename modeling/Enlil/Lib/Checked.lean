import Mathlib.Tactic.Common

/-!
# Checked computations

Pure code that validates its arguments is a chain of checks in `Except`.
-/

namespace Checked
variable {ε α β : Type}

def ensure (c : Prop) [Decidable c] (e : ε) : Except ε Unit := if c then .ok () else .error e

def ofOption (e : ε) : Option α → Except ε α
  | some a => .ok a
  | none => .error e

@[simp]
lemma ensure_eq_ok {c : Prop} [Decidable c] {e : ε} {u : Unit} :
    ensure c e = .ok u ↔ c := by
  by_cases h : c <;> simp [ensure,h]

@[simp]
lemma ofOption_eq_ok {e : ε} {o : Option α} {a : α} : ofOption e o = .ok a ↔ o = some a := by
  cases o <;> simp [ofOption]

@[simp]
lemma bind_eq_ok {x : Except ε α} {f : α → Except ε β} {b : β} :
    (x >>= f) = .ok b ↔ ∃ a, x = .ok a ∧ f a = .ok b := by
  cases x with
  | error e => exact ⟨fun h => (nomatch h),fun ⟨_,h,_⟩ => (nomatch h)⟩
  | ok a =>
    constructor
    · exact fun h => ⟨a,rfl,h⟩
    · rintro ⟨_,⟨⟩,h⟩
      exact h

@[simp]
lemma pure_eq_ok {a b : α} : (pure a : Except ε α) = .ok b ↔ a = b := by
  constructor
  · rintro ⟨⟩
    rfl
  · rintro rfl
    rfl

end Checked
