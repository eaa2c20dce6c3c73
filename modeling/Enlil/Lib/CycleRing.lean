import Mathlib.Data.List.Infix
import Mathlib.Data.Nat.ModEq

/-!
# Rings with cycle bits

One party writes elements into the slots of a ring, lap after lap, and marks each with the parity of
its lap.
-/

namespace CycleRing
open List Nat
variable {α : Type}

/-- The mark on the elements of a lap: set in the first lap, and the other one in each next. -/
def lap (cap n : ℕ) : Bool := n/cap%2 == 0

variable {cap : ℕ}

lemma lap_of_lt {n : ℕ} (h : n < cap) : lap cap n = true := by
  rw [lap,div_eq_of_lt h]
  rfl

lemma lap_add (h : 0 < cap) (n : ℕ) : lap cap (n+cap) = !lap cap n := by
  rw [lap,lap,add_div_right _ h]
  rcases mod_two_eq_zero_or_one (n/cap) with hn | hn <;> simp [add_mod,hn]

lemma lap_succ (cap n : ℕ) :
    lap cap (n+1) = if (n+1)%cap = 0 then !lap cap n else lap cap n := by
  unfold lap
  rw [Nat.succ_div]
  by_cases hd : cap ∣ n+1
  · rw [if_pos hd,if_pos (mod_eq_zero_of_dvd hd)]
    rcases mod_two_eq_zero_or_one (n/cap) with hn | hn <;> simp [add_mod,hn]
  · rw [if_neg hd,if_neg fun h0 => hd (dvd_of_mod_eq_zero h0),add_zero]

/-- The elements `events` were written, the first `consumed` of them read, and the first
`released` given back. -/
structure Inv (cap : ℕ) (cell : ℕ → Option (α × Bool)) (events : List α)
    (consumed released : ℕ) : Prop where
  released_le : released ≤ consumed
  consumed_le : consumed ≤ events.length
  length_lt : events.length < released+cap
  unread : ∀ n a, consumed ≤ n → events[n]? = some a → cell (n%cap) = some (a,lap cap n)
  unmarked : ∀ n a b, events.length ≤ n → n < events.length+cap →
    cell (n%cap) = some (a,b) → b = !lap cap n

variable {cell cell' : ℕ → Option (α × Bool)} {events : List α} {consumed released : ℕ}

lemma Inv.init (hcap : 0 < cap) (h : ∀ i < cap, ∀ a b, cell i = some (a,b) → b = false) :
    Inv cap cell [] 0 0 where
  released_le := le_refl 0
  consumed_le := le_refl 0
  length_lt := by rw [length_nil,zero_add]; exact hcap
  unread := by
    intro n a _ ha
    cases ha
  unmarked := by
    intro n a b _ hn hb
    rw [length_nil,zero_add] at hn
    rw [mod_eq_of_lt hn] at hb
    rw [lap_of_lt hn]
    exact h n hn a b hb

namespace Inv
variable (h : Inv cap cell events consumed released)
include h

lemma cap_pos : 0 < cap := by
  have := h.length_lt
  have := h.released_le
  have := h.consumed_le
  omega

lemma next_eq_iff :
    (events.length+1)%cap = released%cap ↔ events.length+1 = released+cap := by
  have hle := le_trans h.released_le h.consumed_le
  have hlt := h.length_lt
  constructor
  · intro heq
    obtain ⟨k,hk⟩ : ∃ k, events.length+1 = released+cap*k := by
      obtain ⟨k,hk⟩ := (modEq_iff_dvd' (by omega : released ≤ events.length+1)).mp heq.symm
      exact ⟨k,by omega⟩
    -- more than none and less than two laps ahead
    have hk1 : k = 1 := by
      rcases k with _ | _ | k
      · omega
      · rfl
      · rw [Nat.mul_add,Nat.mul_add] at hk
        omega
    rw [hk,hk1,Nat.mul_one]
  · intro heq
    rw [heq,add_mod_right]

lemma produce {e : α} (hroom : events.length+1 ≠ released+cap)
    (hcell : cell' (events.length%cap) = some (e,lap cap events.length))
    (hother : ∀ i < cap, i ≠ events.length%cap → cell' i = cell i) :
    Inv cap cell' (events ++ [e]) consumed released where
  released_le := h.released_le
  consumed_le := by
    rw [length_append]
    exact le_trans h.consumed_le (Nat.le_add_right _ _)
  length_lt := by
    have := h.length_lt
    rw [length_append,length_singleton]
    omega
  unread := by
    intro n a hn ha
    have hlt := (List.getElem?_eq_some_iff.mp ha).1
    rw [length_append,length_singleton] at hlt
    by_cases heq : n = events.length
    · subst heq
      rw [getElem?_concat_length,Option.some.injEq] at ha
      rw [hcell,ha]
    · rw [getElem?_append_left (by omega)] at ha
      -- less than a lap lies between `n` and the slot written
      have hne : n%cap ≠ events.length%cap := by
        intro hmod
        have hdvd := (modEq_iff_dvd' (by omega : n ≤ events.length)).mp hmod
        have := le_of_dvd (by omega) hdvd
        have := h.length_lt
        have := h.released_le
        omega
      rw [hother _ (mod_lt _ h.cap_pos) hne]
      exact h.unread n a hn ha
  unmarked := by
    intro n a b hn hlt hb
    rw [length_append,length_singleton] at hn hlt
    by_cases heq : n = events.length+cap
    · subst heq
      rw [add_mod_right,hcell,Option.some.injEq,Prod.mk.injEq] at hb
      rw [lap_add h.cap_pos,← hb.2,Bool.not_not]
    · have hne : n%cap ≠ events.length%cap := by
        intro hmod
        have hdvd := (modEq_iff_dvd' (by omega : events.length ≤ n)).mp hmod.symm
        have := le_of_dvd (by omega) hdvd
        omega
      rw [hother _ (mod_lt _ h.cap_pos) hne] at hb
      exact h.unmarked n a b (by omega) (by omega) hb

lemma mark_iff {a : α} :
    cell (consumed%cap) = some (a,lap cap consumed) ↔ events[consumed]? = some a := by
  have hle := h.consumed_le
  refine ⟨fun ha => ?_,h.unread consumed a (le_refl _)⟩
  rcases Nat.lt_or_ge consumed events.length with hlt | hge
  · have hget := List.getElem?_eq_getElem hlt
    rw [h.unread consumed _ (le_refl _) hget,Option.some.injEq,Prod.mk.injEq] at ha
    rw [hget,ha.1]
  · have hcap := h.cap_pos
    have := h.unmarked consumed a _ hge (by omega) ha
    cases hlap : lap cap consumed <;> rw [hlap] at this <;> cases this

lemma consume {a : α} (ha : events[consumed]? = some a) :
    Inv cap cell events (consumed+1) released where
  released_le := le_succ_of_le h.released_le
  consumed_le := (List.getElem?_eq_some_iff.mp ha).1
  length_lt := h.length_lt
  unread := fun n b hn => h.unread n b (le_of_succ_le hn)
  unmarked := h.unmarked

lemma release {k : ℕ} (hk : released ≤ k) (hk' : k ≤ consumed) :
    Inv cap cell events consumed k where
  released_le := hk'
  consumed_le := h.consumed_le
  length_lt := by
    have := h.length_lt
    omega
  unread := h.unread
  unmarked := h.unmarked

end Inv
end CycleRing
