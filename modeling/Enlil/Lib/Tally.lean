import Mathlib.Algebra.Group.Nat.Defs
import Mathlib.Data.List.AList
import Mathlib.Data.List.Induction

/-!
# Hash maps filled by one loop and walked by the next

A hash map is walked in an order that nothing fixes, so what is said of a walk holds for every order.
-/

namespace Enlil
open List

structure HashOrder where
  walk {α : Type} : List α → List α
  perm {α : Type} (l : List α) : (walk l).Perm l

lemma HashOrder.mem_walk (o : HashOrder) {α : Type} {l : List α} {x : α} : x ∈ o.walk l ↔ x ∈ l :=
  (o.perm l).mem_iff

section Tally
variable {α κ ν : Type} [DecidableEq κ] {key : α → κ} {init : ν} {add : ν → α → ν} {l : List α}

/-- Each item adds to the entry of its key, which starts as `init`. -/
def tally (key : α → κ) (init : ν) (add : ν → α → ν) (l : List α) : AList fun _ : κ => ν :=
  l.foldl (fun m x => m.insert (key x) (add ((m.lookup (key x)).getD init) x)) ∅

lemma lookup_tally (k : κ) : (tally key init add l).lookup k =
    if ∃ x ∈ l, key x = k then some ((l.filter (key · = k)).foldl add init) else none := by
  induction l using List.reverseRecOn with
  | nil => simp [tally]
  | append_singleton l x ih =>
    rw [tally,foldl_append]
    show ((tally key init add l).insert (key x)
      (add (((tally key init add l).lookup (key x)).getD init) x)).lookup k = _
    by_cases hk : key x = k
    · subst hk
      have hnew : ∃ y ∈ l ++ [x], key y = key x := ⟨x,by simp,rfl⟩
      rw [AList.lookup_insert,if_pos hnew,filter_append,foldl_append,ih]
      by_cases hseen : ∃ y ∈ l, key y = key x
      · simp [hseen]
      · have hnone : l.filter (key · = key x) = [] :=
          filter_eq_nil_iff.mpr fun y hy => by simpa using fun h => hseen ⟨y,hy,h⟩
        simp [hseen,hnone]
    · rw [AList.lookup_insert_ne (Ne.symm hk),ih,filter_append]
      simp [hk]

lemma forall_tally {P : κ → ν → Prop} :
    (∀ e ∈ (tally key init add l).entries, P e.1 e.2) ↔
      ∀ x ∈ l, P (key x) ((l.filter (key · = key x)).foldl add init) := by
  have hentry : ∀ k v, (⟨k,v⟩ : Sigma fun _ : κ => ν) ∈ (tally key init add l).entries ↔
      (∃ x ∈ l, key x = k) ∧ (l.filter (key · = k)).foldl add init = v := fun k v => by
    rw [← AList.mem_lookup_iff,Option.mem_def,lookup_tally]
    split_ifs with h <;> simp [h]
  constructor
  · intro h x hx
    exact h ⟨key x,_⟩ ((hentry _ _).mpr ⟨⟨x,hx,rfl⟩,rfl⟩)
  · rintro h ⟨k,v⟩ he
    obtain ⟨⟨x,hx,rfl⟩,rfl⟩ := (hentry k v).mp he
    exact h x hx

lemma length_filter_le_one : (∀ x ∈ l, (l.filter (key · = key x)).length < 2) ↔ (l.map key).Nodup := by
  have hcount : ∀ k, (l.map key).count k = (l.filter (key · = k)).length := fun k => by
    rw [count_eq_countP,countP_map,countP_eq_length_filter]
    rfl
  rw [nodup_iff_count_le_one]
  constructor
  · intro h k
    by_cases hk : k ∈ l.map key
    · obtain ⟨x,hx,rfl⟩ := List.mem_map.mp hk
      rw [hcount]
      exact Nat.le_of_lt_succ (h x hx)
    · rw [count_eq_zero_of_not_mem hk]
      exact Nat.zero_le 1
  · intro h x _
    exact Nat.lt_succ_of_le (hcount _ ▸ h (key x))

end Tally
end Enlil
