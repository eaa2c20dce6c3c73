import Mathlib.Data.List.Induction

/-!
# Radix trees stored in tables of words

A memory assigns a word to every index of every table. A level-dependent `decode` reads a word as an
empty slot, a pointer to a table of the next level, or a leaf; a walk follows a list of indices from
a root.
-/

namespace Radix
open List

/-- What a word means at its level. -/
inductive Slot (τ α : Type*) where
  | empty
  | table (t : τ)
  | leaf (a : α)

def Slot.isTable {τ α : Type*} : Slot τ α → Prop
  | .table _ => True
  | _ => False

variable {τ ι ω α : Type*} (decode : ℕ → ω → Slot τ α)

/-- Follow a path from the table `t` at depth `d` to a leaf; the unused indices are
returned with it. -/
def walk (M : τ → ι → ω) : ℕ → τ → List ι → Option (α × List ι)
  | _, _, [] => none
  | d, t, i :: path =>
    match decode d (M t i) with
    | .empty => none
    | .leaf a => some (a,path)
    | .table t' => walk M (d+1) t' path

def reach (M : τ → ι → ω) : ℕ → τ → List ι → Option τ
  | _, t, [] => some t
  | d, t, i :: path =>
    match decode d (M t i) with
    | .table t' => reach M (d+1) t' path
    | _ => none

def trace (M : τ → ι → ω) : ℕ → τ → List ι → List ω
  | _, _, [] => []
  | d, t, i :: path =>
    M t i :: match decode d (M t i) with
      | .table t' => trace M (d+1) t' path
      | _ => []

def set [DecidableEq τ] [DecidableEq ι] (M : τ → ι → ω) (t : τ) (i : ι) (w : ω) : τ → ι → ω :=
  fun t' i' => if t' = t ∧ i' = i then w else M t' i'

/-- The tables under `root` form a tree inside `own`, and their words satisfy `ok`. -/
structure Tree (ok : ℕ → ω → Prop) (own : τ → Prop) (M : τ → ι → ω) (root : τ) : Prop where
  unique : ∀ {p q t}, reach decode M 0 root p = some t → reach decode M 0 root q = some t → p = q
  words : ∀ {p t}, reach decode M 0 root p = some t → ∀ i, ok p.length (M t i)
  owned : ∀ {p t}, reach decode M 0 root p = some t → own t

variable {decode} {M M' : τ → ι → ω} {root t t' : τ} {d : ℕ} {p q : List ι} {i : ι} {w : ω}
section Paths

lemma reach_append (p q : List ι) : reach decode M d t (p ++ q) =
      (reach decode M d t p).bind fun t' => reach decode M (d+p.length) t' q := by
  induction p generalizing d t with
  | nil => rfl
  | cons i p ih =>
    simp only [List.cons_append,reach,length_cons]
    cases decode d (M t i) with
    | empty => rfl
    | leaf a => rfl
    | table t' =>
      simp only
      rw [ih,Nat.add_assoc,Nat.add_comm 1]

lemma walk_append (h : reach decode M d t p = some t') :
    walk decode M d t (p ++ q) = walk decode M (d+p.length) t' q := by
  induction p generalizing d t with
  | nil =>
    cases h
    rfl
  | cons i p ih =>
    simp only [List.cons_append,walk,reach,length_cons] at h ⊢
    cases hslot : decode d (M t i) with
    | empty => simp [hslot] at h
    | leaf a => simp [hslot] at h
    | table u =>
      simp only [hslot] at h ⊢
      rw [ih h,Nat.add_assoc,Nat.add_comm 1]

lemma reach_snoc : reach decode M d t (p ++ [i]) = some t' ↔
      ∃ u, reach decode M d t p = some u ∧ decode (d+p.length) (M u i) = .table t' := by
  rw [reach_append]
  cases hp : reach decode M d t p with
  | none => simp
  | some u =>
    simp only [Option.bind_some,reach,Option.some.injEq,exists_eq_left']
    cases decode (d+p.length) (M u i) <;> simp

lemma reach_snoc_zero : reach decode M 0 root (p ++ [i]) = some t' ↔
      ∃ u, reach decode M 0 root p = some u ∧ decode p.length (M u i) = .table t' := by
  rw [reach_snoc,Nat.zero_add]

lemma walk_snoc (h : reach decode M 0 root p = some t) :
    walk decode M 0 root (p ++ i :: q) = walk decode M p.length t (i :: q) := by
  rw [walk_append h,Nat.zero_add]

lemma walk_append_of_none (hr : reach decode M d t p = none) (hw : walk decode M d t p = none) :
    walk decode M d t (p ++ q) = none := by
  induction p generalizing d t with
  | nil => cases hr
  | cons i p ih =>
    simp only [List.cons_append,walk,reach] at hr hw ⊢
    cases hslot : decode d (M t i) with
    | empty => rfl
    | leaf a => simp [hslot] at hw
    | table u =>
      rw [hslot] at hr hw
      exact ih hr hw

end Paths
section Congr
section
variable (r : List ι) (hr : reach decode M 0 root r = some t)
  (h : ∀ p u i, reach decode M 0 root p = some u → p ++ [i] <+: r ++ q → M' u i = M u i)
include r hr h

lemma trace_congr :
    trace decode M' r.length t q = trace decode M r.length t q := by
  induction q generalizing r t with
  | nil => rfl
  | cons i q ih =>
    have hslot : M' t i = M t i := h r t i hr ⟨q,by simp⟩
    simp only [trace,hslot,List.cons.injEq,true_and]
    cases hd : decode r.length (M t i) with
    | empty => rfl
    | leaf a => rfl
    | table u =>
      have hru : reach decode M 0 root (r ++ [i]) = some u := reach_snoc_zero.mpr ⟨t,hr,hd⟩
      have := ih (r ++ [i]) hru (by simpa using h)
      simpa using this

omit r hr h in
lemma reach_walk_of_trace (h : trace decode M' d t q = trace decode M d t q) :
    reach decode M' d t q = reach decode M d t q ∧ walk decode M' d t q = walk decode M d t q := by
  induction q generalizing d t with
  | nil => exact ⟨rfl,rfl⟩
  | cons i q ih =>
    obtain ⟨hslot,htail⟩ := List.cons.inj h
    simp only [reach,walk,hslot] at htail ⊢
    cases hd : decode d (M t i) with
    | empty => exact ⟨rfl,rfl⟩
    | leaf a => exact ⟨rfl,rfl⟩
    | table u =>
      simp only [hd] at htail
      exact ih htail

lemma reach_walk_congr : reach decode M' r.length t q = reach decode M r.length t q ∧
      walk decode M' r.length t q = walk decode M r.length t q :=
  reach_walk_of_trace (trace_congr r hr h)

end

lemma congr_of_unreached
    (h : ∀ p u i, reach decode M 0 root p = some u → M' u i = M u i) (q : List ι) :
    reach decode M' 0 root q = reach decode M 0 root q ∧
      walk decode M' 0 root q = walk decode M 0 root q :=
  reach_walk_congr [] rfl fun p u i hp _ => h p u i hp

variable {ok : ℕ → ω → Prop} {own own' : τ → Prop}

lemma Tree.congr (ht : Tree decode ok own M root)
    (h : ∀ p u i, reach decode M 0 root p = some u → M' u i = M u i) :
    Tree decode ok own M' root := by
  have hreach := fun q => (congr_of_unreached h q).1
  refine ⟨?_,?_,?_⟩
  · intro p q t hp hq
    rw [hreach] at hp hq
    exact ht.unique hp hq
  · intro p t hp i
    rw [hreach] at hp
    rw [h p t i hp]
    exact ht.words hp i
  · intro p t hp
    rw [hreach] at hp
    exact ht.owned hp

lemma Tree.of_empty (hempty : ∀ i, decode 0 (M root i) = .empty)
    (hok : ∀ i, ok 0 (M root i)) (hown : own root) :
    Tree decode ok own M root ∧ ∀ q, walk decode M 0 root q = none := by
  have hreach : ∀ {p t}, reach decode M 0 root p = some t → p = [] ∧ root = t := by
    intro p t hp
    cases p with
    | nil => exact ⟨rfl,Option.some.inj hp⟩
    | cons i p =>
      rw [reach,hempty] at hp
      cases hp
  refine ⟨⟨?_,?_,?_⟩,?_⟩
  · intro p q t hp hq
    rw [(hreach hp).1,(hreach hq).1]
  · intro p t hp i
    obtain ⟨rfl,rfl⟩ := hreach hp
    exact hok i
  · intro p t hp
    rw [← (hreach hp).2]
    exact hown
  · intro q
    cases q with
    | nil => rfl
    | cons i q => rw [walk,hempty]

end Congr
section Update
variable [DecidableEq τ] [DecidableEq ι]

@[simp]
lemma set_self : set M t i w t i = w := if_pos ⟨rfl,rfl⟩

lemma set_of_ne {u : τ} {j : ι} (h : ¬ (u = t ∧ j = i)) : set M t i w u j = M u j := if_neg h

omit [DecidableEq ι] in
lemma not_snoc_prefix : ¬ p ++ [i] <+: p := fun h => by
  have hle := h.length_le
  rw [length_append,length_singleton] at hle
  omega

variable {ok : ℕ → ω → Prop} {own own' : τ → Prop}
  (ht : Tree decode ok own M root) (hp : reach decode M 0 root p = some t)
include ht hp

lemma Tree.trace_set (hq : ¬ p ++ [i] <+: q) :
    trace decode (set M t i w) 0 root q = trace decode M 0 root q := by
  refine trace_congr [] rfl fun p' u j hp' hprefix => set_of_ne ?_
  rintro ⟨rfl,rfl⟩
  rw [ht.unique hp' hp] at hprefix
  exact hq hprefix

lemma Tree.reach_walk_set (hq : ¬ p ++ [i] <+: q) :
    reach decode (set M t i w) 0 root q = reach decode M 0 root q ∧
      walk decode (set M t i w) 0 root q = walk decode M 0 root q :=
  reach_walk_of_trace (ht.trace_set hp hq)

lemma Tree.reach_set_self : reach decode (set M t i w) 0 root p = some t :=
  (ht.reach_walk_set hp not_snoc_prefix).1.trans hp

lemma Tree.walk_set_self (q : List ι) : walk decode (set M t i w) 0 root (p ++ i :: q) =
      match decode p.length w with
      | .empty => none
      | .leaf a => some (a,q)
      | .table t' => walk decode (set M t i w) (p.length+1) t' q := by
  rw [walk_snoc (ht.reach_set_self hp),walk,set_self]

lemma Tree.reach_set_through (q : List ι) : reach decode (set M t i w) 0 root (p ++ i :: q) =
      match decode p.length w with
      | .table t' => reach decode (set M t i w) (p.length+1) t' q
      | _ => none := by
  rw [reach_append,ht.reach_set_self hp,Option.bind_some,Nat.zero_add,reach,set_self]

lemma Tree.reach_of_reach_set (hnew : ¬ (decode p.length w).isTable) {u : τ}
    (hq : reach decode (set M t i w) 0 root q = some u) :
    reach decode M 0 root q = some u ∧ ¬ p ++ [i] <+: q := by
  by_cases hthrough : p ++ [i] <+: q
  · obtain ⟨rest,rfl⟩ := hthrough
    rw [List.append_assoc,singleton_append,ht.reach_set_through hp] at hq
    cases hd : decode p.length w with
    | table t' => exact absurd (hd ▸ trivial) hnew
    | empty => simp [hd] at hq
    | leaf a => simp [hd] at hq
  · exact ⟨(ht.reach_walk_set hp hthrough).1.symm.trans hq,hthrough⟩

lemma Tree.overwrite (hnew : ¬ (decode p.length w).isTable) (hok : ok p.length w) :
    Tree decode ok own (set M t i w) root := by
  have hsub := fun {q u} => ht.reach_of_reach_set (i := i) (q := q) (u := u) hp hnew
  refine ⟨fun hp' hq' => ht.unique (hsub hp').1 (hsub hq').1,fun {p' u} hp' j => ?_,
    fun hp' => ht.owned (hsub hp').1⟩
  by_cases hslot : u = t ∧ j = i
  · obtain ⟨rfl,rfl⟩ := hslot
    rw [set_self,ht.unique (hsub hp').1 hp]
    exact hok
  · rw [set_of_ne hslot]
    exact ht.words (hsub hp').1 j

lemma Tree.graft (hold : ¬ (decode p.length (M t i)).isTable)
    (hnew : decode p.length w = .table t') (hok : ok p.length w)
    (hfresh : ∀ q, reach decode M 0 root q ≠ some t')
    (hleaves : ∀ j, ¬ (decode (p.length+1) (M t' j)).isTable)
    (hwords : ∀ j, ok (p.length+1) (M t' j)) (hown : ∀ u, own u → own' u) (hown' : own' t') :
    Tree decode ok own' (set M t i w) root ∧ ∀ q u, reach decode (set M t i w) 0 root q = some u ↔
        reach decode M 0 root q = some u ∨ q = p ++ [i] ∧ u = t' := by
  have hne : t' ≠ t := fun h => hfresh p (h ▸ hp)
  have hcell : ∀ j, set M t i w t' j = M t' j := fun j => set_of_ne fun h => hne h.1
  have hthrough : ∀ rest, reach decode M 0 root (p ++ i :: rest) = none := by
    intro rest
    rw [reach_append,hp,Option.bind_some,Nat.zero_add,reach]
    cases hd : decode p.length (M t i) with
    | table u => exact absurd (hd ▸ trivial) hold
    | _ => rfl
  have hreach : ∀ q u, reach decode (set M t i w) 0 root q = some u ↔
      reach decode M 0 root q = some u ∨ q = p ++ [i] ∧ u = t' := by
    intro q u
    by_cases hq : p ++ [i] <+: q
    · obtain ⟨rest,rfl⟩ := hq
      rw [List.append_assoc,singleton_append,hthrough,ht.reach_set_through hp,hnew]
      cases rest with
      | nil => simp [reach,eq_comm]
      | cons j rest =>
        have hleaf := hleaves j
        simp only [reach,hcell]
        cases hd : decode (p.length+1) (M t' j) with
        | table u' => exact absurd (hd ▸ trivial) hleaf
        | empty => simp
        | leaf a => simp
    · rw [(ht.reach_walk_set hp hq).1]
      exact ⟨Or.inl,fun h => h.elim id fun h => absurd (h.1 ▸ prefix_refl _) hq⟩
  refine ⟨⟨?_,?_,?_⟩,hreach⟩
  · intro p' q' u hp' hq'
    obtain hp' | ⟨rfl,rfl⟩ := (hreach _ _).mp hp'
    · obtain hq' | ⟨rfl,rfl⟩ := (hreach _ _).mp hq'
      · exact ht.unique hp' hq'
      · exact absurd hp' (hfresh _)
    · obtain hq' | ⟨rfl,-⟩ := (hreach _ _).mp hq'
      · exact absurd hq' (hfresh _)
      · rfl
  · intro p' u hp' j
    obtain hp' | ⟨rfl,rfl⟩ := (hreach _ _).mp hp'
    · by_cases hslot : u = t ∧ j = i
      · rw [hslot.1] at hp' ⊢
        rw [hslot.2,set_self,ht.unique hp' hp]
        exact hok
      · rw [set_of_ne hslot]
        exact ht.words hp' j
    · rw [hcell,length_append,length_singleton]
      exact hwords j
  · intro p' u hp'
    obtain hp' | ⟨-,rfl⟩ := (hreach _ _).mp hp'
    · exact hown u (ht.owned hp')
    · exact hown'

/-- Linking a fresh table whose slots are all empty into an empty slot adds one table and
changes no walk. -/
lemma Tree.link (hold : decode p.length (M t i) = .empty) (hnew : decode p.length w = .table t')
    (hok : ok p.length w) (hfresh : ¬ own t') (hempty : ∀ d j, decode d (M t' j) = .empty)
    (hwords : ∀ d j, ok d (M t' j)) (hown : ∀ u, own u → own' u) (hown' : own' t') :
    Tree decode ok own' (set M t i w) root ∧
      (∀ q, walk decode (set M t i w) 0 root q = walk decode M 0 root q) ∧
      (∀ q u, reach decode (set M t i w) 0 root q = some u ↔
        reach decode M 0 root q = some u ∨ q = p ++ [i] ∧ u = t') := by
  have hne : t' ≠ t := fun h => hfresh (h ▸ ht.owned hp)
  obtain ⟨htree,hreach⟩ := ht.graft hp (by rw [hold]; exact id) hnew hok
    (fun _ hq => hfresh (ht.owned hq)) (fun j => by rw [hempty]; exact id) (hwords _) hown hown'
  refine ⟨htree,fun q => ?_,hreach⟩
  by_cases hq : p ++ [i] <+: q
  · obtain ⟨rest,rfl⟩ := hq
    rw [List.append_assoc,singleton_append,ht.walk_set_self hp,hnew,walk_snoc hp,walk,hold]
    cases rest with
    | nil => rfl
    | cons j rest => simp [walk,set_of_ne fun h : t' = t ∧ j = i => hne h.1,hempty]
  · exact (ht.reach_walk_set hp hq).2

/-- Linking the next page of a pool, which is cleared first. No path reaches the page yet, so
clearing it changes nothing. -/
lemma Tree.link_next {z : ω} {n : τ} (hold : decode p.length (M t i) = .empty)
    (hnew : decode p.length w = .table n) (hok : ok p.length w) (hfresh : ¬ own n)
    (hM' : M' = fun u j => if u = n then z else M u j) (hempty : ∀ d, decode d z = .empty)
    (hz : ∀ d, ok d z) (hown : ∀ u, own u → own' u) (hown' : own' n) :
    Tree decode ok own' (set M' t i w) root ∧
      (∀ q, walk decode (set M' t i w) 0 root q = walk decode M 0 root q) ∧
      (∀ q u, reach decode (set M' t i w) 0 root q = some u ↔
        reach decode M 0 root q = some u ∨ q = p ++ [i] ∧ u = n) := by
  have hsame : ∀ q u j, reach decode M 0 root q = some u → M' u j = M u j := by
    intro q u j hq
    subst hM'
    exact if_neg fun heq : u = n => hfresh (heq ▸ ht.owned hq)
  have hclear : ∀ j, M' n j = z := by
    subst hM'
    exact fun j => if_pos rfl
  have hcongr := congr_of_unreached hsame
  obtain ⟨htree,hwalk,hreach⟩ := (ht.congr hsame).link ((hcongr p).1.trans hp)
    (by rw [hsame p t i hp]; exact hold) hnew hok hfresh (fun d j => by rw [hclear]; exact hempty d)
    (fun d j => by rw [hclear]; exact hz d) hown hown'
  refine ⟨htree,fun q => (hwalk q).trans (hcongr q).2,fun q u => ?_⟩
  rw [hreach,(hcongr q).1]

end Update
end Radix
