import Mathlib.Data.List.Sort

/-!
# Ordered maps

A finite map as its list of entries in increasing order of the keys, which is the order a search
tree is iterated in.
-/

structure OrdMap (K V : Type) [LinearOrder K] where
  entries : List (K × V)
  sorted : entries.Pairwise fun a b => a.1 < b.1

namespace OrdMap
open List
variable {K V : Type} [LinearOrder K]

def empty : OrdMap K V := ⟨[],.nil⟩

def values (m : OrdMap K V) : List V := m.entries.map Prod.snd

def insertEntry (k : K) (v : V) : List (K × V) → List (K × V)
  | [] => [(k,v)]
  | e :: l =>
    if k < e.1 then (k,v) :: e :: l
    else if k = e.1 then (k,v) :: l
    else e :: insertEntry k v l

variable {k : K} {l : List (K × V)} {x : K × V} {v : V}

lemma mem_insertEntry_imp (h : x ∈ insertEntry k v l) : x = (k,v) ∨ x ∈ l := by
  induction l with
  | nil => exact .inl (mem_singleton.mp h)
  | cons e l ih =>
    rw [insertEntry] at h
    split at h
    · exact mem_cons.mp h
    · split at h
      · exact (mem_cons.mp h).imp_right (mem_cons_of_mem e)
      · rcases mem_cons.mp h with rfl | h
        · exact .inr mem_cons_self
        · exact (ih h).imp_right (mem_cons_of_mem e)

lemma sorted_insertEntry (k : K) (v : V) (h : l.Pairwise fun a b => a.1 < b.1) :
    (insertEntry k v l).Pairwise fun a b => a.1 < b.1 := by
  induction l with
  | nil => exact pairwise_singleton _ _
  | cons e l ih =>
    obtain ⟨he,hl⟩ := pairwise_cons.mp h
    rw [insertEntry]
    split
    next hk =>
      refine pairwise_cons.mpr ⟨fun x hx => ?_,h⟩
      rcases mem_cons.mp hx with rfl | hx
      · exact hk
      · exact lt_trans hk (he x hx)
    next hk =>
      split
      next heq => exact pairwise_cons.mpr ⟨fun x hx => heq ▸ he x hx,hl⟩
      next hne =>
        refine pairwise_cons.mpr ⟨fun x hx => ?_,ih hl⟩
        rcases mem_insertEntry_imp hx with rfl | hx
        · exact lt_of_le_of_ne (not_lt.mp hk) (Ne.symm hne)
        · exact he x hx

lemma insertEntry_perm (h : ∀ e ∈ l, e.1 ≠ k) :
    (insertEntry k v l).Perm ((k,v) :: l) := by
  induction l with
  | nil => exact .refl _
  | cons e l ih =>
    rw [insertEntry,if_neg (Ne.symm (h e mem_cons_self))]
    split
    · exact .refl _
    · exact ((ih fun x hx => h x (mem_cons_of_mem e hx)).cons e).trans (.swap ..)

def insert (m : OrdMap K V) (k : K) (v : V) : OrdMap K V :=
  ⟨insertEntry k v m.entries,sorted_insertEntry k v m.sorted⟩

def erase (m : OrdMap K V) (k : K) : OrdMap K V :=
  ⟨m.entries.filter (·.1 ≠ k),m.sorted.filter _⟩

def modify (m : OrdMap K V) (k : K) (f : V → V) : OrdMap K V :=
  ⟨m.entries.map fun e => if e.1 = k then (e.1,f e.2) else e,
    pairwise_map.mpr (m.sorted.imp fun h => by split_ifs <;> exact h)⟩

@[simp] lemma values_empty : (empty : OrdMap K V).values = [] := rfl

variable {m : OrdMap K V}

lemma values_insert_perm (v : V) (h : ∀ e ∈ m.entries, e.1 ≠ k) :
    (m.insert k v).values.Perm (v :: m.values) :=
  (insertEntry_perm h).map Prod.snd

@[simp] lemma entries_empty : (empty : OrdMap K V).entries = [] := rfl

lemma mem_entries_insert :
    (k,v) ∈ (m.insert k v).entries := by
  change (k,v) ∈ insertEntry k v m.entries
  induction m.entries with
  | nil => exact mem_singleton_self _
  | cons e l ih =>
    rw [insertEntry]
    split
    · exact mem_cons_self
    · split
      · exact mem_cons_self
      · exact mem_cons_of_mem e ih

variable {x y e : K × V}

lemma eq_of_mem_entries (hx : x ∈ m.entries)
    (hy : y ∈ m.entries) (h : x.1 = y.1) : x = y := by
  have hkeys : (m.entries.map Prod.fst).Nodup := pairwise_map.mpr (m.sorted.imp ne_of_lt)
  exact inj_on_of_nodup_map hkeys hx hy h

lemma mem_entries_insert_imp (h : x ∈ (m.insert k v).entries) : x = (k,v) ∨ x ∈ m.entries :=
  mem_insertEntry_imp h

lemma perm_erase (h : e ∈ m.entries) :
    m.entries.Perm (e :: (m.erase e.1).entries) := by
  obtain ⟨l₁,l₂,hl⟩ := append_of_mem h
  have hs := hl ▸ m.sorted
  obtain ⟨-,h₂,h₁₂⟩ := pairwise_append.mp hs
  obtain ⟨he₂,-⟩ := pairwise_cons.mp h₂
  have hf₁ : l₁.filter (·.1 ≠ e.1) = l₁ := List.filter_eq_self.mpr fun x hx =>
    decide_eq_true (ne_of_lt (h₁₂ x hx e mem_cons_self))
  have hf₂ : l₂.filter (·.1 ≠ e.1) = l₂ := List.filter_eq_self.mpr fun x hx =>
    decide_eq_true (ne_of_gt (he₂ x hx))
  have herase : (m.erase e.1).entries = l₁ ++ l₂ := by
    change m.entries.filter (·.1 ≠ e.1) = l₁ ++ l₂
    rw [hl,filter_append,filter_cons_of_neg (by simp),hf₁,hf₂]
  rw [herase,hl]
  exact perm_middle

lemma values_perm_erase (h : e ∈ m.entries) : m.values.Perm (e.2 :: (m.erase e.1).values) :=
  (perm_erase h).map Prod.snd

lemma mem_entries_of_mem_erase (h : x ∈ (m.erase k).entries) : x ∈ m.entries :=
  (mem_filter.mp h).1

end OrdMap
