import Mathlib.Data.List.Chain
import Enlil.Memory.Map.Defs

/-! # Memory maps as functions from addresses to kinds -/

namespace Enlil.Memory
open List

/-- The abstract map: what each physical address is, if any region covers it. -/
abbrev KindMap := ℕ → Option MemoryKind

def InSpan (a : ℕ) (s : ℕ × ℕ) : Prop := s.1 ≤ a ∧ a < s.1+s.2

def SpanDisjoint (s t : ℕ × ℕ) : Prop := ∀ a, ¬ (InSpan a s ∧ InSpan a t)

/-- `k'` is `k` after handing out `spans`: their bytes were usable and are now reserved, and no
other byte changed. -/
structure Grants (k : KindMap) (spans : List (ℕ × ℕ)) (k' : KindMap) : Prop where
  disjoint : spans.Pairwise SpanDisjoint
  usable : ∀ s ∈ spans, ∀ a, InSpan a s → k a = some .usable
  reserved : ∀ s ∈ spans, ∀ a, InSpan a s → k' a = some .reserved
  frame : ∀ a, (∀ s ∈ spans, ¬ InSpan a s) → k' a = k a

lemma Grants.nil (k : KindMap) : Grants k [] k :=
  ⟨.nil,by simp,by simp,fun _ _ => rfl⟩

variable {a : ℕ} {spans s t : List (ℕ × ℕ)}

lemma Grants.usable_of_usable {k k' : KindMap} (h : Grants k spans k') (ha : k' a = some .usable) :
    k a = some .usable ∧ ∀ s ∈ spans, ¬ InSpan a s := by
  have hout : ∀ s ∈ spans, ¬ InSpan a s := by
    intro s hs hin
    rw [h.reserved s hs a hin] at ha
    cases ha
  exact ⟨(h.frame a hout) ▸ ha,hout⟩

lemma Grants.append {k k' k'' : KindMap}
    (h : Grants k s k') (h' : Grants k' t k'') : Grants k (s ++ t) k'' := by
  have hfresh : ∀ y ∈ t, ∀ a, InSpan a y → k a = some .usable ∧ ∀ x ∈ s, ¬ InSpan a x :=
    fun y hy a hin => h.usable_of_usable (h'.usable y hy a hin)
  refine ⟨?_,?_,?_,?_⟩
  · refine pairwise_append.mpr ⟨h.disjoint,h'.disjoint,?_⟩
    intro x hx y hy a ⟨hax,hay⟩
    exact (hfresh y hy a hay).2 x hx hax
  · intro x hx a hin
    rcases mem_append.mp hx with hx | hx
    · exact h.usable x hx a hin
    · exact (hfresh x hx a hin).1
  · intro x hx a hin
    by_cases hlast : ∃ y ∈ t, InSpan a y
    · obtain ⟨y,hy,hay⟩ := hlast
      exact h'.reserved y hy a hay
    · rcases mem_append.mp hx with hx | hx
      · rw [h'.frame a (fun y hy hay => hlast ⟨y,hy,hay⟩)]
        exact h.reserved x hx a hin
      · exact absurd ⟨x,hx,hin⟩ hlast
  · intro a hout
    rw [h'.frame a (fun y hy => hout y (mem_append_right _ hy)),
      h.frame a (fun x hx => hout x (mem_append_left _ hx))]

def kindIn (regions : List MemoryRegion) (a : ℕ) : Option MemoryKind :=
  (regions.find? (·.contains a)).map (·.kind)

@[simp] lemma kindIn_nil (a : ℕ) : kindIn [] a = none := rfl

lemma kindIn_cons (r : MemoryRegion) (rs : List MemoryRegion) (a : ℕ) :
    kindIn (r :: rs) a = if r.contains a then some r.kind else kindIn rs a := by
  by_cases h : r.contains a <;> simp [kindIn,h]

lemma kindIn_append (xs ys : List MemoryRegion) (a : ℕ) :
    kindIn (xs ++ ys) a = (kindIn xs a).or (kindIn ys a) := by
  induction xs with
  | nil => simp
  | cons x xs ih =>
    rw [List.cons_append,kindIn_cons,kindIn_cons,ih]
    split <;> simp

variable {rs : List MemoryRegion} {r : MemoryRegion}

lemma kindIn_eq_none (h : ∀ r ∈ rs, r.contains a = false) :
    kindIn rs a = none := by
  induction rs with
  | nil => rfl
  | cons r rs ih =>
    rw [kindIn_cons,h r mem_cons_self,ih fun x hx => h x (mem_cons_of_mem _ hx)]
    simp

lemma exists_of_kindIn {k : MemoryKind}
    (h : kindIn rs a = some k) : ∃ r ∈ rs, r.contains a = true ∧ r.kind = k := by
  unfold kindIn at h
  rw [Option.map_eq_some_iff] at h
  obtain ⟨r,hr,hk⟩ := h
  exact ⟨r,mem_of_find?_eq_some hr,by simpa using find?_some hr,hk⟩

def MemoryMap.kindAt (m : MemoryMap) : KindMap := kindIn m.regions

/-- The true end of a region stays below the sign bit, so no address sum wraps. -/
def MemoryRegion.Bounded (r : MemoryRegion) : Prop := r.base+r.size < 2^63

def MemoryRegion.Before (a b : MemoryRegion) : Prop := a.base+a.size ≤ b.base

instance : IsTrans MemoryRegion MemoryRegion.Before where
  trans a b c hab hbc := by
    unfold MemoryRegion.Before at *
    omega

lemma MemoryRegion.Bounded.endAddr (h : r.Bounded) :
    r.endAddr = r.base+r.size :=
  Word.add64_of_lt (lt_trans h (by decide))

lemma MemoryRegion.Bounded.contains (h : r.Bounded) (a : ℕ) :
    r.contains a = true ↔ r.base ≤ a ∧ a < r.base+r.size := by
  simp [MemoryRegion.contains,h.endAddr]

/-- Sorted, non-overlapping and bounded: the shape every operation keeps. -/
structure MemoryMap.WF (m : MemoryMap) : Prop where
  bounded : ∀ r ∈ m.regions, r.Bounded
  sorted : m.regions.Pairwise MemoryRegion.Before

lemma isConsistent_go_iff (hb : ∀ r ∈ rs, r.Bounded) :
    MemoryMap.isConsistent.go rs = true ↔ rs.IsChain MemoryRegion.Before := by
  induction rs with
  | nil => simp [MemoryMap.isConsistent.go]
  | cons a rs ih =>
    cases rs with
    | nil => simp [MemoryMap.isConsistent.go]
    | cons b rs =>
      have ha := (hb a mem_cons_self).endAddr
      rw [MemoryMap.isConsistent.go,Bool.and_eq_true,decide_eq_true_eq,ha,
        ih fun r hr => hb r (mem_cons_of_mem _ hr),isChain_cons_cons]
      rfl

lemma MemoryMap.wf_iff (m : MemoryMap) :
    m.WF ↔ m.isConsistent = true ∧ ∀ r ∈ m.regions, r.Bounded := by
  constructor
  · rintro ⟨hb,hs⟩
    exact ⟨(isConsistent_go_iff hb).mpr hs.isChain,hb⟩
  · rintro ⟨hc,hb⟩
    exact ⟨hb,isChain_iff_pairwise.mp ((isConsistent_go_iff hb).mp hc)⟩

lemma kindIn_append_cons_of_mem {pre post : List MemoryRegion}
    (hwf : MemoryMap.WF ⟨pre ++ r :: post⟩) (ha : r.base ≤ a) :
    kindIn pre a = none := by
  apply kindIn_eq_none
  intro x hx
  have hxr : x.Before r :=
    (pairwise_append.mp hwf.sorted).2.2 x hx r mem_cons_self
  have hxb : x.Bounded := hwf.bounded x (mem_append_left _ hx)
  rw [Bool.eq_false_iff,ne_eq,hxb.contains]
  unfold MemoryRegion.Before at hxr
  omega

end Enlil.Memory
