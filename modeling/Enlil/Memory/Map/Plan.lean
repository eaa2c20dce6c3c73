import Enlil.Memory.Map.Loops

/-! # Memory maps: carving and planning -/

namespace Enlil.Memory
open MemoryMap
variable {m m' : MemoryMap} {size align limit : ℕ}

def CarveSpec (m : MemoryMap) (size align limit : ℕ) (m' : MemoryMap) : Option ℕ → Prop
  | some b => 0 < size ∧ align ∣ b ∧ b+size ≤ limit ∧ Grants m.kindAt [(b,size)] m'.kindAt
  | none => m' = m ∧ (size = 0 ∨ ∀ r ∈ m.regions, NoFit size align limit r)

/-- An alignment the code accepts: a power of two that fits a `u64`. -/
def ValidAlign (align : ℕ) : Prop := isPowerOfTwo align = true ∧ align < 2^64

lemma ValidAlign.exists_pow (h : ValidAlign align) : ∃ k, k < 64 ∧ align = 2^k := by
  obtain ⟨k,rfl⟩ := isPowerOfTwo_iff.mp h.1
  exact ⟨k,(Nat.pow_lt_pow_iff_right (by decide)).mp h.2,rfl⟩

lemma carveBelow_spec (hwf : m.WF) (halign : ValidAlign align) (size limit : ℕ) :
    ∃ m' res, m.carveBelow size align limit = some (m',res) ∧ m'.WF ∧
      CarveSpec m size align limit m' res := by
  rw [carveBelow,if_pos halign.1]
  obtain ⟨k,hk,rfl⟩ := halign.exists_pow
  by_cases hsize : size = 0
  · exact ⟨m,none,if_pos hsize,hwf,rfl,Or.inl hsize⟩
  rw [if_neg hsize]
  cases hscan : carveScan size (2^k) limit 0 m.regions with
  | none => exact ⟨m,none,rfl,hwf,rfl,Or.inr (carveScan_none hk hwf.bounded hscan)⟩
  | some found =>
    obtain ⟨idx,start⟩ := found
    obtain ⟨pre,r,post,hrs,hidx,hkind,hbase,hend,hlim,hdvd⟩ :=
      carveScan_some hk hwf.bounded hscan
    have hsplit : SplitAt m pre r post start size := ⟨hrs,hkind,hbase,hend⟩
    rw [zero_add] at hidx
    subst hidx
    exact ⟨_,some start,rfl,hsplit.wf hwf,Nat.pos_of_ne_zero hsize,hdvd,hlim, hsplit.grants hwf⟩

lemma carve_spec (hwf : m.WF) (halign : ValidAlign align) (size : ℕ) :
    ∃ m' res, m.carve size align = some (m',res) ∧ m'.WF ∧ CarveSpec m size align (2^64-1) m' res :=
  carveBelow_spec hwf halign size _

def MemoryRegion.span (r : MemoryRegion) : ℕ × ℕ := (r.base,r.size)

variable {trial : MemoryMap} {req : MemoryPlanRequest}

lemma carveGuests_spec (halign : ValidAlign align) (sizes : List ℕ) (hwf : trial.WF) :
    ∃ m' guests, carveGuests align sizes trial = some (m',guests) ∧ ∀ gs, guests = some gs →
        m'.WF ∧ Grants trial.kindAt (gs.map MemoryRegion.span) m'.kindAt := by
  induction sizes generalizing trial with
  | nil => exact ⟨trial,some [],rfl,fun gs h => by cases h; exact ⟨hwf,Grants.nil _⟩⟩
  | cons size sizes ih =>
    obtain ⟨m₁,res,hcarve,hwf₁,hspec⟩ := carve_spec hwf halign size
    cases res with
    | none => exact ⟨m₁,none,by simp [carveGuests,hcarve],fun gs h => by cases h⟩
    | some b =>
      obtain ⟨m₂,guests,hrest,hguests⟩ := ih hwf₁
      refine ⟨m₂,guests.map fun gs => ⟨b,size,.reserved⟩ :: gs,?_,?_⟩
      · simp [carveGuests,hcarve,hrest]
      · intro gs hgs
        obtain ⟨tail,htail,rfl⟩ := Option.map_eq_some_iff.mp hgs
        obtain ⟨hwf₂,hgrants⟩ := hguests tail htail
        exact ⟨hwf₂,hspec.2.2.2.append hgrants⟩

def carvedHeap (req : MemoryPlanRequest) (heap : MemoryRegion) : List (ℕ × ℕ) :=
  match req.preclaimedHeap with
  | some _ => []
  | none => [heap.span]

lemma planHeap_spec (hwf : trial.WF) (halign : ValidAlign req.align) :
    ∃ m' heap, planHeap trial req = some (m',heap) ∧
      ∀ h, heap = some h → m'.WF ∧ Grants trial.kindAt (carvedHeap req h) m'.kindAt := by
  cases hpre : req.preclaimedHeap with
  | some span =>
    obtain ⟨base,size⟩ := span
    by_cases hbad : size < req.heapSize ∨ trial.spanIsReserved base size = false
    · exact ⟨trial,none,by simp [planHeap,hpre,hbad],fun h hh => by cases hh⟩
    · refine ⟨trial,some ⟨base,size,.reserved⟩,by simp [planHeap,hpre,hbad],?_⟩
      intro h _
      rw [carvedHeap,hpre]
      exact ⟨hwf,Grants.nil _⟩
  | none =>
    obtain ⟨m₁,res,hcarve,hwf₁,hspec⟩ := carve_spec hwf halign req.heapSize
    refine ⟨m₁,res.map fun b => ⟨b,req.heapSize,.reserved⟩,?_,?_⟩
    · simp [planHeap,hpre,hcarve]
    · intro h hh
      obtain ⟨b,rfl,rfl⟩ := Option.map_eq_some_iff.mp hh
      rw [carvedHeap,hpre]
      exact ⟨hwf₁,hspec.2.2.2⟩

def carvedSpans (req : MemoryPlanRequest) (h : HypervisorRegions) : List (ℕ × ℕ) :=
  h.dma.span :: (carvedHeap req h.heap ++ h.guestRam.map MemoryRegion.span)

lemma planHypervisorRegions_spec (hwf : m.WF) (halign : ValidAlign req.align) :
    ∃ m' res, m.planHypervisorRegions req = some (m',res) ∧ m'.WF ∧ (res = none → m' = m) ∧
      (∀ h, res = some h → Grants m.kindAt (carvedSpans req h) m'.kindAt) := by
  obtain ⟨m₁,res₁,hdma,hwf₁,hspec₁⟩ := carveBelow_spec hwf halign req.dmaSize (2^32)
  cases res₁ with
  | none =>
    exact ⟨m,none,by simp only [planHypervisorRegions,hdma],hwf,fun _ => rfl,
      fun h hh => by cases hh⟩
  | some dmaBase =>
    obtain ⟨m₂,heap,hheap,hspec₂⟩ := planHeap_spec hwf₁ halign
    cases heap with
    | none =>
      exact ⟨m,none,by simp only [planHypervisorRegions,hdma,hheap],hwf,fun _ => rfl,
        fun h hh => by cases hh⟩
    | some heap =>
      obtain ⟨hwf₂,hgrants₂⟩ := hspec₂ heap rfl
      obtain ⟨m₃,guests,hguests,hspec₃⟩ := carveGuests_spec halign req.guestRamSizes hwf₂
      cases guests with
      | none =>
        exact ⟨m,none,by simp only [planHypervisorRegions,hdma,hheap,hguests],hwf,
          fun _ => rfl,fun h hh => by cases hh⟩
      | some guests =>
        obtain ⟨hwf₃,hgrants₃⟩ := hspec₃ guests rfl
        refine ⟨m₃,some ⟨⟨dmaBase,req.dmaSize,.reserved⟩,heap,guests⟩,?_,hwf₃,?_,?_⟩
        · simp only [planHypervisorRegions,hdma,hheap,hguests]
        · intro h
          cases h
        · intro h hh
          cases hh
          exact hspec₁.2.2.2.append (hgrants₂.append hgrants₃)

end Enlil.Memory
