import Enlil.Memory.Map.Plan

/-! # Physical memory map: refinement of a function from addresses to kinds -/

namespace Enlil.Memory
open MemoryMap

inductive MapOp where
  | carve (size align : ℕ)
  | carveBelow (size align limit : ℕ)
  | reserveSpan (base size : ℕ)
  | coalesce
  | plan (req : MemoryPlanRequest)

inductive MapResult where
  | base (b : Option ℕ)
  | flag (b : Bool)
  | unit
  | regions (r : Option HypervisorRegions)

def MapOp.Valid : MapOp → Prop
  | .carve _ align | .carveBelow _ align _ => ValidAlign align
  | .plan req => ValidAlign req.align
  | .reserveSpan _ _ | .coalesce => True

def MapOp.apply (m : MemoryMap) : MapOp → Option (MemoryMap × MapResult)
  | .carve size align => (m.carve size align).map fun (m',b) => (m',.base b)
  | .carveBelow size align limit =>
    (m.carveBelow size align limit).map fun (m',b) => (m',.base b)
  | .reserveSpan base size => (m.reserveSpan base size).map fun (m',b) => (m',.flag b)
  | .coalesce => some (m.coalesce,.unit)
  | .plan req => (m.planHypervisorRegions req).map fun (m',r) => (m',.regions r)

/-- The spans an operation hands out. A heap that a plan adopts was claimed before and is not handed
out again. -/
def MapOp.granted : MapOp → MapResult → List (ℕ × ℕ)
  | .carve size _, .base (some b) => [(b,size)]
  | .carveBelow size _ _, .base (some b) => [(b,size)]
  | .plan req, .regions (some h) => carvedSpans req h
  | _, _ => []

/-- The effect of `reserve_span` on the abstract function. A span that wraps is rejected. -/
def ReserveSpec (k k' : KindMap) (base size : ℕ) (b : Bool) : Prop :=
  if base+size < 2^64 then
    (∀ a, base ≤ a → a < base+size → k a = some .usable → k' a = some .reserved) ∧
    (∀ a, ¬ (base ≤ a ∧ a < base+size ∧ k a = some .usable) → k' a = k a) ∧
    (b = true ↔ ∃ a, base ≤ a ∧ a < base+size ∧ k a = some .usable)
  else k' = k ∧ b = false

def StepSpec (m m' : MemoryMap) : MapOp → MapResult → Prop
  | .carve size align, .base b => CarveSpec m size align (2^64-1) m' b
  | .carveBelow size align limit, .base b => CarveSpec m size align limit m' b
  | .reserveSpan base size, .flag b => ReserveSpec m.kindAt m'.kindAt base size b
  | .coalesce, .unit => m'.kindAt = m.kindAt
  | .plan _, .regions none => m' = m
  | .plan req, .regions (some h) => Grants m.kindAt (carvedSpans req h) m'.kindAt
  | _, _ => False

variable {m m' : MemoryMap}

lemma MapOp.apply_spec (hwf : m.WF) (op : MapOp) (hop : op.Valid) :
    ∃ m' res, op.apply m = some (m',res) ∧ m'.WF ∧ StepSpec m m' op res := by
  cases op with
  | carve size align =>
    obtain ⟨m',b,h,hwf',hspec⟩ := carve_spec hwf hop size
    exact ⟨m',.base b,by simp [MapOp.apply,h],hwf',hspec⟩
  | carveBelow size align limit =>
    obtain ⟨m',b,h,hwf',hspec⟩ := carveBelow_spec hwf hop size limit
    exact ⟨m',.base b,by simp [MapOp.apply,h],hwf',hspec⟩
  | reserveSpan base size =>
    by_cases hspan : base+size < 2^64
    · obtain ⟨m',b,h,hwf',hspec⟩ := reserveSpan_spec hwf size hspan
      refine ⟨m',.flag b,by simp [MapOp.apply,h],hwf',?_⟩
      rw [StepSpec,ReserveSpec,if_pos hspan]
      exact hspec
    · have hwrap : m.reserveSpan base size = some (m,false) := by
        rw [MemoryMap.reserveSpan,Word.checkedAdd64_of_ge (Nat.not_lt.mp hspan)]
        exact ite_self _
      refine ⟨m,.flag false,by simp [MapOp.apply,hwrap],hwf,?_⟩
      rw [StepSpec,ReserveSpec,if_neg hspan]
      exact ⟨rfl,rfl⟩
  | coalesce =>
    obtain ⟨hwf',hk⟩ := coalesce_spec hwf
    exact ⟨_,.unit,rfl,hwf',funext hk⟩
  | plan req =>
    obtain ⟨m',res,h,hwf',hnone,hsome⟩ := planHypervisorRegions_spec hwf hop
    refine ⟨m',.regions res,by simp [MapOp.apply,h],hwf',?_⟩
    cases res with
    | none => exact hnone rfl
    | some regions => exact hsome regions rfl

/-- Seen as a step on the abstract function, an operation hands out its granted spans and
otherwise only retypes usable bytes. -/
lemma StepSpec.usable_mono {op : MapOp} {res : MapResult} (h : StepSpec m m' op res) :
    (op.granted res).Pairwise SpanDisjoint ∧
    (∀ s ∈ op.granted res, ∀ a, InSpan a s → m.kindAt a = some .usable) ∧
    (∀ a, m'.kindAt a = some .usable →
      m.kindAt a = some .usable ∧ ∀ s ∈ op.granted res, ¬ InSpan a s) := by
  have hgrants : ∀ spans, Grants m.kindAt spans m'.kindAt → spans.Pairwise SpanDisjoint ∧
      (∀ s ∈ spans, ∀ a, InSpan a s → m.kindAt a = some .usable) ∧
      (∀ a, m'.kindAt a = some .usable → m.kindAt a = some .usable ∧ ∀ s ∈ spans, ¬ InSpan a s) :=
    fun spans hg => ⟨hg.disjoint,hg.usable,fun a ha => hg.usable_of_usable ha⟩
  have hsame : m'.kindAt = m.kindAt → ([] : List (ℕ × ℕ)).Pairwise SpanDisjoint ∧
      (∀ s ∈ ([] : List (ℕ × ℕ)), ∀ a, InSpan a s → m.kindAt a = some .usable) ∧
      (∀ a, m'.kindAt a = some .usable →
        m.kindAt a = some .usable ∧ ∀ s ∈ ([] : List (ℕ × ℕ)), ¬ InSpan a s) :=
    fun heq => hgrants [] (heq ▸ Grants.nil _)
  cases op with
  | carve size align =>
    cases res with
    | base b =>
      cases b with
      | none => exact hsame (congrArg kindAt h.1)
      | some b => exact hgrants _ h.2.2.2
    | _ => exact h.elim
  | carveBelow size align limit =>
    cases res with
    | base b =>
      cases b with
      | none => exact hsame (congrArg kindAt h.1)
      | some b => exact hgrants _ h.2.2.2
    | _ => exact h.elim
  | reserveSpan base size =>
    cases res with
    | flag b =>
      rw [StepSpec,ReserveSpec] at h
      split at h
      · obtain ⟨hin,hout,-⟩ := h
        refine ⟨.nil,by simp [MapOp.granted],fun a ha => ⟨?_,by simp [MapOp.granted]⟩⟩
        by_cases hspan : base ≤ a ∧ a < base+size ∧ m.kindAt a = some .usable
        · exact hspan.2.2
        · exact (hout a hspan) ▸ ha
      · exact hsame h.1
    | _ => exact h.elim
  | coalesce =>
    cases res with
    | unit => exact hsame h
    | _ => exact h.elim
  | plan req =>
    cases res with
    | regions r =>
      cases r with
      | none => exact hsame (congrArg kindAt h)
      | some r => exact hgrants _ h
    | _ => exact h.elim

/-- A run of operations with the values they returned. -/
inductive MapRun : MemoryMap → List (MapOp × MapResult) → MemoryMap → Prop
  | nil (m : MemoryMap) : MapRun m [] m
  | cons {m m' m'' : MemoryMap} {op : MapOp} {res : MapResult}
      {trace : List (MapOp × MapResult)} (hop : op.Valid)
      (hstep : op.apply m = some (m',res)) (hrest : MapRun m' trace m'') :
      MapRun m ((op,res) :: trace) m''

def grantedSpans (trace : List (MapOp × MapResult)) : List (ℕ × ℕ) :=
  trace.flatMap fun e => e.1.granted e.2

lemma MapRun.invariant {trace : List (MapOp × MapResult)} (hrun : MapRun m trace m') (hwf : m.WF) :
    m'.WF ∧ (grantedSpans trace).Pairwise SpanDisjoint ∧
    (∀ s ∈ grantedSpans trace, ∀ a, InSpan a s → m.kindAt a = some .usable) := by
  induction hrun with
  | nil m => exact ⟨hwf,.nil,by simp [grantedSpans]⟩
  | @cons m m₁ m₂ op res trace hop hstep _ ih =>
    obtain ⟨m',res',happ,hwf₁,hspec⟩ := op.apply_spec hwf hop
    rw [hstep] at happ
    cases happ
    obtain ⟨hwf₂,hdisj,huse⟩ := ih hwf₁
    obtain ⟨hdisj₁,huse₁,hmono⟩ := hspec.usable_mono
    refine ⟨hwf₂,?_,?_⟩
    · simp only [grantedSpans,List.flatMap_cons]
      refine List.pairwise_append.mpr ⟨hdisj₁,hdisj,?_⟩
      -- A later span was usable after this step, hence outside what this step handed out.
      intro x hx y hy a ⟨hax,hay⟩
      exact (hmono a (huse y hy a hay)).2 x hx hax
    · intro s hs a ha
      simp only [grantedSpans,List.flatMap_cons,List.mem_append] at hs
      cases hs with
      | inl hs => exact huse₁ s hs a ha
      | inr hs => exact (hmono a (huse s hs a ha)).1

/-- Refinement over whole runs: from a consistent map whose regions end below `2 ^ 63`, every
operation returns and acts on the abstract function as specified, and the spans handed out are
pairwise disjoint and were usable. -/
theorem MemoryMap.run_refines {m₀ m : MemoryMap} {trace : List (MapOp × MapResult)}
    (hcons : m₀.isConsistent = true) (hbound : ∀ r ∈ m₀.regions, r.base+r.size < 2^63)
    (hrun : MapRun m₀ trace m) :
    m.isConsistent = true ∧ (∀ r ∈ m.regions, r.base+r.size < 2^63) ∧
    (∀ op : MapOp, op.Valid →
      ∃ m' res, op.apply m = some (m',res) ∧ m'.isConsistent = true ∧ StepSpec m m' op res) ∧
    (grantedSpans trace).Pairwise SpanDisjoint ∧
    (∀ s ∈ grantedSpans trace, ∀ a, InSpan a s → m₀.kindAt a = some .usable) := by
  have hwf₀ : m₀.WF := (wf_iff m₀).mpr ⟨hcons,hbound⟩
  obtain ⟨hwf,hdisj,huse⟩ := hrun.invariant hwf₀
  obtain ⟨hcons',hbound'⟩ := (wf_iff m).mp hwf
  refine ⟨hcons',hbound',?_,hdisj,huse⟩
  intro op hop
  obtain ⟨m',res,happ,hwf',hspec⟩ := op.apply_spec hwf hop
  exact ⟨m',res,happ,((wf_iff m').mp hwf').1,hspec⟩

/-- Two megabytes of RAM below a page that firmware already reserved. -/
def sampleMap : MemoryMap := ⟨[⟨0,2^21,.usable⟩,⟨2^21,4096,.reserved⟩]⟩

def sampleTrace : List (MapOp × MapResult) :=
  [(.carve 4096 4096,.base (some 0)),(.reserveSpan 4096 4096,.flag true),
    (.plan ⟨8192,4096,[4096],4096,none⟩,.regions (some
      ⟨⟨8192,4096,.reserved⟩,⟨12288,8192,.reserved⟩,[⟨20480,4096,.reserved⟩]⟩))]

theorem MemoryMap.run_refines_sample : sampleMap.isConsistent = true ∧
    grantedSpans sampleTrace = [(0,4096),(8192,4096),(12288,8192),(20480,4096)] ∧
    ∃ m, MapRun sampleMap sampleTrace m ∧ m.isConsistent = true ∧
      (grantedSpans sampleTrace).Pairwise SpanDisjoint := by
  have hb : ∀ r ∈ sampleMap.regions, r.base+r.size < 2^63 := by decide
  have hrun : MapRun sampleMap sampleTrace _ :=
    .cons ⟨by decide,by decide⟩ (by rfl) (.cons trivial (by rfl)
      (.cons ⟨by decide,by decide⟩ (by rfl) (.nil _)))
  obtain ⟨hcons,-,-,hdisj,-⟩ := MemoryMap.run_refines (by decide) hb hrun
  exact ⟨by decide,by decide,_,hrun,hcons,hdisj⟩

/-- Three corners: a span that wraps is refused, a plan adopts a preclaimed heap that was never
usable, and a zero-sized carve fails. -/
theorem MemoryMap.reserve_carve_plan_corners :
    (sampleMap.isConsistent = true ∧ ∀ r ∈ sampleMap.regions, r.base+r.size < 2^63) ∧
    (sampleMap.reserveSpan 4096 (2^64-1) = some (sampleMap,false) ∧
      InSpan 4096 (4096,2^64-1) ∧ sampleMap.kindAt 4096 = some .usable) ∧
    ((sampleMap.planHypervisorRegions ⟨4096,4096,[],4096,some (2^21,4096)⟩).map
        (fun r => r.2.map (·.heap)) = some (some ⟨2^21,4096,.reserved⟩) ∧
      sampleMap.kindAt (2^21) = some .reserved) ∧
    (sampleMap.carve 0 4096 = some (sampleMap,none) ∧
      ∃ r ∈ sampleMap.regions, ¬ NoFit 0 4096 (2^64-1) r) := by
  refine ⟨⟨by decide,by decide⟩,⟨by decide,⟨by decide,by decide⟩,by decide⟩,
    ⟨by decide,by decide⟩,by decide,⟨0,2^21,.usable⟩,by decide,?_⟩
  intro hno
  exact hno rfl ⟨0,by decide,by decide,by decide,by decide⟩

end Enlil.Memory
