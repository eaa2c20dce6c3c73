import Enlil.Hal.Npt.Mapper.Steps

/-! # The mapper implements its ranges -/

namespace Enlil.Npt
open List Nat Prog
namespace NptMapper
open Word
variable {s s' s'' : NptMapper} {lo mid hi gpa spa g : ℕ}

def translate (s : NptMapper) (g : ℕ) : Option ℕ := translateNpt s.buf s.physBase g

lemma Inv.translate_eq (h : Inv s) (g : ℕ) : s.translate g = (s.walkAt (gpaPath g)).map fun r =>
      (r.1 &&& addrMask) ||| (g &&& (if r.2 = [] then pageSize-1 else huge2mib-1)) := by
  have hroot := h.root
  have hfits := h.fits
  exact translateNpt_eq_walk h.aligned (by omega) g

lemma translate_congr (h : Inv s) (h' : Inv s')
    (hw : s'.walkAt (gpaPath g) = s.walkAt (gpaPath g)) : s'.translate g = s.translate g := by
  rw [h'.translate_eq,h.translate_eq,hw]

lemma translateNpt_mod (buf : Buf) (physBase g : ℕ) :
    translateNpt buf physBase g = translateNpt buf physBase (g%2^48) := by
  have h4 : pml4Index (g%2^48) = pml4Index g := by
    rw [pml4Index_eq,pml4Index_eq]
    omega
  have h3 : pdptIndex (g%2^48) = pdptIndex g := by
    rw [pdptIndex_eq,pdptIndex_eq]
    omega
  have h2 : pdIndex (g%2^48) = pdIndex g := by
    rw [pdIndex_eq,pdIndex_eq]
    omega
  have h1 : ptIndex (g%2^48) = ptIndex g := by
    rw [ptIndex_eq,ptIndex_eq]
    omega
  have hhuge : g%2^48 &&& (huge2mib-1) = g &&& (huge2mib-1) := by
    rw [and_huge2mib_sub_one,and_huge2mib_sub_one]
    omega
  have hpage : g%2^48 &&& (pageSize-1) = g &&& (pageSize-1) := by
    rw [and_pageSize_sub_one,and_pageSize_sub_one]
    omega
  rw [translateNpt,translateNpt,h4,h3,h2,h1,hhuge,hpage]

/-- `s'` maps the unmapped addresses `lo..hi` as `f` says, and nothing else changed. -/
structure Maps (s s' : NptMapper) (lo hi : ℕ) (f : ℕ → Option ℕ) : Prop where
  fresh : ∀ g, lo ≤ g → g < hi → s.translate g = none
  mapped : ∀ g, lo ≤ g → g < hi → s'.translate g = f g
  frame : ∀ g < 2^48, ¬ (lo ≤ g ∧ g < hi) → s'.translate g = s.translate g

def Keeps (s s' : NptMapper) : Prop :=
  ∀ g < 2^48, ∀ a, s.translate g = some a → s'.translate g = some a

variable {f f' : ℕ → Option ℕ} {guardGpas : List ℕ}

lemma Maps.keeps (h : Maps s s' lo hi f) : Keeps s s' := by
  intro g hg a ha
  by_cases hin : lo ≤ g ∧ g < hi
  · rw [h.fresh g hin.1 hin.2] at ha
    cases ha
  · rw [h.frame g hg hin,ha]

lemma Maps.append (h : Maps s s' lo mid f) (h' : Maps s' s'' mid hi f)
    (hlo : lo ≤ mid) (hmid : mid ≤ hi) (hhi : hi ≤ 2^48) : Maps s s'' lo hi f := by
  refine ⟨?_,?_,?_⟩
  · intro g h1 h2
    by_cases hg : g < mid
    · exact h.fresh g h1 hg
    · rw [← h.frame g (by omega) (by omega)]
      exact h'.fresh g (by omega) h2
  · intro g h1 h2
    by_cases hg : g < mid
    · rw [h'.frame g (by omega) (by omega)]
      exact h.mapped g h1 hg
    · exact h'.mapped g (by omega) h2
  · intro g hg hout
    rw [h'.frame g hg (by omega),h.frame g hg (by omega)]

/-- Where a range from `gpa` to `spa` with these guards sends an address. -/
def target (guardGpas : List ℕ) (gpa spa g : ℕ) : Option ℕ :=
  if g/4096*4096 ∈ guardGpas then none else some ((spa+(g-gpa))%2^52)

lemma hugeLeaf_target (hspa : spa%2^21 = 0) (hgpa : gpa%2^21 = 0) (hlo : gpa ≤ g)
    (hhi : g < gpa+2^21) :
    ((spa &&& addrMask ||| hugeLeafFlags) &&& addrMask) ||| (g &&& (huge2mib-1)) =
      (spa+(g-gpa))%2^52 := by
  rw [hugeLeaf_addr,and_addrMask_of_aligned (by omega),and_huge2mib_sub_one,
    frame_or_offset (k := 21) (by omega) (mod_lt _ (by decide))]
  omega

lemma smallLeaf_target (hspa : spa%4096 = 0) (hgpa : gpa%4096 = 0) (hlo : gpa ≤ g)
    (hhi : g < gpa+4096) :
    ((spa &&& addrMask ||| tableFlags) &&& addrMask) ||| (g &&& (pageSize-1)) =
      (spa+(g-gpa))%2^52 := by
  rw [tableEntry_addr,and_addrMask_of_aligned hspa,and_pageSize_sub_one]
  show spa%2^52 ||| g%2^12 = _
  rw [frame_or_offset (by omega) (mod_lt g (by decide))]
  omega

lemma wp_mapHugeLeaf_maps (h : Inv s) (hgpa : gpa%2^21 = 0)
    (hspa : spa%2^21 = 0) (hlt : gpa+2^21 ≤ 2^48)
    (hguard : ∀ guard ∈ guardGpas, ¬ (gpa ≤ guard ∧ guard < gpa+2^21)) :
    (mapHugeLeaf gpa spa).wp s
      (fun _ t => Inv t ∧ Maps s t gpa (gpa+2^21) (target guardGpas gpa spa))
      (fun _ t => Inv t ∧ Keeps s t) := by
  have hin : ∀ g, gpa ≤ g → g < gpa+2^21 → gpaPath g = pdPath gpa ++ [ptFin g] := by
    intro g h1 h2
    have hpre : pdPath gpa <+: gpaPath g := pdPath_prefix_iff.mpr (by omega)
    exact (prefix_iff_eq_append.mp hpre).symm
  refine (wp_mapHugeLeaf h gpa spa).mono ?_ ?_
  · rintro _ t ⟨ht,-,hframe,hslot⟩
    refine ⟨ht,?_,?_,?_⟩
    · intro g h1 h2
      rw [h.translate_eq,hin g h1 h2,(hslot _).1]
      rfl
    · intro g h1 h2
      have hmem : g/4096*4096 ∉ guardGpas := fun hg => hguard _ hg (by omega)
      rw [ht.translate_eq,hin g h1 h2,(hslot _).2,target,if_neg hmem]
      exact congrArg some (hugeLeaf_target hspa hgpa h1 h2)
    · intro g hg hout
      refine translate_congr h ht (hframe _ ?_)
      rw [pdPath_prefix_iff]
      omega
  · rintro _ t ⟨ht,-,hwalk⟩
    refine ⟨ht,fun g _ a ha => ?_⟩
    rw [translate_congr h ht (hwalk _),ha]

lemma wp_mapSmallPage_maps (h : Inv s) (hgpa : gpa%4096 = 0)
    (hspa : spa%4096 = 0) (hlt : gpa+4096 ≤ 2^48) :
    (mapSmallPage gpa (if gpa ∈ guardGpas then none else some spa)).wp s
      (fun _ t => Inv t ∧ Maps s t gpa (gpa+4096) (target guardGpas gpa spa))
      (fun _ t => Inv t ∧ Keeps s t) := by
  have hin : ∀ g, gpa ≤ g → g < gpa+4096 → gpaPath g = gpaPath gpa := by
    intro g h1 h2
    have hpre : gpaPath gpa <+: gpaPath g := gpaPath_prefix_iff.mpr (by omega)
    exact (hpre.eq_of_length rfl).symm
  refine (wp_mapSmallPage h gpa _).mono ?_ ?_
  · rintro _ t ⟨ht,-,hframe,hold,hnew⟩
    refine ⟨ht,?_,?_,?_⟩
    · intro g h1 h2
      rw [h.translate_eq,hin g h1 h2,hold]
      rfl
    · intro g h1 h2
      have hbase : g/4096*4096 = gpa := by omega
      rw [ht.translate_eq,hin g h1 h2,hnew,target,hbase]
      by_cases hg : gpa ∈ guardGpas
      · rw [if_pos hg,if_pos hg]
        rfl
      · rw [if_neg hg,if_neg hg]
        exact congrArg some (smallLeaf_target hspa hgpa h1 h2)
    · intro g hg hout
      refine translate_congr h ht (hframe _ ?_)
      rw [gpaPath_prefix_iff]
      omega
  · rintro _ t ⟨ht,-,hwalk⟩
    refine ⟨ht,fun g _ a ha => ?_⟩
    rw [translate_congr h ht (hwalk _),ha]

lemma target_advance {step : ℕ} (hg : gpa+step ≤ g) :
    target guardGpas (gpa+step) (add64 spa step) g = target guardGpas gpa spa g := by
  have hmod : (add64 spa step+(g-(gpa+step)))%2^52 = (spa+(g-gpa))%2^52 := by
    rw [add64]
    omega
  rw [target,target,hmod]

lemma Maps.congr (h : Maps s s' lo hi f) (hf : ∀ g, lo ≤ g → f g = f' g) : Maps s s' lo hi f' :=
  ⟨h.fresh,fun g h1 h2 => (h.mapped g h1 h2).trans (hf g h1),h.frame⟩

lemma Maps.nil (f : ℕ → Option ℕ) : Maps s s lo lo f :=
  ⟨fun g h1 h2 => by omega,fun g h1 h2 => by omega,fun _ _ _ => rfl⟩

lemma Keeps.trans (h : Keeps s s') (h' : Keeps s' s'') : Keeps s s'' :=
  fun g hg a ha => h' g hg a (h g hg a ha)

/-- The chunk loop, by induction on the iterations: each one extends the mapped part of the
range by the chunk it handled. -/
lemma wp_mapChunks (guardGpas : List ℕ) (fuel : ℕ) {gpa spa remaining : ℕ} (h : Inv s)
    (hgpa : gpa%4096 = 0) (hspa : spa%4096 = 0) (hrem : remaining%4096 = 0)
    (hend : gpa+remaining ≤ 2^48) (hfuel : remaining/4096 < fuel) :
    (mapChunks guardGpas fuel gpa spa remaining).wp s
      (fun _ t => Inv t ∧ Maps s t gpa (gpa+remaining) (target guardGpas gpa spa))
      (fun _ t => Inv t ∧ Keeps s t) := by
  induction fuel generalizing s gpa spa remaining with
  | zero => omega
  | succ fuel ih =>
    rw [mapChunks]
    by_cases hzero : remaining = 0
    · rw [if_pos hzero,hzero]
      exact ⟨h,Maps.nil _⟩
    rw [if_neg hzero]
    -- What remains is handled by the induction hypothesis, from the advanced cursors.
    have hrest : ∀ step, step%4096 = 0 → 0 < step → step ≤ remaining → ∀ t, Inv t →
        Maps s t gpa (gpa+step) (target guardGpas gpa spa) →
        (mapChunks guardGpas fuel (gpa+step) (add64 spa step) (remaining-step)).wp t
          (fun _ u => Inv u ∧ Maps s u gpa (gpa+remaining) (target guardGpas gpa spa))
          (fun _ u => Inv u ∧ Keeps s u) := by
      intro step hstep hpos hle t ht hmaps
      have hspa' : add64 spa step%4096 = 0 := by
        rw [add64]
        omega
      refine (ih ht (by omega) hspa' (by omega) (by omega) (by omega)).mono ?_ ?_
      · rintro _ u ⟨hu,hmaps'⟩
        refine ⟨hu,hmaps.append ?_ (Nat.le_add_right _ _) (by omega) hend⟩
        have hcongr := hmaps'.congr fun g hg => target_advance hg
        rwa [show gpa+step+(remaining-step) = gpa+remaining by omega] at hcongr
      · rintro _ u ⟨hu,hkeeps⟩
        exact ⟨hu,hmaps.keeps.trans hkeeps⟩
    by_cases hchunk : gpa &&& (huge2mib-1) = 0 ∧ spa &&& (huge2mib-1) = 0 ∧ huge2mib ≤ remaining ∧
        (guardGpas.any fun guard => gpa ≤ guard && guard < gpa+huge2mib) = false
    · rw [if_pos hchunk,wp_bind]
      obtain ⟨hg21,hs21,hsize,hnone⟩ := hchunk
      rw [and_huge2mib_sub_one] at hg21 hs21
      have hsize' : 2^21 ≤ remaining := hsize
      have hguard : ∀ guard ∈ guardGpas, ¬ (gpa ≤ guard ∧ guard < gpa+2^21) := by
        intro guard hmem
        have := List.any_eq_false.mp hnone guard hmem
        simpa using this
      refine (wp_mapHugeLeaf_maps h hg21 hs21 (by omega) hguard).mono ?_ fun _ _ h => h
      rintro _ t ⟨ht,hmaps⟩
      exact hrest (2^21) (by decide) (by decide) hsize' t ht hmaps
    · rw [if_neg hchunk,wp_bind]
      refine (wp_mapSmallPage_maps h hgpa hspa (by omega)).mono ?_ fun _ _ h => h
      rintro _ t ⟨ht,hmaps⟩
      exact hrest 4096 (by decide) (by decide) (by omega) t ht hmaps

structure MapCall where
  gpa : ℕ
  spa : ℕ
  len : ℕ
  guardGpas : List ℕ

def MapCall.run (c : MapCall) : Prog NptMapper NptError Unit :=
  mapRange c.gpa c.spa c.len c.guardGpas

def MapCall.Covers (c : MapCall) (g : ℕ) : Prop :=
  c.gpa ≤ g ∧ g < c.gpa+c.len ∧ g/4096*4096 ∉ c.guardGpas

lemma wp_mapRange (h : Inv s) (c : MapCall) : c.run.wp s (fun _ t => Inv t ∧ c.gpa+c.len ≤ 2^48 ∧
        Maps s t c.gpa (c.gpa+c.len) (target c.guardGpas c.gpa c.spa))
      (fun _ t => Inv t ∧ Keeps s t) := by
  have hfail : Inv s ∧ Keeps s s := ⟨h,fun _ _ _ => id⟩
  simp only [MapCall.run,mapRange,wp_bind,wp_ensure,wp_ofOption,
    checkedAdd64_eq_some,wp_ofExcept,hfail,implies_true,and_true]
  rintro - ⟨hg,hs,hl⟩ _ ⟨-,rfl⟩ hend _ -
  rw [and_pageSize_sub_one] at hg hs hl
  have hend' : c.gpa+c.len ≤ 2^48 := hend
  refine (wp_mapChunks c.guardGpas _ h hg hs hl hend' (lt_succ_self _)).mono ?_ fun _ _ h => h
  rintro _ t ⟨ht,hmaps⟩
  exact ⟨ht,hend',hmaps⟩

inductive MapRun : NptMapper → List (MapCall × Except NptError Unit) → NptMapper → Prop
  | nil (s : NptMapper) : MapRun s [] s
  | snoc {s s' s'' : NptMapper} {trace : List (MapCall × Except NptError Unit)} {c : MapCall}
      {r : Except NptError Unit} (hinit : MapRun s trace s') (hcall : c.run s' = some (r,s'')) :
      MapRun s (trace ++ [(c,r)]) s''

lemma withTable_root (hused : s.tablesUsed = 0) (hbase : s.physBase%4096 = 0)
    (hlim : s.physBase+s.buf.len ≤ 2^52) (hfit : 4096 ≤ s.buf.len) :
    Inv s.withTable ∧ ∀ g, s.withTable.translate g = none := by
  have hzero : ∀ i, entryAt s.withTable.buf 0 i = 0 := by
    intro i
    show entryAt (s.buf.zero (s.tablesUsed*4096) 4096) 0 i = 0
    rw [entryAt_zero_page,hused]
    exact if_pos rfl
  obtain ⟨htree,hwalk⟩ : Radix.Tree (decode s.physBase s.buf.len) (WordOk s.physBase s.buf.len)
      (· < s.tablesUsed+1) (entryAt s.withTable.buf) 0 ∧
        ∀ q, s.withTable.walkAt q = none := by
    refine Radix.Tree.of_empty ?_ ?_ (succ_pos _)
    · intro i
      rw [hzero]
      exact decode_absent (Nat.zero_and _)
    · intro i hpres
      rw [hzero] at hpres
      exact absurd (Nat.zero_and _) hpres
  have hinv : Inv s.withTable := by
    refine ⟨hbase,hlim,succ_pos _,?_,htree⟩
    show (s.tablesUsed+1)*4096 ≤ s.buf.len
    rw [hused]
    exact hfit
  refine ⟨hinv,fun g => ?_⟩
  rw [hinv.translate_eq,hwalk]
  rfl

lemma new_inv {buf : Buf} {physBase : ℕ} (hlim : physBase+buf.len ≤ 2^52)
    (hnew : new buf physBase = some (.ok s)) : Inv s ∧ ∀ g, s.translate g = none := by
  have hbase : physBase%4096 = 0 := by
    rw [← and_pageSize_sub_one]
    by_contra hne
    rw [new,if_pos hne] at hnew
    cases hnew
  have hfit : 4096 ≤ buf.len := by
    by_contra hlt
    rw [new,if_neg (not_not.mpr (by rw [and_pageSize_sub_one,hbase])), if_pos (by omega)] at hnew
    cases hnew
  rw [new,if_neg (not_not.mpr (by rw [and_pageSize_sub_one,hbase])),
    if_neg (Nat.not_lt.mpr hfit)] at hnew
  obtain ⟨⟨r,t⟩,halloc,hrt⟩ := Option.map_eq_some_iff.mp hnew
  cases r with
  | error e => cases hrt
  | ok r =>
    cases hrt
    have hs := (wp_allocTable.of_ok halloc).2.1
    rw [← hs]
    exact withTable_root rfl hbase hlim hfit

variable {trace : List (MapCall × Except NptError Unit)}

lemma MapRun.inv (hrun : MapRun s trace s')
    (h : Inv s) : Inv s' := by
  induction hrun with
  | nil => exact h
  | @snoc s₁ s₂ trace c r _ hcall ih =>
    have hwp := wp_mapRange ih c
    cases r with
    | ok _ => exact (hwp.of_ok hcall).1
    | error e => exact (hwp.of_error hcall).1

lemma MapRun.translate (hrun : MapRun s trace s') (h : Inv s) (hempty : ∀ g, s.translate g = none)
    (hok : ∀ e ∈ trace, e.2 = .ok ()) (hspa : ∀ e ∈ trace, e.1.spa+e.1.len ≤ 2^52)
    (hg : g < 2^48) :
    (trace.Pairwise fun e e' => ¬ (e.1.Covers g ∧ e'.1.Covers g)) ∧
    (∀ e ∈ trace, e.1.Covers g → s'.translate g = some (e.1.spa+(g-e.1.gpa))) ∧
    ((∀ e ∈ trace, ¬ e.1.Covers g) → s'.translate g = none) := by
  induction hrun with
  | nil => exact ⟨.nil,by simp,fun _ => hempty g⟩
  | @snoc s₁ s₂ trace c r hinit hcall ih =>
    have hmem : ∀ e ∈ trace, e ∈ trace ++ [(c,r)] := fun e he => mem_append_left _ he
    have hlast : (c,r) ∈ trace ++ [(c,r)] := mem_append_right _ (mem_singleton.mpr rfl)
    obtain ⟨hpair,hmap,hnone⟩ :=
      ih (fun e he => hok e (hmem e he)) (fun e he => hspa e (hmem e he))
    have hr : r = .ok () := hok _ hlast
    have hcspa : c.spa+c.len ≤ 2^52 := hspa _ hlast
    subst hr
    obtain ⟨-,-,hmaps⟩ := (wp_mapRange (hinit.inv h) c).of_ok hcall
    -- Inside the new range nothing was mapped, so no earlier range covers the address.
    have hold : c.gpa ≤ g → g < c.gpa+c.len → ∀ e ∈ trace, ¬ e.1.Covers g := by
      intro h1 h2 e he hcov
      have hfresh := hmaps.fresh g h1 h2
      rw [hmap e he hcov] at hfresh
      cases hfresh
    refine ⟨pairwise_append.mpr ⟨hpair,pairwise_singleton _ _,?_⟩,?_,?_⟩
    · intro e he e' he' hcov
      rw [mem_singleton.mp he'] at hcov
      exact hold hcov.2.1 hcov.2.2.1 e he hcov.1
    · intro e he hcov
      obtain he | he := mem_append.mp he
      · have hout : ¬ (c.gpa ≤ g ∧ g < c.gpa+c.len) := fun hin => hold hin.1 hin.2 e he hcov
        rw [hmaps.frame g hg hout,hmap e he hcov]
      · rw [mem_singleton.mp he] at hcov ⊢
        obtain ⟨h1,h2,h3⟩ := hcov
        rw [hmaps.mapped g h1 h2,target,if_neg h3,mod_eq_of_lt]
        have h1' : c.gpa ≤ g := h1
        have h2' : g < c.gpa+c.len := h2
        show c.spa+(g-c.gpa) < 2^52
        omega
    · intro hno
      by_cases hin : c.gpa ≤ g ∧ g < c.gpa+c.len
      · have hguard : g/4096*4096 ∈ c.guardGpas := by
          by_contra hnot
          exact hno _ hlast ⟨hin.1,hin.2,hnot⟩
        rw [hmaps.mapped g hin.1 hin.2,target,if_pos hguard]
      · rw [hmaps.frame g hg hin]
        exact hnone fun e he => hno e (hmem e he)

/-- The mapper implements its ranges. After any run of calls that all succeeded, every address below
`2 ^ 48` translates as the one range that covers it says. A call that fails keeps the translation of
every address that was mapped, and no call panics. -/
theorem run_implements_ranges {buf : Buf} {physBase : ℕ}
    {trace : List (MapCall × Except NptError Unit)} (hlim : physBase+buf.len ≤ 2^52)
    (hnew : new buf physBase = some (.ok s)) (hrun : MapRun s trace s') :
    ((∀ e ∈ trace, e.2 = .ok ()) → (∀ e ∈ trace, e.1.spa+e.1.len ≤ 2^52) → ∀ g < 2^48,
        (trace.Pairwise fun e e' => ¬ (e.1.Covers g ∧ e'.1.Covers g)) ∧
        (∀ e ∈ trace, e.1.Covers g →
          translateNpt s'.buf s'.physBase g = some (e.1.spa+(g-e.1.gpa))) ∧
        ((∀ e ∈ trace, ¬ e.1.Covers g) → translateNpt s'.buf s'.physBase g = none)) ∧
    (∀ c : MapCall, ∃ r t, c.run s' = some (r,t) ∧
      ∀ e, r = .error e → ∀ g a, translateNpt s'.buf s'.physBase g = some a →
        translateNpt t.buf t.physBase g = some a) := by
  obtain ⟨hinv,hempty⟩ := new_inv hlim hnew
  refine ⟨fun hok hspa g hg => hrun.translate hinv hempty hok hspa hg,fun c => ?_⟩
  obtain ⟨_,t,hcall,-⟩ | ⟨e,t,hcall,-,hkeeps⟩ := (wp_mapRange (hrun.inv hinv) c).exists
  · exact ⟨_,t,hcall,fun e he => by cases he⟩
  · refine ⟨_,t,hcall,fun _ _ g a ha => ?_⟩
    rw [translateNpt_mod] at ha ⊢
    exact hkeeps _ (mod_lt _ (by decide)) a ha

/-- A page, then three pages with a guard in the middle, mapped into an eight-page buffer. -/
theorem run_implements_ranges_guard : ∃ s t, new ⟨8*4096,fun _ => 0⟩ 0x10000 = some (.ok s) ∧
      MapRun s ([] ++ [(⟨0x1000,0x5000,0x1000,[]⟩,.ok ())] ++
        [(⟨0x4000,0x9000,0x3000,[0x5000]⟩,.ok ())]) t ∧
      translateNpt t.buf t.physBase 0x1234 = some 0x5234 ∧
      translateNpt t.buf t.physBase 0x6234 = some 0xB234 ∧
      translateNpt t.buf t.physBase 0x5234 = none := by
  have hsome : ((new ⟨8*4096,fun _ => 0⟩ 0x10000).bind fun r => r.toOption.bind fun s =>
      (MapCall.run ⟨0x1000,0x5000,0x1000,[]⟩ s).bind fun r => r.1.toOption.bind fun _ =>
      (MapCall.run ⟨0x4000,0x9000,0x3000,[0x5000]⟩ r.2).bind fun r => r.1.toOption) = some () := by
    decide +kernel
  simp only [Option.bind_eq_some_iff,toOption_eq_some] at hsome
  obtain ⟨_,hnew,s,rfl,⟨_,t₁⟩,hfirst,_,rfl,⟨_,t⟩,hsecond,rfl⟩ := hsome
  have hrun := (MapRun.nil s).snoc hfirst |>.snoc hsecond
  have h := (run_implements_ranges (by decide) hnew hrun).1 (by simp) (by simp)
  exact ⟨s,t,hnew,hrun,(h 0x1234 (by decide)).2.1 (⟨0x1000,0x5000,0x1000,[]⟩,.ok ()) (by simp)
      ⟨by decide,by decide,by decide⟩,
    (h 0x6234 (by decide)).2.1 (⟨0x4000,0x9000,0x3000,[0x5000]⟩,.ok ()) (by simp)
      ⟨by decide,by decide,by decide⟩,
    (h 0x5234 (by decide)).2.2 (by simp [MapCall.Covers])⟩

end NptMapper
end Enlil.Npt
