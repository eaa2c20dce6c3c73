import Enlil.Memory.HostMm.Ops

/-! # What a call does to the region list -/

namespace Enlil.Memory
open Word Paging List Prog Checked
namespace HostAddressSpace
variable {F : Type} {s t : HostAddressSpace} {a : F} {n va pa : ℕ} {prot : UInt8} {opts : MmapOptions}
  {α β : Type} {E : MmError → Prop}

/-! ### Table edits -/

/-- A program that changes table memory only, with errors in `E`. -/
structure TableEdit (E : MmError → Prop) (x : Prog HostAddressSpace MmError α) : Prop where
  run : ∀ s, x.wlp s (fun _ t => Shell s t) (fun e t => Shell s t ∧ E e)

variable {x : Prog HostAddressSpace MmError α}

lemma TableEdit.bind {f : α → Prog HostAddressSpace MmError β}
    (hx : TableEdit E x) (hf : ∀ a, TableEdit E (f a)) : TableEdit E (x >>= f) := by
  refine ⟨fun s => ?_⟩
  rw [wlp_bind]
  refine (hx.run s).mono (fun a t ht => ?_) fun _ _ h => h
  exact ((hf a).run t).mono (fun _ u hu => ht.trans hu) fun _ u hu => ⟨ht.trans hu.1,hu.2⟩

lemma tableEdit_pure (a : α) : TableEdit E (pure a) := ⟨fun s => Shell.refl s⟩

lemma tableEdit_gets (f : HostAddressSpace → α) : TableEdit E (gets f) :=
  ⟨fun s => Shell.refl s⟩

lemma tableEdit_ofExcept {r : Except MmError α} (h : ∀ e, r = .error e → E e) :
    TableEdit E (ofExcept r) := by
  refine ⟨fun s => ?_⟩
  rw [wlp_ofExcept]
  exact ⟨fun _ _ => Shell.refl s,fun e he => ⟨Shell.refl s,h e he⟩⟩

variable {c : Prop}

lemma tableEdit_ensure [Decidable c] {e : MmError} (h : E e) :
    TableEdit E (ensure c e) := by
  refine ⟨fun s => ?_⟩
  rw [wlp_ensure]
  exact ⟨fun _ => Shell.refl s,fun _ => ⟨Shell.refl s,h⟩⟩

variable {index value extraFlags : ℕ}

lemma readEntry_error {e : MmError} (h : s.readEntry pa index = .error e) :
    e = .addressOverflow := by
  rw [readEntry,tableByteOffset] at h
  split_ifs at h <;> cases h <;> rfl

lemma shell_of_edit (s : HostAddressSpace) (image : Buf) (cursor : ℕ) :
    Shell s { s with image := image, tableCursor := cursor } := rfl

lemma tableEdit_writeEntry (h : E .addressOverflow) :
    TableEdit E (writeEntry pa index value) := by
  refine (tableEdit_gets id).bind fun s => (tableEdit_ofExcept fun e he => ?_).bind fun off =>
    ⟨fun s => shell_of_edit s _ _⟩
  rw [tableByteOffset] at he
  split_ifs at he <;> cases he <;> exact h

lemma tableEdit_allocTable (h : E .outOfTableMemory) : TableEdit E allocTable := by
  refine ⟨fun s => ?_⟩
  simp only [allocTable,wlp_bind,wlp_gets,wlp_ofOption,wlp_ensure,
    wlp_modify,wlp_assert,wlp_pure,id]
  have hfail : Shell s s ∧ E .outOfTableMemory := ⟨Shell.refl s,h⟩
  exact ⟨fun next _ => ⟨fun _ _ => shell_of_edit s _ next,fun _ => hfail⟩,fun _ => hfail⟩

lemma tableEdit_childTable (h₁ : E .addressOverflow) (h₂ : E .outOfTableMemory)
    (h₃ : E .hugePageOnPath) : TableEdit E (childTable pa index) := by
  refine (tableEdit_gets id).bind fun s =>
    (tableEdit_ofExcept fun e he => readEntry_error he ▸ h₁).bind fun entry => ?_
  by_cases habsent : entry &&& Flags.present = 0
  · rw [if_pos habsent]
    exact (tableEdit_allocTable h₂).bind fun table =>
      (tableEdit_writeEntry h₁).bind fun _ => tableEdit_pure table
  · rw [if_neg habsent]
    exact (tableEdit_ensure h₃).bind fun _ => tableEdit_pure _

lemma tableEdit_mapPage :
    TableEdit (· ≠ .outOfVirtualMemory) (mapPage va pa prot extraFlags) := by
  have hchild {p i : ℕ} : TableEdit (· ≠ .outOfVirtualMemory) (childTable p i) :=
    tableEdit_childTable (by decide) (by decide) (by decide)
  have hva : ∀ e, validateVa va = .error e → e ≠ .outOfVirtualMemory := by
    intro e he
    rw [validateVa,Checked.ensure,Checked.ensure] at he
    split_ifs at he <;> cases he <;> decide
  exact (tableEdit_ofExcept hva).bind fun _ => (tableEdit_ensure (by decide)).bind fun _ =>
    (tableEdit_gets id).bind fun _ => hchild.bind fun _ => hchild.bind fun _ => hchild.bind fun _ =>
    (tableEdit_gets id).bind fun _ =>
    (tableEdit_ofExcept fun e he => readEntry_error he ▸ (by decide)).bind fun _ =>
    (tableEdit_ensure (by decide)).bind fun _ => tableEdit_writeEntry (by decide)

lemma tableEdit_unmapPage : TableEdit (fun _ => True) (unmapPage va) := by
  refine (tableEdit_ofExcept fun _ _ => trivial).bind fun _ => (tableEdit_gets id).bind fun s =>
    (tableEdit_ofExcept fun _ _ => trivial).bind fun d => ?_
  cases d with
  | absent => exact tableEdit_pure _
  | huge1gib => exact ⟨fun s => ⟨Shell.refl s,trivial⟩⟩
  | huge2mib => exact ⟨fun s => ⟨Shell.refl s,trivial⟩⟩
  | pageTable pt =>
    refine (tableEdit_ofExcept fun _ _ => trivial).bind fun pte => ?_
    split
    · exact tableEdit_pure _
    · exact (tableEdit_writeEntry trivial).bind fun _ => tableEdit_pure _

lemma tableEdit_reprotectPage : TableEdit (fun _ => True) (reprotectPage va prot) :=
  (tableEdit_gets id).bind fun _ => (tableEdit_ofExcept fun _ _ => trivial).bind fun _ =>
    (tableEdit_ofExcept fun _ _ => trivial).bind fun _ => (tableEdit_ensure trivial).bind fun _ =>
    tableEdit_writeEntry trivial

/-- Table memory has changed and nothing else, and the tables still form a tree if the flags that
the call was given are words. -/
structure Kept (c : Prop) (s t : HostAddressSpace) : Prop where
  shell : Shell s t
  tables : c → ∀ H, TableInv s H → TableInv t H

lemma Kept.refl (s : HostAddressSpace) : Kept c s s := ⟨rfl,fun _ _ => id⟩

variable {u : HostAddressSpace}

lemma Kept.trans (h : Kept c s t) (h' : Kept c t u) : Kept c s u :=
  ⟨h.shell.trans h'.shell,fun hc H hs => h'.tables hc H (h.tables hc H hs)⟩

lemma TableEdit.kept (hx : TableEdit E x)
    (h : ∀ s H, c → TableInv s H → x.wp s (fun _ t => TableInv t H) (fun _ t => TableInv t H)) :
    x.wlp s (fun _ t => Kept c s t) (fun e t => Kept c s t ∧ E e) := by
  by_cases hc : c ∧ TableInv s s.hugeAt
  · -- the huge leaves are those of `s`, whatever they are called
    have hname : ∀ {t : HostAddressSpace}, TableInv t s.hugeAt → ∀ H, TableInv s H → TableInv t H :=
      fun ht _ hs => hs.huge ▸ ht
    exact ((h s _ hc.1 hc.2).and_wlp (hx.run s)).wlp.mono (fun _ _ h => ⟨h.2,fun _ => hname h.1⟩)
      fun _ _ h => ⟨⟨h.2.1,fun _ => hname h.1⟩,h.2.2⟩
  · have hno : ∀ t : HostAddressSpace, c → ∀ H, TableInv s H → TableInv t H := fun t hc' H hs =>
      absurd ⟨hc',hs.huge ▸ hs⟩ hc
    exact (hx.run s).mono (fun _ t h => ⟨h,hno t⟩) fun _ t h => ⟨⟨h.1,hno t⟩,h.2⟩

lemma wlp_mapPage : (mapPage va pa prot extraFlags).wlp s (fun _ t => Kept (extraFlags < 2^64) s t)
    (fun e t => Kept (extraFlags < 2^64) s t ∧ e ≠ .outOfVirtualMemory) :=
  tableEdit_mapPage.kept fun _ _ hextra hs =>
    (hs.wp_mapPage hextra).mono (fun _ _ h => h.1) fun _ _ h => h.1

lemma wlp_unmapPage : (unmapPage va).wlp s (fun _ t => Kept c s t) (fun _ t => Kept c s t ∧ True) :=
  tableEdit_unmapPage.kept fun _ _ _ hs =>
    hs.wp_unmapPage.mono (fun _ _ h => h.1) fun _ _ h => h.1 ▸ hs

lemma wlp_reprotectPage : (reprotectPage va prot).wlp s (fun _ t => Kept c s t)
    (fun _ t => Kept c s t ∧ True) :=
  tableEdit_reprotectPage.kept fun _ _ _ hs =>
    hs.wp_reprotectPage.mono (fun _ _ h => h.1) fun _ _ h => h.1 ▸ hs

variable {usable i p len cursor c pages : ℕ}

lemma wlp_mapFrames {frames : List PhysFrame} {err : MmError → HostAddressSpace → Prop} :
    (mapFrames usable opts i frames).wlp s (fun r t => Kept (opts.extraFlags < 2^64) s t ∧
        ∀ e, r.2 = some e → e ≠ .outOfVirtualMemory) err := by
  induction frames generalizing s i with
  | nil => exact ⟨.refl s,fun _ h => nomatch h⟩
  | cons f rest ih =>
    rw [mapFrames,wlp_bind,wlp_attempt]
    refine wlp_mapPage.mono (fun _ t ht => ?_) fun e t ht => ?_
    · exact ih.mono (fun _ u hu => ⟨ht.trans hu.1,hu.2⟩) fun _ _ h => h
    · exact ⟨ht.1,fun _ he => Option.some.inj he ▸ ht.2⟩

lemma wlp_mapFixed : (mapFixed va pa n prot extraFlags).wlp s
      (fun _ q => s.mapFixedCheck va pa n = .ok () ∧ ∃ t, Kept (extraFlags < 2^64) s t ∧
        q = { t with mappings := coalesce (insertRegion s.mappings ⟨va,n,0,0,prot,false⟩) })
      (fun _ q => Kept (extraFlags < 2^64) s q) := by
  simp only [mapFixed,wlp_bind,wlp_gets,id,wlp_ofExcept]
  refine ⟨fun _ hcheck => ?_,fun _ _ => .refl s⟩
  refine (wlp_forN (fun _ t => Kept (extraFlags < 2^64) s t) (.refl s) fun k t _ ht => ?_).mono
    (fun _ t ht => ⟨hcheck,t,ht,by rw [← ht.shell.mappings]⟩) fun _ _ h => h
  exact wlp_mapPage.mono (fun _ _ h => ht.trans h) fun _ _ h => ht.trans h.1

/-! ### Calls with a frame source -/

section Frames
variable [FrameSource F]
variable {frames phys : List PhysFrame} {err : MmError → HostAddressSpace × F → Prop}

lemma wlp_freeFrames :
    (freeFrames (F := F) frames).wlp (s,a) (fun _ q => q.1 = s) err := by
  induction frames generalizing a with
  | nil => exact rfl
  | cons f rest ih =>
    rw [freeFrames,wlp_bind,wlp,freeFrame]
    cases FrameSource.freeFrame a f with
    | none => trivial
    | some b => exact ih

lemma wlp_allocFrames : (allocFrames (F := F) n phys).wlp (s,a) (fun _ q => q.1 = s)
      (fun e q => q.1 = s ∧ e = .outOfPhysicalFrames) := by
  induction n generalizing a phys with
  | zero => exact rfl
  | succ n ih =>
    rw [allocFrames,wlp_bind,wlp,allocFrame]
    cases FrameSource.allocFrame a with
    | none => trivial
    | some r =>
      obtain ⟨_ | f,b⟩ := r
      · show (freeFrames phys >>= fun _ => throw .outOfPhysicalFrames : Prog _ _ _).wlp (s,b) _ _
        rw [wlp_bind]
        exact wlp_freeFrames.mono (fun _ _ h => ⟨h,rfl⟩) fun _ _ h => h
      · exact ih

lemma wlp_rollback {usable i : ℕ} {c : Prop} :
    (rollback (F := F) usable i frames).wlp (s,a) (fun _ q => Kept c s q.1) err := by
  induction frames generalizing s a i with
  | nil => exact .refl s
  | cons f rest ih =>
    rw [rollback,wlp_bind,wlp_focus,wlp_attempt]
    have hfree : ∀ t : HostAddressSpace, Kept c s t → (do
        freeFrame f
        rollback usable (i+1) rest : Prog (HostAddressSpace × F) MmError Unit).wlp (t,a)
          (fun _ q => Kept c s q.1) err := by
      intro t ht
      rw [wlp_bind,wlp,freeFrame]
      cases FrameSource.freeFrame a f with
      | none => trivial
      | some b => exact ih.mono (fun _ _ h => ht.trans h) fun _ _ h => h
    exact wlp_unmapPage.mono (fun _ t ht => hfree t ht) fun _ t ht => hfree t ht.1

lemma wlp_mmap : (mmap (F := F) n opts).wlp (s,a)
      (fun u q => ∃ base t, s.mmapBase n opts = .ok base ∧ Kept (opts.extraFlags < 2^64) s t ∧
        u = add64 base (mul64 opts.guard.low pageSize) ∧
        q.1 = { t with mappings := coalesce (insertRegion s.mappings (mmapRegion base n opts)) })
      (fun e q => Kept (opts.extraFlags < 2^64) s q.1 ∧
        (s.mmapBase n opts = .error e ∨ e ≠ .outOfVirtualMemory)) := by
  simp only [mmap,wlp_bind,wlp_gets,id,wlp_ofExcept]
  refine ⟨fun base hbase => ?_,fun e he => ⟨.refl s,.inl he⟩⟩
  refine wlp_allocFrames.mono ?_ fun e q h => ⟨h.1.symm ▸ .refl s,.inr (by rw [h.2]; decide)⟩
  rintro frames ⟨s',b⟩ hs'
  obtain rfl : s' = s := hs'
  rw [wlp_focus]
  refine wlp_mapFrames.mono ?_ fun _ _ h => h
  rintro ⟨mapped,failed⟩ t ⟨ht,hfail⟩
  cases failed with
  | none =>
    simp only [addRegion,wlp_bind,wlp_focus,wlp_modify,wlp_pure]
    exact ⟨base,t,hbase,ht,rfl,by rw [← ht.shell.mappings]; rfl⟩
  | some e =>
    simp only [wlp_bind,wlp_throw]
    refine (wlp_rollback (c := opts.extraFlags < 2^64)).mono ?_ fun _ _ h => h
    rintro _ ⟨u,c⟩ hu
    refine wlp_freeFrames.mono ?_ fun _ _ h => h
    rintro _ ⟨v,d⟩ hv
    obtain rfl : v = u := hv
    exact ⟨ht.trans hu,.inr (hfail e rfl)⟩

section Reshape
omit [FrameSource F]
variable {start last : ℕ} {remove : Bool} {mid : Option UInt8} {edit : Edit F}

def PageEdit (edit : Edit F) : Prop :=
  ∀ va r s a, (edit va r).wlp (s,a) (fun _ q => Kept True s q.1) (fun _ q => Kept True s q.1)

lemma wlp_reshapeLoop (hedit : PageEdit edit) {kept rest : List Region} :
    (reshapeLoop start last remove mid edit kept rest).wlp (s,a)
      (fun kept' q => Kept True s q.1 ∧ kept' = kept ++ rest.flatMap (pieces start last remove mid))
      (fun _ q => Kept True s q.1) := by
  induction rest generalizing kept s a with
  | nil => exact ⟨.refl s,(append_nil _).symm⟩
  | cons r rest ih =>
    rw [reshapeLoop,flatMap_cons,← List.append_assoc kept]
    by_cases hout : min last r.usableEnd ≤ max start r.base
    · rw [if_pos hout,pieces,if_pos hout]
      exact ih
    · rw [if_neg hout,pieces,if_neg hout,wlp_bind]
      refine (wlp_forN (fun _ q => Kept True s q.1) (.refl s) fun k q _ hq => ?_).mono ?_
        fun _ _ h => h
      · exact (hedit _ _ q.1 q.2).mono (fun _ _ h => hq.trans h) fun _ _ h => hq.trans h
      · rintro _ ⟨t,b⟩ ht
        exact ih.mono (fun _ _ h => ⟨ht.trans h.1,h.2⟩) fun _ _ h => ht.trans h

lemma wlp_reshape (hedit : PageEdit edit) : (reshape start last remove mid edit).wlp (s,a)
      (fun _ q => ∃ t, Kept True s t ∧ q.1 = { t with
        mappings := coalesce (s.mappings.flatMap (pieces start last remove mid)) })
      (fun _ q => ∃ t, Kept True s t ∧ q.1 = { t with mappings := [] }) := by
  simp only [reshape,wlp_bind,wlp_gets,id,wlp_focus,wlp_modify]
  have hback : ∀ u : HostAddressSpace, Kept True { s with mappings := [] } u →
      Kept True s { u with mappings := s.mappings } ∧ u.mappings = [] := by
    intro u hu
    have hu' : u = _ := hu.shell
    refine ⟨⟨by rw [Shell,hu'],fun _ H hs => ?_⟩,hu.shell.mappings⟩
    exact (hu.tables trivial H (hs.setMappings [])).setMappings _
  refine (wlp_reshapeLoop hedit).mono ?_ ?_
  · rintro kept ⟨u,b⟩ ⟨hu,rfl⟩
    exact ⟨_,(hback u hu).1,rfl⟩
  · rintro _ ⟨u,b⟩ hu
    refine ⟨_,(hback u hu).1,?_⟩
    show u = { u with mappings := [] }
    rw [← (hback u hu).2]

lemma pageEdit_munmap [FrameSource F] : PageEdit (munmapEdit (F := F)) := by
  intro va r s a
  rw [munmapEdit,wlp_bind,wlp_focus]
  refine wlp_unmapPage.mono (fun frame t ht => ?_) fun _ t ht => ht.1
  rw [wlp_bind,wlp_ofOption]
  refine ⟨fun f _ => ?_,fun _ => ht⟩
  rw [wlp_ite]
  refine ⟨fun _ => ?_,fun _ => ht⟩
  rw [wlp,freeFrame]
  cases FrameSource.freeFrame a f with
  | none => trivial
  | some b => exact ht

lemma pageEdit_mprotect : PageEdit (F := F) fun va _ => onSpace (reprotectPage va prot) := by
  intro va r s a
  rw [wlp_focus]
  exact wlp_reprotectPage.mono (fun _ _ h => h) fun _ _ h => h.1

def edited (s : HostAddressSpace) (va n : ℕ) (remove : Bool) (mid : Option UInt8) : List Region :=
  coalesce (s.mappings.flatMap (pieces va (va+n*4096) remove mid))

lemma wlp_munmap [FrameSource F] : (munmap (F := F) va n).wlp (s,a)
      (fun _ q => va%4096 = 0 ∧ ∃ t, Kept True s t ∧ q.1 = { t with mappings := s.edited va n true none })
      (fun _ q => ∃ t, Kept True s t ∧ (q.1 = t ∨ q.1 = { t with mappings := [] })) := by
  simp only [munmap,wlp_bind,wlp_gets,id,wlp_ofExcept]
  refine ⟨fun q hq => ?_,fun _ _ => ⟨s,.refl s,.inl rfl⟩⟩
  obtain ⟨rfl,hal⟩ := validateEditRange_ok hq
  exact (wlp_reshape pageEdit_munmap).mono (fun _ _ h => ⟨hal,h⟩)
    fun _ _ h => h.imp fun _ h => h.imp_right .inr

lemma wlp_mprotect : (mprotect (F := F) va n prot).wlp (s,a)
      (fun _ q => va%4096 = 0 ∧ ∃ t, Kept True s t ∧
        q.1 = { t with mappings := s.edited va n false (some prot) })
      (fun _ q => ∃ t, Kept True s t ∧ (q.1 = t ∨ q.1 = { t with mappings := [] })) := by
  simp only [mprotect,wlp_bind,wlp_gets,id,wlp_ofExcept]
  refine ⟨fun q hq => ?_,fun _ _ => ⟨s,.refl s,.inl rfl⟩⟩
  obtain ⟨rfl,hal⟩ := validateEditRange_ok hq
  exact (wlp_reshape pageEdit_mprotect).mono (fun _ _ h => ⟨hal,h⟩)
    fun _ _ h => h.imp fun _ h => h.imp_right .inr

end Reshape
end Frames

/-! ### The extents -/

def Covers (l : List Region) (p : ℕ) : Prop := ∃ r ∈ l, r.lo ≤ p ∧ p < r.hi

section Covers
variable {l l' merged rest : List Region} {r : Region} {p : ℕ}

lemma covers_append : Covers (l ++ l') p ↔ Covers l p ∨ Covers l' p := by
  simp only [Covers,mem_append,or_and_right,exists_or]

lemma covers_singleton : Covers [r] p ↔ r.lo ≤ p ∧ p < r.hi := by
  simp only [Covers,mem_singleton,exists_eq_left]

lemma covers_cons : Covers (r :: l) p ↔ (r.lo ≤ p ∧ p < r.hi) ∨ Covers l p := by
  rw [← singleton_append,covers_append,covers_singleton]

lemma coalescePush_covers (h : Laid (merged ++ r :: rest)) :
    Covers (coalescePush merged r) p ↔ Covers (merged ++ [r]) p := by
  obtain hpush | ⟨init,last,rfl,hadj,-,-,hhigh,hlow,hpush⟩ := coalescePush_cases merged r
  · rw [hpush]
  · have hlast := h.placed last (by simp)
    have hr := h.placed r (by simp)
    have hbounds := hlast.bounds
    have hbounds' := hr.bounds
    rw [hlast.usableEnd] at hadj
    rw [hpush,covers_append,covers_append,covers_append,covers_singleton,covers_singleton,
      covers_singleton,or_assoc]
    refine or_congr_right ?_
    simp only [Region.lo,Region.hi,hhigh,hlow] at *
    omega

lemma coalesce_covers (h : Laid l) : Covers (coalesce l) p ↔ Covers l p := by
  have hfold : ∀ (l merged : List Region), Laid (merged ++ l) →
      (Covers (l.foldl coalescePush merged) p ↔ Covers (merged ++ l) p) := by
    intro l
    induction l with
    | nil =>
      intro merged _
      rw [foldl_nil,append_nil]
    | cons r l ih =>
      intro merged hm
      rw [foldl_cons,ih _ (coalescePush_laid hm),covers_append,coalescePush_covers hm,
        ← covers_append,List.append_assoc,singleton_append]
  exact hfold l [] h

lemma insertRegion_covers (x : Region) :
    Covers (insertRegion l x) p ↔ Covers l p ∨ (x.lo ≤ p ∧ p < x.hi) := by
  obtain ⟨l₁,l₂,rfl,hins,-⟩ := insertRegion_eq l x
  rw [hins,covers_append,covers_cons,covers_append]
  tauto

end Covers

lemma not_covers_nil : ¬ Covers [] p := fun ⟨_,hr,_⟩ => nomatch hr

/-- The reserved extents are apart and below the limit, and the manageable range is canonical. -/
structure Extents (s : HostAddressSpace) : Prop where
  laid : Laid s.mappings
  base : s.vaBase%4096 = 0
  limit : s.vaLimit ≤ 2^48
  below : ∀ p, Covers s.mappings p → p < s.vaLimit

lemma Extents.of_laid (h : Extents s) (hshell : Shell s t) {l : List Region} (hlaid : Laid l)
    (hbelow : ∀ p, Covers l p → p < s.vaLimit) : Extents { t with mappings := l } := by
  refine ⟨hlaid,?_,?_,?_⟩
  · show t.vaBase%4096 = 0
    rw [hshell.vaBase]
    exact h.base
  · show t.vaLimit ≤ 2^48
    rw [hshell.vaLimit]
    exact h.limit
  · show ∀ p, Covers l p → p < t.vaLimit
    rw [hshell.vaLimit]
    exact hbelow

lemma Extents.of_shell (h : Extents s) (hshell : Shell s t) : Extents t :=
  h.of_laid hshell (hshell.mappings.symm ▸ h.laid) (hshell.mappings.symm ▸ h.below)

lemma laid_nil : Laid [] := ⟨fun _ hr => (nomatch hr),.nil⟩

lemma Extents.of_nil (hnil : s.mappings = []) (hbase : s.vaBase%4096 = 0)
    (hlimit : s.vaLimit ≤ 2^48) : Extents s :=
  ⟨hnil ▸ laid_nil,hbase,hlimit,fun _ hp => absurd (hnil ▸ hp) not_covers_nil⟩

lemma Extents.of_edit_error (h : Extents s)
    (hu : ∃ t, Kept True s t ∧ (u = t ∨ u = { t with mappings := [] })) : Extents u := by
  obtain ⟨t,hkept,rfl | rfl⟩ := hu
  · exact h.of_shell hkept.shell
  · exact h.of_laid hkept.shell laid_nil fun _ hp => absurd hp not_covers_nil

lemma Extents.of_edit (h : Extents s) (hshell : Shell s t) {remove : Bool} {mid : Option UInt8}
    (hal : va%4096 = 0) : Extents { t with mappings := s.edited va n remove mid } := by
  have hlaid : Laid (s.mappings.flatMap (pieces va (va+n*4096) remove mid)) :=
    pieces_laid hal (by omega) h.laid
  refine h.of_laid hshell (coalesce_laid hlaid) fun p hp => ?_
  obtain ⟨x,hx,hlo,hhi⟩ := (coalesce_covers hlaid).mp hp
  obtain ⟨r,hr,hx⟩ := mem_flatMap.mp hx
  have hin := (pieces_piece hal (by omega) (h.laid.placed r hr)).2 x hx
  exact h.below p ⟨r,hr,by omega⟩

lemma Extents.of_insert (h : Extents s) (hshell : Shell s t) {x : Region} (hx : x.Placed)
    (hdisj : ∀ r ∈ s.mappings, r.hi ≤ x.lo ∨ x.hi ≤ r.lo) (hlimit : x.hi ≤ s.vaLimit) :
    Extents { t with mappings := coalesce (insertRegion s.mappings x) } := by
  have hlaid := insertRegion_laid h.laid hx hdisj
  refine h.of_laid hshell (coalesce_laid hlaid) fun p hp => ?_
  obtain hp | hp := (insertRegion_covers x).mp ((coalesce_covers hlaid).mp hp)
  · exact h.below p hp
  · omega

variable {base : ℕ}

lemma mmapRegion_placed (hn : n ≠ 0) (hclear : Clear s base (opts.guard.low+opts.guard.high+n)) :
    (mmapRegion base n opts).Placed ∧ (mmapRegion base n opts).lo = base ∧
      (mmapRegion base n opts).hi = base+(opts.guard.low+opts.guard.high+n)*4096 := by
  obtain ⟨hal,hcanon,-⟩ := hclear
  have hmul : mul64 opts.guard.low 4096 = opts.guard.low*4096 := mul64_of_lt (by omega)
  have hbase : (mmapRegion base n opts).base = base+opts.guard.low*4096 := by
    show add64 base (mul64 opts.guard.low 4096) = _
    rw [hmul,add64_of_lt (by omega)]
  have hlo : (mmapRegion base n opts).lo = base := by
    rw [Region.lo,hbase]
    exact Nat.add_sub_cancel _ _
  have hhi : (mmapRegion base n opts).hi =
      base+(opts.guard.low+opts.guard.high+n)*4096 := by
    rw [Region.hi,hbase]
    show base+opts.guard.low*4096+(n+opts.guard.high)*4096 = _
    lia
  refine ⟨⟨⟨?_,Nat.pos_of_ne_zero hn,?_⟩,?_,?_⟩,hlo,hhi⟩
  · rw [hbase]
    omega
  · rw [hbase]
    show base+opts.guard.low*4096+n*4096 ≤ 2^48
    lia
  · rw [hbase]
    exact Nat.le_add_left _ _
  · rw [hhi]
    exact hcanon

lemma fixedRegion_placed {prot : UInt8} (hn : n ≠ 0) (hal : va%4096 = 0) (hend : va+n*4096 ≤ 2^48) :
    (⟨va,n,0,0,prot,false⟩ : Region).Placed ∧ (⟨va,n,0,0,prot,false⟩ : Region).lo = va ∧
      (⟨va,n,0,0,prot,false⟩ : Region).hi = va+n*4096 := by
  have hlo : va-0*4096 = va := by rw [Nat.zero_mul,Nat.sub_zero]
  refine ⟨⟨⟨hal,Nat.pos_of_ne_zero hn,hend⟩,?_,hend⟩,hlo,rfl⟩
  show 0*4096 ≤ va
  rw [Nat.zero_mul]
  exact Nat.zero_le va

/-- An extent of `len` bytes from `c` on is manageable and clear of all reserved extents. -/
def FitsAt (s : HostAddressSpace) (len c : ℕ) : Prop :=
  s.vaBase ≤ c ∧ c+len ≤ s.vaLimit ∧ ∀ r ∈ s.mappings, r.reservedEnd ≤ c ∨ c+len ≤ r.reservedBase

lemma scanGap_least {regions : List Region} (h : Laid regions) (hlen : 0 < len) (hc : cursor ≤ c)
    (hfree : ∀ r ∈ regions, r.hi ≤ c ∨ c+len ≤ r.lo) :
    match scanGap len cursor regions with
    | .ok c' => c' ≤ c
    | .error c' => c' ≤ c := by
  induction regions generalizing cursor with
  | nil => exact hc
  | cons r rest ih =>
    obtain ⟨hrest,hr,-,-⟩ := laid_append_cons.mp (show Laid ([] ++ r :: rest) from h)
    rw [scanGap,hr.reservedBase,hr.reservedEnd]
    by_cases hgap : cursor < r.lo ∧ len ≤ r.lo-cursor
    · rw [if_pos hgap]
      exact hc
    · rw [if_neg hgap]
      have hr' := hfree r mem_cons_self
      refine ih hrest ?_ fun x hx => hfree x (mem_cons_of_mem r hx)
      split_ifs <;> omega

lemma findFreeVa_exact (h : Extents s) (hpos : pages ≠ 0) (hlt : pages*4096 < 2^64) :
    (∃ c, s.findFreeVa pages = .ok c ∧ FitsAt s (pages*4096) c ∧
      ∀ c', FitsAt s (pages*4096) c' → c ≤ c') ∨
    (s.findFreeVa pages = .error .outOfVirtualMemory ∧ ∀ c, ¬ FitsAt s (pages*4096) c) := by
  have hmul : checkedMul64 pages pageSize = some (pages*4096) :=
    checkedMul64_eq_some.mpr ⟨hlt,rfl⟩
  have hext : ∀ c, (∀ r ∈ s.mappings, r.reservedEnd ≤ c ∨ c+pages*4096 ≤ r.reservedBase) ↔
      ∀ r ∈ s.mappings, r.hi ≤ c ∨ c+pages*4096 ≤ r.lo := fun c =>
    forall₂_congr fun r hr => by
      rw [(h.laid.placed r hr).reservedEnd,(h.laid.placed r hr).reservedBase]
  have hspec := @scanGap_spec s.mappings (pages*4096) s.vaBase h.laid h.base
  have hleast : ∀ c, FitsAt s (pages*4096) c → _ := fun c hc =>
    scanGap_least h.laid (show 0 < pages*4096 by omega) hc.1 ((hext c).mp hc.2.2)
  have hfind : s.findFreeVa pages = match scanGap (pages*4096) s.vaBase s.mappings with
      | .ok c => .ok c
      | .error c => if c ≤ s.vaLimit ∧ pages*4096 ≤ s.vaLimit-c then .ok c
        else .error .outOfVirtualMemory := by
    rw [findFreeVa,hmul]
    simp only [Checked.ofOption,Checked.ensure,bind,Except.bind]
    cases scanGap (pages*4096) s.vaBase s.mappings with
    | ok c => rfl
    | error c =>
      simp only
      split_ifs <;> rfl
  rw [hfind]
  cases hscan : scanGap (pages*4096) s.vaBase s.mappings with
  | ok c =>
    rw [hscan] at hspec hleast
    obtain ⟨-,hlo,⟨r,hr,hend⟩,hclear⟩ := hspec
    have hlt := h.below r.lo ⟨r,hr,le_rfl,(h.laid.placed r hr).lo_lt_hi⟩
    exact .inl ⟨c,rfl,⟨hlo,by omega,(hext c).mpr hclear⟩,hleast⟩
  | error c =>
    rw [hscan] at hspec hleast
    obtain ⟨-,hlo,hpast⟩ := hspec
    by_cases hfit : c ≤ s.vaLimit ∧ pages*4096 ≤ s.vaLimit-c
    · refine .inl ⟨c,if_pos hfit,⟨hlo,by omega,(hext c).mpr fun r hr => .inl (hpast r hr)⟩,hleast⟩
    · refine .inr ⟨if_neg hfit,fun c' hc' => hfit ?_⟩
      have hle : c ≤ c' := hleast c' hc'
      have hend := hc'.2.1
      omega

lemma Extents.mmapBase_le (h : Extents s)
    (hguard : opts.guard.low+opts.guard.high < 2^64) (hbase : s.mmapBase n opts = .ok base) :
    base+(opts.guard.low+opts.guard.high+n)*4096 ≤ s.vaLimit := by
  have hcount : opts.guard.count = opts.guard.low+opts.guard.high := add64_of_lt hguard
  simp only [mmapBase,hcount,bind_eq_ok,ensure_eq_ok,ofOption_eq_ok,
    checkedAdd64_eq_some,checkedMul64_eq_some] at hbase
  obtain ⟨-,hn,_,⟨-,rfl⟩,_,⟨hlt,rfl⟩,hplace⟩ := hbase
  cases hva : opts.va with
  | none =>
    rw [hva] at hplace
    obtain ⟨c,hfind,hfit,-⟩ | ⟨hfind,-⟩ := findFreeVa_exact h (by omega) hlt
    · cases hfind.symm.trans hplace
      exact hfit.2.1
    · cases hfind.symm.trans hplace
  | some v =>
    rw [hva] at hplace
    simp only [bind_eq_ok,ensure_eq_ok,ofOption_eq_ok,checkedAdd64_eq_some,pure_eq_ok] at hplace
    obtain ⟨-,-,_,⟨-,rfl⟩,-,hin,-,-,rfl⟩ := hplace
    exact hin

lemma Extents.of_mmap (h : Extents s) (hshell : Shell s t)
    (hguard : opts.guard.low+opts.guard.high < 2^64) (hbase : s.mmapBase n opts = .ok base) :
    Extents { t with mappings := coalesce (insertRegion s.mappings (mmapRegion base n opts)) } := by
  have hclear := mmapBase_clear h.laid h.base h.limit hguard hbase
  obtain ⟨hplaced,hlo,hhi⟩ := mmapRegion_placed (mmapBase_pages hbase) hclear
  refine h.of_insert hshell hplaced ?_ ?_
  · rw [hlo,hhi]
    exact hclear.disjoint
  · rw [hhi]
    exact h.mmapBase_le hguard hbase

lemma Extents.of_mapFixed (h : Extents s) (hshell : Shell s t)
    (hcheck : s.mapFixedCheck va pa n = .ok ()) :
    Extents { t with
      mappings := coalesce (insertRegion s.mappings ⟨va,n,0,0,prot,false⟩) } := by
  obtain ⟨hn,hal,hend,hover,-⟩ := mapFixedCheck_ok hcheck
  obtain ⟨hplaced,hlo,hhi⟩ := fixedRegion_placed hn hal (hend.trans h.limit)
  refine h.of_insert hshell hplaced ?_ ?_
  · rw [hlo,hhi]
    exact (checkNoOverlap_eq_ok h.laid).mp hover
  · rw [hhi]
    exact hend

end HostAddressSpace
end Enlil.Memory
