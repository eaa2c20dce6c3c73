import Enlil.Boot.Confinement.Disk
import Enlil.Boot.Nvme.Engine

/-! # An NVMe controller cannot tell related disks apart -/

namespace Enlil.Boot
open Nvme Function
namespace NvmeDevice
variable {β : Type} {R : β → β → Prop} {d d' : NvmeDevice β} {m : GuestMemory}

def withBackend (d : NvmeDevice β) (b : β) : NvmeDevice β := { d with backend := b }

def Rel (R : β → β → Prop) (d d' : NvmeDevice β) : Prop :=
  ∃ b', R d.backend b' ∧ d' = d.withBackend b'

lemma Rel.intro {b b' : β} (d : NvmeDevice β) (h : R b b') :
    Rel R (d.withBackend b) (d.withBackend b') :=
  ⟨b',h,rfl⟩

def rebase {α : Type} (b : β) (r : α × NvmeDevice β) : α × NvmeDevice β := (r.1,r.2.withBackend b)

lemma Rel.map {f : NvmeDevice β → NvmeDevice β} (h : Rel R d d')
    (hf : ∀ d b, f (d.withBackend b) = (f d).withBackend b) : Rel R (f d) (f d') := by
  obtain ⟨b',hR,rfl⟩ := h
  have hbackend : (f d).backend = d.backend := by
    have hself := hf d d.backend
    rw [show d.withBackend d.backend = d from rfl] at hself
    rw [hself]
    rfl
  exact ⟨b',hbackend ▸ hR,hf d b'⟩

lemma Rel.mapRebase {α : Type} {f : NvmeDevice β → α × NvmeDevice β} (h : Rel R d d')
    (hf : ∀ d b, f (d.withBackend b) = rebase b (f d)) :
    (f d).1 = (f d').1 ∧ Rel R (f d).2 (f d').2 := by
  refine ⟨?_,h.map (f := fun d => (f d).2) fun d b => by rw [hf]; rfl⟩
  obtain ⟨b',-,rfl⟩ := h
  rw [hf]
  rfl

section Blind
variable {p : Prop} [Decidable p] {b : β}

lemma ite_withBackend {x y x' y' : NvmeDevice β} (hx : x' = x.withBackend b)
    (hy : y' = y.withBackend b) : (if p then x' else y') = (if p then x else y).withBackend b := by
  split
  · exact hx
  · exact hy

lemma ite_rebase {α : Type} {x y x' y' : α × NvmeDevice β} (hx : x' = rebase b x)
    (hy : y' = rebase b y) : (if p then x' else y') = rebase b (if p then x else y) := by
  split
  · exact hx
  · exact hy

lemma dite_rebase {α : Type} {x x' : p → α × NvmeDevice β} {y y' : ¬ p → α × NvmeDevice β}
    (hx : ∀ h, x' h = rebase b (x h)) (hy : ∀ h, y' h = rebase b (y h)) :
    (if h : p then x' h else y' h) = rebase b (if h : p then x h else y h) := by
  split
  · exact hx _
  · exact hy _

end Blind
section Queues
variable (c : Command) (d : NvmeDevice β) (b : β)

lemma createCq_rebase : (d.withBackend b).createCq c = rebase b (d.createCq c) :=
  ite_rebase rfl (dite_rebase (fun _ => ite_rebase rfl (ite_rebase rfl rfl)) fun _ => rfl)

lemma createSq_rebase : (d.withBackend b).createSq c = rebase b (d.createSq c) :=
  ite_rebase rfl (dite_rebase (fun _ => ite_rebase rfl (ite_rebase rfl rfl)) fun _ => rfl)

lemma deleteSq_rebase : (d.withBackend b).deleteSq c = rebase b (d.deleteSq c) :=
  ite_rebase rfl rfl

lemma deleteCq_rebase : (d.withBackend b).deleteCq c = rebase b (d.deleteCq c) :=
  ite_rebase rfl (ite_rebase rfl rfl)

lemma setFeatures_rebase : (d.withBackend b).setFeatures c = rebase b (d.setFeatures c) :=
  ite_rebase rfl (ite_rebase rfl rfl)

end Queues

structure Agree {α : Type} (R : β → β → Prop) (r r' : α × NvmeDevice β × GuestMemory) : Prop where
  answer : r.1 = r'.1
  rel : Rel R r.2.1 r'.2.1
  mem : r.2.2 = r'.2.2

lemma Agree.ite {α : Type} {p : Prop} [Decidable p] {x y x' y' : α × NvmeDevice β × GuestMemory}
    (hx : Agree R x x') (hy : Agree R y y') :
    Agree R (if p then x else y) (if p then x' else y') := by
  split
  · exact hx
  · exact hy

structure AgreeCmd (R : β → β → Prop) (r r' : Outcome × Bool × NvmeDevice β × GuestMemory) :
    Prop where
  outcome : r.1 = r'.1
  held : r.2.1 = r'.2.1
  rel : Rel R r.2.2.1 r'.2.2.1
  mem : r.2.2.2 = r'.2.2.2

lemma AgreeCmd.ite {p : Prop} [Decidable p]
    {x y x' y' : Outcome × Bool × NvmeDevice β × GuestMemory} (hx : AgreeCmd R x x')
    (hy : AgreeCmd R y y') : AgreeCmd R (if p then x else y) (if p then x' else y') := by
  split
  · exact hx
  · exact hy

lemma AgreeCmd.of_rebase (f : NvmeDevice β → Outcome × NvmeDevice β) (h : Rel R d d')
    (hf : ∀ d b, f (d.withBackend b) = rebase b (f d)) :
    AgreeCmd R ((f d).1,false,(f d).2,m) ((f d').1,false,(f d').2,m) := by
  obtain ⟨hout,hrel⟩ := h.mapRebase hf
  exact ⟨hout,rfl,hrel,rfl⟩

variable [BlockBackend β]
section
variable (hR : Bisim R)
include hR
variable {b' b : β}

lemma identify_eq (h : R d.backend b') (c : Command) :
    (d.withBackend b').identify c m = d.identify c m := by
  have hnamespace : (d.withBackend b').identifyNamespace = d.identifyNamespace := by
    have hsectors : BlockBackend.sectors (d.withBackend b').backend =
      BlockBackend.sectors d.backend := (hR.sectors h).symm
    unfold identifyNamespace
    rw [hsectors]
    rfl
  unfold identify
  rw [hnamespace]
  rfl

lemma admin_agree (h : Rel R d d') (c : Command) :
    AgreeCmd R (d.admin c m) (d'.admin c m) := by
  have hsame : ∀ {out : Outcome} {held : Bool} {m : GuestMemory},
      AgreeCmd R (out,held,d,m) (out,held,d',m) := ⟨rfl,rfl,h,rfl⟩
  have hidentify : d'.identify c m = d.identify c m := by
    obtain ⟨b',hb,rfl⟩ := h
    exact identify_eq hR hb c
  have hfeatures : d'.getFeatures c = d.getFeatures c := by
    obtain ⟨b',-,rfl⟩ := h
    rfl
  have haer : d'.aerPending = d.aerPending := by
    obtain ⟨b',-,rfl⟩ := h
    rfl
  unfold admin
  rw [hidentify,hfeatures,haer]
  refine .ite hsame (.ite (.of_rebase (·.createCq c) h (createCq_rebase c))
    (.ite (.of_rebase (·.createSq c) h (createSq_rebase c))
      (.ite (.of_rebase (·.deleteSq c) h (deleteSq_rebase c))
        (.ite (.of_rebase (·.deleteCq c) h (deleteCq_rebase c))
          (.ite (.of_rebase (·.setFeatures c) h (setFeatures_rebase c))
            (.ite hsame (.ite hsame (.ite hsame (.ite (.ite hsame ?_) hsame)))))))))
  obtain ⟨b',hb,rfl⟩ := h
  exact ⟨rfl,rfl,⟨b',hb,rfl⟩,rfl⟩

lemma inRange_eq (h : R d.backend b') (slba blocks : ℕ) :
    (d.withBackend b').inRange slba blocks = d.inRange slba blocks := by
  rw [inRange,inRange,show (d.withBackend b').backend = b' from rfl,← hR.sectors h]

lemma transfer_agree (h : Rel R d d') (c : Command) :
    Agree R (d.transfer c m) (d'.transfer c m) := by
  obtain ⟨b',hb,rfl⟩ := h
  have hsame : ∀ {out : Outcome} {m : GuestMemory},
      Agree R (out,d,m) (out,d.withBackend b',m) := ⟨rfl,⟨b',hb,rfl⟩,rfl⟩
  unfold transfer
  simp only
  rw [inRange_eq hR hb]
  refine .ite hsame (.ite hsame ?_)
  generalize (lbaRange c).1 = slba
  generalize (lbaRange c).2*sectorSize = bytes
  cases prpSegments m c.prp1 c.prp2 bytes with
  | none => exact hsame
  | some segments =>
    refine .ite ?_ (.ite hsame ?_)
    · obtain ⟨result,b₁,b₁',hr,hr',hrel⟩ :=
        exists_of_agree (hR.read slba bytes hb)
      simp only [withBackend,hr,hr']
      cases result with
      | error e => exact ⟨rfl,.intro d hrel,rfl⟩
      | ok buf =>
        simp only
        generalize scatter m buf segments 0 = written
        obtain ⟨done,m₁⟩ := written
        cases done <;> exact ⟨rfl,.intro d hrel,rfl⟩
    · cases gather m segments with
      | none => exact hsame
      | some buf =>
        obtain ⟨result,b₁,b₁',hr,hr',hrel⟩ :=
          exists_of_agree (hR.write slba buf hb)
        simp only [withBackend,hr,hr']
        cases result <;> exact ⟨rfl,.intro d hrel,rfl⟩

lemma zeroLoop_rel (chunk fuel : ℕ) (h : R b b') (lba left : ℕ) :
    (zeroLoop chunk fuel b lba left).1 = (zeroLoop chunk fuel b' lba left).1 ∧
      R (zeroLoop chunk fuel b lba left).2 (zeroLoop chunk fuel b' lba left).2 := by
  induction fuel generalizing b b' lba left with
  | zero => exact ⟨rfl,h⟩
  | succ fuel ih =>
    by_cases hleft : left = 0
    · rw [zeroLoop,zeroLoop,if_pos hleft,if_pos hleft]
      exact ⟨rfl,h⟩
    · rw [zeroLoop,zeroLoop,if_neg hleft,if_neg hleft]
      obtain ⟨result,b₁,b₁',hr,hr',hrel⟩ :=
        exists_of_agree (hR.write lba (List.replicate (min left chunk*sectorSize) 0) h)
      simp only [hr,hr']
      cases result with
      | error e => exact ⟨rfl,hrel⟩
      | ok _ => exact ih hrel _ _

lemma writeZeroes_rel (h : Rel R d d') (c : Command) :
    (d.writeZeroes c).1 = (d'.writeZeroes c).1 ∧ Rel R (d.writeZeroes c).2 (d'.writeZeroes c).2 := by
  obtain ⟨b',hb,rfl⟩ := h
  have hrel : Rel R d (d.withBackend b') := ⟨b',hb,rfl⟩
  unfold writeZeroes
  simp only
  rw [inRange_eq hR hb]
  by_cases hin : d.inRange (lbaRange c).1 (lbaRange c).2 = false
  · rw [if_pos hin,if_pos hin]
    exact ⟨rfl,hrel⟩
  rw [if_neg hin,if_neg hin]
  by_cases hro : d.readOnly = true
  · rw [if_pos hro,if_pos (show (d.withBackend b').readOnly = true from hro)]
    exact ⟨rfl,hrel⟩
  rw [if_neg hro,if_neg (show ¬ (d.withBackend b').readOnly = true from hro)]
  generalize min maxTransferBytes ((lbaRange c).2*sectorSize)/sectorSize = chunk
  obtain ⟨result,b₁,b₁',hr,hr',hzero⟩ :=
    exists_of_agree (zeroLoop_rel hR chunk (lbaRange c).2 hb (lbaRange c).1 (lbaRange c).2)
  simp only [withBackend,hr,hr']
  cases result <;> exact ⟨rfl,.intro d hzero⟩

lemma io_agree (h : Rel R d d') (c : Command) :
    Agree R (d.io c m) (d'.io c m) := by
  have hsame : ∀ {out : Outcome} {m : GuestMemory}, Agree R (out,d,m) (out,d',m) :=
    ⟨rfl,h,rfl⟩
  refine .ite hsame (.ite ?_ (.ite (transfer_agree hR h c) (.ite ?_ (.ite hsame hsame))))
  · obtain ⟨b',hb,rfl⟩ := h
    obtain ⟨result,b₁,b₁',hr,hr',hrel⟩ :=
      exists_of_agree (hR.flush hb)
    simp only [withBackend,hr,hr']
    cases result <;> exact ⟨rfl,.intro d hrel,rfl⟩
  · obtain ⟨hout,hrel⟩ := writeZeroes_rel hR h c
    exact ⟨hout,hrel,rfl⟩

lemma runCommand_agree (h : Rel R d d') (qid : ℕ) (cmd : Option Command) :
    AgreeCmd R (d.runCommand qid cmd m) (d'.runCommand qid cmd m) := by
  cases cmd with
  | none => exact ⟨rfl,rfl,h,rfl⟩
  | some c =>
    obtain ⟨hout,hrel,hmem⟩ := io_agree hR h c (m := m)
    exact .ite (admin_agree hR h c) ⟨hout,rfl,hrel,hmem⟩

end
omit [BlockBackend β] in
lemma complete_agree (h : Rel R d d') (qid cqid cid : ℕ) (out : Outcome) :
    Agree R (d.complete qid cqid cid out m) (d'.complete qid cqid cid out m) := by
  obtain ⟨b',hb,rfl⟩ := h
  unfold complete
  rw [show (d.withBackend b').cqs = d.cqs from rfl,show (d.withBackend b').sqs = d.sqs from rfl]
  cases d.cqs cqid with
  | none => exact ⟨rfl,⟨b',hb,rfl⟩,rfl⟩
  | some cq => exact ⟨rfl,⟨b',hb,rfl⟩,rfl⟩

structure RelStep (R : β → β → Prop) (st st' : Step β) : Prop where
  rel : Rel R st.after st'.after
  mem : st.mem = st'.mem

omit [BlockBackend β] in
lemma finish_rel {before before' : NvmeDevice β} {memBefore : GuestMemory} {qid cqid : ℕ}
    {cmd : Option Command} {r r' : Outcome × Bool × NvmeDevice β × GuestMemory}
    (h : AgreeCmd R r r') :
    RelStep R (finish before memBefore qid cqid cmd r) (finish before' memBefore qid cqid cmd r') := by
  obtain ⟨out,held,d,m⟩ := r
  obtain ⟨out',held',d',m'⟩ := r'
  obtain ⟨rfl,rfl,hrel,rfl⟩ := h
  cases held with
  | true => exact ⟨hrel,rfl⟩
  | false =>
    obtain ⟨-,hafter,hmem⟩ := complete_agree (m := m) hrel qid cqid (cmd.elim 0 (·.cid)) out
    exact ⟨hafter,hmem⟩

lemma stepQueue_rel (hR : Bisim R) (h : Rel R d d') (qid : ℕ) :
    Option.Rel (RelStep R) (d.stepQueue m qid) (d'.stepQueue m qid) := by
  obtain ⟨b',hb,rfl⟩ := h
  unfold stepQueue
  rw [show (d.withBackend b').cqs = d.cqs from rfl,show (d.withBackend b').sqs = d.sqs from rfl]
  cases d.sqs qid with
  | none => exact .none
  | some sq =>
    simp only
    split
    · exact .none
    cases d.cqs sq.cqid with
    | none => exact .none
    | some cq =>
      simp only
      split
      · exact .none
      · have hfetch : Rel R { d with sqs := update d.sqs qid (some sq.fetch) }
            { d.withBackend b' with sqs := update d.sqs qid (some sq.fetch) } :=
          ⟨b',hb,rfl⟩
        exact .some (finish_rel (runCommand_agree hR hfetch qid _))

structure RelRun (R : β → β → Prop) (r r' : List (Step β) × NvmeDevice β × GuestMemory) : Prop where
  empty_iff : r.1 = [] ↔ r'.1 = []
  rel : Rel R r.2.1 r'.2.1
  mem : r.2.2 = r'.2.2

variable {qid : Fin (ioQueuesMax+1)}

lemma drainQueue_of_none (h : d.stepQueue m qid = none) :
    d.drainQueue m qid = ([],d,m) := by
  rw [drainQueue]
  split
  · rfl
  · next hst => cases h.symm.trans hst

lemma drainQueue_of_some {st : Step β} (h : d.stepQueue m qid = some st) : d.drainQueue m qid =
      (st :: (st.after.drainQueue st.mem qid).1,(st.after.drainQueue st.mem qid).2) := by
  rw [drainQueue]
  split
  · next hst => cases h.symm.trans hst
  · next st' hst =>
    cases h.symm.trans hst
    rfl

lemma drainQueue_rel (hR : Bisim R) (h : Rel R d d') (m : GuestMemory)
    (qid : Fin (ioQueuesMax+1)) : RelRun R (d.drainQueue m qid) (d'.drainQueue m qid) := by
  fun_induction drainQueue d m qid generalizing d' with
  | case1 d m hst =>
    have hstep := stepQueue_rel (m := m) hR h qid
    rw [hst] at hstep
    cases hst' : d'.stepQueue m qid with
    | some st' =>
      rw [hst'] at hstep
      cases hstep
    | none =>
      rw [drainQueue_of_none hst']
      exact ⟨Iff.rfl,h,rfl⟩
  | case2 d m st hst steps d₁ m₁ hrest ih =>
    have hstep := stepQueue_rel (m := m) hR h qid
    rw [hst] at hstep
    cases hst' : d'.stepQueue m qid with
    | none =>
      rw [hst'] at hstep
      cases hstep
    | some st' =>
      rw [hst'] at hstep
      obtain ⟨hafter,hmem⟩ : RelStep R st st' := by
        cases hstep
        assumption
      obtain ⟨-,hrel,hmem₁⟩ := ih hafter
      rw [hrest] at hrel hmem₁
      rw [drainQueue_of_some hst',← hmem]
      exact ⟨⟨fun h => (by cases h),fun h => (by cases h)⟩,hrel,hmem₁⟩

lemma pass_rel (hR : Bisim R) (h : Rel R d d') (m : GuestMemory)
    (qids : List (Fin (ioQueuesMax+1))) : RelRun R (d.pass m qids) (d'.pass m qids) := by
  induction qids generalizing d d' m with
  | nil => exact ⟨Iff.rfl,h,rfl⟩
  | cons qid qids ih =>
    obtain ⟨hempty,hrel,hmem⟩ := drainQueue_rel hR h m qid
    obtain ⟨hempty',hrel',hmem'⟩ := ih hrel (d.drainQueue m qid).2.2
    unfold pass
    simp only
    rw [← hmem]
    refine ⟨?_,hrel',hmem'⟩
    simp only [List.append_eq_nil_iff,hempty,hempty']

lemma runQueues_rel (hR : Bisim R) (h : Rel R d d') (m : GuestMemory) :
    RelRun R (d.runQueues m) (d'.runQueues m) := by
  fun_induction runQueues d m generalizing d' with
  | case1 d m r =>
    rename_i hempty
    have hpass := pass_rel hR h m queueIds
    have hright : d'.runQueues m = d'.pass m queueIds := by
      rw [runQueues]
      exact dif_pos (hpass.empty_iff.mp hempty)
    rw [hright]
    exact hpass
  | case2 d m r hempty =>
    rename_i ih
    have hpass := pass_rel hR h m queueIds
    have hne : (d'.pass m queueIds).1 ≠ [] := fun h => hempty (hpass.empty_iff.mpr h)
    have hright : d'.runQueues m = withSteps (d'.pass m queueIds).1
        ((d'.pass m queueIds).2.1.runQueues (d'.pass m queueIds).2.2) := by
      rw [runQueues]
      exact dif_neg hne
    rw [hright,← hpass.mem]
    obtain ⟨-,hrel,hmem⟩ := ih hpass.rel
    refine ⟨⟨fun h => ?_,fun h => ?_⟩,hrel,hmem⟩
    · exact absurd (List.append_eq_nil_iff.mp h).1 hempty
    · exact absurd (List.append_eq_nil_iff.mp h).1 hne

section Registers
variable (d : NvmeDevice β) (b : β)
omit [BlockBackend β]

lemma enable_withBackend : (d.withBackend b).enable = d.enable.withBackend b := by
  have hdite : ∀ {p : Prop} [Decidable p] {x x' : p → NvmeDevice β} {y y' : NvmeDevice β},
      (∀ h, x' h = (x h).withBackend b) → y' = y.withBackend b →
      (if h : p then x' h else y') = (if h : p then x h else y).withBackend b := by
    intro p _ x x' y y' hx hy
    split
    · exact hx _
    · exact hy
  exact hdite (fun _ => rfl) rfl

lemma writeCc_withBackend (v : ℕ) : (d.withBackend b).writeCc v = (d.writeCc v).withBackend b := by
  let d₁ : NvmeDevice β := { d with regs := { d.regs with cc := v } }
  have hcases : (if v &&& 1 ≠ 0 ∧ ¬ d.regs.cc &&& 1 ≠ 0 then (d₁.withBackend b).enable
        else if v &&& 1 = 0 ∧ d.regs.cc &&& 1 ≠ 0 then
          { (d₁.withBackend b).resetQueues with regs := { d₁.regs with csts := 0 } }
        else d₁.withBackend b) =
      (if v &&& 1 ≠ 0 ∧ ¬ d.regs.cc &&& 1 ≠ 0 then d₁.enable
        else if v &&& 1 = 0 ∧ d.regs.cc &&& 1 ≠ 0 then
          { d₁.resetQueues with regs := { d₁.regs with csts := 0 } }
        else d₁).withBackend b :=
    ite_withBackend (enable_withBackend d₁ b) (ite_withBackend rfl rfl)
  exact congrArg (fun d : NvmeDevice β => { d with regs := shutdownStatus d.regs }) hcases

lemma writeReg_withBackend (offset v : ℕ) :
    (d.withBackend b).writeReg offset v = (d.writeReg offset v).withBackend b :=
  ite_withBackend rfl (ite_withBackend rfl (ite_withBackend (writeCc_withBackend d b v)
    (ite_withBackend rfl (ite_withBackend rfl (ite_withBackend rfl (ite_withBackend rfl
      (ite_withBackend rfl (ite_withBackend rfl rfl))))))))

lemma moveIndex_withBackend (n index : ℕ) :
    (d.withBackend b).moveIndex n index = (d.moveIndex n index).withBackend b := by
  refine ite_withBackend ?_ ?_
  · rw [show (d.withBackend b).sqs = d.sqs from rfl]
    cases d.sqs (n/2) with
    | none => rfl
    | some sq =>
      simp only
      split <;> rfl
  · rw [show (d.withBackend b).cqs = d.cqs from rfl]
    cases d.cqs (n/2) with
    | none => rfl
    | some cq =>
      simp only
      split <;> rfl

end Registers
omit [BlockBackend β] in
lemma Rel.mmioRead (h : Rel R d d') (offset size : ℕ) :
    d.mmioRead offset size = d'.mmioRead offset size := by
  obtain ⟨b',-,rfl⟩ := h
  rfl

structure RelAccess (R : β → β → Prop) (r r' : List (Event β) × NvmeDevice β × GuestMemory) :
    Prop where
  rel : Rel R r.2.1 r'.2.1
  mem : r.2.2 = r'.2.2

lemma ring_rel (hR : Bisim R) (h : Rel R d d') (n index : ℕ) (m : GuestMemory) :
    RelAccess R (d.ring n index m) (d'.ring n index m) := by
  have hready : d'.ready = d.ready := by
    obtain ⟨b',-,rfl⟩ := h
    rfl
  unfold ring
  rw [hready]
  split
  · exact ⟨h,rfl⟩
  · have hmove := h.map (f := fun d => d.moveIndex n index) fun d b =>
      moveIndex_withBackend d b n index
    obtain ⟨-,hrel,hmem⟩ := runQueues_rel hR hmove m
    exact ⟨hrel,hmem⟩

lemma writeDword_rel (hR : Bisim R) (h : Rel R d d') (offset v : ℕ) (m : GuestMemory) :
    RelAccess R (d.writeDword offset v m) (d'.writeDword offset v m) := by
  unfold writeDword
  split
  · exact ring_rel hR h _ _ m
  · exact ⟨h.map (f := fun d => d.writeReg offset v) fun d b => writeReg_withBackend d b offset v,
      rfl⟩

lemma Rel.mmioWrite (hR : Bisim R) (h : Rel R d d') (offset size val : ℕ) (m : GuestMemory) :
    RelAccess R (d.mmioWrite offset size val m) (d'.mmioWrite offset size val m) := by
  unfold NvmeDevice.mmioWrite
  split
  · exact writeDword_rel hR h _ _ m
  split
  · obtain ⟨hrel,hmem⟩ := writeDword_rel hR h offset (val%2^32) m
    simp only
    rw [← hmem]
    obtain ⟨hrel',hmem'⟩ := writeDword_rel hR hrel (Word.add64 offset 4) ((val >>> 32)%2^32)
      (d.writeDword offset (val%2^32) m).2.2
    exact ⟨hrel',hmem'⟩
  · exact ⟨h,rfl⟩

end NvmeDevice
end Enlil.Boot
