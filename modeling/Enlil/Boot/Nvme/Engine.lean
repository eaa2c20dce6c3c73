import Enlil.Boot.Nvme.Defs
import Mathlib.Algebra.Order.BigOperators.Group.Finset

/-!
# The queue engine of the NVMe controller: model of the registers of `enlil-boot/src/nvme_dev.rs`
-/

namespace Enlil.Boot
open Nvme List Nat Function Option
namespace Nvme

def Sq.pending (sq : Sq) : ℕ := (sq.tail+sq.size-sq.head)%sq.size

lemma ring_distance {head tail size : ℕ} (hhead : head < size) (htail : tail < size) :
    (tail+size-head)%size = if head ≤ tail then tail-head else tail+size-head := by
  split
  · next hle =>
    rw [show tail+size-head = tail-head+size by omega,add_mod_right,
      mod_eq_of_lt (by omega)]
  · exact mod_eq_of_lt (by omega)

lemma Sq.pending_new {base size cqid : ℕ} (h : 0 < size) : (Sq.new base size cqid h).pending = 0 :=
  ring_distance h h

lemma Sq.pending_fetch (sq : Sq) (h : sq.head ≠ sq.tail) :
    sq.fetch.pending+1 = sq.pending := by
  have hhead := sq.head_lt
  have htail := sq.tail_lt
  show (sq.tail+sq.size-(sq.head+1)%sq.size)%sq.size+1 = (sq.tail+sq.size-sq.head)%sq.size
  rw [ring_distance hhead htail,ring_distance (mod_lt _ (by omega)) htail]
  by_cases hwrap : sq.head+1 = sq.size
  · rw [hwrap,mod_self]
    split_ifs <;> omega
  · rw [mod_eq_of_lt (show sq.head+1 < sq.size by omega)]
    split_ifs <;> omega

lemma scatter_ok (m : GuestMemory) (data : List UInt8) (segments : List (ℕ × ℕ)) (pos : ℕ) :
    (scatter m data segments pos).2.ok = m.ok := by
  induction segments generalizing m pos with
  | nil => rfl
  | cons segment segments ih =>
    rw [scatter]
    split
    · rfl
    · next hw => exact (ih _ _).trans (GuestMemory.write_changedOnly hw).ok_eq

lemma writePrp_ok (m : GuestMemory) (prp1 prp2 : ℕ) (data : List UInt8) :
    (writePrp m prp1 prp2 data).2.ok = m.ok := by
  rw [writePrp]
  split
  · rfl
  · exact scatter_ok m data _ 0

lemma transferOut_ok (m : GuestMemory) (c : Command) (data : List UInt8) :
    (transferOut m c data).2.ok = m.ok := by
  have hok := writePrp_ok m c.prp1 c.prp2 data
  rw [transferOut]
  split
  · next h => rwa [h] at hok
  · next h => rwa [h] at hok

lemma getLogPage_ok (c : Command) (m : GuestMemory) : (getLogPage c m).2.ok = m.ok := by
  rw [getLogPage]
  simp only
  by_cases hlen : maxTransferBytes <
      (((c.cdw10 >>> 16) &&& 0xFFF ||| (c.cdw11 &&& 0xFFFF) <<< 12)+1)*4
  · rw [if_pos hlen]
  · rw [if_neg hlen]
    exact transferOut_ok m c _

end Nvme
namespace NvmeDevice
variable {β : Type} {d d' : NvmeDevice β} {sqs sqs' : ℕ → Option Sq} {cqs cqs' : ℕ → Option Cq}

inductive Changes (sqs : ℕ → Option Sq) (cqs : ℕ → Option Cq) :
    (ℕ → Option Sq) → (ℕ → Option Cq) → Prop
  | same : Changes sqs cqs sqs cqs
  | createCq (qid : ℕ) (base size : ℕ) (ien : Bool) (h : 0 < size) (hfree : cqs qid = none) :
      Changes sqs cqs sqs (update cqs qid (some (.new base size ien h)))
  | createSq (qid : ℕ) (base size cqid : ℕ) (h : 0 < size) (hqid : qid ≤ ioQueuesMax)
      (hfree : sqs qid = none) (hcq : (cqs cqid).isSome) :
      Changes sqs cqs (update sqs qid (some (.new base size cqid h))) cqs
  | deleteSq (qid : ℕ) (hqid : qid ≠ 0) : Changes sqs cqs (update sqs qid none) cqs
  | deleteCq (qid : ℕ) (hqid : qid ≠ 0)
      (hunused : ∀ q ≤ ioQueuesMax, ∀ sq, sqs q = some sq → sq.cqid ≠ qid) :
      Changes sqs cqs sqs (update cqs qid none)

/-- What a command does to a controller: the registers stay as they are. -/
structure Evolves (d d' : NvmeDevice β) : Prop where
  changes : Changes d.sqs d.cqs d'.sqs d'.cqs
  regs_eq : d'.regs = d.regs

lemma Evolves.same : Evolves d d := ⟨.same,rfl⟩

section Commands
variable (d : NvmeDevice β) (c : Command)

lemma createCq_evolves : Evolves d (d.createCq c).2 := by
  unfold createCq
  simp only
  split
  · exact .same
  · next hfree =>
    split
    · split
      · exact .same
      · split
        · exact .same
        · refine ⟨.createCq _ _ _ _ _ ?_,rfl⟩
          rw [← not_isSome_iff_eq_none]
          exact fun hsome => hfree (.inr (.inr hsome))
    · exact .same

lemma createSq_evolves : Evolves d (d.createSq c).2 := by
  unfold createSq
  simp only
  split
  · exact .same
  · next hfree =>
    split
    · split
      · exact .same
      · next hcq =>
        split
        · exact .same
        · refine ⟨.createSq _ _ _ _ _ (Nat.not_lt.mp fun h => hfree (.inr (.inl h))) ?_ ?_,rfl⟩
          · rw [← not_isSome_iff_eq_none]
            exact fun hsome => hfree (.inr (.inr hsome))
          · exact isSome_iff_ne_none.mpr fun hnone =>
              hcq (.inr (.inr (isNone_iff_eq_none.mpr hnone)))
    · exact .same

lemma deleteSq_evolves : Evolves d (d.deleteSq c).2 := by
  unfold deleteSq
  simp only
  split
  · exact .same
  · next hqid => exact ⟨.deleteSq _ fun h => hqid (.inl h),rfl⟩

lemma mem_sqList {q : ℕ} {sq : Sq} (hq : q ≤ ioQueuesMax) (h : d.sqs q = some sq) : sq ∈ d.sqList :=
  mem_filterMap.mpr ⟨q,mem_range.mpr (lt_succ_of_le hq),h⟩

lemma deleteCq_evolves : Evolves d (d.deleteCq c).2 := by
  unfold deleteCq
  simp only
  split
  · exact .same
  · next hqid =>
    split
    · exact .same
    · next hunused =>
      refine ⟨.deleteCq _ (fun h => hqid (.inl h)) fun q hq sq hsq hcqid => hunused ?_,rfl⟩
      exact List.any_eq_true.mpr ⟨sq,mem_sqList d hq hsq,decide_eq_true hcqid⟩

lemma setFeatures_evolves : Evolves d (d.setFeatures c).2 := by
  unfold setFeatures
  simp only
  split
  · exact ⟨.same,rfl⟩
  · split
    · exact ⟨.same,rfl⟩
    · exact .same

end Commands
variable [BlockBackend β]

/-- A command keeps to what a command can do, and to the memory there is. -/
structure Keeps (d : NvmeDevice β) (m : GuestMemory)
    (r : Outcome × Bool × NvmeDevice β × GuestMemory) : Prop where
  evolves : Evolves d r.2.2.1
  ok_eq : r.2.2.2.ok = m.ok

variable {m : GuestMemory}
omit [BlockBackend β] in
lemma Keeps.ite {p : Prop} [Decidable p] {x y : Outcome × Bool × NvmeDevice β × GuestMemory}
    (hx : Keeps d m x) (hy : Keeps d m y) : Keeps d m (if p then x else y) := by
  split
  · exact hx
  · exact hy

omit [BlockBackend β] in
lemma Keeps.same {out : Outcome} {held : Bool} : Keeps d m (out,held,d,m) := ⟨.same,rfl⟩

section
variable (d : NvmeDevice β) (c : Command) (m : GuestMemory)

lemma identify_ok :
    (d.identify c m).2.ok = m.ok := by
  have hite : ∀ {p : Prop} [Decidable p] {x y : Outcome × GuestMemory},
      x.2.ok = m.ok → y.2.ok = m.ok → (if p then x else y).2.ok = m.ok := by
    intro p _ x y hx hy
    split
    · exact hx
    · exact hy
  exact hite (hite rfl (transferOut_ok m c _)) (hite (transferOut_ok m c _)
    (hite (transferOut_ok m c _) (hite (hite rfl (transferOut_ok m c _))
      (hite (transferOut_ok m c _) rfl))))

lemma admin_keeps : Keeps d m (d.admin c m) :=
  .ite ⟨.same,identify_ok d c m⟩ (.ite ⟨createCq_evolves d c,rfl⟩
    (.ite ⟨createSq_evolves d c,rfl⟩ (.ite ⟨deleteSq_evolves d c,rfl⟩
      (.ite ⟨deleteCq_evolves d c,rfl⟩ (.ite ⟨setFeatures_evolves d c,rfl⟩ (.ite .same
        (.ite ⟨.same,getLogPage_ok c m⟩ (.ite .same
          (.ite (.ite .same ⟨⟨.same,rfl⟩,rfl⟩) .same)))))))))

end

structure BackendOnly (d : NvmeDevice β) (m : GuestMemory)
    (r : Outcome × NvmeDevice β × GuestMemory) : Prop where
  backend : ∃ b, r.2.1 = { d with backend := b }
  ok_eq : r.2.2.ok = m.ok

section
variable (d : NvmeDevice β)

lemma transfer_backendOnly (c : Command) (m : GuestMemory) :
    BackendOnly d m (d.transfer c m) := by
  unfold transfer
  simp only
  split
  · exact ⟨⟨_,rfl⟩,rfl⟩
  split
  · exact ⟨⟨_,rfl⟩,rfl⟩
  split
  · exact ⟨⟨_,rfl⟩,rfl⟩
  next segments _ =>
  split
  · split
    · exact ⟨⟨_,rfl⟩,rfl⟩
    next buf _ _ =>
    have hok := scatter_ok m buf segments 0
    split
    · next hs =>
      rw [hs] at hok
      exact ⟨⟨_,rfl⟩,hok⟩
    · next hs =>
      rw [hs] at hok
      exact ⟨⟨_,rfl⟩,hok⟩
  split
  · exact ⟨⟨_,rfl⟩,rfl⟩
  split
  · exact ⟨⟨_,rfl⟩,rfl⟩
  · split <;> exact ⟨⟨_,rfl⟩,rfl⟩

lemma writeZeroes_backend (c : Command) :
    ∃ b, (d.writeZeroes c).2 = { d with backend := b } := by
  unfold writeZeroes
  simp only
  split
  · exact ⟨_,rfl⟩
  split
  · exact ⟨_,rfl⟩
  · split <;> exact ⟨_,rfl⟩

lemma io_backendOnly (c : Command) (m : GuestMemory) :
    BackendOnly d m (d.io c m) := by
  unfold io
  split
  · exact ⟨⟨_,rfl⟩,rfl⟩
  split
  · split <;> exact ⟨⟨_,rfl⟩,rfl⟩
  split
  · exact transfer_backendOnly d c m
  split
  · exact ⟨writeZeroes_backend d c,rfl⟩
  split <;> exact ⟨⟨_,rfl⟩,rfl⟩

lemma runCommand_keeps (qid : ℕ) (cmd : Option Command)
    (m : GuestMemory) : Keeps d m (d.runCommand qid cmd m) := by
  cases cmd with
  | none => exact .same
  | some c =>
    by_cases hq : qid = 0
    · rw [runCommand,dispatch,if_pos hq]
      exact admin_keeps d c m
    · obtain ⟨⟨b,hb⟩,hok⟩ := io_backendOnly d c m
      rw [runCommand,dispatch,if_neg hq]
      refine ⟨?_,hok⟩
      simp only [hb]
      exact ⟨.same,rfl⟩

def pendingOf (sqs : ℕ → Option Sq) (qid : ℕ) : ℕ := (sqs qid).elim 0 Sq.pending

def pending : ℕ := ∑ qid ∈ Finset.range (ioQueuesMax+1), pendingOf d.sqs qid

lemma Changes.pendingOf_le (h : Changes sqs cqs sqs' cqs') (qid : ℕ) :
    pendingOf sqs' qid ≤ pendingOf sqs qid := by
  cases h with
  | same => exact le_refl _
  | createCq => exact le_refl _
  | deleteCq => exact le_refl _
  | createSq q base size cqid h =>
    by_cases hq : qid = q
    · subst hq
      rw [pendingOf,update_self,elim_some,Sq.pending_new]
      exact zero_le _
    · rw [pendingOf,update_of_ne hq]
      exact le_refl _
  | deleteSq q =>
    by_cases hq : qid = q
    · subst hq
      rw [pendingOf,update_self]
      exact zero_le _
    · rw [pendingOf,update_of_ne hq]
      exact le_refl _

lemma Changes.cq_kept (h : Changes sqs cqs sqs' cqs') {q : ℕ} {sq : Sq} {cq : Cq}
    (hq : q ≤ ioQueuesMax) (hsq : sqs q = some sq) (hcq : cqs sq.cqid = some cq) :
    cqs' sq.cqid = some cq := by
  cases h with
  | same => exact hcq
  | createSq => exact hcq
  | deleteSq => exact hcq
  | createCq qid _ _ _ _ hfree =>
    have hne : sq.cqid ≠ qid := by
      rintro rfl
      rw [hfree] at hcq
      cases hcq
    rwa [update_of_ne hne]
  | deleteCq qid _ hunused => rwa [update_of_ne (hunused q hq sq hsq)]

/-- An asynchronous event request that is accepted: the only command that stays outstanding. -/
def Accepted (qid : ℕ) (cmd : Option Command) : Prop :=
  ∃ c, cmd = some c ∧ qid = 0 ∧ c.opcode = 0x0C ∧ d.aerPending.length < aerLimit

lemma admin_held (c : Command) (m : GuestMemory) :
    (d.admin c m).2.1 = true ↔ c.opcode = 0x0C ∧ d.aerPending.length < aerLimit := by
  have hite : ∀ {p : Prop} [Decidable p] {x y : Outcome × Bool × NvmeDevice β × GuestMemory},
      (p → c.opcode ≠ 0x0C) → x.2.1 = false →
      (y.2.1 = true ↔ c.opcode = 0x0C ∧ d.aerPending.length < aerLimit) →
      ((if p then x else y).2.1 = true ↔ c.opcode = 0x0C ∧ d.aerPending.length < aerLimit) := by
    intro p _ x y hp hx hy
    by_cases h : p
    · rw [if_pos h,hx]
      exact ⟨fun hf => (by cases hf),fun hc => absurd hc.1 (hp h)⟩
    · rwa [if_neg h]
  have hne : ∀ {n : ℕ}, n ≠ 0x0C → c.opcode = n → c.opcode ≠ 0x0C := fun hn h => h ▸ hn
  refine hite (hne (by decide)) rfl (hite (hne (by decide)) rfl (hite (hne (by decide)) rfl
    (hite (hne (by decide)) rfl (hite (hne (by decide)) rfl (hite (hne (by decide)) rfl
      (hite (hne (by decide)) rfl (hite (hne (by decide)) rfl (hite (hne (by decide)) rfl ?_))))))))
  by_cases h : c.opcode = 0x0C
  · rw [if_pos h]
    by_cases hfull : aerLimit ≤ d.aerPending.length
    · rw [if_pos hfull]
      exact ⟨fun hf => (by cases hf),fun hc => absurd hc.2 (Nat.not_lt.mpr hfull)⟩
    · rw [if_neg hfull]
      exact ⟨fun _ => ⟨h,Nat.not_le.mp hfull⟩,fun _ => rfl⟩
  · rw [if_neg h]
    exact ⟨fun hf => (by cases hf),fun hc => absurd hc.1 h⟩

lemma runCommand_held (qid : ℕ) (cmd : Option Command) (m : GuestMemory) :
    (d.runCommand qid cmd m).2.1 = true ↔ d.Accepted qid cmd := by
  cases cmd with
  | none => exact ⟨fun h => (by cases h),fun ⟨c,hc,_⟩ => (by cases hc)⟩
  | some c =>
    by_cases hq : qid = 0
    · rw [runCommand,dispatch,if_pos hq,admin_held]
      exact ⟨fun h => ⟨c,rfl,hq,h⟩,fun ⟨_,hc,_,h⟩ => by cases hc; exact h⟩
    · rw [runCommand,dispatch,if_neg hq]
      exact ⟨fun h => (by cases h),fun ⟨_,_,h,_⟩ => absurd h hq⟩

end

/-- What a step does: `sqs`, `cqs` and `m'` are the queues and memory after the command and before
its completion. -/
structure StepSpec (d : NvmeDevice β) (m : GuestMemory) (qid : ℕ) (st : Step β) (sq : Sq) (cq : Cq)
    (sqs : ℕ → Option Sq) (cqs : ℕ → Option Cq) (m' : GuestMemory) : Prop where
  qid_eq : st.qid = qid
  before_eq : st.before = d
  memBefore_eq : st.memBefore = m
  sq_eq : d.sqs qid = some sq
  cq_eq : d.cqs sq.cqid = some cq
  waiting : sq.head ≠ sq.tail
  room : cq.isFull = false
  fetched : st.fetched = (m.read (Word.add64 sq.base (sq.head*64)) 64).map Command.parse
  changes : Changes (update d.sqs qid (some sq.fetch)) d.cqs sqs cqs
  kept : cqs sq.cqid = some cq
  ok_eq : m'.ok = m.ok
  sqs_eq : st.after.sqs = sqs
  regs_eq : st.after.regs = d.regs
  held_iff : st.held = true ↔ d.Accepted qid st.fetched
  held : st.held = true → st.posted = none ∧ st.after.cqs = cqs
  done : st.held = false → st.after.cqs = update cqs sq.cqid (some cq.post) ∧ ∃ sqHead out,
      let entry := completionEntry qid sqHead (st.fetched.elim 0 (·.cid)) out cq.phase
      st.posted = some ⟨sq.cqid,cq.tail,entry⟩ ∧
        st.mem = (m'.tryWrite (cq.slotAddr cq.tail) (entry.take 14)).tryWrite
          (Word.add64 (cq.slotAddr cq.tail) 14) (entry.drop 14)

omit [BlockBackend β] in
lemma complete_eq {d : NvmeDevice β} {qid cqid cid : ℕ} {out : Outcome} {cq : Cq}
    (m : GuestMemory) (hcq : d.cqs cqid = some cq) :
    d.complete qid cqid cid out m =
      let entry := completionEntry qid ((d.sqs qid).elim 0 (·.head)) cid out cq.phase
      (some ⟨cqid,cq.tail,entry⟩,
        { d with cqs := update d.cqs cqid (some cq.post) },
        (m.tryWrite (cq.slotAddr cq.tail) (entry.take 14)).tryWrite
          (Word.add64 (cq.slotAddr cq.tail) 14) (entry.drop 14)) := by
  rw [complete,hcq]

variable {st : Step β} {qid : ℕ}
section
variable (hq : qid ≤ ioQueuesMax) (h : d.stepQueue m qid = some st)
include hq h

lemma stepQueue_spec :
    ∃ sq cq sqs cqs m', StepSpec d m qid st sq cq sqs cqs m' := by
  unfold stepQueue at h
  split at h
  · cases h
  next sq hsq =>
  split at h
  · cases h
  next hwaiting =>
  split at h
  · cases h
  next cq hcq =>
  split at h
  · cases h
  next hroom =>
  rw [Bool.not_eq_true] at hroom
  have hself : update d.sqs qid (some sq.fetch) qid = some sq.fetch :=
    update_self _ _ _
  simp only at h
  generalize hcmd : (m.read (Word.add64 sq.base (sq.head*64)) 64).map Command.parse = cmd at h
  have hkeeps := runCommand_keeps
    { d with sqs := update d.sqs qid (some sq.fetch) } qid cmd m
  have hheld := runCommand_held
    { d with sqs := update d.sqs qid (some sq.fetch) } qid cmd m
  generalize ({ d with sqs := update d.sqs qid (some sq.fetch) } :
    NvmeDevice β).runCommand qid cmd m = r at h hkeeps hheld
  obtain ⟨out,held,d',m'⟩ := r
  obtain ⟨⟨hchanges,hregs⟩,hok⟩ := hkeeps
  have hkept := Changes.cq_kept hchanges hq hself (show d.cqs sq.fetch.cqid = some cq from hcq)
  change d'.cqs sq.cqid = some cq at hkept
  cases held with
  | true =>
    cases h
    exact ⟨sq,cq,_,_,m',rfl,rfl,rfl,hsq,hcq,hwaiting,hroom,hcmd.symm,hchanges,hkept,
      hok,rfl,hregs,hheld,
      fun _ => ⟨rfl,rfl⟩,fun hf => (by cases hf)⟩
  | false =>
    rw [finish] at h
    simp only [Bool.false_eq_true,if_false,complete_eq _ hkept] at h
    cases h
    exact ⟨sq,cq,_,_,m',rfl,rfl,rfl,hsq,hcq,hwaiting,hroom,hcmd.symm,hchanges,hkept,
      hok,rfl,hregs,hheld,
      fun hf => (by cases hf),fun _ => ⟨rfl,_,_,rfl,rfl⟩⟩

lemma stepQueue_pending :
    st.after.pending < d.pending := by
  obtain ⟨sq,cq,sqs,cqs,m',hst⟩ := stepQueue_spec hq h
  have hle : ∀ q, pendingOf st.after.sqs q ≤ pendingOf (update d.sqs qid (some sq.fetch)) q :=
    fun q => hst.sqs_eq ▸ hst.changes.pendingOf_le q
  have hself : pendingOf st.after.sqs qid < pendingOf d.sqs qid := by
    have hfetch := Sq.pending_fetch sq hst.waiting
    have hqid := hle qid
    rw [pendingOf,pendingOf,update_self,elim_some] at hqid
    rw [pendingOf,pendingOf,hst.sq_eq,elim_some]
    omega
  refine Finset.sum_lt_sum (fun q _ => ?_) ⟨qid,Finset.mem_range.mpr (by omega),hself⟩
  by_cases hne : q = qid
  · subst hne
    exact le_of_lt hself
  · have hother := hle q
    rwa [pendingOf,pendingOf,update_of_ne hne] at hother

end

/-- The inner loop of `run_queues`: run the commands of one queue. The commands that ran come
with the result. -/
def drainQueue (d : NvmeDevice β) (m : GuestMemory) (qid : Fin (ioQueuesMax+1)) :
    List (Step β) × NvmeDevice β × GuestMemory :=
  match _h : d.stepQueue m qid with
  | none => ([],d,m)
  | some st =>
    let (steps,d,m) := drainQueue st.after st.mem qid
    (st :: steps,d,m)
termination_by d.pending
decreasing_by exact stepQueue_pending (le_of_lt_succ qid.isLt) _h

def pass (d : NvmeDevice β) (m : GuestMemory) :
    List (Fin (ioQueuesMax+1)) → List (Step β) × NvmeDevice β × GuestMemory
  | [] => ([],d,m)
  | qid :: qids =>
    let (steps,d,m) := d.drainQueue m qid
    let (steps',d,m) := d.pass m qids
    (steps ++ steps',d,m)

inductive Chain : NvmeDevice β → GuestMemory → List (Step β) → NvmeDevice β → GuestMemory → Prop
  | nil (d : NvmeDevice β) (m : GuestMemory) : Chain d m [] d m
  | cons {d d' : NvmeDevice β} {m m' : GuestMemory} {qid : ℕ} {st : Step β} {steps : List (Step β)}
      (hq : qid ≤ ioQueuesMax) (h : d.stepQueue m qid = some st)
      (rest : Chain st.after st.mem steps d' m') : Chain d m (st :: steps) d' m'

variable {m' m'' : GuestMemory} {d'' : NvmeDevice β} {steps steps' : List (Step β)}

lemma Chain.append (h : Chain d m steps d' m') (h' : Chain d' m' steps' d'' m'') :
    Chain d m (steps ++ steps') d'' m'' := by
  induction h with
  | nil => exact h'
  | cons hq hst _ ih => exact .cons hq hst (ih h')

lemma Chain.pending_le (h : Chain d m steps d' m') : d'.pending+steps.length ≤ d.pending := by
  induction h with
  | nil => exact le_refl _
  | cons hq hst _ ih =>
    have hlt := stepQueue_pending hq hst
    rw [length_cons]
    omega

lemma drainQueue_chain (d : NvmeDevice β) (m : GuestMemory) (qid : Fin (ioQueuesMax+1)) :
    Chain d m (d.drainQueue m qid).1 (d.drainQueue m qid).2.1 (d.drainQueue m qid).2.2 := by
  fun_induction drainQueue d m qid with
  | case1 d m h => exact .nil d m
  | case2 d m st h steps d' m' hrest ih =>
    rw [hrest] at ih
    exact .cons (le_of_lt_succ qid.isLt) h ih

lemma pass_chain (d : NvmeDevice β) (m : GuestMemory) (qids : List (Fin (ioQueuesMax+1))) :
    Chain d m (d.pass m qids).1 (d.pass m qids).2.1 (d.pass m qids).2.2 := by
  induction qids generalizing d m with
  | nil => exact .nil d m
  | cons qid qids ih => exact (drainQueue_chain d m qid).append (ih _ _)

def queueIds : List (Fin (ioQueuesMax+1)) := List.finRange (ioQueuesMax+1)

/-- The commands that ran, after `steps`. -/
def withSteps (steps : List (Step β)) (r : List (Step β) × NvmeDevice β × GuestMemory) :
    List (Step β) × NvmeDevice β × GuestMemory :=
  (steps ++ r.1,r.2)

def runQueues (d : NvmeDevice β) (m : GuestMemory) : List (Step β) × NvmeDevice β × GuestMemory :=
  let r := d.pass m queueIds
  if _h : r.1 = [] then r else withSteps r.1 (runQueues r.2.1 r.2.2)
termination_by d.pending
decreasing_by
  have hle := (pass_chain d m queueIds).pending_le
  have hpos : 0 < (d.pass m queueIds).1.length := length_pos_iff.mpr _h
  omega

lemma runQueues_chain (d : NvmeDevice β) (m : GuestMemory) :
    Chain d m (d.runQueues m).1 (d.runQueues m).2.1 (d.runQueues m).2.2 := by
  fun_induction runQueues d m with
  | case1 d m r h => exact pass_chain d m _
  | case2 d m r h ih => exact (pass_chain d m _).append ih

lemma drainQueue_nil {qid : Fin (ioQueuesMax+1)} (h : (d.drainQueue m qid).1 = []) :
    d.stepQueue m qid = none ∧ d.drainQueue m qid = ([],d,m) := by
  rw [drainQueue] at h ⊢
  split at h
  · next hnone => exact ⟨hnone,rfl⟩
  · cases h

lemma pass_nil {qids : List (Fin (ioQueuesMax+1))} (h : (d.pass m qids).1 = []) :
    (∀ qid ∈ qids, d.stepQueue m qid = none) ∧ d.pass m qids = ([],d,m) := by
  induction qids with
  | nil => exact ⟨forall_mem_nil _,rfl⟩
  | cons qid qids ih =>
    obtain ⟨hqid,hdrain⟩ := drainQueue_nil (append_eq_nil_iff.mp h).1
    have hrest : (d.pass m qids).1 = [] := by
      rw [pass,hdrain] at h
      exact h
    obtain ⟨hqids,hpass⟩ := ih hrest
    refine ⟨forall_mem_cons.mpr ⟨hqid,hqids⟩,?_⟩
    rw [pass,hdrain]
    simp only [hpass,append_nil]

lemma runQueues_idle (d : NvmeDevice β) (m : GuestMemory) :
    ∀ q ≤ ioQueuesMax, (d.runQueues m).2.1.stepQueue (d.runQueues m).2.2 q = none := by
  fun_induction runQueues d m with
  | case1 d m r h =>
    intro q hq
    obtain ⟨hqids,hpass⟩ := pass_nil h
    show (d.pass m _).2.1.stepQueue (d.pass m _).2.2 q = none
    rw [hpass]
    refine hqids ⟨q,lt_succ_of_le hq⟩ ?_
    rw [queueIds]
    exact mem_finRange _
  | case2 d m r h ih => exact ih

def irqLine (d : NvmeDevice β) : Bool :=
  d.regs.intm &&& 1 = 0 ∧
    ((List.range (ioQueuesMax+1)).filterMap d.cqs).any fun cq => cq.ien ∧ cq.head ≠ cq.tail

def capValue : ℕ := (queueEntriesMax-1) ||| 1 <<< 16 ||| 0x0F <<< 24 ||| 1 <<< 37

def dword (d : NvmeDevice β) (reg : ℕ) : ℕ :=
  if reg = 0x00 then capValue%2^32
  else if reg = 0x04 then capValue >>> 32
  else if reg = 0x08 then 0x00010300
  else if reg = 0x0C ∨ reg = 0x10 then d.regs.intm
  else if reg = 0x14 then d.regs.cc
  else if reg = 0x1C then d.regs.csts
  else if reg = 0x24 then d.regs.aqa
  else if reg = 0x28 then d.regs.asq%2^32
  else if reg = 0x2C then d.regs.asq >>> 32
  else if reg = 0x30 then d.regs.acq%2^32
  else if reg = 0x34 then d.regs.acq >>> 32
  else 0

def mmioRead (d : NvmeDevice β) (offset size : ℕ) : ℕ :=
  (Insn.maskTo (.ofNat 64 (d.dword (offset/4*4) >>> (8*(offset%4)))) size).toNat

def resetQueues (d : NvmeDevice β) : NvmeDevice β :=
  { d with sqs := fun _ => none, cqs := fun _ => none, grantedQueues := 0, aerPending := [] }

def enable (d : NvmeDevice β) : NvmeDevice β :=
  let aqs := (d.regs.aqa &&& 0xFFF)+1
  let acs := ((d.regs.aqa >>> 16) &&& 0xFFF)+1
  if h : d.regs.cc &&& 0xF <<< 7 = 0 ∧ d.regs.cc &&& 0x7 <<< 4 = 0 ∧ d.regs.asq ≠ 0 ∧
      d.regs.acq ≠ 0 ∧ (2 ≤ aqs ∧ aqs ≤ queueEntriesMax) ∧ (2 ≤ acs ∧ acs ≤ queueEntriesMax) then
    { d with
      sqs := update (fun _ => none) 0 (some (.new d.regs.asq aqs 0 (size_pos h.2.2.2.2.1)))
      cqs := update (fun _ => none) 0 (some (.new d.regs.acq acs true (size_pos h.2.2.2.2.2)))
      regs := { d.regs with csts := 1 } }
  else { d with regs := { d.regs with csts := 2 } }

def shutdownStatus (regs : Regs) : Regs :=
  let running := regs.csts &&& (2^32-1 ^^^ 0b11 <<< 2)
  { regs with csts := if (regs.cc >>> 14) &&& 0b11 ≠ 0 then running ||| 0b10 <<< 2 else running }

def writeCc (d : NvmeDevice β) (v : ℕ) : NvmeDevice β :=
  let wasEnabled := d.regs.cc &&& 1 ≠ 0
  let d := { d with regs := { d.regs with cc := v } }
  let d :=
    if v &&& 1 ≠ 0 ∧ ¬ wasEnabled then d.enable
    else if v &&& 1 = 0 ∧ wasEnabled then
      { d.resetQueues with regs := { d.regs with csts := 0 } }
    else d
  { d with regs := shutdownStatus d.regs }

/-- The doorbell's own effect: even doorbells are tails of submission queues, odd ones heads of
completion queues. -/
def moveIndex (d : NvmeDevice β) (n index : ℕ) : NvmeDevice β :=
  if n%2 = 0 then
    match d.sqs (n/2) with
    | some sq =>
      if h : index < sq.size then
        { d with
          sqs := update d.sqs (n/2) (some { sq with tail := index, tail_lt := h }) }
      else d
    | none => d
  else
    match d.cqs (n/2) with
    | some cq =>
      if h : index < cq.size then
        { d with
          cqs := update d.cqs (n/2) (some { cq with head := index, head_lt := h }) }
      else d
    | none => d

inductive Event (β : Type) where
  | wrote (after : NvmeDevice β)
  | ran (st : Step β)

def Event.after : Event β → NvmeDevice β
  | .wrote d => d
  | .ran st => st.after

section
variable (d : NvmeDevice β)

def ring (n index : ℕ) (m : GuestMemory) : List (Event β) × NvmeDevice β × GuestMemory :=
  if d.ready = false ∨ ioQueuesMax < n/2 then ([],d,m)
  else
    let d := d.moveIndex n index
    let (steps,d',m) := d.runQueues m
    (.wrote d :: steps.map .ran,d',m)

def doorbell (offset value : ℕ) (m : GuestMemory) : List (Event β) × NvmeDevice β × GuestMemory :=
  d.ring ((offset-0x1000)/4) (value%2^16) m

def setLow (reg v : ℕ) : ℕ := reg/2^32*2^32 ||| v/2^12*2^12

def setHigh (reg v : ℕ) : ℕ := reg%2^32 ||| v <<< 32

def writeReg (offset v : ℕ) : NvmeDevice β :=
  if offset = 0x0C then { d with regs := { d.regs with intm := d.regs.intm ||| v } }
  else if offset = 0x10 then
    { d with regs := { d.regs with intm := d.regs.intm &&& (2^32-1 ^^^ v) } }
  else if offset = 0x14 then d.writeCc v
  -- The admin queue's registers are fixed while the controller is ready.
  else if d.ready then d
  else if offset = 0x24 then { d with regs := { d.regs with aqa := v } }
  else if offset = 0x28 then { d with regs := { d.regs with asq := setLow d.regs.asq v } }
  else if offset = 0x2C then { d with regs := { d.regs with asq := setHigh d.regs.asq v } }
  else if offset = 0x30 then { d with regs := { d.regs with acq := setLow d.regs.acq v } }
  else if offset = 0x34 then { d with regs := { d.regs with acq := setHigh d.regs.acq v } }
  else d

def writeDword (offset v : ℕ) (m : GuestMemory) : List (Event β) × NvmeDevice β × GuestMemory :=
  if 0x1000 ≤ offset then d.doorbell offset v m
  else
    let d := d.writeReg offset v
    ([.wrote d],d,m)

def mmioWrite (offset size val : ℕ) (m : GuestMemory) :
    List (Event β) × NvmeDevice β × GuestMemory :=
  if size = 4 then d.writeDword offset (val%2^32) m
  else if size = 8 then
    -- A 64-bit write is two dword writes, low then high.
    let (events,d,m) := d.writeDword offset (val%2^32) m
    let (events',d,m) := d.writeDword (Word.add64 offset 4) ((val >>> 32)%2^32) m
    (events ++ events',d,m)
  else ([],d,m)

end
end NvmeDevice
end Enlil.Boot
