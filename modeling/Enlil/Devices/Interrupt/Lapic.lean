import Mathlib.Data.List.Basic
import Enlil.Devices.Interrupt.Defs

/-! # Nesting of interrupts in a local APIC -/

namespace Enlil.Devices.LocalApic
open List Nat BitVec BitReg
open LapicReg (ofOffset)

inductive Op where
  | acceptInterrupt (entry : InterruptEntry)
  | acceptInterruptVector (vector : BitVec 8)
  | acceptHighestInterrupt
  | timerTick (ticks : ℕ)
  | writeRegister (offset : ℕ) (value : BitVec 32)

def Op.apply (l : LocalApic) : Op → Option ℕ × LocalApic
  | .acceptInterrupt entry => (none,(l.acceptInterrupt entry).2)
  | .acceptInterruptVector vector => (none,(l.acceptInterruptVector vector).2)
  | .acceptHighestInterrupt => l.acceptHighestInterrupt
  | .timerTick ticks => (none,(l.timerTick ticks).2)
  | .writeRegister offset value => (none,l.writeRegister offset value)

/-- A local APIC and its in-service vectors in the order in which they were taken. -/
structure Tracked where
  lapic : LocalApic
  order : List ℕ

namespace Tracked

def start (id : BitVec 8) : Tracked := ⟨.new id,[]⟩

def step (t : Tracked) (op : Op) : Tracked :=
  let (taken,lapic) := op.apply t.lapic
  ⟨lapic,(t.order ++ taken.toList).filter lapic.isr.getLsbD⟩

def run (t : Tracked) (ops : List Op) : Tracked := ops.foldl step t

end Tracked
variable {l l' : LocalApic} {v u : ℕ}

/-- Nothing enters or leaves service and no request is withdrawn. -/
structure Quiet (l l' : LocalApic) : Prop where
  isr_eq : l'.isr = l.isr
  irr_of_irr : ∀ v, l.irr.getLsbD v = true → l'.irr.getLsbD v = true
  tpr_lt : l.tpr.toNat < 256 → l'.tpr.toNat < 256

lemma Quiet.of_eq (hisr : l'.isr = l.isr) (hirr : l'.irr = l.irr) (htpr : l'.tpr = l.tpr) :
    Quiet l l' :=
  ⟨hisr,fun _ h => hirr ▸ h,fun h => htpr ▸ h⟩

section
variable (l : LocalApic)

lemma quiet_acceptInterrupt (entry : InterruptEntry) :
    Quiet l (l.acceptInterrupt entry).2 := by
  unfold acceptInterrupt
  split_ifs
  · exact .of_eq rfl rfl rfl
  · exact .of_eq rfl rfl rfl
  all_goals
    refine ⟨rfl,fun v hv => ?_,fun h => h⟩
    rw [getLsbD_or_twoPow _ _ entry.vector.isLt,hv,Bool.true_or]

lemma quiet_fireTimer : Quiet l l.fireTimer := by
  unfold fireTimer
  split_ifs
  · exact quiet_acceptInterrupt l _
  · exact .of_eq rfl rfl rfl

lemma quiet_timerTick (ticks : ℕ) : Quiet l (l.timerTick ticks).2 := by
  unfold timerTick
  dsimp only
  split_ifs
  · exact .of_eq rfl rfl rfl
  · exact .of_eq rfl rfl rfl
  · have h := quiet_fireTimer
      { l with
        timerDivideResidual := min (l.timerDivideResidual+ticks) (2^32-1)%l.timerDivisor }
    exact ⟨h.isr_eq,h.irr_of_irr,h.tpr_lt⟩
  · exact .of_eq rfl rfl rfl

lemma quiet_writeRegister {offset : ℕ} (value : BitVec 32)
    (h : ofOffset offset ≠ .eoi) : Quiet l (l.writeRegister offset value) := by
  unfold writeRegister
  cases hreg : ofOffset offset with
  | tpr =>
    refine ⟨rfl,fun _ hv => hv,fun _ => ?_⟩
    rw [writeReg,toNat_and]
    exact Nat.lt_of_le_of_lt Nat.and_le_right (by decide)
  | eoi => exact absurd hreg h
  | timerInit =>
    rw [writeReg]
    split_ifs <;> exact .of_eq rfl rfl rfl
  | selfIpi => exact quiet_acceptInterrupt l _
  | _ => exact .of_eq rfl rfl rfl

lemma writeRegister_eoi {offset : ℕ} (value : BitVec 32)
    (h : ofOffset offset = .eoi) : l.writeRegister offset value = l.handleEoi := by
  rw [writeRegister,h,writeReg]

end

inductive Effect (l : LocalApic) : Option ℕ → LocalApic → Prop
  | quiet {l' : LocalApic} (h : Quiet l l') : Effect l none l'
  | take {v : ℕ} (h : l.pendingInterrupt = some v) : Effect l (some v) (l.startServicing v)
  | retire : Effect l none l.handleEoi

lemma Op.effect (l : LocalApic) (op : Op) : Effect l (op.apply l).1 (op.apply l).2 := by
  cases op with
  | acceptInterrupt entry => exact .quiet (quiet_acceptInterrupt l entry)
  | acceptInterruptVector vector => exact .quiet (quiet_acceptInterrupt l _)
  | timerTick ticks => exact .quiet (quiet_timerTick l ticks)
  | acceptHighestInterrupt =>
    rcases hp : l.pendingInterrupt with _ | v
    · simp only [Op.apply,LocalApic.acceptHighestInterrupt,hp]
      exact .quiet (.of_eq rfl rfl rfl)
    · simp only [Op.apply,LocalApic.acceptHighestInterrupt,hp]
      exact .take hp
  | writeRegister offset value =>
    by_cases h : ofOffset offset = .eoi
    · simp only [Op.apply,writeRegister_eoi l value h]
      exact .retire
    · exact .quiet (quiet_writeRegister l value h)

lemma lt_of_getLsbD {x : BitVec 256} (h : x.getLsbD v = true) : v < 256 := by
  by_contra hge
  rw [getLsbD_of_ge x v (Nat.not_lt.mp hge)] at h
  cases h

lemma and_f0_div (n : ℕ) (h : n < 256) : (n &&& 0xF0)/16 = n/16 := by
  rw [← shiftRight_eq_div_pow _ 4,shiftRight_and_distrib]
  calc n >>> 4 &&& 2^4-1
    _ = n/16%16 := by rw [and_two_pow_sub_one_eq_mod,shiftRight_eq_div_pow]
    _ = n/16 := mod_eq_of_lt (by omega)

lemma tpr_class_le_ppr (htpr : l.tpr.toNat < 256) :
    l.tpr.toNat/16 ≤ (l.computePpr.setWidth 8).toNat/16 := by
  have hisrv : l.inServiceVector.getD 0 < 256 := by
    rcases h : l.inServiceVector with _ | v
    · exact zero_lt_succ _
    · exact lt_of_getLsbD (BitReg.highest?_eq_some.mp h).1
  unfold computePpr
  dsimp only
  split_ifs with h
  · exact Nat.le_of_eq (by rw [toNat_setWidth,mod_eq_of_lt htpr])
  · rw [BitVec.le_def,toNat_ushiftRight,toNat_ushiftRight,
      shiftRight_eq_div_pow,shiftRight_eq_div_pow,toNat_ofNat,
      mod_eq_of_lt (by omega)] at h
    have hand : (l.inServiceVector.getD 0 &&& 0xF0) ≤ 0xF0 := Nat.and_le_right
    have hppr : (BitVec.ofNat 32 (l.inServiceVector.getD 0) &&& 0xF0).toNat =
        l.inServiceVector.getD 0 &&& 0xF0 := by
      rw [toNat_and,toNat_ofNat,mod_eq_of_lt (by omega)]
      rfl
    rw [toNat_setWidth,hppr,mod_eq_of_lt (by omega),and_f0_div _ hisrv]
    omega

lemma class_le_inService (h : l.isr.getLsbD u = true) :
    u/16 ≤ l.inServiceVector.getD 0/16 := by
  rcases hs : l.inServiceVector with _ | s
  · rw [BitReg.highest?_eq_none.mp hs u (lt_of_getLsbD h)] at h
    cases h
  · refine Nat.div_le_div_right (Nat.not_lt.mp fun hlt => ?_)
    rw [(BitReg.highest?_eq_some.mp hs).2 u hlt] at h
    cases h

structure Deliverable (l : LocalApic) (v : ℕ) : Prop where
  requested : l.irr.getLsbD v = true
  highest : ∀ u, v < u → l.irr.getLsbD u = false
  above_tpr : l.tpr.toNat/16 < v/16
  above_inService : ∀ u, l.isr.getLsbD u = true → u/16 < v/16

lemma deliverable_of_pending (htpr : l.tpr.toNat < 256) (h : l.pendingInterrupt = some v) :
    Deliverable l v := by
  unfold pendingInterrupt at h
  split_ifs at h
  rcases hp : BitReg.highest? l.irr with _ | p
  · rw [hp] at h
    cases h
  · simp only [hp] at h
    split_ifs at h with hclass
    obtain rfl := Option.some.inj h
    obtain ⟨hreq,hhigh⟩ := BitReg.highest?_eq_some.mp hp
    exact ⟨hreq,hhigh,Nat.lt_of_le_of_lt (tpr_class_le_ppr htpr) hclass.1,
      fun u hu => Nat.lt_of_le_of_lt (class_le_inService hu) hclass.2⟩

lemma getLsbD_isr_startServicing (hv : v < 256) :
    (l.startServicing v).isr.getLsbD u = (l.isr.getLsbD u || decide (v = u)) :=
  getLsbD_or_twoPow _ _ hv

namespace Tracked
variable {t : Tracked}

/-- The order lists the in-service vectors by rising class. -/
structure Nested (t : Tracked) : Prop where
  tpr_lt : t.lapic.tpr.toNat < 256
  mem_order : ∀ v, v ∈ t.order ↔ t.lapic.isr.getLsbD v = true
  rising : t.order.Pairwise fun a b => a/16 < b/16

lemma nested_start (id : BitVec 8) : Nested (start id) where
  tpr_lt := zero_lt_succ _
  mem_order v := by simp [start,new]
  rising := .nil

lemma step_eq {taken : Option ℕ} (op : Op) (htaken : (op.apply t.lapic).1 = taken)
    (hl : (op.apply t.lapic).2 = l') :
    t.step op = ⟨l',(t.order ++ taken.toList).filter l'.isr.getLsbD⟩ := by
  rw [← htaken,← hl]
  rfl

section
variable (h : Nested t)
include h

lemma Nested.filter_eq_self (hisr : l'.isr = t.lapic.isr) :
    (t.order ++ []).filter l'.isr.getLsbD = t.order := by
  rw [append_nil,hisr]
  exact List.filter_eq_self.mpr fun v hv => (h.mem_order v).mp hv

lemma Nested.order_take (hp : t.lapic.pendingInterrupt = some v) :
    (t.order ++ [v]).filter (t.lapic.startServicing v).isr.getLsbD = t.order ++ [v] := by
  have hd := deliverable_of_pending h.tpr_lt hp
  refine List.filter_eq_self.mpr fun u hu => ?_
  rw [getLsbD_isr_startServicing (lt_of_getLsbD hd.requested)]
  rcases mem_append.mp hu with hu | hu
  · rw [(h.mem_order u).mp hu,Bool.true_or]
  · rw [mem_singleton.mp hu,decide_eq_true rfl,Bool.or_true]

lemma Nested.inServiceVector_eq {init : List ℕ} {top : ℕ}
    (horder : t.order = init ++ [top]) : t.lapic.inServiceVector = some top := by
  refine BitReg.highest?_eq_some.mpr ⟨(h.mem_order top).mp (by simp [horder]),fun u hu => ?_⟩
  by_contra hin
  have hmem := (h.mem_order u).mpr (Bool.not_eq_false _ ▸ hin)
  have hrising := h.rising
  rw [horder] at hmem hrising
  rcases mem_append.mp hmem with hmem | hmem
  · have := (pairwise_append.mp hrising).2.2 u hmem top (mem_singleton_self top)
    omega
  · exact absurd (mem_singleton.mp hmem) (by omega)

lemma Nested.order_retire :
    (t.order ++ []).filter t.lapic.handleEoi.isr.getLsbD = t.order.dropLast := by
  rw [append_nil]
  rcases eq_nil_or_concat t.order with horder | ⟨init,top,horder⟩
  · rw [horder]
    rfl
  · rw [concat_eq_append] at horder
    have htop := h.inServiceVector_eq horder
    have hlt : top < 256 := lt_of_getLsbD (BitReg.highest?_eq_some.mp htop).1
    have hrising := h.rising
    rw [horder] at hrising
    simp only [handleEoi,htop,horder,dropLast_concat,filter_append]
    rw [List.filter_eq_self.mpr,filter_eq_nil_iff.mpr,append_nil]
    · intro u hu
      rw [mem_singleton.mp hu,getLsbD_clear_twoPow _ _ hlt]
      simp
    · intro u hu
      have hclass := (pairwise_append.mp hrising).2.2 u hu top (mem_singleton_self top)
      rw [getLsbD_clear_twoPow _ _ hlt,(h.mem_order u).mp (by simp [horder,hu]),
        decide_eq_true (by rintro rfl; omega),Bool.and_true]

lemma Nested.isr_retire (v : ℕ) :
    v ∈ t.order.dropLast ↔ t.lapic.handleEoi.isr.getLsbD v = true := by
  rw [← h.order_retire,append_nil,mem_filter]
  refine ⟨And.right,fun hv => ⟨(h.mem_order v).mpr ?_,hv⟩⟩
  rcases hs : t.lapic.inServiceVector with _ | s
  · simpa only [handleEoi,hs] using hv
  · simp only [handleEoi,hs] at hv
    rw [getLsbD_and] at hv
    exact (Bool.and_eq_true_iff.mp hv).1

lemma Nested.step (op : Op) : Nested (t.step op) := by
  generalize htaken : (op.apply t.lapic).1 = taken
  generalize hl : (op.apply t.lapic).2 = l'
  have heffect := op.effect t.lapic
  rw [htaken,hl] at heffect
  rw [step_eq op htaken hl]
  cases heffect with
  | quiet hq =>
    rw [Option.toList_none,h.filter_eq_self hq.isr_eq]
    exact ⟨hq.tpr_lt h.tpr_lt,fun v => by rw [hq.isr_eq,h.mem_order],h.rising⟩
  | take hp =>
    have hd := deliverable_of_pending h.tpr_lt hp
    rw [Option.toList_some,h.order_take hp]
    refine ⟨h.tpr_lt,fun u => ?_, pairwise_append.mpr ⟨h.rising,pairwise_singleton _ _,?_⟩⟩
    · rw [getLsbD_isr_startServicing (lt_of_getLsbD hd.requested),mem_append,h.mem_order,
        mem_singleton,Bool.or_eq_true,decide_eq_true_iff,@eq_comm ℕ u]
    · intro u hu w hw
      rw [mem_singleton.mp hw]
      exact hd.above_inService u ((h.mem_order u).mp hu)
  | retire =>
    rw [Option.toList_none,h.order_retire]
    refine ⟨?_,h.isr_retire,h.rising.sublist (dropLast_sublist _)⟩
    unfold handleEoi
    split
    · exact h.tpr_lt
    · exact h.tpr_lt

lemma Nested.run (ops : List Op) : Nested (t.run ops) := by
  induction ops generalizing t with
  | nil => exact h
  | cons op ops ih => exact ih (h.step op)

lemma Nested.taken_of_irr {op : Op} (hreq : t.lapic.irr.getLsbD v = true)
    (hgone : (t.step op).lapic.irr.getLsbD v = false) :
    (op.apply t.lapic).1 = some v ∧ (t.step op).lapic.isr.getLsbD v = true := by
  generalize htaken : (op.apply t.lapic).1 = taken
  generalize hl : (op.apply t.lapic).2 = l'
  have heffect := op.effect t.lapic
  rw [htaken,hl] at heffect
  rw [step_eq op htaken hl] at hgone ⊢
  cases heffect with
  | quiet hq =>
    rw [hq.irr_of_irr v hreq] at hgone
    cases hgone
  | @take w hp =>
    have hw : w < 256 := lt_of_getLsbD (deliverable_of_pending h.tpr_lt hp).requested
    have hirr : (t.lapic.startServicing w).irr.getLsbD v =
        (t.lapic.irr.getLsbD v && decide (w ≠ v)) :=
      getLsbD_clear_twoPow _ _ hw
    have hwv : w = v := by
      by_contra hne
      rw [hirr,hreq,decide_eq_true hne] at hgone
      cases hgone
    rw [hwv,getLsbD_isr_startServicing (hwv ▸ hw),decide_eq_true rfl,Bool.or_true]
    exact ⟨rfl,rfl⟩
  | retire =>
    have hirr : t.lapic.handleEoi.irr = t.lapic.irr := by
      unfold handleEoi
      split <;> rfl
    rw [hirr,hreq] at hgone
    cases hgone

end

/-- The vectors in service have rising priority classes in the order in which they were taken. An
end of interrupt retires the last of them. A vector is taken only as the highest request and above
every class in service. -/
theorem run_nested (id : BitVec 8) (ops : List Op) :
    let t := (start id).run ops
    (∀ v, v ∈ t.order ↔ t.lapic.isr.getLsbD v = true) ∧
    (t.order.Pairwise fun a b => a/16 < b/16) ∧
    (∀ value, (t.step (.writeRegister 0x0B0 value)).order = t.order.dropLast ∧
      ∀ v, v ∈ t.order.dropLast ↔
        (t.step (.writeRegister 0x0B0 value)).lapic.isr.getLsbD v = true) ∧
    (∀ v, t.lapic.acceptHighestInterrupt.1 = some v →
      Deliverable t.lapic v ∧ (t.step .acceptHighestInterrupt).order = t.order ++ [v]) ∧
    ∀ op v, t.lapic.irr.getLsbD v = true → (t.step op).lapic.irr.getLsbD v = false →
      (op.apply t.lapic).1 = some v ∧ (t.step op).lapic.isr.getLsbD v = true := by
  intro t
  have h : Nested t := (nested_start id).run ops
  refine ⟨h.mem_order,h.rising,fun value => ?_,fun v hv => ?_,fun op v => h.taken_of_irr⟩
  · have heoi := writeRegister_eoi t.lapic value (show ofOffset 0x0B0 = .eoi from rfl)
    rw [step_eq (.writeRegister 0x0B0 value) rfl heoi]
    exact ⟨h.order_retire,h.isr_retire⟩
  · rcases hp : t.lapic.pendingInterrupt with _ | w
    · simp only [acceptHighestInterrupt,hp,reduceCtorEq] at hv
    · simp only [acceptHighestInterrupt,hp,Option.some.injEq] at hv
      subst hv
      refine ⟨deliverable_of_pending h.tpr_lt hp,?_⟩
      have happly : Op.apply t.lapic .acceptHighestInterrupt =
          (some w,t.lapic.startServicing w) := by
        simp only [Op.apply,acceptHighestInterrupt,hp]
      rw [step_eq _ (congrArg Prod.fst happly) (congrArg Prod.snd happly)]
      exact h.order_take hp

/-- A software-enabled local APIC takes 0x31, then the higher 0x42 while 0x31 is in service. -/
theorem run_nested_two : ((start 0).run [.writeRegister 0x0F0 0x1FF,.acceptInterruptVector 0x31,
      .acceptHighestInterrupt,.acceptInterruptVector 0x42,.acceptInterruptVector 0x35,
      .acceptHighestInterrupt,.acceptHighestInterrupt]).order = [0x31,0x42] ∧
    [0x31,0x42].Pairwise fun a b => a/16 < b/16 := by
  have horder : ((start 0).run [.writeRegister 0x0F0 0x1FF,.acceptInterruptVector 0x31,
      .acceptHighestInterrupt,.acceptInterruptVector 0x42,.acceptInterruptVector 0x35,
      .acceptHighestInterrupt,.acceptHighestInterrupt]).order = [0x31,0x42] := by decide +kernel
  exact ⟨horder,horder ▸ (run_nested 0 _).2.1⟩

end Tracked
end Enlil.Devices.LocalApic
