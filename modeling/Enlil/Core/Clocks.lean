import Enlil.Core.LapicTimer
import Enlil.Devices.Interrupt.Pic
import Enlil.Devices.Timer.Defs

/-! # The platform clocks over many calls: model of `StandardPc::advance_clocks` -/

namespace Enlil.Core
open Enlil.Devices AcpiPmTimer ApicTimer

structure StandardPc where
  pit : Pit
  pmTimer : AcpiPmTimer
  hpet : Hpet
  rtc : Rtc146818
  pic : DualPic
  ioapic : InterruptController

namespace StandardPc

def irqPit : ℕ := 0
def irqRtc : ℕ := 8
def lapicTimerInputHz : ℕ := 1000000000

def isaToGsi (irq : ℕ) : ℕ := if irq = 0 then 2 else irq

def apicLine (pc : StandardPc) (gsi : ℕ) (level : Bool) : StandardPc :=
  { pc with ioapic := if level then pc.ioapic.deliverIrq gsi else pc.ioapic.clearIrq gsi }

section
variable (pc : StandardPc) (irq : ℕ) (level : Bool)

def picLine : StandardPc :=
  { pc with pic := pc.pic.setIrqLevel irq level }

def dualIrqLine : StandardPc :=
  (pc.picLine irq level).apicLine (isaToGsi irq) level

end

def pulsePit : ℕ → StandardPc → StandardPc
  | 0, pc => pc
  | n+1, pc => pulsePit n ((pc.dualIrqLine irqPit true).dualIrqLine irqPit false)

section
variable (pc : StandardPc)

/-- Deliver a timer of the HPET as an edge. In legacy replacement mode timers 0 and 1 stand in for
the PIT and the RTC. -/
def deliverHpet (fired : ℕ × ℕ) : StandardPc :=
  if pc.hpet.legacyRouting ∧ fired.1 ≤ 1 then
    let isa := if fired.1 = 0 then irqPit else irqRtc
    let pc := (pc.picLine isa true).picLine isa false
    (pc.apicLine (isaToGsi isa) true).apicLine (isaToGsi isa) false
  else (pc.apicLine fired.2 true).apicLine fired.2 false

def lapicClocks (ns : ℕ) : ℕ := min (ns*lapicTimerInputHz/1000000000) (2^32-1)

def tickLapics (clocks : ℕ) : StandardPc :=
  if 0 < clocks then
    { pc with ioapic.lapics := pc.ioapic.lapics.map fun l =>
        if l.enabled then (l.timerTick clocks).2 else l }
  else pc

def tickRtc (ns : ℕ) : StandardPc :=
  let pc' := { pc with rtc := (pc.rtc.advancePeriodic ns).2 }
  if (pc.rtc.advancePeriodic ns).1 then pc'.dualIrqLine irqRtc true else pc'

def advanceClocks (ns : ℕ) : List (ℕ × ℕ) × StandardPc :=
  let pc := pulsePit (pc.pit.tick ns).1 { pc with pit := (pc.pit.tick ns).2 }
  let pc := { pc with pmTimer := pc.pmTimer.advance (AcpiPmTimer.nsToTicks ns) }
  let fired := (pc.hpet.tick (ns/Hpet.tickNs)).1
  let pc := { pc with hpet := (pc.hpet.tick (ns/Hpet.tickNs)).2 }
  let pc := fired.foldl deliverHpet pc
  (fired,(pc.tickLapics (lapicClocks ns)).tickRtc ns)

def run (calls : List ℕ) : StandardPc :=
  calls.foldl (fun pc ns => (pc.advanceClocks ns).2) pc

end
end StandardPc

/-! ### The counters -/

structure Counts where
  pit : Pit
  pmTimer : BitVec 32
  hpetEnabled : Bool
  hpet : BitVec 64
  lapics : List ApicTimer

namespace Counts

def advance (c : Counts) (ns : ℕ) : Counts :=
  { c with
    pit := (c.pit.tick ns).2
    pmTimer := c.pmTimer+AcpiPmTimer.nsToTicks ns
    hpet := if c.hpetEnabled then c.hpet+BitVec.ofNat 64 (ns/Hpet.tickNs) else c.hpet
    lapics := c.lapics.map fun t => t.tick (StandardPc.lapicClocks ns) }

end Counts
namespace StandardPc
variable {pc : StandardPc} {l l' : LocalApic} {ns : ℕ}

def counts (pc : StandardPc) : Counts :=
  ⟨pc.pit,pc.pmTimer.counter,pc.hpet.isEnabled,pc.hpet.counter,pc.ioapic.lapics.map .of⟩

lemma of_delivered (h : LocalApic.Delivered l l') : of l' = of l := by
  obtain ⟨irr,tmr,rfl⟩ := h.eq
  rfl

lemma map_of_deliveredAll {ls ls' : List LocalApic}
    (h : InterruptController.DeliveredAll ls ls') : ls'.map of = ls.map of := by
  refine List.ext_getElem? fun i => ?_
  rw [List.getElem?_map,List.getElem?_map]
  have hi := h i
  generalize ls[i]? = o, ls'[i]? = o' at hi
  cases hi with
  | none => rfl
  | some hd => rw [Option.map_some,Option.map_some,of_delivered hd]

-- An interrupt line does not touch the counters.

lemma map_of_deliverIrq (c : InterruptController) (irq : ℕ) :
    (c.deliverIrq irq).lapics.map of = c.lapics.map of := by
  unfold InterruptController.deliverIrq
  split
  · next route ioapic _ =>
    exact map_of_deliveredAll
      (InterruptController.deliveredAll_deliverRoute { c with ioapic := ioapic } route)
  · rfl

section
variable (pc : StandardPc)

@[simp]
lemma counts_apicLine (gsi : ℕ) (level : Bool) :
    (pc.apicLine gsi level).counts = pc.counts := by
  cases level with
  | false => rfl
  | true => simp only [counts,apicLine,if_true,map_of_deliverIrq]

@[simp]
lemma counts_picLine (irq : ℕ) (level : Bool) : (pc.picLine irq level).counts = pc.counts := rfl

@[simp]
lemma counts_dualIrqLine (irq : ℕ) (level : Bool) :
    (pc.dualIrqLine irq level).counts = pc.counts := by
  rw [dualIrqLine,counts_apicLine,counts_picLine]

lemma counts_pulsePit (n : ℕ) (pc : StandardPc) : (pulsePit n pc).counts = pc.counts := by
  induction n generalizing pc with
  | zero => rfl
  | succ n ih => rw [pulsePit,ih,counts_dualIrqLine,counts_dualIrqLine]

lemma counts_deliverHpet (fired : ℕ × ℕ) :
    (pc.deliverHpet fired).counts = pc.counts := by
  unfold deliverHpet
  split_ifs <;> simp

lemma counts_deliverAll (fired : List (ℕ × ℕ)) (pc : StandardPc) :
    (fired.foldl deliverHpet pc).counts = pc.counts := by
  induction fired generalizing pc with
  | nil => rfl
  | cons f fired ih => rw [List.foldl_cons,ih,counts_deliverHpet]

lemma counts_tickRtc (ns : ℕ) : (pc.tickRtc ns).counts = pc.counts := by
  unfold tickRtc
  dsimp only
  split_ifs
  · rw [counts_dualIrqLine]
    rfl
  · rfl

lemma of_timerTick (l : LocalApic) {clocks : ℕ} (h : 0 < clocks) :
    of (if l.enabled then (l.timerTick clocks).2 else l) =
      (of l).tick clocks := by
  by_cases hen : l.enabled = true
  · rw [if_pos hen]
    by_cases hstop : l.Stopped
    · have hruns : ¬((of l).Runs ∧ 0 < clocks) := by
        rintro ⟨⟨-,hinit,hmode⟩,-⟩
        exact hstop.elim hinit hmode
      rw [LocalApic.timerTick,if_pos hstop,tick,if_neg hruns]
    · have hruns : (of l).Runs ∧ 0 < clocks :=
        ⟨⟨hen,fun h => hstop (.inl h),fun h => hstop (.inr h)⟩,h⟩
      rw [LocalApic.timerTick_eq hstop,LocalApic.of_elapse,tick,if_pos hruns,
        show (l.divided clocks).1 = _ from zero_add _]
      rfl
  · have hruns : ¬((of l).Runs ∧ 0 < clocks) := fun hr => hen hr.1.1
    rw [if_neg hen,tick,if_neg hruns]

lemma counts_tickLapics (clocks : ℕ) : (pc.tickLapics clocks).counts =
    { pc.counts with lapics := pc.counts.lapics.map fun t => t.tick clocks } := by
  unfold tickLapics
  split_ifs with h
  · simp only [counts,List.map_map,Counts.mk.injEq,true_and]
    exact List.map_congr_left fun l _ => of_timerTick l h
  · have hid : (fun t : ApicTimer => t.tick clocks) = id := by
      funext t
      rw [tick,if_neg fun hr => h hr.2]
      rfl
    rw [hid,List.map_id]

lemma counts_hpetTick (ticks : ℕ) :
    counts { pc with hpet := (pc.hpet.tick ticks).2 } =
      { pc.counts with
        hpet := if pc.counts.hpetEnabled then pc.counts.hpet+BitVec.ofNat 64 ticks
                else pc.counts.hpet } := by
  unfold counts Hpet.tick
  dsimp only
  cases hen : pc.hpet.isEnabled
  · simp only [Bool.not_false,if_true,hen,Bool.false_eq_true,if_false]
  · simp only [Bool.not_true,Bool.false_eq_true,if_false,if_true,Hpet.isEnabled] at hen ⊢
    rw [hen]

lemma counts_advanceClocks (ns : ℕ) :
    (pc.advanceClocks ns).2.counts = pc.counts.advance ns := by
  unfold advanceClocks
  dsimp only
  rw [counts_tickRtc,counts_tickLapics,counts_deliverAll]
  generalize hpc₁ : pulsePit (pc.pit.tick ns).1 { pc with pit := (pc.pit.tick ns).2 } = pc₁
  have hcounts : pc₁.counts = { pc.counts with pit := (pc.pit.tick ns).2 } := by
    rw [← hpc₁,counts_pulsePit]
    rfl
  have hhpet := counts_hpetTick
    { pc₁ with pmTimer := pc₁.pmTimer.advance (nsToTicks ns) } (ns/Hpet.tickNs)
  have hpm : counts { pc₁ with pmTimer := pc₁.pmTimer.advance (nsToTicks ns) } =
      { pc₁.counts with pmTimer := pc₁.counts.pmTimer+nsToTicks ns } := rfl
  rw [hpm,hcounts] at hhpet
  rw [hhpet]
  rfl

end
end StandardPc

/-! ### Clocks that carry their remainder -/

namespace ApicTimer
variable {t : ApicTimer} {a b : ℕ}

lemma tick_of_runs (h : t.Runs) (hlt : t.residual+a < 2^32) :
    t.tick a = { t with
      residual := if a = 0 then t.residual else (t.residual+a)%t.divisor
      current := if a = 0 then t.current else t.countdown ((t.residual+a)/t.divisor) } := by
  unfold tick
  by_cases ha : a = 0
  · rw [if_neg (by omega),if_pos ha,if_pos ha]
  · rw [if_pos ⟨h,by omega⟩,if_neg ha,if_neg ha,Nat.min_eq_left (by omega)]

lemma tick_of_not_runs (h : ¬t.Runs) : t.tick a = t := if_neg fun hr => h hr.1

lemma runs_tick : (t.tick a).Runs ↔ t.Runs := by
  unfold tick
  split_ifs <;> rfl

lemma residual_tick_le (hlt : t.residual+a < 2^32) :
    (t.tick a).residual ≤ t.residual+a := by
  by_cases h : t.Runs
  · rw [tick_of_runs h hlt]
    split_ifs
    · exact Nat.le_add_right _ _
    · exact Nat.mod_le _ _
  · rw [tick_of_not_runs h]
    exact Nat.le_add_right _ _

lemma tick_tick (hlt : t.residual+a+b < 2^32) : (t.tick a).tick b = t.tick (a+b) := by
  by_cases h : t.Runs
  · by_cases ha : a = 0
    · rw [ha,zero_add,tick_of_runs h (by omega : t.residual+0 < 2^32),if_pos rfl,if_pos rfl]
    by_cases hb : b = 0
    · have hle := residual_tick_le (t := t) (a := a) (by omega)
      rw [hb,add_zero,tick_of_runs (runs_tick.mpr h) (by omega),if_pos rfl,if_pos rfl]
    have hle := residual_tick_le (t := t) (a := a) (by omega)
    rw [tick_of_runs (runs_tick.mpr h) (by omega),tick_of_runs h (by omega : t.residual+a < _),
      tick_of_runs h (by omega)]
    simp only [if_neg ha,if_neg hb,if_neg (show a+b ≠ 0 by omega)]
    rw [countdown_countdown t h.2.1,Ticks.div_add_carry_div t.divisor_pos,Nat.mod_add_mod,
      add_assoc]
  · rw [tick_of_not_runs h,tick_of_not_runs h,tick_of_not_runs h]

lemma lapicClocks_eq {ns : ℕ} (h : ns < 2^32) : StandardPc.lapicClocks ns = ns := by
  rw [StandardPc.lapicClocks,StandardPc.lapicTimerInputHz,Nat.mul_div_cancel _ (by decide),
    Nat.min_eq_left (by omega)]

lemma foldl_tick (calls : List ℕ) (h : t.Runs → t.residual+calls.sum < 2^32) :
    calls.foldl (fun t ns => t.tick (StandardPc.lapicClocks ns)) t =
      t.tick (StandardPc.lapicClocks calls.sum) := by
  by_cases hr : t.Runs
  · have hsum := h hr
    clear h
    rw [lapicClocks_eq (by omega)]
    induction calls generalizing t with
    | nil => exact (if_neg fun hr => lt_irrefl 0 hr.2).symm
    | cons ns calls ih =>
      rw [List.sum_cons] at hsum ⊢
      have hle := residual_tick_le (t := t) (a := ns) (by omega)
      rw [List.foldl_cons,lapicClocks_eq (by omega),ih (runs_tick.mpr hr) (by omega),
        tick_tick (by omega)]
  · rw [tick_of_not_runs hr]
    induction calls with
    | nil => rfl
    | cons ns calls ih => rw [List.foldl_cons,tick_of_not_runs hr,ih fun h => absurd h hr]

end ApicTimer
end Enlil.Core
namespace Enlil.Devices.Pit
variable {p : Pit} {a b : ℕ}

lemma nsPerTick_pos : 0 < nsPerTick := by decide

lemma clocks_add (m n : ℕ) (p : Pit) : (clocks (m+n) p).2 = (clocks n (clocks m p).2).2 := by
  induction m generalizing p with
  | zero => rw [zero_add,clocks]
  | succ m ih => rw [Nat.succ_add,clocks,ih,clocks]

lemma clocks_accumulator (n acc : ℕ) (hacc : acc < nsPerTick) (p : Pit) :
    (clocks n { p with accumulatorNs := acc, accumulatorNs_lt := hacc }).2 =
      { (clocks n p).2 with accumulatorNs := acc, accumulatorNs_lt := hacc } := by
  induction n generalizing p with
  | zero => rfl
  | succ n ih => exact ih p.clock.2

lemma tick_eq (h : p.accumulatorNs+a < 2^64) :
    (p.tick a).2 = { (clocks ((p.accumulatorNs+a)/nsPerTick) p).2 with
      accumulatorNs := (p.accumulatorNs+a)%nsPerTick
      accumulatorNs_lt := Nat.mod_lt _ (by decide) } := by
  simp only [tick,Word.add64_of_lt h]
  exact clocks_accumulator _ _ _ p

lemma tick_zero (p : Pit) : (p.tick 0).2 = p := by
  have hlt : p.accumulatorNs < 838 := p.accumulatorNs_lt
  rw [tick_eq (by omega)]
  simp only [add_zero,Nat.div_eq_of_lt p.accumulatorNs_lt,
    Nat.mod_eq_of_lt p.accumulatorNs_lt,clocks]

lemma tick_tick (h : p.accumulatorNs+a+b < 2^64) :
    ((p.tick a).2.tick b).2 = (p.tick (a+b)).2 := by
  have hmod := Nat.mod_le (p.accumulatorNs+a) nsPerTick
  rw [tick_eq (by omega : p.accumulatorNs+a < 2^64),tick_eq,tick_eq (by omega)]
  · simp only [clocks_accumulator,← clocks_add,Ticks.div_add_carry_div nsPerTick_pos,
      Nat.mod_add_mod,add_assoc]
  · dsimp only
    omega

lemma foldl_tick (calls : List ℕ) (h : p.accumulatorNs+calls.sum < 2^64) :
    calls.foldl (fun p ns => (p.tick ns).2) p = (p.tick calls.sum).2 := by
  induction calls generalizing p with
  | nil => exact (tick_zero p).symm
  | cons ns calls ih =>
    rw [List.sum_cons] at h ⊢
    have hlt : (p.tick ns).2.accumulatorNs ≤ p.accumulatorNs+ns := by
      rw [tick_eq (by omega)]
      exact Nat.mod_le _ _
    rw [List.foldl_cons,ih (by omega),tick_tick (by omega)]

end Enlil.Devices.Pit
namespace Enlil.Core
open Enlil.Devices

/-! ### Runs
-/

namespace Counts
variable {c : Counts}

lemma foldl_advance (calls : List ℕ) (c : Counts) (hen : c.hpetEnabled = true) :
    calls.foldl advance c =
      { c with
        pit := calls.foldl (fun p ns => (p.tick ns).2) c.pit
        pmTimer := c.pmTimer+BitVec.ofNat 32
          (calls.map fun ns => ns*AcpiPmTimer.freqHz/AcpiPmTimer.nanosPerSec).sum
        hpet := c.hpet+BitVec.ofNat 64 (calls.map (·/Hpet.tickNs)).sum
        lapics := c.lapics.map fun t =>
          calls.foldl (fun t ns => t.tick (StandardPc.lapicClocks ns)) t } := by
  induction calls generalizing c with
  | nil => simp
  | cons ns calls ih =>
    have hadvance : c.advance ns = { c with
        pit := (c.pit.tick ns).2
        pmTimer := c.pmTimer+AcpiPmTimer.nsToTicks ns
        hpet := c.hpet+BitVec.ofNat 64 (ns/Hpet.tickNs)
        lapics := c.lapics.map fun t => t.tick (StandardPc.lapicClocks ns) } := by
      rw [advance,if_pos hen]
    rw [List.foldl_cons,ih (c.advance ns) hen,hadvance]
    simp only [List.foldl_cons,List.map_cons,List.sum_cons,List.map_map,BitVec.ofNat_add,
      BitVec.add_assoc,AcpiPmTimer.nsToTicks,Function.comp_def]

end Counts
namespace StandardPc
variable {pc : StandardPc} {calls : List ℕ}

lemma counts_run (pc : StandardPc) (calls : List ℕ) :
    (pc.run calls).counts = calls.foldl Counts.advance pc.counts := by
  induction calls generalizing pc with
  | nil => rfl
  | cons ns calls ih =>
    rw [List.foldl_cons,← counts_advanceClocks,← ih]
    rfl

/-- Many calls count like one call for the whole time. -/
structure DriftFree (pc : StandardPc) (calls : List ℕ) : Prop where
  hpet : (pc.run calls).hpet.counter = pc.hpet.counter+BitVec.ofNat 64 (calls.sum/Hpet.tickNs)
  pmTimer : (pc.run calls).pmTimer.counter = pc.pmTimer.counter +
    BitVec.ofNat 32 (calls.sum*AcpiPmTimer.freqHz/AcpiPmTimer.nanosPerSec)
  counts : (pc.run calls).counts = (pc.advanceClocks calls.sum).2.counts

section
variable (calls : List ℕ)

/-- The times that the calls leave short of a tick do not make up one together, for the HPET and
for the PM timer. -/
def Exact : Prop :=
  (calls.map (·%Hpet.tickNs)).sum < Hpet.tickNs ∧
  (calls.map fun ns => ns*AcpiPmTimer.freqHz%AcpiPmTimer.nanosPerSec).sum /
    AcpiPmTimer.nanosPerSec%2^32 = 0

lemma hpet_ticks : (calls.map (·/Hpet.tickNs)).sum +
    (calls.map (·%Hpet.tickNs)).sum/Hpet.tickNs = calls.sum/Hpet.tickNs :=
  Ticks.sum_div_add_sum_mod (by decide) calls

lemma sum_map_mul (k : ℕ) : (calls.map (·*k)).sum = calls.sum*k := by
  induction calls with
  | nil => simp
  | cons ns calls ih => rw [List.map_cons,List.sum_cons,List.sum_cons,ih,add_mul]

lemma pm_ticks : (calls.map fun ns => ns*AcpiPmTimer.freqHz/AcpiPmTimer.nanosPerSec).sum +
      (calls.map fun ns => ns*AcpiPmTimer.freqHz%AcpiPmTimer.nanosPerSec).sum /
        AcpiPmTimer.nanosPerSec = calls.sum*AcpiPmTimer.freqHz/AcpiPmTimer.nanosPerSec := by
  have h := Ticks.sum_div_add_sum_mod (show 0 < AcpiPmTimer.nanosPerSec by decide)
    (calls.map (·*AcpiPmTimer.freqHz))
  rwa [List.map_map,List.map_map,sum_map_mul] at h

lemma run_hpet_iff (hen : pc.hpet.isEnabled = true) : (pc.run calls).hpet.counter =
      pc.hpet.counter+BitVec.ofNat 64 (calls.sum/Hpet.tickNs) ↔
    (calls.map (·%Hpet.tickNs)).sum/Hpet.tickNs%2^64 = 0 := by
  have hrun : (pc.run calls).hpet.counter =
      pc.hpet.counter+BitVec.ofNat 64 (calls.map (·/Hpet.tickNs)).sum := by
    have h := congrArg Counts.hpet (counts_run pc calls)
    rwa [Counts.foldl_advance calls pc.counts hen] at h
  rw [hrun,← hpet_ticks,Ticks.counter_eq_iff]

lemma run_pmTimer_iff (hen : pc.hpet.isEnabled = true) : (pc.run calls).pmTimer.counter =
      pc.pmTimer.counter + BitVec.ofNat 32 (calls.sum*AcpiPmTimer.freqHz/AcpiPmTimer.nanosPerSec) ↔
    (calls.map fun ns => ns*AcpiPmTimer.freqHz%AcpiPmTimer.nanosPerSec).sum /
      AcpiPmTimer.nanosPerSec%2^32 = 0 := by
  have hrun : (pc.run calls).pmTimer.counter = pc.pmTimer.counter+BitVec.ofNat 32
      (calls.map fun ns => ns*AcpiPmTimer.freqHz/AcpiPmTimer.nanosPerSec).sum := by
    have h := congrArg Counts.pmTimer (counts_run pc calls)
    rwa [Counts.foldl_advance calls pc.counts hen] at h
  rw [hrun,← pm_ticks,Ticks.counter_eq_iff]

end

lemma hpet_exact_iff (hfit : calls.sum < 2^64) :
    (calls.map (·%Hpet.tickNs)).sum/Hpet.tickNs%2^64 = 0 ↔
      (calls.map (·%Hpet.tickNs)).sum < Hpet.tickNs := by
  have hle : (calls.map (·%Hpet.tickNs)).sum ≤ calls.sum := by
    have h := Ticks.mul_sum_div_add_sum_mod Hpet.tickNs calls
    omega
  rw [Nat.mod_eq_of_lt (lt_of_le_of_lt (Nat.div_le_self _ _) (by omega)),
    Nat.div_eq_zero_iff_lt (by decide)]

/-- Splitting a time into shorter calls leaves no clock behind iff the remainders of the calls do
not add up to a tick of the HPET or the PM timer. The whole time fits the accumulators. -/
theorem driftFree_iff (pc : StandardPc) (calls : List ℕ) (hen : pc.hpet.isEnabled = true)
    (hpit : pc.pit.accumulatorNs+calls.sum < 2^64)
    (hlapic : ∀ l ∈ pc.ioapic.lapics, (ApicTimer.of l).Runs →
      l.timerDivideResidual+calls.sum < 2^32) :
    DriftFree pc calls ↔ Exact calls := by
  constructor
  · intro h
    exact ⟨(hpet_exact_iff (by omega)).mp ((run_hpet_iff calls hen).mp h.hpet),
      (run_pmTimer_iff calls hen).mp h.pmTimer⟩
  · rintro ⟨hhpet,hpm⟩
    have hhpet := (run_hpet_iff calls hen).mpr ((hpet_exact_iff (by omega)).mpr hhpet)
    have hpm := (run_pmTimer_iff calls hen).mpr hpm
    refine ⟨hhpet,hpm,?_⟩
    have hcounts := (counts_run pc calls).trans (Counts.foldl_advance calls pc.counts hen)
    rw [counts_advanceClocks,Counts.advance,if_pos (show pc.counts.hpetEnabled = true from hen)]
    have hpit' : (pc.run calls).counts.pit = (pc.counts.pit.tick calls.sum).2 := by
      rw [hcounts]
      exact Pit.foldl_tick calls hpit
    have hlapics : (pc.run calls).counts.lapics =
        pc.counts.lapics.map fun t => t.tick (lapicClocks calls.sum) := by
      rw [hcounts]
      refine List.map_congr_left fun t ht => ApicTimer.foldl_tick calls fun hr => ?_
      obtain ⟨l,hl,rfl⟩ := List.mem_map.mp ht
      exact hlapic l hl hr
    have hen' : (pc.run calls).counts.hpetEnabled = pc.counts.hpetEnabled := by
      rw [hcounts]
    rw [← hpit',← hlapics,← hen']
    exact congrArg₂ (fun pm hpet => { (pc.run calls).counts with pmTimer := pm, hpet := hpet })
      hpm hhpet

def hpetOn : StandardPc :=
  ⟨.new,⟨0⟩,{ Hpet.new with config := 1 },.new,.new,.new 1⟩

theorem driftFree_fifths : DriftFree hpetOn [200000000,600000000] :=
  (driftFree_iff hpetOn [200000000,600000000] (by decide) (by decide)
    (by decide +kernel)).mpr ⟨by decide,by decide⟩

/-- Two calls of 50 ns do not advance the HPET, one call of 100 ns does. -/
theorem drift_two_calls : (hpetOn.run [50,50]).hpet.counter = 0 ∧
      (hpetOn.advanceClocks 100).2.hpet.counter = 1 ∧ ¬DriftFree hpetOn [50,50] := by
  have hsplit : (hpetOn.run [50,50]).hpet.counter = 0 := by decide +kernel
  refine ⟨hsplit,by decide +kernel,fun h => ?_⟩
  have hwhole := h.hpet
  rw [hsplit] at hwhole
  exact absurd hwhole (by decide)

end StandardPc
end Enlil.Core
