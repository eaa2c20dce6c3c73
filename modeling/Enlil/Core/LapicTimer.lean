import Enlil.Devices.Interrupt.Isolation
import Enlil.Lib.Ticks
import Mathlib.Data.List.Induction

/-! # The local APIC timer over many calls -/

namespace Enlil.Core
open Enlil.Devices

structure ApicTimer where
  enabled : Bool
  initial : ℕ
  current : ℕ
  divisor : ℕ
  residual : ℕ
  mode : TimerMode
  divisor_pos : 0 < divisor

lemma timerDivisor_pos (l : LocalApic) : 0 < l.timerDivisor := by
  unfold LocalApic.timerDivisor
  dsimp only
  split_ifs
  · exact Nat.one_pos
  · exact Nat.two_pow_pos _

namespace ApicTimer

def of (l : LocalApic) : ApicTimer :=
  ⟨l.enabled,l.timerInitial,l.timerCurrent,l.timerDivisor,l.timerDivideResidual,l.timerMode,
    timerDivisor_pos l⟩

def Runs (t : ApicTimer) : Prop := t.enabled = true ∧ t.initial ≠ 0 ∧ t.mode ≠ .tscDeadline

instance (t : ApicTimer) : Decidable t.Runs := inferInstanceAs (Decidable (_ ∧ _))

section
variable (t : ApicTimer)

def countdown (n : ℕ) : ℕ :=
  if n = 0 then t.current
  else if t.current ≤ n then
    if t.mode = .periodic then t.initial-(n-t.current)%t.initial else 0
  else t.current-n

def tick (clocks : ℕ) : ApicTimer :=
  if t.Runs ∧ 0 < clocks then
    let total := min (t.residual+clocks) (2^32-1)
    { t with residual := total%t.divisor, current := t.countdown (total/t.divisor) }
  else t

lemma countdown_zero : t.countdown 0 = t.current := if_pos rfl

lemma period_add {period x b : ℕ} (hx : x < period) :
    (if period-x ≤ b then period-(b-(period-x))%period else period-x-b) =
      period-(x+b)%period := by
  split_ifs with h
  · have hsum : x+b = b-(period-x)+period := by omega
    rw [hsum,Nat.add_mod_right]
  · rw [Nat.mod_eq_of_lt (by omega),Nat.sub_sub]

lemma countdown_countdown (h : t.initial ≠ 0) (r a b : ℕ) :
    { t with residual := r, current := t.countdown a }.countdown b = t.countdown (a+b) := by
  by_cases hb : b = 0
  · rw [hb,countdown_zero,Nat.add_zero]
  by_cases ha : a = 0
  · rw [ha,countdown_zero,Nat.zero_add]
    rfl
  simp only [countdown,if_neg ha,if_neg hb,if_neg (show a+b ≠ 0 by omega)]
  by_cases hexp : t.current ≤ a
  · rw [if_pos hexp,if_pos (show t.current ≤ a+b by omega)]
    by_cases hper : t.mode = .periodic
    · -- The first step expired: the second continues the period that it began.
      have hx := Nat.mod_lt (a-t.current) (Nat.pos_of_ne_zero h)
      simp only [if_pos hper]
      rw [period_add hx,Nat.mod_add_mod,show a+b-t.current = a-t.current+b by omega]
    · simp only [if_neg hper,if_pos (Nat.zero_le b)]
  · rw [if_neg hexp]
    by_cases hexp' : t.current ≤ a+b
    · rw [if_pos hexp',if_pos (show t.current-a ≤ b by omega),
        show b-(t.current-a) = a+b-t.current by omega]
    · rw [if_neg hexp',if_neg (show ¬t.current-a ≤ b by omega),Nat.sub_sub]

end
end ApicTimer
end Enlil.Core
namespace Enlil.Devices.LocalApic
open Enlil.Core
variable {l : LocalApic} {a b : ℕ}

abbrev Stopped (l : LocalApic) : Prop := l.timerInitial = 0 ∨ l.timerMode = .tscDeadline

def timerVector (l : LocalApic) : ℕ := (l.lvtTimer.setWidth 8 : BitVec 8).toNat

/-- An expiry is accepted: the timer is not masked, and its vector is not a reserved one. -/
abbrev Accepts (l : LocalApic) : Prop :=
  l.lvtTimer &&& lvtMasked = 0 ∧ l.enabled = true ∧ 16 ≤ l.timerVector

lemma fireTimer_of_accepts (h : l.Accepts) : l.fireTimer =
    { l with
      irr := l.irr ||| BitVec.twoPow 256 l.timerVector
      tmr := l.tmr &&& ~~~BitVec.twoPow 256 l.timerVector } := by
  rw [fireTimer,if_pos h.1,acceptInterrupt,if_neg (by simp [h.2.1])]
  exact congrArg Prod.snd (if_neg (Nat.not_lt.mpr h.2.2))

lemma fireTimer_of_not_accepts (h : ¬l.Accepts) : l.fireTimer = l := by
  rw [fireTimer,acceptInterrupt]
  by_cases hopen : l.lvtTimer &&& lvtMasked = 0
  · rw [if_pos hopen]
    by_cases hen : l.enabled = true
    · rw [if_neg (by simp [hen])]
      exact congrArg Prod.snd (if_pos (Nat.lt_of_not_le fun hv => h ⟨hopen,hen,hv⟩))
    · rw [if_pos (by simp [hen])]
  · rw [if_neg hopen]

section
variable (l : LocalApic)

def setTimer (residual current : ℕ) : LocalApic :=
  { l with timerDivideResidual := residual, timerCurrent := current }

lemma fireTimer_setTimer (r c : ℕ) :
    (l.setTimer r c).fireTimer = l.fireTimer.setTimer r c := by
  by_cases h : l.Accepts
  · rw [fireTimer_of_accepts h]
    exact fireTimer_of_accepts h
  · rw [fireTimer_of_not_accepts h]
    exact fireTimer_of_not_accepts h

lemma fireTimer_fireTimer : l.fireTimer.fireTimer = l.fireTimer := by
  by_cases h : l.Accepts
  · have h' : l.fireTimer.Accepts := by rwa [fireTimer_of_accepts h]
    rw [fireTimer_of_accepts h',fireTimer_of_accepts h]
    simp only [timerVector,BitVec.or_assoc,BitVec.or_self,BitVec.and_assoc,BitVec.and_self]
  · rw [fireTimer_of_not_accepts h,fireTimer_of_not_accepts h]

lemma delivered_fireTimer : Delivered l l.fireTimer := by
  unfold fireTimer
  split_ifs
  · exact .accept l _
  · exact .refl l

/-- The timer after `n` ticks of the counter, with `r` input clocks left over. -/
def elapse (n r : ℕ) : LocalApic :=
  (if n ≠ 0 ∧ l.timerCurrent ≤ n then l.fireTimer else l).setTimer r ((ApicTimer.of l).countdown n)

lemma of_elapse (n r : ℕ) : ApicTimer.of (l.elapse n r) =
    { ApicTimer.of l with residual := r, current := (ApicTimer.of l).countdown n } := by
  obtain ⟨irr,tmr,hfire⟩ := (delivered_fireTimer l).eq
  unfold elapse
  split_ifs
  · rw [hfire]
    rfl
  · rfl

end

lemma countdown_of_not_expired {n : ℕ} (h : ¬(n ≠ 0 ∧ l.timerCurrent ≤ n)) :
    (ApicTimer.of l).countdown n = l.timerCurrent-n := by
  by_cases hn : n = 0
  · rw [hn]
    rfl
  · exact (if_neg hn).trans (if_neg fun hle => h ⟨hn,hle⟩)

lemma elapse_elapse (h : l.timerInitial ≠ 0) (m n r r' : ℕ) :
    (l.elapse m r).elapse n r' = l.elapse (m+n) r' := by
  have hcount : (ApicTimer.of (l.elapse m r)).countdown n = (ApicTimer.of l).countdown (m+n) := by
    rw [of_elapse]
    exact ApicTimer.countdown_countdown (.of l) h r m n
  have hcurrent : (l.elapse m r).timerCurrent = (ApicTimer.of l).countdown m := rfl
  rw [elapse,hcount,hcurrent,elapse,elapse]
  generalize (ApicTimer.of l).countdown (m+n) = c
  by_cases hm : m ≠ 0 ∧ l.timerCurrent ≤ m
  · -- The first part expired: whether the second expires again does not show.
    rw [if_pos hm,if_pos (show m+n ≠ 0 ∧ l.timerCurrent ≤ m+n by omega),fireTimer_setTimer,
      fireTimer_fireTimer,ite_self]
    rfl
  · rw [if_neg hm,countdown_of_not_expired hm,fireTimer_setTimer]
    by_cases hn : m+n ≠ 0 ∧ l.timerCurrent ≤ m+n
    · rw [if_pos hn,if_pos (by omega)]
      rfl
    · rw [if_neg hn,if_neg (by omega)]
      rfl

/-- The ticks the divider has given the counter so far, and the input clocks it holds. -/
def prescale (divisor : ℕ) (p : ℕ × ℕ) (clocks : ℕ) : ℕ × ℕ :=
  let total := min (p.2+clocks) (2^32-1)
  (p.1+total/divisor,total%divisor)

def divided (l : LocalApic) (clocks : ℕ) : ℕ × ℕ :=
  prescale l.timerDivisor (0,l.timerDivideResidual) clocks

lemma prescale_eq (d : ℕ) (p : ℕ × ℕ) (clocks : ℕ) : prescale d p clocks =
    (p.1+(prescale d (0,p.2) clocks).1,(prescale d (0,p.2) clocks).2) := by
  simp only [prescale,Nat.zero_add]

lemma prescale_prescale {d : ℕ} (hd : 0 < d) (p : ℕ × ℕ) (h : p.2+(a+b) < 2^32) :
    prescale d (prescale d p a) b = prescale d p (a+b) := by
  have hcarry : (p.2+a)%d ≤ p.2+a := Nat.mod_le _ _
  simp only [prescale,Nat.min_eq_left (show p.2+a ≤ 2^32-1 by omega),
    Nat.min_eq_left (show p.2+(a+b) ≤ 2^32-1 by omega),
    Nat.min_eq_left (show (p.2+a)%d+b ≤ 2^32-1 by omega)]
  rw [Nat.add_assoc,Ticks.div_add_carry_div hd,Nat.mod_add_mod,Nat.add_assoc]

lemma timerTick_eq (h : ¬l.Stopped) (a : ℕ) : l.timerTick a =
    (decide ((l.divided a).1 ≠ 0 ∧ l.timerCurrent ≤ (l.divided a).1),
      l.elapse (l.divided a).1 (l.divided a).2) := by
  have hn : (l.divided a).1 = min (l.timerDivideResidual+a) (2^32-1)/l.timerDivisor :=
    Nat.zero_add _
  have hr : (l.divided a).2 = min (l.timerDivideResidual+a) (2^32-1)%l.timerDivisor := rfl
  simp only [timerTick,if_neg h,← hn,← hr]
  generalize (l.divided a).1 = n, (l.divided a).2 = r
  -- No tick for the counter, an expiry, or a count that only goes down.
  by_cases hzero : n = 0
  · subst hzero
    rfl
  by_cases hexp : n ≠ 0 ∧ l.timerCurrent ≤ n
  · have hreload : (ApicTimer.of l).countdown n = l.timerReload n :=
      (if_neg hzero).trans (if_pos hexp.2)
    rw [decide_eq_true hexp,elapse,if_pos hexp,hreload]
    refine (if_neg hzero).trans ((if_pos hexp.2).trans ?_)
    exact congrArg (fun x : LocalApic => (true,{ x with timerCurrent := l.timerReload n }))
      (fireTimer_setTimer l r l.timerCurrent)
  · rw [decide_eq_false hexp,elapse,if_neg hexp,countdown_of_not_expired hexp]
    exact (if_neg hzero).trans (if_neg fun hle => hexp ⟨hzero,hle⟩)

lemma stopped_elapse (n r : ℕ) : (l.elapse n r).Stopped ↔ l.Stopped := by
  have hof := of_elapse l n r
  have hinit : (l.elapse n r).timerInitial = l.timerInitial := congrArg ApicTimer.initial hof
  have hmode : (l.elapse n r).timerMode = l.timerMode := congrArg ApicTimer.mode hof
  rw [Stopped,hinit,hmode]

lemma divided_elapse (l : LocalApic) (n r : ℕ) :
    (l.elapse n r).divided b = prescale l.timerDivisor (0,r) b := by
  have hdiv : (l.elapse n r).timerDivisor = l.timerDivisor :=
    congrArg ApicTimer.divisor (of_elapse l n r)
  rw [divided,hdiv]
  rfl

/-- A call on a timer that has run so far goes on from there. -/
lemma timerTick_elapse (h : ¬l.Stopped) (p : ℕ × ℕ) (b : ℕ) : ((l.elapse p.1 p.2).timerTick b).2 =
      l.elapse (prescale l.timerDivisor p b).1 (prescale l.timerDivisor p b).2 := by
  rw [timerTick_eq (mt (stopped_elapse _ _).mp h),divided_elapse,
    elapse_elapse fun hzero => h (.inl hzero),prescale_eq l.timerDivisor p]

theorem timerTick_timerTick (l : LocalApic) (a b : ℕ) (hlt : l.timerDivideResidual+(a+b) < 2^32) :
    ((l.timerTick a).2.timerTick b).2 = (l.timerTick (a+b)).2 := by
  by_cases h : l.Stopped
  · have hstay : ∀ clocks, l.timerTick clocks = (false,l) := fun _ => if_pos h
    rw [hstay,hstay,hstay]
  · rw [timerTick_eq h,timerTick_elapse h,divided,prescale_prescale (timerDivisor_pos l) _ hlt,
      timerTick_eq h,divided]

theorem timerTick_timerTick_periodic :
    let l : LocalApic :=
      { LocalApic.new 0 with timerInitial := 3, timerCurrent := 3, timerMode := .periodic }
    ((l.timerTick 5).2.timerTick 9).2 = (l.timerTick (5+9)).2 :=
  timerTick_timerTick _ 5 9 (by decide)

/-! ### One shot -/

def tickAll (l : LocalApic) (calls : List ℕ) : LocalApic :=
  calls.foldl (fun l clocks => (l.timerTick clocks).2) l

/-- The divided ticks of the calls, by exact division. -/
def dividedTicks (divisor : ℕ) (calls : List ℕ) : ℕ := calls.sum/divisor

/-- In no call do the clocks and the remainder before them leave 32 bits. -/
def Unsaturated (divisor : ℕ) (calls : List ℕ) : Prop :=
  ∀ before clocks, before ++ [clocks] <+: calls → before.sum%divisor+clocks < 2^32

lemma foldl_prescale {d : ℕ} (hd : 0 < d) {calls : List ℕ} (h : Unsaturated d calls) :
    calls.foldl (prescale d) (0,0) = (dividedTicks d calls,calls.sum%d) := by
  induction calls using List.reverseRecOn with
  | nil => exact congrArg₂ Prod.mk (Nat.zero_div d).symm (Nat.zero_mod d).symm
  | append_singleton before clocks ih =>
    have hlt := h before clocks (List.prefix_refl _)
    rw [List.foldl_append,ih fun xs x hx => h xs x (hx.trans (List.prefix_append ..))]
    simp only [List.foldl_cons,List.foldl_nil,prescale,dividedTicks,List.sum_append,List.sum_cons,
      List.sum_nil,Nat.add_zero,Nat.min_eq_left (Nat.le_sub_one_of_lt hlt)]
    rw [Ticks.div_add_carry_div hd,Nat.mod_add_mod]

lemma tickAll_elapse (h : ¬l.Stopped) (p : ℕ × ℕ) (calls : List ℕ) :
    (l.elapse p.1 p.2).tickAll calls = l.elapse (calls.foldl (prescale l.timerDivisor) p).1
      (calls.foldl (prescale l.timerDivisor) p).2 := by
  induction calls generalizing p with
  | nil => rfl
  | cons clocks calls ih =>
    rw [tickAll,List.foldl_cons,timerTick_elapse h]
    exact ih (prescale l.timerDivisor p clocks)

lemma tickAll_eq (h : ¬l.Stopped) (hempty : l.timerDivideResidual = 0) (calls : List ℕ) :
    l.tickAll calls = l.elapse (calls.foldl (prescale l.timerDivisor) (0,0)).1
      (calls.foldl (prescale l.timerDivisor) (0,0)).2 := by
  have hstart : l.elapse 0 0 = l := congrArg (l.setTimer · l.timerCurrent) hempty.symm
  exact (congrArg (tickAll · calls) hstart.symm).trans (tickAll_elapse h (0,0) calls)

lemma timerCurrent_elapse (hmode : l.timerMode = .oneShot) (n r : ℕ) :
    (l.elapse n r).timerCurrent = l.timerCurrent-n := by
  by_cases hexp : n ≠ 0 ∧ l.timerCurrent ≤ n
  · rw [Nat.sub_eq_zero_of_le hexp.2]
    refine (if_neg hexp.1).trans ((if_pos hexp.2).trans (if_neg ?_))
    rw [show (ApicTimer.of l).mode = .oneShot from hmode]
    decide
  · exact countdown_of_not_expired hexp

lemma irr_elapse (hcur : l.timerCurrent ≠ 0) (n r : ℕ) :
    (l.elapse n r).irr = if l.timerCurrent ≤ n then l.fireTimer.irr else l.irr := by
  unfold elapse
  by_cases hexp : l.timerCurrent ≤ n
  · rw [if_pos ⟨by omega,hexp⟩,if_pos hexp]
    rfl
  · rw [if_neg fun hc => hexp hc.2,if_neg hexp]
    rfl

lemma timerVector_elapse (l : LocalApic) (n r : ℕ) :
    (l.elapse n r).timerVector = l.timerVector := by
  obtain ⟨irr,tmr,hfire⟩ := (delivered_fireTimer l).eq
  unfold elapse
  split_ifs
  · rw [hfire]
    rfl
  · rfl

lemma irr_fireTimer_iff : l.fireTimer.irr = l.irr ||| BitVec.twoPow 256 l.timerVector ↔
    l.Accepts ∨ l.irr.getLsbD l.timerVector = true := by
  by_cases h : l.Accepts
  · rw [fireTimer_of_accepts h]
    exact ⟨fun _ => .inl h,fun _ => rfl⟩
  rw [fireTimer_of_not_accepts h,or_iff_right h]
  have hlt : l.timerVector < 256 := BitVec.isLt _
  refine ⟨fun heq => ?_,fun hbit => BitVec.eq_of_getLsbD_eq fun j _ => ?_⟩
  · rw [heq,BitReg.getLsbD_or_twoPow _ _ hlt,decide_eq_true rfl,Bool.or_true]
  · rw [BitReg.getLsbD_or_twoPow _ _ hlt]
    by_cases hj : l.timerVector = j
    · rw [← hj,hbit,Bool.true_or]
    · rw [decide_eq_false hj,Bool.or_false]

/-- The call reports an expiry, and requests the vector, if the timer is due and only then. -/
def FiresIf (l : LocalApic) (clocks : ℕ) (due : Prop) [Decidable due] : Prop :=
  (l.timerTick clocks).1 = decide due ∧ (l.timerTick clocks).2.irr =
      if due then l.irr ||| BitVec.twoPow 256 l.timerVector else l.irr

lemma firesIf_elapse_iff (h : ¬l.Stopped) (hmode : l.timerMode = .oneShot)
    (hcur : l.timerCurrent ≠ 0) (p : ℕ × ℕ) (clocks : ℕ) :
    (l.elapse p.1 p.2).FiresIf clocks
        (p.1 < l.timerCurrent ∧ l.timerCurrent ≤ (prescale l.timerDivisor p clocks).1) ↔
      (l.timerCurrent ≤ p.1 → (prescale l.timerDivisor p clocks).1 = p.1) ∧
        (p.1 < l.timerCurrent → l.timerCurrent ≤ (prescale l.timerDivisor p clocks).1 →
          l.Accepts ∨ l.irr.getLsbD l.timerVector = true) := by
  have hfst : (prescale l.timerDivisor p clocks).1 =
      p.1+(prescale l.timerDivisor (0,p.2) clocks).1 := congrArg Prod.fst (prescale_eq ..)
  rw [FiresIf,timerTick_elapse h,timerTick_eq (mt (stopped_elapse _ _).mp h),divided_elapse,
    timerCurrent_elapse hmode,irr_elapse hcur,irr_elapse hcur,timerVector_elapse,hfst,
    decide_eq_decide]
  generalize (prescale l.timerDivisor (0,p.2) clocks).1 = n
  refine and_congr (by omega) ?_
  -- The request bit can only be missing after the call in which the count is reached.
  by_cases hdone : l.timerCurrent ≤ p.1
  · rw [if_pos hdone,if_pos (by omega),if_neg (by omega)]
    exact ⟨fun _ hlt => absurd hdone (by omega),fun _ => rfl⟩
  by_cases hreach : l.timerCurrent ≤ p.1+n
  · rw [if_neg hdone,if_pos hreach,if_pos (by omega),irr_fireTimer_iff]
    exact ⟨fun ha _ _ => ha,fun ha => ha (by omega) hreach⟩
  · rw [if_neg hdone,if_neg hreach,if_neg (by omega)]
    exact ⟨fun _ _ hle => absurd hle hreach,fun _ => rfl⟩

lemma writeRegister_timerInit (h : l.timerMode ≠ .tscDeadline) (count : BitVec 32) :
    l.writeRegister 0x380 count = { l with
      timerInitial := count.toNat, timerCurrent := count.toNat, timerDivideResidual := 0 } :=
  if_neg h

/-- Where no call saturates, the calls report and request one expiry, in the call in which the
divided ticks reach the count, if and only if none of them gives the counter a tick after that. -/
theorem oneShot_firesIf_iff (l : LocalApic) (count : BitVec 32) (hcount : count ≠ 0)
    (hmode : l.timerMode = .oneShot) (hopen : l.lvtTimer &&& lvtMasked = 0) (calls : List ℕ)
    (hfits : Unsaturated l.timerDivisor calls) :
    (∀ before clocks, before ++ [clocks] <+: calls →
      ((l.writeRegister 0x380 count).tickAll before).FiresIf clocks
        (dividedTicks l.timerDivisor before < count.toNat ∧
          count.toNat ≤ dividedTicks l.timerDivisor (before ++ [clocks]))) ↔
    ∀ before clocks, before ++ [clocks] <+: calls →
      (count.toNat ≤ dividedTicks l.timerDivisor before →
        dividedTicks l.timerDivisor (before ++ [clocks]) = dividedTicks l.timerDivisor before) ∧
      (dividedTicks l.timerDivisor before < count.toNat →
        count.toNat ≤ dividedTicks l.timerDivisor (before ++ [clocks]) →
        l.enabled = true ∧ 16 ≤ l.timerVector ∨ l.irr.getLsbD l.timerVector = true) := by
  have hne : count.toNat ≠ 0 := fun hzero => hcount (BitVec.eq_of_toNat_eq hzero)
  have hdead : l.timerMode ≠ .tscDeadline := by rw [hmode]; decide
  have hrun : ¬Stopped { l with
      timerInitial := count.toNat, timerCurrent := count.toNat, timerDivideResidual := 0 } :=
    not_or.mpr ⟨hne,hdead⟩
  have hacc : l.Accepts ↔ l.enabled = true ∧ 16 ≤ l.timerVector := and_iff_right hopen
  refine forall_congr' fun before => forall_congr' fun clocks => imp_congr_right fun hpre => ?_
  have hticks : ∀ xs, xs <+: calls →
      dividedTicks l.timerDivisor xs = (xs.foldl (prescale l.timerDivisor) (0,0)).1 := fun xs hxs =>
    congrArg Prod.fst
      (foldl_prescale (timerDivisor_pos l) fun ys y hy => hfits ys y (hy.trans hxs)).symm
  rw [writeRegister_timerInit hdead,tickAll_eq hrun rfl,← hacc,hticks _ hpre,
    hticks before ((List.prefix_append ..).trans hpre),List.foldl_append]
  exact firesIf_elapse_iff hrun hmode hne _ clocks

theorem oneShot_firesIf_once :
    let l := { LocalApic.new 0 with enabled := true, lvtTimer := 0x30 }
    ∀ before clocks, before ++ [clocks] <+: [2] →
      ((l.writeRegister 0x380 1).tickAll before).FiresIf clocks
        (dividedTicks l.timerDivisor before < 1 ∧
          1 ≤ dividedTicks l.timerDivisor (before ++ [clocks])) := by
  have honly : ∀ before clocks, before ++ [clocks] <+: [2] → before = [] ∧ clocks = 2 := by
    intro before clocks h
    have hlen := h.length_le
    rw [List.length_append,List.length_singleton,List.length_singleton] at hlen
    obtain rfl : before = [] := List.eq_nil_of_length_eq_zero (by omega)
    exact ⟨rfl,by simpa using h⟩
  refine (oneShot_firesIf_iff _ 1 (by decide) rfl rfl [2] ?_).mpr ?_
  all_goals
    intro before clocks h
    obtain ⟨rfl,rfl⟩ := honly before clocks h
    decide

theorem oneShot_fires_twice :
    let l := { LocalApic.new 0 with enabled := true, lvtTimer := 0x30 }
    l.timerMode = .oneShot ∧ l.lvtTimer &&& lvtMasked = 0 ∧
      ((l.writeRegister 0x380 1).timerTick 2).1 = true ∧
      (((l.writeRegister 0x380 1).timerTick 2).2.timerTick 2).1 = true ∧
      -- `saturating_add` loses the clock that would complete the count
      dividedTicks l.timerDivisor [1,2^32-1] = 2^31 ∧
      (((l.writeRegister 0x380 0x80000000).timerTick 1).2.timerTick (2^32-1)).1 = false := by
  decide

end Enlil.Devices.LocalApic
