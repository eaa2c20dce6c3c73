import Enlil.Devices.Timer.Defs
import Mathlib.Tactic.IntervalCases

/-! # The MC146818: model of `rtc.rs`, its periodic interrupt over many calls and its clock -/

namespace Enlil.Devices.Rtc146818
open Nat
variable {r : Rtc146818} {rate : ℕ}

/-! ### The periodic interrupt -/

/-- Whether a call latches the periodic flag: a cleared Register C has it afterwards. -/
def latches (r : Rtc146818) (ns : ℕ) : Bool :=
  ({ r with regC := 0 }.advancePeriodic ns).2.regC.getLsbD 6

def latched : Rtc146818 → List ℕ → ℕ
  | _, [] => 0
  | r, ns :: calls => (r.latches ns).toNat+latched (r.advancePeriodic ns).2 calls

/-- The calls that latch a tick, by the rate and what has accumulated. -/
def latchedFrom (rate : ℕ) : ℕ → List ℕ → ℕ
  | _, [] => 0
  | accum, ns :: calls =>
    let accum := min (accum+ns) (2^64-1)
    let due := accum*rate/1000000000
    if due = 0 then latchedFrom rate accum calls
    else 1+latchedFrom rate (accum-due*1000000000/rate) calls

lemma latched_eq (h : r.periodicRateHz = some rate) (calls : List ℕ) :
    r.latched calls = latchedFrom rate r.periodicAccumNs calls := by
  induction calls generalizing r with
  | nil => rfl
  | cons ns calls ih =>
    have hrate : ∀ c accum, periodicRateHz { r with regC := c, periodicAccumNs := accum } =
      some rate := fun _ _ => h
    simp only [latched,latchedFrom,latches,advancePeriodic,h]
    rw [show periodicRateHz { r with regC := 0 } = some rate from h]
    dsimp only
    split
    · rw [ih (hrate _ _)]
      simp
    · simp only [tickPeriodic,hrate,Option.isNone_some,Bool.false_eq_true,if_false]
      rw [ih (hrate _ _)]
      congr 1
      split <;> rfl

lemma latchedFrom_eq {period accum : ℕ} {calls : List ℕ} (hperiod : period*rate = 1000000000)
    (haccum : accum < period) (hshort : ∀ ns ∈ calls, ns < period) :
    latchedFrom rate accum calls = (accum+calls.sum)/period := by
  have hpos : 0 < rate := pos_of_ne_zero fun h0 => by rw [h0] at hperiod; cases hperiod
  have hle : period ≤ 1000000000 := hperiod ▸ Nat.le_mul_of_pos_right period hpos
  induction calls generalizing accum with
  | nil => exact (Nat.div_eq_of_lt haccum).symm
  | cons ns calls ih =>
    obtain ⟨hns,hrest⟩ := List.forall_mem_cons.mp hshort
    have hmin : min (accum+ns) (2^64-1) = accum+ns := Nat.min_eq_left (by omega)
    -- a whole number of nanoseconds to a tick: what is consumed is what the ticks take
    have hdue : (accum+ns)*rate/1000000000 = (accum+ns)/period := by
      rw [← hperiod,Nat.mul_div_mul_right _ _ hpos]
    simp only [latchedFrom,hmin,hdue,List.sum_cons]
    split
    case isTrue hzero =>
      have hlt : accum+ns < period := by
        rcases Nat.div_eq_zero_iff.mp hzero with h0 | hlt
        · omega
        · exact hlt
      rw [ih hlt hrest,Nat.add_assoc]
    case isFalse hne =>
      have hge : period ≤ accum+ns := by
        by_contra hlt
        exact hne (Nat.div_eq_of_lt (by omega))
      have hone : (accum+ns)/period = 1 := Nat.div_eq_of_lt_le (by omega) (by omega)
      rw [hone,Nat.one_mul,← hperiod,Nat.mul_div_cancel _ hpos,ih (by omega) hrest,
        show accum+(ns+calls.sum) = (accum+ns-period+calls.sum)+period by omega,
        Nat.add_div_right _ (by omega),Nat.add_comm]

lemma rate_mem (h : r.periodicRateHz = some rate) :
    rate ∈ [256,128,8192,4096,2048,1024,512,64,32,16,8,4,2] := by
  have hlt : (r.regA &&& 0x0F).toNat < 16 := by
    rw [BitVec.toNat_and]
    exact Nat.and_lt_two_pow (n := 4) _ (by decide)
  unfold periodicRateHz at h
  generalize (r.regA &&& 0x0F).toNat = n at h hlt
  interval_cases n <;> simp at h <;> subst h <;> decide

/-- Calls of the whole nanoseconds of a period, with one nanosecond more after the first. -/
def early (rate : ℕ) : List ℕ := [1000000000/rate,1] ++ List.replicate 4 (1000000000/rate)

lemma latchedFrom_early : ∀ rate ∈ [256,128,8192,4096,2048,1024,512,64,32,16,8,4,2],
    ¬rate ∣ 1000000000 → (∀ ns ∈ early rate, ns*rate < 1000000000) ∧
      latchedFrom rate 0 (early rate) ≠ (early rate).sum*rate/1000000000 := by
  decide +kernel

/-- The periodic interrupt keeps its phase at the rates whose period is a whole number of
nanoseconds. At the others each tick consumes less than a period, and ticks come early. -/
theorem latched_iff (r : Rtc146818) (h : r.periodicRateHz = some rate) :
    (∀ calls : List ℕ, (∀ ns ∈ calls, ns*rate < 1000000000) →
      latched { r with periodicAccumNs := 0 } calls = calls.sum*rate/1000000000) ↔
      rate ∣ 1000000000 := by
  have heq : ∀ calls, latched { r with periodicAccumNs := 0 } calls = latchedFrom rate 0 calls :=
    latched_eq (r := { r with periodicAccumNs := 0 }) h
  constructor
  · intro hall
    by_contra hndvd
    obtain ⟨hshort,hne⟩ := latchedFrom_early rate (rate_mem h) hndvd
    exact hne (heq _ ▸ hall _ hshort)
  · rintro ⟨period,hperiod⟩ calls hshort
    rw [Nat.mul_comm] at hperiod
    have hpos : 0 < rate := Nat.pos_of_ne_zero fun h0 => by rw [h0] at hperiod; cases hperiod
    have hlt : ∀ ns ∈ calls, ns < period := fun ns hns =>
      Nat.lt_of_mul_lt_mul_right (hperiod ▸ hshort ns hns)
    rw [heq,latchedFrom_eq hperiod.symm (Nat.pos_of_ne_zero fun h0 => by
      rw [h0,Nat.zero_mul] at hperiod; cases hperiod) hlt,Nat.zero_add,hperiod,
      Nat.mul_div_mul_right _ _ hpos]

theorem latched_iff_256Hz : latched ⟨0x21,0x06,0,0⟩ [3906000,3906000] = 1 :=
  (latched_iff ⟨0x21,0x06,0,0⟩ rfl).mpr (by decide) [3906000,3906000] (by decide)

/-- At 1024 Hz the fourth call latches a third tick, after less than three periods. -/
theorem latched_early : latched new [976562,1,976562,976562] = 3 ∧
    [976562,1,976562,976562].sum*1024/1000000000 = 2 := by
  decide

end Enlil.Devices.Rtc146818
namespace Enlil.Devices

/-! ### The clock -/

structure RtcTime where
  second : BitVec 8
  minute : BitVec 8
  hour : BitVec 8
  /-- From 1 for Sunday. -/
  weekday : BitVec 8
  day : BitVec 8
  month : BitVec 8
  year : BitVec 16
deriving DecidableEq

namespace RtcTime

/-- `x += 1`. -/
def inc {w : ℕ} (x : BitVec w) : Option (BitVec w) := if x = .allOnes w then none else some (x+1)

def daysInMonth (month : BitVec 8) (year : BitVec 16) : BitVec 8 :=
  match month.toNat with
  | 2 => if (year%4 = 0 ∧ year%100 ≠ 0) ∨ year%400 = 0 then 29 else 28
  | 4 | 6 | 9 | 11 => 30
  | _ => 31

def advanceOneDay (t : RtcTime) : Option RtcTime :=
  let weekday := if 7 ≤ t.weekday then 1 else t.weekday+1
  (inc t.day).bind fun day =>
    if day ≤ daysInMonth t.month t.year then some { t with weekday, day }
    else (inc t.month).bind fun month =>
      if month ≤ 12 then some { t with weekday, day := 1, month }
      else (inc t.year).map fun year => { t with weekday, day := 1, month := 1, year }

def advanceOneSecond (t : RtcTime) : Option RtcTime :=
  (inc t.second).bind fun second =>
    if second < 60 then some { t with second }
    else (inc t.minute).bind fun minute =>
      if minute < 60 then some { t with second := 0, minute }
      else (inc t.hour).bind fun hour =>
        if hour < 24 then some { t with second := 0, minute := 0, hour }
        else { t with second := 0, minute := 0, hour := 0 }.advanceOneDay

/-- No field that is to be incremented holds its greatest value. -/
def Fits (t : RtcTime) : Prop :=
  t.second ≠ 255 ∧ (59 ≤ t.second → t.minute ≠ 255 ∧ (59 ≤ t.minute → t.hour ≠ 255 ∧
    (23 ≤ t.hour → t.day ≠ 255 ∧ (daysInMonth t.month t.year ≤ t.day → t.month ≠ 255 ∧
      (12 ≤ t.month → t.year ≠ 0xFFFF)))))

lemma isSome_carry {w : ℕ} {α : Type} (x : BitVec w) (p : BitVec w → Prop) [DecidablePred p]
    (a : BitVec w → α) (o : Option α) :
    ((inc x).bind fun y => if p y then some (a y) else o).isSome ↔
      x ≠ .allOnes w ∧ (¬p (x+1) → o.isSome) := by
  unfold inc
  by_cases hx : x = .allOnes w
  · simp [hx]
  rw [if_neg hx,Option.bind_some]
  by_cases hp : p (x+1)
  · rw [if_pos hp]
    exact iff_of_true rfl ⟨hx,fun h => absurd hp h⟩
  · rw [if_neg hp]
    exact ⟨fun h => ⟨hx,fun _ => h⟩,fun h => h.2 hp⟩

lemma isSome_advanceOneSecond (t : RtcTime) : t.advanceOneSecond.isSome ↔ t.Fits := by
  have hlt : ∀ x b : BitVec 8, 0 < b → x ≠ 255 → (¬x+1 < b ↔ b-1 ≤ x) := by
    intro x b hb hx
    bv_omega
  have hle : ∀ x b : BitVec 8, x ≠ 255 → (¬x+1 ≤ b ↔ b ≤ x) := by
    intro x b hx
    bv_omega
  unfold advanceOneSecond Fits
  rw [isSome_carry]
  refine and_congr_right fun h => imp_congr (hlt _ 60 (by decide) h) ?_
  rw [isSome_carry]
  refine and_congr_right fun h => imp_congr (hlt _ 60 (by decide) h) ?_
  rw [isSome_carry]
  refine and_congr_right fun h => imp_congr (hlt _ 24 (by decide) h) ?_
  unfold advanceOneDay
  rw [isSome_carry]
  refine and_congr_right fun h => imp_congr (hle _ _ h) ?_
  rw [isSome_carry]
  refine and_congr_right fun h => imp_congr (hle _ _ h) ?_
  rw [Option.isSome_map,inc]
  split
  case isTrue h => exact iff_of_false nofun (not_not_intro h)
  case isFalse h => exact iff_of_true rfl h

end RtcTime

def encode (val : BitVec 8) (binary : Bool) : BitVec 8 :=
  if binary then val else ((val/10) <<< 4) ||| (val%10)

def decode (val : BitVec 8) (binary : Bool) : BitVec 8 :=
  if binary then val else (val >>> 4)*10+(val &&& 0x0F)

/-- The MC146818 with its clock, and its RAM behind the two ports. -/
structure Cmos extends Rtc146818 where
  /-- The alarm registers, Register D and what the firmware keeps. -/
  ram : BitVec 8 → BitVec 8
  index : BitVec 8
  nmiDisabled : Bool
  time : RtcTime

namespace Cmos

def new (time : RtcTime) : Cmos where
  toRtc146818 := .new
  ram := fun i => if i = 0x0D then 0x80 else 0
  index := 0
  nmiDisabled := false
  time := time

variable (c : Cmos)

def binaryMode : Bool := c.regB.getLsbD 2

def readHours : BitVec 8 :=
  if c.regB.getLsbD 1 then encode c.time.hour c.binaryMode
  else
    let h := if c.time.hour%12 = 0 then 12 else c.time.hour%12
    encode h c.binaryMode ||| if 12 ≤ c.time.hour then 0x80 else 0

def writeHours (val : BitVec 8) : BitVec 8 :=
  if c.regB.getLsbD 1 then decode val c.binaryMode
  else
    let h := decode (val &&& 0x7F) c.binaryMode%12
    if val.getLsbD 7 then h+12 else h

def readData : BitVec 8 × Cmos :=
  let encode := (encode · c.binaryMode)
  match c.index.toNat with
  | 0x00 => (encode c.time.second,c)
  | 0x02 => (encode c.time.minute,c)
  | 0x04 => (c.readHours,c)
  | 0x06 => (encode c.time.weekday,c)
  | 0x07 => (encode c.time.day,c)
  | 0x08 => (encode c.time.month,c)
  | 0x09 => (encode ((c.time.year%100).setWidth 8),c)
  | 0x32 => (encode ((c.time.year/100).setWidth 8),c)
  | 0x0A => (c.regA,c)
  | 0x0B => (c.regB,c)
  | 0x0C => (c.regC,{ c with regC := 0 })
  | _ => (c.ram c.index,c)

def withYear (year : ℕ) : Option Cmos :=
  if year < 2^16 then some { c with time := { c.time with year := .ofNat 16 year } } else none

def writeData (val : BitVec 8) : Option Cmos :=
  let value := decode val c.binaryMode
  match c.index.toNat with
  | 0x00 => some { c with time := { c.time with second := value } }
  | 0x02 => some { c with time := { c.time with minute := value } }
  | 0x04 => some { c with time := { c.time with hour := c.writeHours val } }
  | 0x06 => some { c with time := { c.time with weekday := value } }
  | 0x07 => some { c with time := { c.time with day := value } }
  | 0x08 => some { c with time := { c.time with month := value } }
  | 0x09 => c.withYear (c.time.year.toNat/100*100+value.toNat)
  | 0x32 => c.withYear (value.toNat*100+c.time.year.toNat%100)
  | 0x0A => some { c with regA := val &&& 0x7F }
  | 0x0B => some { c with regB := val }
  | 0x0C | 0x0D => some c
  | _ => some { c with ram := Function.update c.ram c.index val }

def writeIndex (val : BitVec 8) : Cmos :=
  { c with nmiDisabled := val.getLsbD 7, index := val &&& 0x7F }

def dontCare (alarm : BitVec 8) : Bool := alarm &&& 0xC0 = 0xC0

def alarmMatches : Bool :=
  let field := fun stored alarm => dontCare alarm || decode alarm c.binaryMode == stored
  field c.time.second (c.ram 1) && field c.time.minute (c.ram 3) && field c.time.hour (c.ram 5)

def tickSecond : Option (Bool × Cmos) :=
  if c.regB.getLsbD 7 then some (false,c)
  else c.time.advanceOneSecond.map fun time =>
    let c := { c with time }
    let asserted := c.regB.getLsbD 4 || (c.regB.getLsbD 5 && c.alarmMatches)
    let flags := c.regC ||| if c.alarmMatches then 0x30 else 0x10
    (asserted,{ c with regC := if asserted then flags ||| 0x80 else flags })

inductive Op where
  | writeIndex (val : BitVec 8)
  | writeData (val : BitVec 8)
  | readData
  | tickSecond
  | advancePeriodic (ns : ℕ)

def step (c : Cmos) : Op → Option Cmos
  | .writeIndex val => some (c.writeIndex val)
  | .writeData val => c.writeData val
  | .readData => some c.readData.2
  | .tickSecond => c.tickSecond.map (·.2)
  | .advancePeriodic ns => some { c with toRtc146818 := (c.advancePeriodic ns).2 }

def run : Cmos → List Op → Option Cmos
  | c, [] => some c
  | c, op :: ops => (c.step op).bind fun c' => run c' ops

/-- Nothing that is incremented is at the end of its word, and the year fits after a write. -/
def Fits (c : Cmos) : Op → Prop
  | .writeData val => c.index = 9 → c.time.year.toNat/100*100+(decode val c.binaryMode).toNat < 2^16
  | .tickSecond => c.regB.getLsbD 7 = true ∨ c.time.Fits
  | _ => True

def FitsAll : Cmos → List Op → Prop
  | _, [] => True
  | c, op :: ops => c.Fits op ∧ ∀ c', c.step op = some c' → FitsAll c' ops

lemma isSome_withYear (year : ℕ) : (c.withYear year).isSome ↔ year < 2^16 := by
  unfold withYear
  split
  case isTrue h => exact iff_of_true rfl h
  case isFalse h => exact iff_of_false nofun h

lemma isSome_step_iff (op : Op) : (c.step op).isSome ↔ c.Fits op := by
  cases op with
  | writeIndex | readData | advancePeriodic => exact iff_of_true rfl trivial
  | tickSecond =>
    rw [step,tickSecond,Fits,Option.isSome_map]
    split
    case isTrue hset => exact iff_of_true rfl (.inl hset)
    case isFalse hset =>
      rw [Option.isSome_map,RtcTime.isSome_advanceOneSecond,or_iff_right hset]
  | writeData val =>
    have hindex : c.index = 9 ↔ c.index.toNat = 9 := BitVec.toNat_inj.symm
    rw [step,writeData,Fits,hindex]
    split
    case h_7 heq => simp only [isSome_withYear,heq,forall_const]
    case h_8 heq =>
      refine iff_of_true ((c.isSome_withYear _).mpr ?_) (by simp [heq])
      have hvalue := (decode val c.binaryMode).isLt
      omega
    case h_13 => exact iff_of_true rfl fun h9 => (‹c.index.toNat = 9 → False› h9).elim
    all_goals rename_i heq; exact iff_of_true rfl (by simp [heq])

/-- A run overflows nowhere if and only if none of its steps finds a field that it increments at
the end of its word, or a century that a written year takes out of its word. -/
theorem isSome_run_iff (c : Cmos) (ops : List Op) : (c.run ops).isSome ↔ c.FitsAll ops := by
  induction ops generalizing c with
  | nil => exact iff_of_true rfl trivial
  | cons op ops ih =>
    rw [run,FitsAll,← isSome_step_iff]
    cases c.step op with
    | none => simp
    | some c' => simp [ih]

/-- A guest sets the seconds to 255. -/
theorem run_overflow : (new ⟨0,0,0,1,1,1,2026⟩).run
    [.writeIndex 0,.writeData 0xFF,.tickSecond] = none :=
  rfl

/-! ### The alarm -/

lemma decode_encode : ∀ (binary : Bool) (v : BitVec 8), v < 100 →
    decode (encode v binary) binary = v := by
  decide +kernel

variable {alarm v s regB i : BitVec 8}

/-- A byte that shows the time field `v` decodes to the field it equals. -/
lemma decode_eq_iff {binary : Bool} (h : alarm = encode v binary)
    (hv : v < 100) (hs : s < 100) : decode alarm binary = s ↔ alarm = encode s binary := by
  subst h
  rw [decode_encode _ _ hv]
  refine ⟨fun h => h ▸ rfl,fun h => ?_⟩
  rw [← decode_encode binary v hv,h,decode_encode _ _ hs]

structure Valid (t : RtcTime) : Prop where
  second : t.second < 60
  minute : t.minute < 60
  hour : t.hour < 24
  day : t.day ≤ RtcTime.daysInMonth t.month t.year
  month : t.month ≤ 12
  year : t.year < 0xFFFF

def shown (reg : BitVec 8) (t : RtcTime) : BitVec 8 := { c with index := reg, time := t }.readData.1

/-- The registers of the time of day, each with its alarm register after it. -/
def clockRegs : List (BitVec 8) := [0,2,4]

def Proper : Prop :=
  ∀ reg ∈ clockRegs, dontCare (c.ram (reg+1)) = true ∨ ∃ t, Valid t ∧ c.ram (reg+1) = c.shown reg t

def Alarmed : Prop :=
  ∀ reg ∈ clockRegs, dontCare (c.ram (reg+1)) = true ∨ c.ram (reg+1) = c.shown reg c.time

/-- A tick latches the alarm flag if and only if the alarm registers agree with the clock. -/
def LatchesAlarm : Prop :=
  ∃ p, c.tickSecond = some p ∧ (p.2.regC.getLsbD 5 = true ↔ c.regC.getLsbD 5 = true ∨ p.2.Alarmed)

variable {t t' time : RtcTime}

lemma Valid.fits (h : Valid t) : t.Fits := by
  have hdays : RtcTime.daysInMonth t.month t.year ≤ 31 := by
    unfold RtcTime.daysInMonth
    repeat' split
    all_goals decide
  have := h.second
  have := h.minute
  have := h.hour
  have := h.day
  have := h.month
  have := h.year
  unfold RtcTime.Fits
  refine ⟨by bv_omega,fun _ => ⟨by bv_omega,fun _ => ⟨by bv_omega,fun _ => ⟨by bv_omega,fun _ =>
    ⟨by bv_omega,fun _ => by bv_omega⟩⟩⟩⟩⟩

lemma advanceOneDay_time (h : t.advanceOneDay = some t') :
    t'.second = t.second ∧ t'.minute = t.minute ∧ t'.hour = t.hour := by
  unfold RtcTime.advanceOneDay at h
  obtain ⟨day,-,h⟩ := Option.bind_eq_some_iff.mp h
  split at h
  · cases h
    exact ⟨rfl,rfl,rfl⟩
  obtain ⟨month,-,h⟩ := Option.bind_eq_some_iff.mp h
  split at h
  · cases h
    exact ⟨rfl,rfl,rfl⟩
  obtain ⟨year,-,rfl⟩ := Option.map_eq_some_iff.mp h
  exact ⟨rfl,rfl,rfl⟩

lemma Valid.advance (h : Valid t) (ht : t.advanceOneSecond = some t') :
    t'.second < 60 ∧ t'.minute < 60 ∧ t'.hour < 24 := by
  have h60 : (0 : BitVec 8) < 60 := by decide
  unfold RtcTime.advanceOneSecond at ht
  obtain ⟨second,-,ht⟩ := Option.bind_eq_some_iff.mp ht
  split at ht
  case isTrue hs => exact Option.some.inj ht ▸ ⟨hs,h.minute,h.hour⟩
  obtain ⟨minute,-,ht⟩ := Option.bind_eq_some_iff.mp ht
  split at ht
  case isTrue hm => exact Option.some.inj ht ▸ ⟨h60,hm,h.hour⟩
  obtain ⟨hour,-,ht⟩ := Option.bind_eq_some_iff.mp ht
  split at ht
  case isTrue hh => exact Option.some.inj ht ▸ ⟨h60,h60,hh⟩
  obtain ⟨hs,hm,hh⟩ := advanceOneDay_time ht
  rw [hs,hm,hh]
  exact ⟨h60,h60,(by decide : (0 : BitVec 8) < 24)⟩

lemma alarmMatches_iff : c.alarmMatches = true ↔
    (dontCare (c.ram 1) = true ∨ decode (c.ram 1) c.binaryMode = c.time.second) ∧
      (dontCare (c.ram 3) = true ∨ decode (c.ram 3) c.binaryMode = c.time.minute) ∧
      (dontCare (c.ram 5) = true ∨ decode (c.ram 5) c.binaryMode = c.time.hour) := by
  simp [alarmMatches,and_assoc]

lemma alarmed_iff : c.Alarmed ↔
    (dontCare (c.ram 1) = true ∨ c.ram 1 = encode c.time.second c.binaryMode) ∧
      (dontCare (c.ram 3) = true ∨ c.ram 3 = encode c.time.minute c.binaryMode) ∧
      (dontCare (c.ram 5) = true ∨ c.ram 5 = c.readHours) := by
  simp only [Alarmed,clockRegs,List.forall_mem_cons,List.not_mem_nil,false_imp_iff,implies_true,
    and_true]
  rfl

lemma latchesAlarm_iff_of_advance (hset : c.regB.getLsbD 7 = false)
    (ht : c.time.advanceOneSecond = some time) : c.LatchesAlarm ↔
      (c.regC.getLsbD 5 = true ∨ { c with time }.alarmMatches = true ↔
        c.regC.getLsbD 5 = true ∨ { c with time }.Alarmed) := by
  simp only [LatchesAlarm,tickSecond,hset,ht,Option.map_some,Option.some.injEq,exists_eq_left',
    Bool.false_eq_true,if_false,alarmed_iff]
  refine iff_congr ?_ Iff.rfl
  split <;> cases { c with time }.alarmMatches <;> simp

/-- A second before one in the afternoon, with an alarm for that hour in the 12-hour form. -/
def afternoon (regB : BitVec 8) : Cmos where
  toRtc146818 := ⟨0,regB,0,0⟩
  ram := fun i => if i = 5 then encode 1 (regB.getLsbD 2) ||| 0x80 else 0xC0
  index := 0
  nmiDisabled := false
  time := ⟨59,59,12,1,1,1,2026⟩

lemma dontCare_afternoon (h : i ≠ 5) :
    dontCare ((afternoon regB).ram i) = true := by
  rw [show (afternoon regB).ram i = 0xC0 from if_neg h]
  decide

lemma readHours_afternoon (h12 : ¬regB.getLsbD 1 = true)
    (ht : t.hour = 13) : { afternoon regB with time := t }.readHours =
      encode 1 (regB.getLsbD 2) ||| 0x80 := by
  refine (if_neg h12).trans ?_
  simp [ht,binaryMode,afternoon]

lemma not_latchesAlarm_afternoon (hset : regB.getLsbD 7 = false)
    (h12 : ¬regB.getLsbD 1 = true) : ¬(afternoon regB).LatchesAlarm := by
  have hbyte : ∀ binary, ¬(dontCare (encode 1 binary ||| 0x80) = true ∨
      decode (encode 1 binary ||| 0x80) binary = 13) := by decide
  have ht : (afternoon regB).time.advanceOneSecond = some ⟨0,0,13,1,1,1,2026⟩ := rfl
  rw [latchesAlarm_iff_of_advance (afternoon regB) hset ht]
  intro h
  rcases h.mpr (.inr ((alarmed_iff _).mpr
    ⟨.inl (dontCare_afternoon (by decide)),.inl (dontCare_afternoon (by decide)),
      .inr (readHours_afternoon h12 rfl).symm⟩)) with hflag | hmatch
  · exact absurd hflag (by decide : ¬(0 : BitVec 8).getLsbD 5 = true)
  · exact hbyte _ ((alarmMatches_iff _).mp hmatch).2.2

/-- The alarm agrees with what the guest reads in the 24-hour formats, and in no other: the byte of
the hours alarm is decoded as if it were in the 24-hour form. -/
theorem latchesAlarm_iff (regB : BitVec 8) (hset : regB.getLsbD 7 = false) :
    (∀ c : Cmos, c.regB = regB → Valid c.time → c.Proper → c.LatchesAlarm) ↔
      regB.getLsbD 1 = true := by
  constructor
  · intro hall
    by_contra h12
    refine not_latchesAlarm_afternoon hset h12 (hall _ rfl ?_ ?_)
    · show Valid ⟨59,59,12,1,1,1,2026⟩
      constructor <;> decide
    · simp only [Proper,clockRegs,List.forall_mem_cons]
      exact ⟨.inl (dontCare_afternoon (by decide)),.inl (dontCare_afternoon (by decide)),
        .inr ⟨⟨0,0,13,1,1,1,2026⟩,by constructor <;> decide,(readHours_afternoon h12 rfl).symm⟩,nofun⟩
  · rintro h24 c rfl hvalid hproper
    obtain ⟨time,ht⟩ := Option.isSome_iff_exists.mp
      ((RtcTime.isSome_advanceOneSecond _).mpr hvalid.fits)
    obtain ⟨hs,hm,hh⟩ := hvalid.advance ht
    rw [latchesAlarm_iff_of_advance c hset ht,alarmMatches_iff,alarmed_iff,
      show ({ c with time } : Cmos).readHours = encode time.hour c.binaryMode from if_pos h24]
    have hfield : ∀ {alarm s : BitVec 8}, s < 60 → (dontCare alarm = true ∨ ∃ v < 60,
        alarm = encode v c.binaryMode) → ((dontCare alarm = true ∨ decode alarm c.binaryMode = s) ↔
          (dontCare alarm = true ∨ alarm = encode s c.binaryMode)) := by
      rintro alarm s hs (hdc | ⟨v,hv,halarm⟩)
      · exact iff_of_true (.inl hdc) (.inl hdc)
      · exact or_congr Iff.rfl (decode_eq_iff halarm (by bv_omega) (by bv_omega))
    refine or_congr Iff.rfl (and_congr (hfield hs ?_) (and_congr (hfield hm ?_)
      (hfield (by bv_omega) ?_)))
    · exact (hproper 0 (by decide)).imp_right fun ⟨t,hv,h⟩ => ⟨_,hv.second,h⟩
    · exact (hproper 2 (by decide)).imp_right fun ⟨t,hv,h⟩ => ⟨_,hv.minute,h⟩
    · refine (hproper 4 (by decide)).imp_right fun ⟨t,hv,h⟩ => ⟨t.hour,?_,h.trans (if_pos h24)⟩
      have := hv.hour
      bv_omega

theorem latchesAlarm_binary24 : (new ⟨59,59,12,1,1,1,2026⟩).LatchesAlarm :=
  (latchesAlarm_iff 0x06 (by decide)).mpr (by decide) _ rfl (by constructor <;> decide) (by
    simp only [Proper,clockRegs,List.forall_mem_cons]
    refine ⟨.inr ?_,.inr ?_,.inr ?_,nofun⟩ <;>
      exact ⟨⟨0,0,0,1,1,1,2026⟩,by constructor <;> decide,rfl⟩)

/-- In the 12-hour form in BCD, the clock goes to one in the afternoon and the alarm registers hold
what it shows then; the flag is not latched. -/
theorem not_latchesAlarm_bcd12 : ¬(afternoon 0x00).LatchesAlarm ∧
    { afternoon 0x00 with time := ⟨0,0,13,1,1,1,2026⟩ }.Alarmed :=
  ⟨not_latchesAlarm_afternoon (by decide) (by decide),(alarmed_iff _).mpr
    ⟨.inl rfl,.inl rfl,.inr (readHours_afternoon (by decide) rfl).symm⟩⟩

end Cmos
end Enlil.Devices
