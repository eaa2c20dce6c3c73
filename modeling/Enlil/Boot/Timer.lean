import Mathlib.Order.Lattice.Nat
import Mathlib.Tactic.Ring
import Enlil.Boot.Apic.Defs

/-!
# Timers: model of `Pit8254` channel 0 (`vdev.rs`) and of the local APIC timer (`platform.rs`)
-/

namespace Enlil.Boot
open List Nat
namespace Countdown

/-- A poll at `now`: whether the timer has expired, and the next expiry. The missed periods of a
periodic timer are folded into the one expiry. -/
def poll (periodic : Bool) (period : ℕ) (next : Option ℕ) (now : ℕ) : Bool × Option ℕ :=
  match next with
  | none => (false,none)
  | some due =>
    if now < due then (false,some due)
    else if periodic then (true,some ((due+((now-due)/period+1)*period)%2^64))
    else (true,none)

/-- The times at which a timer loaded at `s` expires. -/
def expiries (periodic : Bool) (s period : ℕ) : Set ℕ :=
  {e | ∃ k, 0 < k ∧ (periodic = false → k = 1) ∧ e = s+k*period}

/-- `next` is the first time of `E` after `t`, and `none` if there is none. -/
def Next (E : Set ℕ) (t : ℕ) (next : Option ℕ) : Prop :=
  ∀ d, next = some d ↔ IsLeast (E ∩ Set.Ioi t) d

variable {E : Set ℕ} {t now d s period : ℕ} {periodic : Bool} {next : Option ℕ}

lemma next_some (h : IsLeast (E ∩ Set.Ioi t) d) : Next E t (some d) := by
  intro e
  refine ⟨fun he => ?_,fun he => congrArg some (h.unique he)⟩
  cases he
  exact h

lemma next_none (h : ∀ e ∈ E, e ≤ t) : Next E t none := by
  refine fun d => ⟨nofun,fun hd => ?_⟩
  exact absurd (h d hd.1.1) (Nat.not_le.mpr hd.1.2)

lemma Next.forall_le (h : Next E t none) : ∀ e ∈ E, e ≤ t := by
  intro e he
  by_contra hlt
  have hne : (E ∩ Set.Ioi t).Nonempty := ⟨e,he,Nat.not_le.mp hlt⟩
  exact nomatch (h _).mpr ⟨sInf_mem hne,fun _ hb => Nat.sInf_le hb⟩

lemma Next.expired_iff (h : Next E t next) :
    (poll periodic period next now).1 = true ↔ (E ∩ Set.Ioc t now).Nonempty := by
  cases next with
  | none =>
    refine ⟨nofun,?_⟩
    rintro ⟨e,he,hlt,-⟩
    exact absurd (h.forall_le e he) (Nat.not_le.mpr hlt)
  | some due =>
    obtain ⟨⟨hmem,hdue⟩,hleast⟩ := (h due).mp rfl
    have hpoll : (poll periodic period (some due) now).1 = true ↔ due ≤ now := by
      simp only [poll]
      split_ifs <;> simp <;> omega
    rw [hpoll]
    refine ⟨fun hle => ⟨due,hmem,hdue,hle⟩,?_⟩
    rintro ⟨e,he,hlt,hle⟩
    exact (hleast ⟨he,hlt⟩).trans hle

lemma isLeast_rearm {m : ℕ} (hp : 0 < period) (hm : 0 < m) (hdue : s+m*period ≤ now) :
    IsLeast (expiries true s period ∩ Set.Ioi now)
      (s+m*period+((now-(s+m*period))/period+1)*period) := by
  set q := (now-(s+m*period))/period
  have hq : q*period ≤ now-(s+m*period) := div_mul_le_self _ _
  have hlt : now-(s+m*period) < (q+1)*period := by
    rw [mul_comm (q+1)]
    exact lt_mul_div_succ _ hp
  refine ⟨⟨⟨m+(q+1),Nat.add_pos_left hm _,nofun,by ring⟩,Set.mem_Ioi.mpr (by omega)⟩,?_⟩
  rintro e ⟨⟨k,-,-,rfl⟩,hnow⟩
  have hk : m+q < k := by
    by_contra hle
    have hmul : k*period ≤ (m+q)*period := Nat.mul_le_mul_right _ (by omega)
    rw [add_mul] at hmul
    have hnow' : now < s+k*period := hnow
    omega
  calc s+m*period+(q+1)*period = s+(m+q+1)*period := by ring
    _ ≤ s+k*period := Nat.add_le_add_left (Nat.mul_le_mul_right _ hk) s

lemma Next.poll (h : Next (expiries periodic s period) t next) (hp : 0 < period)
    (ht : t ≤ now) (hnow : now+period < 2^64) :
    Next (expiries periodic s period) now (poll periodic period next now).2 := by
  cases next with
  | none => exact next_none fun e he => (h.forall_le e he).trans ht
  | some due =>
    obtain ⟨⟨hmem,hdue⟩,hleast⟩ := (h due).mp rfl
    simp only [Countdown.poll]
    by_cases hlt : now < due
    · rw [if_pos hlt]
      exact next_some ⟨⟨hmem,hlt⟩,fun e he => hleast ⟨he.1,ht.trans_lt he.2⟩⟩
    · rw [if_neg hlt]
      obtain ⟨m,hm,hone,rfl⟩ := hmem
      cases periodic with
      | true =>
        have hskip := div_mul_le_self (now-(s+m*period)) period
        rw [if_pos rfl,mod_eq_of_lt (by rw [add_mul]; omega)]
        exact next_some (isLeast_rearm hp hm (Nat.not_lt.mp hlt))
      | false =>
        rw [if_neg Bool.false_ne_true]
        refine next_none ?_
        rintro e ⟨k,-,hk,rfl⟩
        rw [hk rfl,← hone rfl]
        exact Nat.not_lt.mp hlt

lemma next_load (hp : 0 < period) : Next (expiries periodic s period) s (some (s+period)) := by
  refine next_some ⟨⟨⟨1,Nat.one_pos,fun _ => rfl,by ring⟩,Set.mem_Ioi.mpr (by omega)⟩,?_⟩
  rintro e ⟨⟨k,hk,-,rfl⟩,-⟩
  exact Nat.add_le_add_left (Nat.le_mul_of_pos_left period hk) s

lemma oneShot_nonempty_iff {u : ℕ} :
    (expiries false s period ∩ Set.Ioc u t).Nonempty ↔ u < s+period ∧ s+period ≤ t := by
  constructor
  · rintro ⟨e,⟨k,-,hk,rfl⟩,hlt,hle⟩
    rw [hk rfl,one_mul] at hlt hle
    exact ⟨hlt,hle⟩
  · rintro ⟨hlt,hle⟩
    exact ⟨s+period,⟨1,Nat.one_pos,fun _ => rfl,by ring⟩,hlt,hle⟩

end Countdown

structure Polled (σ : Type*) where
  nextDeadline : σ → Option ℕ
  poll : σ → ℕ → σ
  reports : σ → ℕ → Bool

namespace Polled
open Countdown
variable {σ : Type*} (m : Polled σ)

def count : σ → List ℕ → ℕ
  | _, [] => 0
  | x, t :: ts => (m.reports x t).toNat+count (m.poll x t) ts

/-- After the polls at the times `ts`, the last one at `t`, the deadline is the first expiry after
`t`, and one more poll reports iff an expiry lies between the two polls. -/
def Exact (x : σ) (periodic : Bool) (s period : ℕ) : Prop :=
  ∀ ts t, (s :: ts).Pairwise (· ≤ ·) → ts.getLastD s = t → (∀ u ∈ s :: ts, u+period < 2^64) →
    Next (expiries periodic s period) t (m.nextDeadline (ts.foldl m.poll x)) ∧
    (∀ now, t ≤ now → (m.reports (ts.foldl m.poll x) now = true ↔
      (expiries periodic s period ∩ Set.Ioc t now).Nonempty)) ∧
    (periodic = false → m.count x ts = if s+period ≤ t then 1 else 0)

/-- On the states of `I` the timer is polled as a countdown is. -/
structure Simulates (I : σ → Prop) (periodic : Bool) (period : ℕ) : Prop where
  keeps : ∀ x now, I x → I (m.poll x now)
  next_eq : ∀ x now, I x → m.nextDeadline (m.poll x now) =
    (Countdown.poll periodic period (m.nextDeadline x) now).2
  reports_eq : ∀ x now, I x → m.reports x now =
    (Countdown.poll periodic period (m.nextDeadline x) now).1

variable {m} {I : σ → Prop} {periodic : Bool} {s period : ℕ}

lemma Simulates.foldl (h : m.Simulates I periodic period) (hp : 0 < period) {x : σ} {u : ℕ}
    (hx : I x) (hnext : Next (expiries periodic s period) u (m.nextDeadline x)) {ts : List ℕ}
    (hsorted : (u :: ts).Pairwise (· ≤ ·)) (hbound : ∀ t ∈ ts, t+period < 2^64) :
    I (ts.foldl m.poll x) ∧
    Next (expiries periodic s period) (ts.getLastD u) (m.nextDeadline (ts.foldl m.poll x)) ∧
    (periodic = false →
      m.count x ts = if u < s+period ∧ s+period ≤ ts.getLastD u then 1 else 0) := by
  induction ts generalizing x u with
  | nil =>
    refine ⟨hx,hnext,fun _ => ?_⟩
    rw [if_neg (by simp only [getLastD_nil]; omega)]
    rfl
  | cons t ts ih =>
    obtain ⟨hle,htail⟩ := pairwise_cons.mp hsorted
    have hut := hle t mem_cons_self
    have hpolled : Next (expiries periodic s period) t (m.nextDeadline (m.poll x t)) := by
      rw [h.next_eq x t hx]
      exact hnext.poll hp hut (hbound t mem_cons_self)
    obtain ⟨hI,hlast,hcount⟩ := ih (h.keeps x t hx) hpolled htail
      fun v hv => hbound v (mem_cons_of_mem _ hv)
    rw [getLastD_cons]
    refine ⟨hI,hlast,fun hone => ?_⟩
    subst hone
    -- The poll at `t` reports the one expiry iff it lies after `u` and not after `t`.
    have hreports : m.reports x t = decide (u < s+period ∧ s+period ≤ t) := by
      rw [h.reports_eq x t hx,Bool.eq_iff_iff,hnext.expired_iff,oneShot_nonempty_iff,
        decide_eq_true_iff]
    have htl : t ≤ ts.getLastD t := by
      rcases mem_cons.mp (getLastD_mem_cons (l := ts) (a := t)) with heq | hmem
      · exact heq.ge
      · exact (pairwise_cons.mp htail).1 _ hmem
    rw [count,hreports,hcount rfl]
    by_cases h₁ : u < s+period ∧ s+period ≤ t
    · rw [decide_eq_true h₁,if_neg (by omega),if_pos (by omega)]
      rfl
    · rw [decide_eq_false h₁,Bool.toNat_false,zero_add]
      exact if_congr (by omega) rfl rfl

lemma Simulates.exact (h : m.Simulates I periodic period) (hp : 0 < period) {x : σ} (hx : I x)
    (hnext : s+period < 2^64 → m.nextDeadline x = some (s+period)) :
    m.Exact x periodic s period := by
  rintro ts t hsorted rfl hbound
  have hload : Next (expiries periodic s period) s (m.nextDeadline x) := by
    rw [hnext (hbound s mem_cons_self)]
    exact next_load hp
  obtain ⟨hI,hlast,hcount⟩ := h.foldl hp hx hload hsorted
    fun u hu => hbound u (mem_cons_of_mem _ hu)
  refine ⟨hlast,fun now _ => ?_,fun hone => ?_⟩
  · rw [h.reports_eq _ _ hI]
    exact hlast.expired_iff
  · rw [hcount hone]
    exact if_congr (and_iff_right (by omega)) rfl rfl

end Polled

inductive Mode where
  | periodic
  | oneShot
  deriving DecidableEq

/-- Channel 0 of the timer, without the latch of the count and the other channels. -/
structure Pit8254 where
  tscHz : ℕ
  mode : Mode
  access : BitVec 8
  reload : ℕ
  loPending : Option (BitVec 8)
  startTsc : ℕ
  nextFire : Option ℕ

namespace Pit8254

def pitHz : ℕ := 1193182

section
variable (p : Pit8254)

/-- A count has at most 17 bits and `pitHz` has 21, so the quotient fits in a `u64`. -/
def ticksToTsc (ticks : ℕ) : ℕ := ticks*p.tscHz/pitHz

def periodTsc : ℕ :=
  let t := p.ticksToTsc p.reload
  if t = 0 then 1 else t

def load (c : BitVec 16) (now : ℕ) : Pit8254 :=
  let p := { p with reload := if c = 0 then 0x10000 else c.toNat, startTsc := now }
  { p with nextFire := some ((now+p.ticksToTsc p.reload)%2^64) }

def writeData (val : BitVec 8) (now : ℕ) : Pit8254 :=
  let v := val.setWidth 16
  if p.access = 1 then p.load v now
  else if p.access = 2 then p.load (v <<< 8) now
  else match p.loPending with
    | none => { p with loPending := some val }
    | some lo => { p with loPending := none }.load ((v <<< 8) ||| lo.setWidth 16) now

def poll (now : ℕ) : Bool × Pit8254 :=
  let r := Countdown.poll (p.mode = .periodic) p.periodTsc p.nextFire now
  (r.1,{ p with nextFire := r.2 })

def nextDeadline : Option ℕ := p.nextFire

/-- A data write is the one that completes a count. -/
def Loads : Prop := p.access = 1 ∨ p.access = 2 ∨ p.loPending.isSome

end

def timer : Polled Pit8254 := ⟨nextDeadline,fun p now => (p.poll now).2,fun p now => (p.poll now).1⟩

lemma nextFire_load (p : Pit8254) (c : BitVec 16) (now : ℕ) : (p.load c now).nextFire =
      some ((now+(p.load c now).ticksToTsc (p.load c now).reload)%2^64) := rfl

lemma Loads.nextFire {p : Pit8254} (h : p.Loads) (val : BitVec 8) (now : ℕ) :
    (p.writeData val now).nextFire = some
      ((now+(p.writeData val now).ticksToTsc (p.writeData val now).reload)%2^64) := by
  simp only [writeData]
  split_ifs with h₁ h₂
  · exact nextFire_load ..
  · exact nextFire_load ..
  · obtain ⟨lo,hlo⟩ := Option.isSome_iff_exists.mp ((h.resolve_left h₁).resolve_left h₂)
    rw [hlo]
    exact nextFire_load ..

lemma simulates (p : Pit8254) :
    timer.Simulates (fun q => q.mode = p.mode ∧ q.periodTsc = p.periodTsc)
      (p.mode = .periodic) p.periodTsc where
  keeps _ _ hq := hq
  next_eq q now hq := by rw [← hq.1,← hq.2]; rfl
  reports_eq q now hq := by rw [← hq.1,← hq.2]; rfl

lemma exact_loaded {p : Pit8254} {s : ℕ} (hticks : pitHz ≤ p.reload*p.tscHz)
    (hnext : p.nextFire = some ((s+p.ticksToTsc p.reload)%2^64)) :
    timer.Exact p (p.mode = .periodic) s p.periodTsc := by
  have hpos : 0 < p.ticksToTsc p.reload := Nat.div_pos hticks (by decide)
  have hperiod : p.periodTsc = p.ticksToTsc p.reload := if_neg hpos.ne'
  refine p.simulates.exact (hperiod ▸ hpos) ⟨rfl,rfl⟩ fun hs => ?_
  rw [hperiod] at hs ⊢
  rw [← mod_eq_of_lt hs]
  exact hnext

end Pit8254
namespace Lapic

def regLvtTimer : ℕ := 0x320
def lvtTimerPeriodic : BitVec 32 := BitVec.twoPow 32 17

section
variable (l : Lapic)

def timerUnmasked : Bool := l.regs (regLvtTimer/4) &&& lvtMasked = 0

def timerPeriodic : Bool := l.regs (regLvtTimer/4) &&& lvtTimerPeriodic ≠ 0

def timerPeriod : ℕ := l.countToTsc (l.regs (regTimerInit/4))

def poll (now : ℕ) : Lapic :=
  let r := Countdown.poll l.timerPeriodic l.timerPeriod l.timerNext now
  let vector := (l.regs (regLvtTimer/4)).setWidth 8
  { (if r.1 && l.timerUnmasked then l.raise vector else l) with timerNext := r.2 }

def nextDeadline : Option ℕ := l.timerNext.filter fun _ => l.timerUnmasked

/-- The poll at `now` requests an interrupt, seen with no other request pending. -/
def requests (now : ℕ) : Bool := ({ l with irr := 0 }.poll now).irr ≠ 0

def timer : Polled Lapic := ⟨nextDeadline,poll,requests⟩

lemma poll_eq (now : ℕ) : ∃ irr, l.poll now = { l with
    irr := irr
    timerNext := (Countdown.poll l.timerPeriodic l.timerPeriod l.timerNext now).2 } := by
  simp only [poll]
  split_ifs
  · exact ⟨_,rfl⟩
  · exact ⟨_,rfl⟩

lemma requests_eq {l : Lapic} (hl : l.timerUnmasked = true) (now : ℕ) :
    l.requests now = (Countdown.poll l.timerPeriodic l.timerPeriod l.timerNext now).1 := by
  have hirr : ({ l with irr := 0 }.poll now).irr =
      (if (Countdown.poll l.timerPeriodic l.timerPeriod l.timerNext now).1 && l.timerUnmasked
        then { l with irr := 0 }.raise ((l.regs (regLvtTimer/4)).setWidth 8)
        else { l with irr := 0 }).irr := rfl
  rw [requests,hirr,hl,Bool.and_true]
  cases (Countdown.poll l.timerPeriodic l.timerPeriod l.timerNext now).1 with
  | false => rfl
  | true =>
    generalize (l.regs (regLvtTimer/4)).setWidth 8 = v
    refine decide_eq_true fun hzero => ?_
    have hbit := congrArg (BitVec.getLsbD · v.toNat) hzero
    have hlt : v.toNat < 256 := v.isLt
    simp [raise,hlt] at hbit

lemma nextDeadline_eq {l : Lapic} (hl : l.timerUnmasked = true) :
    l.nextDeadline = l.timerNext := by
  cases h : l.timerNext <;> simp [nextDeadline,h,hl]

lemma simulates {l : Lapic} (hl : l.timerUnmasked = true) :
    timer.Simulates (fun k => ∃ irr next, k = { l with irr := irr, timerNext := next })
      l.timerPeriodic l.timerPeriod where
  keeps := by
    rintro _ now ⟨irr,next,rfl⟩
    obtain ⟨irr',hpoll⟩ := poll_eq { l with irr := irr, timerNext := next } now
    exact ⟨irr',_,hpoll⟩
  next_eq := by
    rintro _ now ⟨irr,next,rfl⟩
    obtain ⟨irr',hpoll⟩ := poll_eq { l with irr := irr, timerNext := next } now
    change nextDeadline (poll _ now) = (Countdown.poll _ _ (nextDeadline _) now).2
    rw [hpoll,nextDeadline_eq,nextDeadline_eq]
    · rfl
    · exact hl
    · exact hl
  reports_eq := by
    rintro _ now ⟨irr,next,rfl⟩
    change requests _ now = (Countdown.poll _ _ (nextDeadline _) now).1
    rw [requests_eq,nextDeadline_eq]
    · rfl
    · exact hl
    · exact hl

lemma exact_loaded {l : Lapic} {s : ℕ} (hl : l.timerUnmasked = true)
    (hnext : l.timerNext = some (min (s+l.timerPeriod) (2^64-1))) :
    timer.Exact l l.timerPeriodic s l.timerPeriod := by
  refine (simulates hl).exact (Nat.le_max_right _ _) ⟨l.irr,l.timerNext,rfl⟩ fun hs => ?_
  change l.nextDeadline = _
  rw [nextDeadline_eq hl,hnext,Nat.min_eq_left (by omega)]

lemma write_timerInit {value : BitVec 64} (hv : value.setWidth 32 ≠ (0 : BitVec 32))
    (s : ℕ) : (l.write regTimerInit 4 value s).2 = { l with
      regs := Function.update l.regs (regTimerInit/4) (value.setWidth 32)
      timerNext := some (min (s+l.countToTsc (value.setWidth 32)) (2^64-1)) } := by
  have hreg : ¬readOnly regTimerInit ∧ regTimerInit ≠ regEoi ∧ regTimerInit ≠ regIcrLow := by decide
  rw [write,if_neg (by decide),if_neg hreg.1,if_neg hreg.2.1,if_neg hreg.2.2,if_pos rfl,if_pos hv]

end
end Lapic

/-- A PIT count worth at least one tick of the TSC and an unmasked local APIC timer expire exactly
at the multiples of their period after the load. -/
theorem exact_of_load : (∀ (p : Pit8254) (val : BitVec 8) (s : ℕ), p.Loads →
      Pit8254.pitHz ≤ (p.writeData val s).reload*(p.writeData val s).tscHz →
      Pit8254.timer.Exact (p.writeData val s) ((p.writeData val s).mode = .periodic) s
        (p.writeData val s).periodTsc) ∧
    ∀ (l : Lapic) (value : BitVec 64) (s : ℕ), value.setWidth 32 ≠ (0 : BitVec 32) →
      l.timerUnmasked = true →
      Lapic.timer.Exact (l.write Lapic.regTimerInit 4 value s).2 l.timerPeriodic s
        (l.countToTsc (value.setWidth 32)) := by
  refine ⟨fun p val s hload hticks => Pit8254.exact_loaded hticks (hload.nextFire val s),
    fun l value s hv hl => ?_⟩
  rw [Lapic.write_timerInit l hv s]
  exact Lapic.exact_loaded hl rfl

theorem exact_of_load_periodic :
    Pit8254.timer.Exact (Pit8254.writeData ⟨11931820,.periodic,1,0,none,0,none⟩ 2 5) true 5 20 ∧
    Lapic.timer.Exact (((Lapic.new 1000000000).write Lapic.regLvtTimer 4 0x20020 0).2.write
      Lapic.regTimerInit 4 5 7).2 true 7 10 :=
  ⟨exact_of_load.1 _ 2 5 (Or.inl rfl) (by decide),exact_of_load.2 _ 5 7 (by decide) rfl⟩

/-- The timer of a local APIC after reset is masked. A PIT count of less than a tick of the TSC is
due at the time of the load. -/
theorem not_exact_of_load :
    ¬Lapic.timer.Exact ((Lapic.new 1000000000).write Lapic.regTimerInit 4 1 0).2 false 0 2 ∧
    ¬Pit8254.timer.Exact (Pit8254.writeData ⟨1,.oneShot,1,0,none,0,none⟩ 1 0) false 0 1 := by
  constructor
  · intro h
    have hrequests := ((h [] 0 (by simp) rfl (by simp)).2.1 2 (by decide)).mpr
      (Countdown.oneShot_nonempty_iff.mpr (by decide))
    exact absurd hrequests (by decide)
  · intro h
    have hexpired := ((h [] 0 (by simp) rfl (by simp)).2.1 0 le_rfl).mp (by decide)
    exact absurd (Countdown.oneShot_nonempty_iff.mp hexpired) (by decide)

end Enlil.Boot
