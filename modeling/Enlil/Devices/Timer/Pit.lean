import Enlil.Core.Clocks
import Mathlib.Tactic.IntervalCases

/-! # The edges of PIT channel 0 over many calls: model of `pit.rs`, `load_count` -/

namespace Enlil.Devices
open Nat Function List
namespace PitChannel
variable {ch : PitChannel}

/-- A count of 0 stands for 65536, which is 0 in the counter. -/
def loadCount (ch : PitChannel) : PitChannel :=
  { ch with count := ch.reload, enabled := true, output := false }

/-- A control word for lo/hi access, and the two bytes of a count. -/
def program (ch : PitChannel) (mode : ChannelMode) (count : BitVec 16) : PitChannel :=
  let lo : BitVec 8 := count.setWidth 8
  let hi : BitVec 8 := (count >>> 8).setWidth 8
  let reload : BitVec 16 := (ch.reload &&& 0xFF00#16) ||| lo.setWidth 16
  let reload : BitVec 16 := (reload &&& 0x00FF#16) ||| hi.setWidth 16 <<< 8
  { ch with mode, reload }.loadCount

def edges : ℕ → PitChannel → ℕ
  | 0, _ => 0
  | n+1, ch => ch.tick.1.toNat+edges n ch.tick.2

lemma edges_add (m n : ℕ) (ch : PitChannel) :
    edges (m+n) ch = edges m ch+edges n ((fun ch => ch.tick.2)^[m] ch) := by
  induction m generalizing ch with
  | zero => simp [edges]
  | succ m ih => rw [succ_add,edges,ih,edges,iterate_succ_apply,Nat.add_assoc]

end PitChannel
namespace Pit
open PitChannel
variable {p : Pit}

lemma clocks_fst (n : ℕ) (p : Pit) : (clocks n p).1 = edges n p.channel0 := by
  induction n generalizing p with
  | zero => rfl
  | succ n ih => rw [clocks,edges,ih,Nat.add_comm]; rfl

lemma channel0_clocks (n : ℕ) (p : Pit) :
    (clocks n p).2.channel0 = (fun ch => ch.tick.2)^[n] p.channel0 := by
  induction n generalizing p with
  | zero => rfl
  | succ n ih => rw [clocks,ih,iterate_succ_apply]; rfl

def irqs : Pit → List ℕ → ℕ
  | _, [] => 0
  | p, ns :: calls => (p.tick ns).1+irqs (p.tick ns).2 calls

/-- How the time is split over calls does not matter. -/
lemma irqs_eq {calls : List ℕ} (h : ∀ ns ∈ calls, ns+nsPerTick ≤ 2^64) :
    p.irqs calls = edges ((p.accumulatorNs+calls.sum)/nsPerTick) p.channel0 := by
  induction calls generalizing p with
  | nil => rw [irqs,sum_nil,Nat.add_zero,div_eq_of_lt p.accumulatorNs_lt]; rfl
  | cons ns calls ih =>
    obtain ⟨hns,hcalls⟩ := forall_mem_cons.mp h
    have hlt := p.accumulatorNs_lt
    have hadd : p.accumulatorNs+ns < 2^64 := by omega
    rw [irqs,ih hcalls,tick_eq hadd,sum_cons,← Nat.add_assoc,
      ← Ticks.div_add_carry_div nsPerTick_pos (p.accumulatorNs+ns),edges_add]
    simp only [tick,Word.add64_of_lt hadd,clocks_fst,channel0_clocks]

/-- What the number of edges is after any time, split in any way. -/
def Counts (p : Pit) (f : ℕ → ℕ) : Prop :=
  ∀ calls : List ℕ, (∀ ns ∈ calls, ns+nsPerTick ≤ 2^64) →
    p.irqs calls = f ((p.accumulatorNs+calls.sum)/nsPerTick)

lemma counts_iff {f : ℕ → ℕ} : p.Counts f ↔ ∀ n, edges n p.channel0 = f n := by
  -- one clock per call reaches every number of clocks
  refine ⟨fun h n => ?_,fun h calls hcalls => (irqs_eq hcalls).trans (h _)⟩
  have hcalls : ∀ ns ∈ replicate n nsPerTick, ns+nsPerTick ≤ 2^64 := by
    intro ns hns
    rw [eq_of_mem_replicate hns]
    decide
  have hclocks : (p.accumulatorNs+(replicate n nsPerTick).sum)/nsPerTick = n := by
    rw [sum_replicate_nat,add_mul_div_right _ _ nsPerTick_pos,
      div_eq_of_lt p.accumulatorNs_lt, Nat.zero_add]
  have heq := h _ hcalls
  rwa [irqs_eq hcalls,hclocks] at heq

def program (p : Pit) (mode : ChannelMode) (count : BitVec 16) : Pit :=
  { p with channel0 := p.channel0.program mode count }

/-- Edges every `N` clocks, up to an initial phase. -/
def Every (N : ℕ) (p : Pit) : Prop := ∃ phase < N, p.Counts fun n => (n+phase)/N

def Once (N : ℕ) (p : Pit) : Prop := p.Counts fun n => if N ≤ n then 1 else 0

end Pit
namespace PitChannel
variable {c reload : BitVec 16} {o : Bool}

def period (count : BitVec 16) : ℕ := (count-1).toNat+1

lemma program_eq (ch : PitChannel) (mode : ChannelMode) (count : BitVec 16) :
    ch.program mode count = ⟨count,count,mode,false,ch.gate,true⟩ := by
  have hreload : (((ch.reload &&& 0xFF00#16) ||| (count.setWidth 8).setWidth 16) &&& 0x00FF#16) |||
      ((count >>> 8).setWidth 8).setWidth 16 <<< 8 = count := by
    ext i hlt
    interval_cases i <;> simp
  simp only [program,loadCount,hreload]

/-- `f k` is the channel `k` clocks after an edge, in a period of `P` clocks. -/
lemma edges_eq {P k : ℕ} {f : ℕ → PitChannel} (n : ℕ) (hk : k < P)
    (hstep : ∀ k < P, (f k).tick = if k+1 = P then (true,f 0) else (false,f (k+1))) :
    edges n (f k) = (n+k)/P := by
  induction n generalizing k with
  | zero => rw [edges,div_eq_of_lt (by omega)]
  | succ n ih =>
    rw [edges,hstep k hk]
    split
    case isTrue hend =>
      rw [ih (by omega),show n+1+k = n+0+P by omega,add_div_right _ (by omega),Nat.add_comm]
      rfl
    case isFalse hend =>
      rw [ih (by omega),show n+1+k = n+(k+1) by omega]
      exact Nat.zero_add _

lemma edges_rateGenerator (n : ℕ) :
    edges n ⟨c,c,.rateGenerator,false,true,true⟩ = n/period c := by
  refine (congrArg (edges n) (by simp)).trans (edges_eq n (k := 0) (by unfold period; omega)
    (f := fun k => ⟨c-.ofNat 16 k,c,.rateGenerator,decide (0 < k),true,true⟩) fun k hk => ?_)
  have hend : c-.ofNat 16 k-1 = 0 ↔ k+1 = period c := by
    unfold period at hk ⊢
    bv_omega
  have hnext : c-.ofNat 16 k-1 = c-.ofNat 16 (k+1) := by bv_omega
  show (if c-.ofNat 16 k-1 = 0 then _ else _) = _
  refine if_congr hend (by simp) ?_
  rw [hnext]; simp

lemma tick_squareWave {j : ℕ} (hj : j < c.toNat/2) :
    tick ⟨c-.ofNat 16 (2*j),c,.squareWave,o,true,true⟩ =
      if j+1 = c.toNat/2 then (!o,⟨c,c,.squareWave,!o,true,true⟩)
      else (false,⟨c-.ofNat 16 (2*(j+1)),c,.squareWave,o,true,true⟩) := by
  have hne : c-.ofNat 16 (2*j) ≠ 0 := by bv_omega
  have hend : c-.ofNat 16 (2*j)-2 ≤ 1 ↔ j+1 = c.toNat/2 := by bv_omega
  have hnext : c-.ofNat 16 (2*j)-2 = c-.ofNat 16 (2*(j+1)) := by bv_omega
  refine (if_neg hne).trans (if_congr hend rfl ?_)
  rw [hnext]

lemma edges_squareWave (n : ℕ) (h2 : 2 ≤ c.toNat) :
    edges n ⟨c,c,.squareWave,false,true,true⟩ = (n+c.toNat/2)/(c.toNat/2*2) := by
  -- the output is high in the first half of a period, and the counter starts in the second
  refine (congrArg (edges n) (by simp)).trans (edges_eq n (k := c.toNat/2) (by omega)
    (f := fun k => if k < c.toNat/2 then ⟨c-.ofNat 16 (2*k),c,.squareWave,true,true,true⟩
      else ⟨c-.ofNat 16 (2*(k-c.toNat/2)),c,.squareWave,false,true,true⟩) fun k hk => ?_)
  by_cases hlow : k < c.toNat/2
  · rw [if_pos hlow,tick_squareWave hlow,if_neg (by omega : ¬k+1 = c.toNat/2*2)]
    split
    case isTrue hend => rw [if_neg (by omega),hend,Nat.sub_self]; simp
    case isFalse hend => rw [if_pos (by omega)]
  · rw [if_neg hlow,tick_squareWave (by omega)]
    refine if_congr (by omega) ?_ ?_
    · rw [if_pos (by omega)]; simp
    · rw [if_neg (by omega),show k-c.toNat/2+1 = k+1-c.toNat/2 by omega]

lemma edges_squareWave_zero (n : ℕ) : edges n ⟨0,0,.squareWave,o,true,true⟩ = 0 := by
  induction n with
  | zero => rfl
  | succ n ih => exact (Nat.zero_add _).trans ih

lemma edges_terminalCount (n : ℕ) :
    edges n ⟨c,reload,.interruptOnTerminalCount,o,true,true⟩ =
      if c ≠ 0 ∧ c.toNat ≤ n then 1 else 0 := by
  induction n generalizing c o with
  | zero =>
    rw [edges,if_neg]
    rintro ⟨hne,hle⟩
    exact hne (BitVec.eq_of_toNat_eq (by simpa using hle))
  | succ n ih =>
    rw [edges,tick]
    simp only [Bool.not_true,Bool.or_self,Bool.false_eq_true,if_false]
    split
    case isTrue hc => rw [ih,if_neg fun h => h.1 hc,if_neg fun h => h.1 hc]; rfl
    rename_i hc
    split
    case isTrue hlast =>
      rw [ih,if_neg fun h => h.1 rfl,if_pos ⟨hc,by bv_omega⟩]
      rfl
    case isFalse hlast =>
      rw [ih]
      refine (Nat.zero_add _).trans (if_congr ?_ rfl rfl)
      have hpred : (c-1).toNat+1 = c.toNat := by bv_omega
      rw [and_iff_right hlast,and_iff_right hc]
      omega

lemma period_of_ne_zero (h : c ≠ 0) : period c = c.toNat := by
  unfold period
  bv_omega

end PitChannel
namespace Pit
open PitChannel

/-- The square wave of an odd count has one clock too few in its period. -/
lemma not_every_odd {h : ℕ} (phase : ℕ) (hpos : 0 < h)
    (heq : ∀ n, (n+h)/(h*2) = (n+phase)/(h*2+1)) : False := by
  have hfirst := heq (h-1)
  have hsecond := heq h
  have hthird := heq (3*h)
  rw [div_eq_of_lt (by omega),eq_comm,Nat.div_eq_zero_iff] at hfirst
  rw [show h+h = h*2 by omega,Nat.div_self (by omega)] at hsecond
  rw [show 3*h+h = 2*(h*2) by omega,Nat.mul_div_cancel _ (by omega)] at hthird
  have hle := (le_div_iff_mul_le (by omega)).mp (Nat.le_of_eq hsecond)
  have hle' := (le_div_iff_mul_le (by omega)).mp (Nat.le_of_eq hthird)
  omega

/-- The edges come at the programmed period in mode 2; in mode 3 if the count is even and is not
the 0 that stands for 65536; and in mode 0 if it is not that 0. -/
theorem program_iff (p : Pit) (count : BitVec 16) (hgate : p.channel0.gate = true) :
    (2 ≤ period count → (p.program .rateGenerator count).Every (period count)) ∧
    (2 ≤ period count → ((p.program .squareWave count).Every (period count) ↔
      count ≠ 0 ∧ period count%2 = 0)) ∧
    ((p.program .interruptOnTerminalCount count).Once (period count) ↔ count ≠ 0) := by
  have hch : ∀ mode, (p.program mode count).channel0 = ⟨count,count,mode,false,true,true⟩ :=
    fun mode => by rw [program,program_eq,hgate]
  simp only [Every,Once,counts_iff,hch]
  refine ⟨fun h2 => ⟨0,by omega,fun n => ?_⟩,fun h2 => ?_,?_⟩
  · exact edges_rateGenerator n
  · by_cases hzero : count = 0
    · -- the counter holds 0, which each clock takes for an expired count and reloads
      subst hzero
      refine iff_of_false ?_ fun h => h.1 rfl
      rintro ⟨phase,-,heq⟩
      have hfirst := heq (period 0)
      rw [edges_squareWave_zero,add_div_left _ (by omega)] at hfirst
      cases hfirst
    · rw [period_of_ne_zero hzero] at h2 ⊢
      simp only [edges_squareWave _ h2]
      constructor
      · -- an odd count: the wave has the period of the even count below it
        rintro ⟨phase,-,heq⟩
        refine ⟨hzero,by_contra fun hodd => ?_⟩
        have hcount : count.toNat = count.toNat/2*2+1 := by omega
        refine not_every_odd (h := count.toNat/2) phase (by omega) fun n => ?_
        rw [← hcount,heq n]
      · rintro ⟨-,heven⟩
        refine ⟨count.toNat/2,by omega,fun n => ?_⟩
        rw [show count.toNat/2*2 = count.toNat by omega]
  · simp only [edges_terminalCount]
    constructor
    · rintro heq rfl
      exact absurd (heq (period 0)) (by simp)
    · intro hne n
      rw [period_of_ne_zero hne]
      exact if_congr (and_iff_right hne) rfl rfl

theorem program_iff_new : (new.program .rateGenerator 1193).Every 1193 :=
  (program_iff new 1193 rfl).1 (by decide)

/-- The square wave of the count 3 has its first two edges after 1 and 3 clocks. -/
theorem program_odd : (new.program .squareWave 3).irqs [838] = 1 ∧
    (new.program .squareWave 3).irqs [838,838,838] = 2 ∧ ¬(new.program .squareWave 3).Every 3 := by
  refine ⟨by decide,by decide,?_⟩
  rintro ⟨phase,hphase,h⟩
  have hzero : 0 = (0+phase)/3 := h [] nofun
  have hone : 1 = (1+phase)/3 := h [838] (by decide)
  have htwo : 2 = (3+phase)/3 := h [838,838,838] (by decide)
  omega

end Pit
end Enlil.Devices
