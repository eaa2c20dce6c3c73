import Enlil.Lib.BitReg

/-! # The dual 8259A: model of the interrupt controllers of `enlil-boot/src/vdev.rs` -/

namespace Enlil.Boot
open BitReg BitVec

/-! ### One controller -/

structure Pic8259 where
  irr : BitVec 8
  isr : BitVec 8
  imr : BitVec 8
  base : BitVec 8
  /-- Where in ICW2 to ICW4 an initialization is; 0 outside of one. -/
  initStep : ℕ
  icw4Needed : Bool
  single : Bool
  autoEoi : Bool
  readIsr : Bool
  elcr : BitVec 8
  level : BitVec 8
deriving DecidableEq

def irqBit (irq : ℕ) : BitVec 8 := twoPow 8 (irq%8)

namespace Pic8259

def new (base : BitVec 8) : Pic8259 :=
  ⟨0,0,0xFF,base,0,false,false,false,false,0,0⟩

section
variable (p : Pic8259)

def setIrq (irq : ℕ) (level : Bool) : Pic8259 :=
  let bit := irqBit irq
  let was := p.level &&& bit ≠ 0
  if level then
    { p with
      level := p.level ||| bit
      irr := if p.elcr &&& bit ≠ 0 ∨ ¬ was then p.irr ||| bit else p.irr }
  else
    { p with
      level := p.level &&& ~~~bit
      irr := if p.elcr &&& bit ≠ 0 then p.irr &&& ~~~bit else p.irr }

def pending : Option ℕ :=
  let req := p.irr &&& ~~~p.imr
  if req = 0 then none
  else if p.isr ≠ 0 ∧ trailingZeros p.isr ≤ trailingZeros req then none
  else some (trailingZeros req)

def ack (irq : ℕ) : BitVec 8 × Pic8259 :=
  let bit := irqBit irq
  (p.base ||| BitVec.ofNat 8 (irq%8),
    { p with
      irr := if p.elcr &&& bit = 0 then p.irr &&& ~~~bit else p.irr
      isr := if p.autoEoi then p.isr else p.isr ||| bit })

def writeCmd (val : BitVec 8) : Pic8259 :=
  if val &&& 0x10 ≠ 0 then
    -- ICW1: restart initialization
    { p with
      irr := 0, isr := 0, imr := 0, level := 0, autoEoi := false, readIsr := false
      icw4Needed := val &&& 0x01 ≠ 0
      single := val &&& 0x02 ≠ 0
      elcr := if val &&& 0x08 ≠ 0 then 0xFF else p.elcr
      initStep := 2 }
  else if val &&& 0x08 ≠ 0 then
    -- OCW3: select what a command-port read returns
    if val &&& 0x02 ≠ 0 then { p with readIsr := val &&& 0x01 ≠ 0 } else p
  else if val &&& 0xE0 = 0x20 ∨ val &&& 0xE0 = 0xA0 then
    if p.isr ≠ 0 then { p with isr := p.isr &&& ~~~(twoPow 8 (trailingZeros p.isr)) } else p
  else if val &&& 0xE0 = 0x60 ∨ val &&& 0xE0 = 0xE0 then
    { p with isr := p.isr &&& ~~~(twoPow 8 (val &&& 7).toNat) }
  else p

def writeData (val : BitVec 8) : Pic8259 :=
  match p.initStep with
  | 2 =>
    { p with
      base := val &&& 0xF8
      initStep := if p.single then (if p.icw4Needed then 4 else 0) else 3 }
  | 3 => { p with initStep := if p.icw4Needed then 4 else 0 }
  | 4 => { p with autoEoi := val &&& 0x02 ≠ 0, initStep := 0 }
  | _ => { p with imr := val }

def setElcr (val : BitVec 8) : Pic8259 := { p with elcr := val &&& 0xF8 }

def Ready (i : ℕ) : Prop :=
  i < 8 ∧ p.irr.getLsbD i = true ∧ p.imr.getLsbD i = false ∧ ∀ k ≤ i, p.isr.getLsbD k = false

end
variable {p q : Pic8259} {i irq : ℕ} {level : Bool}

lemma req_bit (hi : i < 8) :
    (p.irr &&& ~~~p.imr).getLsbD i = true ↔ p.irr.getLsbD i = true ∧ p.imr.getLsbD i = false := by
  rw [BitVec.getLsbD_and,BitVec.getLsbD_not,decide_eq_true hi,Bool.true_and,Bool.and_eq_true,
    Bool.not_eq_true']

lemma ready_iff_of_req (hi : i < 8) (hreq : (p.irr &&& ~~~p.imr).getLsbD i = true) :
    p.Ready i ↔ ¬ (p.isr ≠ 0 ∧ trailingZeros p.isr ≤ i) := by
  obtain ⟨hirr,himr⟩ := (req_bit hi).mp hreq
  constructor
  · rintro ⟨-,-,-,hisr⟩ ⟨hne,hle⟩
    have hbit := (trailingZeros_spec hne).2.1
    rw [hisr _ hle] at hbit
    cases hbit
  · intro hnot
    refine ⟨hi,hirr,himr,fun k hk => ?_⟩
    by_contra hbit
    rw [Bool.not_eq_false] at hbit
    refine hnot ⟨?_,Nat.le_trans (trailingZeros_le hbit) hk⟩
    intro hzero
    rw [hzero] at hbit
    exact absurd hbit (by simp)

lemma pending_eq_some : p.pending = some i ↔ p.Ready i ∧ ∀ j < i, ¬ p.Ready j := by
  have hreq_of : ∀ {j}, p.Ready j → (p.irr &&& ~~~p.imr).getLsbD j = true :=
    fun h => (req_bit h.1).mpr ⟨h.2.1,h.2.2.1⟩
  constructor
  · intro h
    simp only [pending] at h
    split_ifs at h with hzero hblock
    cases h
    obtain ⟨hlt,hbit,hlow⟩ := trailingZeros_spec hzero
    refine ⟨(ready_iff_of_req hlt hbit).mpr hblock,fun j hj hready => ?_⟩
    have hj' := hreq_of hready
    rw [hlow j hj] at hj'
    cases hj'
  · rintro ⟨hready,hfirst⟩
    have hbit := hreq_of hready
    have hne : p.irr &&& ~~~p.imr ≠ 0 := by
      intro hzero
      rw [hzero] at hbit
      exact absurd hbit (by simp)
    obtain ⟨hlt,hlow,-⟩ := trailingZeros_spec hne
    have hle := trailingZeros_le hbit
    -- Nothing in service blocks input `i`, so nothing blocks the lowest request either.
    have hleast : p.Ready (trailingZeros (p.irr &&& ~~~p.imr)) := by
      obtain ⟨hirr,himr⟩ := (req_bit hlt).mp hlow
      exact ⟨hlt,hirr,himr,fun k hk => hready.2.2.2 k (Nat.le_trans hk hle)⟩
    have heq : trailingZeros (p.irr &&& ~~~p.imr) = i := by
      by_contra hne'
      exact hfirst _ (by omega) hleast
    simp only [pending]
    rw [if_neg hne,if_neg ((ready_iff_of_req hlt hlow).mp hleast),heq]

lemma pending_isSome : p.pending.isSome = true ↔ ∃ i, p.Ready i := by
  constructor
  · intro h
    obtain ⟨i,hi⟩ := Option.isSome_iff_exists.mp h
    exact ⟨i,(pending_eq_some.mp hi).1⟩
  · rintro ⟨i,hi⟩
    induction i using Nat.strongRecOn with
    | _ i ih =>
      by_cases hex : ∃ j < i, p.Ready j
      · obtain ⟨j,hj,hready⟩ := hex
        exact ih j hj hready
      · have hsome : p.pending = some i :=
          pending_eq_some.mpr ⟨hi,fun j hj hready => hex ⟨j,hj,hready⟩⟩
        rw [hsome]
        rfl

lemma irqBit_eq (hi : i < 8) : irqBit i = twoPow 8 i := by
  rw [irqBit,Nat.mod_eq_of_lt hi]

lemma and_irqBit (x : BitVec 8) (hi : i < 8) : x &&& irqBit i ≠ 0 ↔ x.getLsbD i = true := by
  rw [irqBit_eq hi]
  exact and_twoPow_ne_zero x hi

lemma getLsbD_or_irqBit (x : BitVec 8) (j : ℕ) (hi : i < 8) :
    (x ||| irqBit i).getLsbD j = (x.getLsbD j || decide (i = j)) := by
  rw [irqBit_eq hi,getLsbD_or_twoPow x j hi]

lemma getLsbD_clear_irqBit (x : BitVec 8) (j : ℕ) (hi : i < 8) :
    (x &&& ~~~irqBit i).getLsbD j = (x.getLsbD j && decide (i ≠ j)) := by
  rw [irqBit_eq hi,getLsbD_clear_twoPow x j hi]

lemma setIrq_own (p : Pic8259) (level : Bool) (hi : i < 8) :
    (p.setIrq i level).level.getLsbD i = level ∧ (p.setIrq i level).irr.getLsbD i =
        if level then p.irr.getLsbD i || p.elcr.getLsbD i || !p.level.getLsbD i
        else p.irr.getLsbD i && !p.elcr.getLsbD i := by
  cases level with
  | true =>
    simp only [setIrq,and_irqBit _ hi,if_true,getLsbD_or_irqBit _ _ hi,decide_true,
      Bool.or_true,true_and]
    cases he : p.elcr.getLsbD i <;> cases hl : p.level.getLsbD i <;>
      simp [getLsbD_or_irqBit _ _ hi]
  | false =>
    simp only [setIrq,and_irqBit _ hi,Bool.false_eq_true,if_false,
      getLsbD_clear_irqBit _ _ hi,ne_eq,not_true_eq_false,decide_false,Bool.and_false,
      true_and]
    cases he : p.elcr.getLsbD i <;> simp [getLsbD_clear_irqBit _ _ hi]

lemma setIrq_other (p : Pic8259) (level : Bool) {j : ℕ} (hi : i < 8) (hj : i ≠ j) :
    (p.setIrq i level).level.getLsbD j = p.level.getLsbD j ∧
      (p.setIrq i level).irr.getLsbD j = p.irr.getLsbD j := by
  cases level <;> simp only [setIrq,if_true,Bool.false_eq_true,if_false] <;>
    refine ⟨?_,?_⟩ <;> (try split_ifs) <;>
    simp [getLsbD_or_irqBit _ _ hi,getLsbD_clear_irqBit _ _ hi,hj]

lemma setIrq_elcr : (p.setIrq irq level).elcr = p.elcr := by
  cases level <;> rfl

lemma writeCmd_latch (p : Pic8259) (val : BitVec 8) :
    ((p.writeCmd val).irr = p.irr ∧ (p.writeCmd val).level = p.level) ∨
      ((p.writeCmd val).irr = 0 ∧ (p.writeCmd val).level = 0) := by
  by_cases hicw1 : val &&& 0x10 ≠ 0
  · rw [writeCmd,if_pos hicw1]
    exact Or.inr ⟨rfl,rfl⟩
  · rw [writeCmd,if_neg hicw1]
    split_ifs <;> exact Or.inl ⟨rfl,rfl⟩

lemma writeData_latch (p : Pic8259) (val : BitVec 8) :
    (p.writeData val).irr = p.irr ∧ (p.writeData val).level = p.level := by
  rw [writeData]
  split <;> exact ⟨rfl,rfl⟩

lemma pending_ack (hp : p.pending = some i) (heoi : p.autoEoi = false) :
    (p.ack i).2.pending = none := by
  obtain ⟨⟨hi,-,-,hisr⟩,hfirst⟩ := pending_eq_some.mp hp
  rw [← Option.not_isSome_iff_eq_none,pending_isSome]
  rintro ⟨j,hj,hirr,himr,hclear⟩
  have hisr' : (p.ack i).2.isr = p.isr ||| irqBit i := by simp [ack,heoi]
  have hmem : p.irr.getLsbD j = true := by
    simp only [ack] at hirr
    split_ifs at hirr
    · rw [getLsbD_clear_irqBit _ _ hi,Bool.and_eq_true] at hirr
      exact hirr.1
    · exact hirr
  by_cases hle : i ≤ j
  · have := hclear i hle
    rw [hisr',getLsbD_or_irqBit _ _ hi] at this
    simp at this
  · refine hfirst j (Nat.not_le.mp hle) ⟨hj,hmem,himr,fun k hk => ?_⟩
    exact hisr k (by omega)

end Pic8259

/-! ### The pair -/

structure PicPair where
  master : Pic8259
  slave : Pic8259
deriving DecidableEq

namespace PicPair

def new : PicPair := ⟨Pic8259.new 0x08,Pic8259.new 0x70⟩

section
variable (p : PicPair)

def cascade : PicPair :=
  { p with master := p.master.setIrq 2 p.slave.pending.isSome }

def setIrq (irq : ℕ) (level : Bool) : PicPair :=
  if irq < 8 then cascade { p with master := p.master.setIrq irq level }
  else cascade { p with slave := p.slave.setIrq (irq-8) level }

def pendingVector : Option (BitVec 8) :=
  match p.master.pending with
  | some 2 =>
    match p.slave.pending with
    | some j => some (p.slave.base ||| BitVec.ofNat 8 j)
    | none => none
  | some i => some (p.master.base ||| BitVec.ofNat 8 i)
  | none => none

def ack : Option (BitVec 8) × PicPair :=
  match p.master.pending with
  | none => (none,p)
  | some irq =>
    if irq = 2 then
      match p.slave.pending with
      | none => (none,p)
      | some j =>
        (some (p.slave.ack j).1,cascade ⟨(p.master.ack 2).2,(p.slave.ack j).2⟩)
    else (some (p.master.ack irq).1,{ p with master := (p.master.ack irq).2 })

def write (port : ℕ) (val : BitVec 8) : Bool × PicPair :=
  match port with
  | 0x20 => (true,cascade { p with master := p.master.writeCmd val })
  | 0x21 => (true,cascade { p with master := p.master.writeData val })
  | 0xA0 => (true,cascade { p with slave := p.slave.writeCmd val })
  | 0xA1 => (true,cascade { p with slave := p.slave.writeData val })
  | 0x4D0 => (true,cascade { p with master := p.master.setElcr val })
  | 0x4D1 => (true,cascade { p with slave := p.slave.setElcr val })
  | _ => (false,p)

def rank (irq : ℕ) : ℕ := if irq < 8 then 8*irq else irq+8

/-- An unmasked request on a line that nothing of equal or higher priority in service
outranks. -/
def Deliverable (irq : ℕ) : Prop :=
  if irq < 8 then irq ≠ 2 ∧ p.master.Ready irq
  else p.slave.Ready (irq-8) ∧ p.master.imr.getLsbD 2 = false ∧
    ∀ k ≤ 2, p.master.isr.getLsbD k = false

def vector (irq : ℕ) : BitVec 8 :=
  if irq < 8 then p.master.base ||| BitVec.ofNat 8 irq
  else p.slave.base ||| BitVec.ofNat 8 (irq-8)

/-- The in-service registers after line `irq` is put in service. -/
def inService (irq : ℕ) : BitVec 8 × BitVec 8 :=
  let mark := fun (c : Pic8259) (i : ℕ) => if c.autoEoi then c.isr else c.isr ||| irqBit i
  if irq < 8 then (mark p.master irq,p.slave.isr)
  else (mark p.master 2,mark p.slave (irq-8))

/-- The deliverable request of highest priority is next: acknowledging returns its vector and puts
the line in service. -/
def Delivers : Prop :=
  ∀ irq, p.Deliverable irq → (∀ irq', p.Deliverable irq' → rank irq ≤ rank irq') →
    p.pendingVector = some (p.vector irq) ∧ p.ack.1 = some (p.vector irq) ∧
      (p.ack.2.master.isr,p.ack.2.slave.isr) = p.inService irq

end

/-- The master's copy of the slave's output is right. -/
structure Synced (p : PicPair) : Prop where
  irr : p.master.irr.getLsbD 2 = p.slave.pending.isSome
  level : p.master.level.getLsbD 2 = p.slave.pending.isSome

variable {p q : PicPair} {irq i : ℕ}

lemma synced_cascade (h : p.master.elcr.getLsbD 2 = true ∨
      ((p.master.irr.getLsbD 2 = true → p.slave.pending.isSome = true) ∧
        (p.slave.pending.isSome = true →
          p.master.irr.getLsbD 2 = true ∨ p.master.level.getLsbD 2 = false))) :
    Synced p.cascade := by
  obtain ⟨hlevel,hirr⟩ :=
    Pic8259.setIrq_own (i := 2) p.master p.slave.pending.isSome (by decide)
  refine ⟨hirr.trans ?_,hlevel⟩
  show _ = p.slave.pending.isSome
  cases hs : p.slave.pending.isSome <;> cases hi : p.master.irr.getLsbD 2 <;>
    cases hl : p.master.level.getLsbD 2 <;> cases he : p.master.elcr.getLsbD 2 <;>
    simp_all

lemma Synced.delivers (h : Synced p) : p.Delivers := by
  intro irq hirq hmin
  by_cases hlow : irq < 8
  · rw [Deliverable,if_pos hlow] at hirq
    obtain ⟨hne,hready⟩ := hirq
    have hpending : p.master.pending = some irq := by
      refine Pic8259.pending_eq_some.mpr ⟨hready,fun j hj hj' => ?_⟩
      by_cases hj2 : j = 2
      · -- The cascade input is requested, so some slave line comes first.
        subst hj2
        obtain ⟨k,hk⟩ := Option.isSome_iff_exists.mp (h.irr.symm.trans hj'.2.1)
        have hkr := (Pic8259.pending_eq_some.mp hk).1
        have hdel : p.Deliverable (8+k) := by
          rw [Deliverable,if_neg (by omega),Nat.add_sub_cancel_left]
          exact ⟨hkr,hj'.2.2.1,hj'.2.2.2⟩
        have hle := hmin _ hdel
        have hk8 := hkr.1
        rw [rank,rank,if_pos hlow,if_neg (by omega)] at hle
        omega
      · have hle := hmin j (by rw [Deliverable,if_pos (by omega)]; exact ⟨hj2,hj'⟩)
        rw [rank,rank,if_pos hlow,if_pos (by omega)] at hle
        omega
    have hmod : irq%8 = irq := Nat.mod_eq_of_lt hlow
    refine ⟨?_,?_,?_⟩
    · rw [pendingVector,hpending,vector,if_pos hlow]
      split
      · rename_i heq
        cases heq
        exact absurd rfl hne
      · rename_i heq
        cases heq
        rfl
      · rename_i heq
        cases heq
    · rw [ack,hpending,vector,if_pos hlow]
      simp only [if_neg hne,Pic8259.ack,hmod]
    · rw [ack,hpending,inService,if_pos hlow]
      simp only [if_neg hne,Pic8259.ack]
  · rw [Deliverable,if_neg hlow] at hirq
    obtain ⟨hready,himr,hisr⟩ := hirq
    have hslave : p.slave.pending = some (irq-8) := by
      refine Pic8259.pending_eq_some.mpr ⟨hready,fun j hj hj' => ?_⟩
      have hdel : p.Deliverable (8+j) := by
        rw [Deliverable,if_neg (by omega),Nat.add_sub_cancel_left]
        exact ⟨hj',himr,hisr⟩
      have hle := hmin _ hdel
      rw [rank,rank,if_neg hlow,if_neg (by omega)] at hle
      omega
    have hmaster : p.master.pending = some 2 := by
      have hirr : p.master.irr.getLsbD 2 = true := by
        rw [h.irr,hslave]
        rfl
      refine Pic8259.pending_eq_some.mpr ⟨⟨by decide,hirr,himr,hisr⟩,fun j hj hj' => ?_⟩
      have hle := hmin j (by rw [Deliverable,if_pos (by omega)]; exact ⟨by omega,hj'⟩)
      rw [rank,rank,if_neg hlow,if_pos (by omega)] at hle
      omega
    have hmod : (irq-8)%8 = irq-8 := Nat.mod_eq_of_lt hready.1
    refine ⟨?_,?_,?_⟩
    · rw [pendingVector,hmaster,vector,if_neg hlow]
      simp only [hslave]
    · rw [ack,hmaster,vector,if_neg hlow]
      simp only [if_true,hslave,Pic8259.ack,hmod]
    · rw [ack,hmaster,inService,if_neg hlow]
      simp only [if_true,hslave,cascade,Pic8259.ack,Pic8259.setIrq]
      split_ifs <;> rfl

/-! ### Runs
-/

inductive Op where
  | setIrq (irq : ℕ) (level : Bool)
  | write (port : ℕ) (val : BitVec 8)
  | ack

def Op.apply (p : PicPair) : Op → PicPair
  | .setIrq irq level => p.setIrq irq level
  | .write port val => (p.write port val).2
  | .ack => p.ack.2

def output (p : PicPair) : Bool := p.slave.pending.isSome

/-- What keeps the master's copy right in edge mode: no device drives the cascade input, no slave
request is withdrawn, and an acknowledge of a slave in auto-EOI mode finds no second request. -/
def Orderly (p q : PicPair) : Op → Prop
  | .setIrq irq _ => irq ≠ 2 ∧ (p.output = true → q.output = true)
  | .write _ _ => p.output = true → q.output = true
  | .ack => p.slave.autoEoi = true → p.master.pending = some 2 → q.output = false

/-- A run from power-on in which each step is orderly or leaves the cascade input
level-triggered. -/
inductive Run : PicPair → Prop
  | new : Run new
  | step {p : PicPair} (op : Op) : Run p →
      (op.apply p).master.elcr.getLsbD 2 = true ∨ Orderly p (op.apply p) op → Run (op.apply p)

lemma cascade_elcr : p.cascade.master.elcr = p.master.elcr := Pic8259.setIrq_elcr

lemma Synced.cascade_of (h : Synced p) {m : Pic8259} {s : Pic8259}
    (hirr : m.irr.getLsbD 2 = p.master.irr.getLsbD 2)
    (hlevel : m.level.getLsbD 2 = p.master.level.getLsbD 2)
    (hout : m.elcr.getLsbD 2 = true ∨ (p.output = true → s.pending.isSome = true)) :
    Synced (cascade ⟨m,s⟩) := by
  refine synced_cascade (hout.imp id fun hout => ⟨?_,?_⟩)
  · intro hm
    exact hout (h.irr.symm.trans (hirr.symm.trans hm))
  · intro _
    show m.irr.getLsbD 2 = true ∨ m.level.getLsbD 2 = false
    rw [hirr,hlevel,h.irr,h.level]
    cases p.slave.pending.isSome
    · exact Or.inr rfl
    · exact Or.inl rfl

/-- A port write either is not for the pair, or drives the cascade input again with the copy
unchanged or, after ICW1 to the master, empty. -/
lemma write_cases (p : PicPair) (port : ℕ) (val : BitVec 8) :
    (p.write port val).2 = p ∨ ∃ m s, (p.write port val).2 = cascade ⟨m,s⟩ ∧
      ((m.irr = p.master.irr ∧ m.level = p.master.level) ∨
        (m.irr = 0 ∧ m.level = 0 ∧ s = p.slave)) := by
  unfold PicPair.write
  split
  · refine Or.inr ⟨p.master.writeCmd val,p.slave,rfl,?_⟩
    exact (Pic8259.writeCmd_latch p.master val).imp_right fun h => ⟨h.1,h.2,rfl⟩
  · exact Or.inr ⟨_,_,rfl,Or.inl (Pic8259.writeData_latch p.master val)⟩
  · exact Or.inr ⟨_,_,rfl,Or.inl ⟨rfl,rfl⟩⟩
  · exact Or.inr ⟨_,_,rfl,Or.inl ⟨rfl,rfl⟩⟩
  · exact Or.inr ⟨_,_,rfl,Or.inl ⟨rfl,rfl⟩⟩
  · exact Or.inr ⟨_,_,rfl,Or.inl ⟨rfl,rfl⟩⟩
  · exact Or.inl rfl

lemma Synced.setIrq (h : Synced p) {level : Bool}
    (hop : (p.setIrq irq level).master.elcr.getLsbD 2 = true ∨
      Orderly p (p.setIrq irq level) (.setIrq irq level)) : Synced (p.setIrq irq level) := by
  rw [PicPair.setIrq] at hop ⊢
  split_ifs at hop ⊢ with hlow
  · rw [cascade_elcr] at hop
    obtain helcr | ⟨hne,hout⟩ := hop
    · exact synced_cascade (Or.inl helcr)
    · obtain ⟨hlevel,hirr⟩ :=
        Pic8259.setIrq_other p.master level hlow hne
      exact h.cascade_of hirr hlevel (Or.inr hout)
  · rw [cascade_elcr] at hop
    exact h.cascade_of rfl rfl (hop.imp id And.right)

lemma Synced.write (h : Synced p) {port : ℕ} {val : BitVec 8}
    (hop : (p.write port val).2.master.elcr.getLsbD 2 = true ∨
      Orderly p (p.write port val).2 (.write port val)) : Synced (p.write port val).2 := by
  obtain hsame | ⟨m,s,hcascade,⟨hirr,hlevel⟩ | ⟨hirr,hlevel,rfl⟩⟩ := write_cases p port val
  · rw [hsame]
    exact h
  · rw [hcascade,cascade_elcr] at hop
    rw [hcascade]
    exact h.cascade_of (by rw [hirr]) (by rw [hlevel]) hop
  · rw [hcascade]
    refine synced_cascade (Or.inr ⟨fun hm => ?_,fun _ => Or.inr ?_⟩)
    · change m.irr.getLsbD 2 = true at hm
      rw [hirr] at hm
      exact absurd hm (by decide)
    · show m.level.getLsbD 2 = false
      rw [hlevel]
      rfl

lemma Synced.ack (h : Synced p)
    (hop : p.ack.2.master.elcr.getLsbD 2 = true ∨ Orderly p p.ack.2 .ack) : Synced p.ack.2 := by
  cases hm : p.master.pending with
  | none =>
    rw [PicPair.ack,hm]
    exact h
  | some irq =>
    by_cases h2 : irq = 2
    · subst h2
      cases hs : p.slave.pending with
      | none =>
        rw [PicPair.ack,hm]
        simp only [if_true,hs]
        exact h
      | some j =>
        have hack : p.ack.2 = cascade ⟨(p.master.ack 2).2,(p.slave.ack j).2⟩ := by
          rw [PicPair.ack,hm]
          simp only [if_true,hs]
        rw [hack,cascade_elcr] at hop
        rw [hack]
        obtain helcr | hquiet := hop
        · exact synced_cascade (Or.inl helcr)
        · -- Edge mode: the copy is cleared, and the output falls with it.
          have hout : (p.slave.ack j).2.pending.isSome = false := by
            cases heoi : p.slave.autoEoi with
            | false =>
              rw [Pic8259.pending_ack hs heoi]
              rfl
            | true => exact hquiet heoi hm
          cases helcr : p.master.elcr.getLsbD 2 with
          | true => exact synced_cascade (Or.inl helcr)
          | false =>
            have hirr : (p.master.ack 2).2.irr.getLsbD 2 = false := by
              have hedge : p.master.elcr &&& irqBit 2 = 0 := by
                by_contra hne
                rw [(Pic8259.and_irqBit _ (by decide)).mp hne] at helcr
                cases helcr
              simp only [Pic8259.ack,hedge,if_true]
              rw [Pic8259.getLsbD_clear_irqBit _ _ (by decide)]
              simp
            refine synced_cascade (Or.inr ⟨fun hm => ?_,fun hs => ?_⟩)
            · exact absurd (hirr.symm.trans hm) Bool.false_ne_true
            · exact absurd (hout.symm.trans hs) Bool.false_ne_true
    · have hack : p.ack.2 = { p with master := (p.master.ack irq).2 } := by
        rw [PicPair.ack,hm]
        simp only [if_neg h2]
      have hirq := (Pic8259.pending_eq_some.mp hm).1.1
      rw [hack]
      refine ⟨?_,h.level⟩
      rw [← h.irr]
      simp only [Pic8259.ack]
      split_ifs
      · rw [Pic8259.getLsbD_clear_irqBit _ _ hirq,decide_eq_true h2,Bool.and_true]
      · rfl

lemma Synced.step (h : Synced p) (op : Op)
    (hop : (op.apply p).master.elcr.getLsbD 2 = true ∨ Orderly p (op.apply p) op) :
    Synced (op.apply p) := by
  cases op with
  | setIrq irq level => exact h.setIrq hop
  | write port val => exact h.write hop
  | ack => exact h.ack hop

lemma Run.synced (h : Run p) : Synced p := by
  induction h with
  | new => exact ⟨rfl,rfl⟩
  | step op _ hop ih => exact ih.step op hop

/-- In every run without withdrawn slave requests, the next interrupt is the deliverable one of
highest priority. -/
theorem run_delivers (h : Run p) : p.Delivers := h.synced.delivers

/-- Power-on, both masks opened, and lines 9 and 3 raised. -/
def twoRequests : PicPair :=
  ((((new.write 0x21 0).2.write 0xA1 0).2.setIrq 9 true).setIrq 3 true)

theorem run_delivers_two_requests :
    twoRequests.pendingVector = some 0x71 ∧ twoRequests.Delivers := by
  refine ⟨by decide,run_delivers ?_⟩
  refine Run.step (.setIrq 3 true) (Run.step (.setIrq 9 true) (Run.step (.write 0xA1 0)
    (Run.step (.write 0x21 0) Run.new ?_) ?_) ?_) ?_
  · exact Or.inr fun h => absurd h (by decide)
  · exact Or.inr fun h => absurd h (by decide)
  · exact Or.inr ⟨by decide,fun h => absurd h (by decide)⟩
  · exact Or.inr ⟨by decide,fun _ => by decide⟩

/-- Masking the slave withdraws its request; the master's copy of it then hides line 3. -/
theorem withdrawn_request_blocks : (twoRequests.write 0xA1 0xFF).2.Deliverable 3 ∧
      (∀ irq, (twoRequests.write 0xA1 0xFF).2.Deliverable irq → rank 3 ≤ rank irq) ∧
      (twoRequests.write 0xA1 0xFF).2.pendingVector = none ∧
      (twoRequests.write 0xA1 0xFF).2.ack.1 = none := by
  refine ⟨?_,?_,by decide,by decide⟩
  · exact ⟨by decide,by decide,by decide,by decide,by decide⟩
  · intro irq hirq
    rw [Deliverable] at hirq
    split_ifs at hirq with hlow
    · obtain ⟨hne,-,hirr,-⟩ := hirq
      have hbits : ∀ i < 8, i ≠ 2 → (twoRequests.write 0xA1 0xFF).2.master.irr.getLsbD i = true →
          rank 3 ≤ rank i := by decide
      exact hbits irq hlow hne hirr
    · obtain ⟨⟨hi,-,himr,-⟩,-⟩ := hirq
      have hmask : ∀ i < 8, (twoRequests.write 0xA1 0xFF).2.slave.imr.getLsbD i = true := by decide
      rw [hmask _ hi] at himr
      cases himr

end PicPair
end Enlil.Boot
