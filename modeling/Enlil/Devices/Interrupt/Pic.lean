import Enlil.Lib.BitReg

/-! # The cascaded 8259A pair: model of `pic.rs` -/

namespace Enlil.Devices
open BitReg List Option
open BitVec (ofNat twoPow)

inductive InitStep where
  | ready | icw2 | icw3 | icw4
deriving DecidableEq

structure ReadState where
  isrSelected : Bool
  specialMask : Bool
  poll : Bool
deriving DecidableEq

def ReadState.new : ReadState := ⟨false,false,false⟩

structure Pic8259 where
  irr : BitVec 8
  isr : BitVec 8
  imr : BitVec 8
  vectorBase : BitVec 8
  initStep : InitStep
  expectIcw4 : Bool
  single : Bool
  autoEoi : Bool
  elcr : BitVec 8
  lineLevel : BitVec 8
  read : ReadState
deriving DecidableEq

namespace Pic8259

def new : Pic8259 := ⟨0,0,0,0,.ready,false,false,false,0,0,.new⟩

section
variable (p : Pic8259)

def setLine (irq : ℕ) (level : Bool) : Pic8259 :=
  if 8 ≤ irq then p
  else
    let bit := twoPow 8 irq
    { p with
      lineLevel := if level then p.lineLevel ||| bit else p.lineLevel &&& ~~~bit
      irr :=
        if level then p.irr ||| bit
        else if p.elcr &&& bit ≠ 0 then p.irr &&& ~~~bit
        else p.irr }

def setElcr (val writable : BitVec 8) : Pic8259 := { p with elcr := val &&& writable }

def writeIcw1 (val : BitVec 8) : Pic8259 :=
  { p with
    expectIcw4 := val &&& 0x01 ≠ 0
    single := val &&& 0x02 ≠ 0
    imr := 0
    isr := 0
    read := .new
    autoEoi := false
    initStep := .icw2 }

def clearHighestInService : Pic8259 :=
  if p.isr ≠ 0 then { p with isr := p.isr &&& ~~~twoPow 8 (trailingZeros p.isr) } else p

def writeOcw2 (val : BitVec 8) : Pic8259 :=
  if val &&& 0x20 = 0 then p
  else if val &&& 0x40 ≠ 0 then
    { p with isr := p.isr &&& ~~~twoPow 8 (val &&& 0x07).toNat }
  else p.clearHighestInService

def writeOcw3 (val : BitVec 8) : Pic8259 :=
  { p with read :=
    { isrSelected := if val &&& 0x02 ≠ 0 then val &&& 0x01 ≠ 0 else p.read.isrSelected
      poll := if val &&& 0x04 ≠ 0 then true else p.read.poll
      specialMask := if val &&& 0x40 ≠ 0 then val &&& 0x20 ≠ 0 else p.read.specialMask } }

def writeCommand (val : BitVec 8) : Pic8259 :=
  if val &&& 0x10 ≠ 0 then p.writeIcw1 val
  else if val &&& 0x08 ≠ 0 then p.writeOcw3 val
  else p.writeOcw2 val

def writeData (val : BitVec 8) : Pic8259 :=
  let last := if p.expectIcw4 then InitStep.icw4 else .ready
  match p.initStep with
  | .icw2 => { p with
      vectorBase := val &&& 0xF8
      initStep := if p.single then last else .icw3 }
  | .icw3 => { p with initStep := last }
  | .icw4 => { p with autoEoi := val &&& 0x02 ≠ 0, initStep := .ready }
  | .ready => { p with imr := val }

def blocking : BitVec 8 := if p.read.specialMask then p.isr &&& ~~~p.imr else p.isr

def ceiling : ℕ := if p.blocking = 0 then 8 else trailingZeros p.blocking

def resolve (irr : BitVec 8) : Option ℕ :=
  let requests := irr &&& ~~~p.imr
  if requests = 0 then none else (List.range p.ceiling).find? requests.getLsbD

def service (irq : ℕ) : Pic8259 :=
  let bit := twoPow 8 irq
  let irr := p.irr &&& ~~~bit
  { p with
    irr := if p.elcr &&& bit ≠ 0 ∧ p.lineLevel &&& bit ≠ 0 then irr ||| bit else irr
    isr := if p.autoEoi then p.isr else p.isr ||| bit }

def acknowledge : Option ℕ × Pic8259 :=
  match p.resolve p.irr with
  | some irq => (some irq,p.service irq)
  | none => (none,p)

def readCommand : BitVec 8 × Pic8259 :=
  if p.read.poll then
    match { p with read.poll := false }.acknowledge with
    | (some irq,p) => (0x80 ||| ofNat 8 irq,p)
    | (none,p) => (0,p)
  else (if p.read.isrSelected then p.isr else p.irr,p)

end
end Pic8259

structure DualPic where
  master : Pic8259
  slave : Pic8259
deriving DecidableEq

namespace DualPic

def new : DualPic := ⟨.new,.new⟩

def cascadeIrq : ℕ := 2

section
variable (p : DualPic)

def setIrqLevel (irq : ℕ) (level : Bool) : DualPic :=
  if irq < 8 then { p with master := p.master.setLine irq level }
  else if irq < 16 then { p with slave := p.slave.setLine (irq-8) level }
  else p

def writeElcr (port : ℕ) (val : BitVec 8) : DualPic :=
  if port = 0x4D0 then { p with master := p.master.setElcr val 0xF8 }
  else if port = 0x4D1 then { p with slave := p.slave.setElcr val 0xDE }
  else p

def masterIrr : BitVec 8 :=
  if (p.slave.resolve p.slave.irr).isSome then p.master.irr ||| twoPow 8 cascadeIrq
  else p.master.irr &&& ~~~twoPow 8 cascadeIrq

def pendingVector : Option (BitVec 8) :=
  match p.master.resolve p.masterIrr with
  | some m =>
    if m = cascadeIrq then
      match p.slave.resolve p.slave.irr with
      | some s => some (p.slave.vectorBase+ofNat 8 s)
      | none => none
    else some (p.master.vectorBase+ofNat 8 m)
  | none => none

def acknowledge : Option (BitVec 8) × DualPic :=
  match p.master.resolve p.masterIrr with
  | some m =>
    if m = cascadeIrq then
      -- Input 2 goes into service, and the slave supplies the vector.
      let master := { p.master with
        isr := if p.master.autoEoi then p.master.isr
               else p.master.isr ||| twoPow 8 cascadeIrq }
      match p.slave.acknowledge with
      | (some s,slave) => (some (p.slave.vectorBase+ofNat 8 s),⟨master,slave⟩)
      | (none,slave) => (none,⟨master,slave⟩)
    else
      match p.master.acknowledge with
      | (some m,master) =>
        (some (p.master.vectorBase+ofNat 8 m),{ p with master := master })
      | (none,master) => (none,{ p with master := master })
  | none => (none,p)

def readPort (port : ℕ) : BitVec 8 × DualPic :=
  if port = 0x20 then (p.master.readCommand.1,{ p with master := p.master.readCommand.2 })
  else if port = 0x21 then (p.master.imr,p)
  else if port = 0xA0 then (p.slave.readCommand.1,{ p with slave := p.slave.readCommand.2 })
  else if port = 0xA1 then (p.slave.imr,p)
  else (0xFF,p)

def writePort (port : ℕ) (val : BitVec 8) : DualPic :=
  if port = 0x20 then { p with master := p.master.writeCommand val }
  else if port = 0x21 then { p with master := p.master.writeData val }
  else if port = 0xA0 then { p with slave := p.slave.writeCommand val }
  else if port = 0xA1 then { p with slave := p.slave.writeData val }
  else p

end
end DualPic
namespace Pic8259
variable {p : Pic8259} {irr : BitVec 8} {i j : ℕ}

def Requests (p : Pic8259) (irr : BitVec 8) (i : ℕ) : Prop :=
  irr.getLsbD i = true ∧ p.imr.getLsbD i = false

/-- The input is requested and nothing of its priority or above is in service. -/
def Deliverable (p : Pic8259) (irr : BitVec 8) (i : ℕ) : Prop :=
  p.Requests irr i ∧ i < 8 ∧ ∀ k ≤ i, p.blocking.getLsbD k = false

lemma getLsbD_requests (hi : i < 8) :
    (irr &&& ~~~p.imr).getLsbD i = true ↔ p.Requests irr i := by
  rw [Requests,BitVec.getLsbD_and,BitVec.getLsbD_not,decide_eq_true hi,Bool.true_and,
    Bool.and_eq_true,Bool.not_eq_true']

lemma lt_ceiling_iff : i < p.ceiling ↔ i < 8 ∧ ∀ k ≤ i, p.blocking.getLsbD k = false := by
  unfold ceiling
  split_ifs with h
  · refine ⟨fun hi => ⟨hi,fun k _ => ?_⟩,And.left⟩
    rw [h]
    exact BitVec.getLsbD_zero
  · obtain ⟨hlt,hbit,hlow⟩ := trailingZeros_spec h
    refine ⟨fun hi => ⟨Nat.lt_trans hi hlt,fun k hk => hlow k (Nat.lt_of_le_of_lt hk hi)⟩,?_⟩
    rintro ⟨-,hfree⟩
    by_contra hge
    rw [hfree _ (Nat.not_lt.mp hge)] at hbit
    cases hbit

lemma resolve_eq_find :
    p.resolve irr = (List.range p.ceiling).find? (irr &&& ~~~p.imr).getLsbD := by
  unfold resolve
  dsimp only
  split_ifs with h
  · rw [h]
    exact (find?_eq_none.mpr fun i _ => by simp).symm
  · rfl

lemma resolve_eq_some :
    p.resolve irr = some i ↔ p.Deliverable irr i ∧ ∀ j < i, ¬p.Requests irr j := by
  rw [resolve_eq_find,find?_range_eq_some,mem_range,lt_ceiling_iff]
  constructor
  · rintro ⟨hreq,hlt,hlow⟩
    refine ⟨⟨(getLsbD_requests hlt.1).mp hreq,hlt⟩,fun j hj hreqj => ?_⟩
    have hj8 : j < 8 := Nat.lt_trans hj hlt.1
    have hbit := hlow j hj
    rw [(getLsbD_requests hj8).mpr hreqj] at hbit
    cases hbit
  · rintro ⟨⟨hreq,hlt⟩,hlow⟩
    refine ⟨(getLsbD_requests hlt.1).mpr hreq,hlt,fun j hj => ?_⟩
    rw [Bool.not_eq_true',← Bool.not_eq_true]
    exact fun h => hlow j hj ((getLsbD_requests (Nat.lt_trans hj hlt.1)).mp h)

lemma resolve_eq_none : p.resolve irr = none ↔ ∀ i, ¬p.Deliverable irr i := by
  rw [resolve_eq_find,find?_range_eq_none]
  constructor
  · intro hnone i hd
    have hbit := hnone i (lt_ceiling_iff.mpr hd.2)
    rw [(getLsbD_requests hd.2.1).mpr hd.1] at hbit
    cases hbit
  · intro hnone i hi
    obtain ⟨hi8,hfree⟩ := lt_ceiling_iff.mp hi
    rw [Bool.not_eq_true',← Bool.not_eq_true]
    exact fun h => hnone i ⟨(getLsbD_requests hi8).mp h,hi8,hfree⟩

lemma irr_service (hi : i < 8) (hj : j ≠ i) :
    (p.service i).irr.getLsbD j = p.irr.getLsbD j := by
  simp only [service]
  split_ifs
  · rw [getLsbD_or_twoPow _ _ hi,getLsbD_clear_twoPow _ _ hi,decide_eq_false hj.symm,
      decide_eq_true hj.symm,Bool.and_true,Bool.or_false]
  · rw [getLsbD_clear_twoPow _ _ hi,decide_eq_true hj.symm,Bool.and_true]

lemma isr_service (hi : i < 8) : (p.service i).isr.getLsbD j = true ↔
    p.isr.getLsbD j = true ∨ (p.autoEoi = false ∧ i = j) := by
  simp only [service]
  cases p.autoEoi
  · rw [if_neg Bool.false_ne_true,getLsbD_or_twoPow _ _ hi,Bool.or_eq_true,decide_eq_true_iff,
      eq_self_iff_true,true_and]
  · simp only [if_true,Bool.true_eq_false,false_and,or_false]

end Pic8259
namespace DualPic
open Pic8259
variable {p : DualPic} {i j m s : ℕ}

inductive Input where
  | master (i : ℕ)
  | slave (i : ℕ)
deriving DecidableEq

def next (p : DualPic) : Option Input :=
  match p.master.resolve p.masterIrr with
  | some m => if m = cascadeIrq then (p.slave.resolve p.slave.irr).map .slave else some (.master m)
  | none => none

def vectorOf (p : DualPic) : Input → BitVec 8
  | .master i => p.master.vectorBase+ofNat 8 i
  | .slave i => p.slave.vectorBase+ofNat 8 i

/-- An acknowledge does what the pending vector says. A chip in auto-EOI mode ends the service of
an input with the acknowledge. -/
structure Agrees (p : DualPic) : Prop where
  vector : p.acknowledge.1 = p.pendingVector
  denotes : p.pendingVector = p.next.map p.vectorOf
  /-- The input that the vector denotes goes into service, with input 2 for one of the slave. -/
  masterIsr : ∀ j, p.acknowledge.2.master.isr.getLsbD j = true ↔
    p.master.isr.getLsbD j = true ∨ (p.master.autoEoi = false ∧
      (p.next = some (.master j) ∨ (cascadeIrq = j ∧ ∃ s, p.next = some (.slave s))))
  slaveIsr : ∀ j, p.acknowledge.2.slave.isr.getLsbD j = true ↔
    p.slave.isr.getLsbD j = true ∨ (p.slave.autoEoi = false ∧ p.next = some (.slave j))
  masterIrr : ∀ j, p.next ≠ some (.master j) →
    p.acknowledge.2.master.irr.getLsbD j = p.master.irr.getLsbD j
  slaveIrr : ∀ j, p.next ≠ some (.slave j) →
    p.acknowledge.2.slave.irr.getLsbD j = p.slave.irr.getLsbD j

/-- Input 2 of the master has latched an unmasked request while the slave has nothing to deliver,
and the highest-priority request of the master is one below it. -/
def Shadowed (p : DualPic) : Prop :=
  (∀ s, ¬p.slave.Deliverable p.slave.irr s) ∧
  p.master.Requests p.master.irr cascadeIrq ∧
  (∀ j < cascadeIrq, ¬p.master.Requests p.master.irr j) ∧
  ∃ m, cascadeIrq < m ∧ p.master.Deliverable p.master.irr m

lemma getLsbD_masterIrr (hj : j ≠ cascadeIrq) :
    p.masterIrr.getLsbD j = p.master.irr.getLsbD j := by
  unfold DualPic.masterIrr
  split_ifs
  · rw [getLsbD_or_twoPow _ _ (by decide),decide_eq_false hj.symm,Bool.or_false]
  · rw [getLsbD_clear_twoPow _ _ (by decide),decide_eq_true hj.symm,Bool.and_true]

lemma getLsbD_masterIrr_cascade :
    p.masterIrr.getLsbD cascadeIrq = (p.slave.resolve p.slave.irr).isSome := by
  unfold DualPic.masterIrr
  split_ifs with h
  · rw [getLsbD_or_twoPow _ _ (by decide),decide_eq_true rfl,Bool.or_true,h]
  · rw [getLsbD_clear_twoPow _ _ (by decide),decide_eq_false (not_not.mpr rfl),Bool.and_false]
    exact (Bool.eq_false_iff.mpr h).symm

lemma requests_masterIrr (hj : j ≠ cascadeIrq) :
    p.master.Requests p.masterIrr j ↔ p.master.Requests p.master.irr j := by
  rw [Requests,Requests,getLsbD_masterIrr hj]

lemma resolve_of_not_shadowed (hsh : ¬p.Shadowed) (hm : m ≠ cascadeIrq)
    (h : p.master.resolve p.masterIrr = some m) : p.master.resolve p.master.irr = some m := by
  obtain ⟨⟨hreq,hfree⟩,hlow⟩ := resolve_eq_some.mp h
  have hd : p.master.Deliverable p.master.irr m := ⟨(requests_masterIrr hm).mp hreq,hfree⟩
  refine resolve_eq_some.mpr ⟨hd,fun j hj hreqj => ?_⟩
  by_cases hjc : j = cascadeIrq
  · subst hjc
    rcases hs : p.slave.resolve p.slave.irr with _ | s
    · refine hsh ⟨resolve_eq_none.mp hs,hreqj,fun k hk hreqk => ?_,m,hj,hd⟩
      exact hlow k (Nat.lt_trans hk hj) ((requests_masterIrr (Nat.ne_of_lt hk)).mpr hreqk)
    · refine hlow cascadeIrq hj ⟨?_,hreqj.2⟩
      rw [getLsbD_masterIrr_cascade,hs]
      rfl
  · exact hlow j hj ((requests_masterIrr hjc).mpr hreqj)

lemma acknowledge_none (h : p.master.resolve p.masterIrr = none) :
    p.next = none ∧ p.pendingVector = none ∧ p.acknowledge = (none,p) := by
  simp only [next,pendingVector,acknowledge,h,and_self]

lemma acknowledge_master (hm : m ≠ cascadeIrq) (h : p.master.resolve p.masterIrr = some m)
    (hown : p.master.resolve p.master.irr = some i) :
    p.next = some (.master m) ∧ p.pendingVector = some (p.vectorOf (.master m)) ∧
      p.acknowledge = (some (p.vectorOf (.master i)),{ p with master := p.master.service i }) := by
  simp only [next,pendingVector,acknowledge,h,if_neg hm,Pic8259.acknowledge,hown,vectorOf,and_self]

lemma acknowledge_slave (h : p.master.resolve p.masterIrr = some cascadeIrq)
    (hs : p.slave.resolve p.slave.irr = some s) :
    p.next = some (.slave s) ∧ p.pendingVector = some (p.vectorOf (.slave s)) ∧
      p.acknowledge = (some (p.vectorOf (.slave s)),
        ⟨{ p.master with isr := if p.master.autoEoi then p.master.isr
                                else p.master.isr ||| twoPow 8 cascadeIrq },
          p.slave.service s⟩) := by
  simp only [next,pendingVector,acknowledge,h,if_true,Pic8259.acknowledge,hs,vectorOf,
    map_some,and_self]

lemma slave_of_cascade (h : p.master.resolve p.masterIrr = some cascadeIrq) :
    ∃ s, p.slave.resolve p.slave.irr = some s := by
  have hbit := (resolve_eq_some.mp h).1.1.1
  rw [getLsbD_masterIrr_cascade] at hbit
  exact isSome_iff_exists.mp hbit

lemma agrees_of_not_shadowed (hsh : ¬p.Shadowed) : p.Agrees := by
  rcases h : p.master.resolve p.masterIrr with _ | m
  · obtain ⟨hnext,hpending,hack⟩ := acknowledge_none h
    constructor <;> simp [hnext,hpending,hack]
  by_cases hm : m = cascadeIrq
  · subst hm
    obtain ⟨s,hs⟩ := slave_of_cascade h
    have hs8 : s < 8 := (resolve_eq_some.mp hs).1.2.1
    obtain ⟨hnext,hpending,hack⟩ := acknowledge_slave h hs
    constructor
    · rw [hack,hpending]
    · rw [hnext,hpending,map_some]
    · intro j
      simp only [hack,hnext,Option.some.injEq,Input.slave.injEq,exists_eq',and_true,
        reduceCtorEq,false_or]
      exact isr_service (p := p.master) (by decide)
    · intro j
      simp only [hack,hnext,Option.some.injEq,Input.slave.injEq]
      exact isr_service hs8
    · intro j _
      rw [hack]
    · intro j hj
      rw [hnext] at hj
      rw [hack]
      exact irr_service hs8 fun heq => hj (by rw [heq])
  · have hm8 : m < 8 := (resolve_eq_some.mp h).1.2.1
    obtain ⟨hnext,hpending,hack⟩ :=
      acknowledge_master hm h (resolve_of_not_shadowed hsh hm h)
    constructor
    · rw [hack,hpending]
    · rw [hnext,hpending,map_some]
    · intro j
      simp only [hack,hnext,Option.some.injEq,Input.master.injEq,reduceCtorEq,exists_false,
        and_false,or_false]
      exact isr_service hm8
    · intro j
      simp only [hack,hnext,Option.some.injEq,reduceCtorEq,and_false,or_false]
    · intro j hj
      rw [hnext] at hj
      rw [hack]
      exact irr_service hm8 fun heq => hj (by rw [heq])
    · intro j _
      rw [hack]

lemma Shadowed.resolve (h : p.Shadowed) : p.master.resolve p.master.irr = some cascadeIrq ∧
    ∃ m, cascadeIrq < m ∧ m < 8 ∧ p.master.resolve p.masterIrr = some m := by
  obtain ⟨hslave,hreq,hlow,m,hm,hd⟩ := h
  have hclear : p.masterIrr.getLsbD cascadeIrq = false := by
    rw [getLsbD_masterIrr_cascade,resolve_eq_none.mpr hslave]
    rfl
  refine ⟨resolve_eq_some.mpr ⟨⟨hreq,by decide,fun k hk => ?_⟩,hlow⟩,?_⟩
  · exact hd.2.2 k (Nat.le_trans hk (Nat.le_of_lt hm))
  rcases hres : p.master.resolve p.masterIrr with _ | m'
  · exact absurd ⟨(requests_masterIrr (Nat.ne_of_gt hm)).mpr hd.1,hd.2⟩ (resolve_eq_none.mp hres m)
  · obtain ⟨hreq',hlt',-⟩ := (resolve_eq_some.mp hres).1
    refine ⟨m',Nat.lt_of_not_le fun hle => ?_,hlt',rfl⟩
    rcases Nat.lt_or_eq_of_le hle with hlt | heq
    · exact hlow m' hlt ((requests_masterIrr (Nat.ne_of_lt hlt)).mp hreq')
    · rw [Requests,heq,hclear] at hreq'
      exact absurd hreq'.1 Bool.false_ne_true

lemma not_agrees_of_shadowed (h : p.Shadowed) : ¬p.Agrees := by
  obtain ⟨hown,m,hm,hm8,hres⟩ := h.resolve
  obtain ⟨-,hpending,hack⟩ := acknowledge_master (Nat.ne_of_gt hm) hres hown
  intro hagrees
  have heq := hagrees.vector
  rw [hack,hpending,Option.some.injEq,vectorOf,vectorOf,BitVec.add_right_inj] at heq
  have hnat := congrArg BitVec.toNat heq
  simp only [BitVec.toNat_ofNat] at hnat
  rw [Nat.mod_eq_of_lt (show m < 2^8 by omega)] at hnat
  exact absurd hnat (Nat.ne_of_lt hm)

/-- An acknowledge delivers the pending vector and leaves every other request alone, unless a
request latched on input 2 of the master shadows the pending one. -/
theorem agrees_iff (p : DualPic) : p.Agrees ↔ ¬p.Shadowed :=
  ⟨fun h hsh => not_agrees_of_shadowed hsh h,agrees_of_not_shadowed⟩

/-- With inputs 2 and 3 raised after reset, vector 3 is pending and vector 2 is delivered. -/
theorem acknowledge_other_vector :
    let p := (new.setIrqLevel 2 true).setIrqLevel 3 true
    p.pendingVector = some 3 ∧ p.acknowledge.1 = some 2 ∧
      p.acknowledge.2.master.isr = BitVec.twoPow 8 2 ∧
      p.acknowledge.2.master.irr = BitVec.twoPow 8 3 := by
  decide

end DualPic
end Enlil.Devices
