import Enlil.Lib.BitReg

/-! # I/O APIC and local APIC: model of `ioapic.rs` and `platform.rs` of `enlil-boot` -/

namespace Enlil.Boot
open BitVec Function

structure Lapic where
  regs : ℕ → BitVec 32
  irr : BitVec 256
  isr : BitVec 256
  timerNext : Option ℕ
  tscHz : ℕ

namespace Lapic

def lapicTimerHz : ℕ := 1000000000
def svrEnable : BitVec 32 := twoPow 32 8
def lvtMasked : BitVec 32 := twoPow 32 16

def regTpr : ℕ := 0x80
def regEoi : ℕ := 0xB0
def regSvr : ℕ := 0xF0
def regIsr : ℕ := 0x100
def regIcrLow : ℕ := 0x300
def regTimerInit : ℕ := 0x380
def regTimerCurrent : ℕ := 0x390
def regTimerDivide : ℕ := 0x3E0

def resetRegs (i : ℕ) : BitVec 32 :=
  if i = 0x30/4 then 0x00050014
  else if i = 0xE0/4 then 0xFFFFFFFF
  else if i = regSvr/4 then 0xFF
  else if [0x2F0/4,0x320/4,0x330/4,0x340/4,0x350/4,0x360/4,0x370/4].contains i
    then lvtMasked
  else 0

def new (tscHz : ℕ) : Lapic := ⟨resetRegs,0,0,none,max tscHz 1⟩

section
variable (l : Lapic)

def divide : ℕ :=
  let d := l.regs (regTimerDivide/4)
  match ((d &&& 0b11) ||| ((d >>> 1) &&& 0b100)).toNat with
  | 0b000 => 2
  | 0b001 => 4
  | 0b010 => 8
  | 0b011 => 16
  | 0b100 => 32
  | 0b101 => 64
  | 0b110 => 128
  | _ => 1

def countToTsc (count : BitVec 32) : ℕ :=
  let ticks := count.toNat*l.divide*l.tscHz/lapicTimerHz
  max (if ticks < 2^64 then ticks else 2^64-1) 1

def raise (vector : BitVec 8) : Lapic :=
  { l with irr := l.irr ||| twoPow 256 vector.toNat }

def highest (bitmap : BitVec 256) : Option (BitVec 8) :=
  ((List.range 256).reverse.find? bitmap.getLsbD).map (BitVec.ofNat 8)

def enabled : Bool := l.regs (regSvr/4) &&& svrEnable ≠ 0

/-- The highest requested vector, if its priority class beats the task priority and
everything in service. -/
def pendingVector : Option (BitVec 8) :=
  if l.enabled then
    match highest l.irr with
    | none => none
    | some v =>
      let inService := ((highest l.isr).map fun s => (s &&& 0xF0).toNat).getD 0
      let ppr := max inService (l.regs (regTpr/4) &&& 0xF0).toNat
      if ppr < (v &&& 0xF0).toNat then some v else none
  else none

def ack : Option (BitVec 8) × Lapic :=
  match l.pendingVector with
  | none => (none,l)
  | some v =>
    (some v,{ l with
      irr := l.irr &&& ~~~twoPow 256 v.toNat
      isr := l.isr ||| twoPow 256 v.toNat })

def eoi : Option (BitVec 8) × Lapic :=
  match highest l.isr with
  | none => (none,l)
  | some v => (some v,{ l with isr := l.isr &&& ~~~twoPow 256 v.toNat })

def readOnly (reg : ℕ) : Bool :=
  reg = 0x20 ∨ reg = 0x30 ∨ (0x90 ≤ reg ∧ reg ≤ 0xA0) ∨ reg = 0xD0 ∨
    (regIsr ≤ reg ∧ reg ≤ 0x270) ∨ reg = regTimerCurrent

def write (off size : ℕ) (value : BitVec 64) (now : ℕ) : Option (BitVec 8) × Lapic :=
  if size ≠ 4 ∨ off%4 ≠ 0 then (none,l)
  else
    let v := value.setWidth 32
    if readOnly off then (none,l)
    else if off = regEoi then l.eoi
    else if off = regIcrLow then
      let l' := { l with
        regs := update l.regs (off/4) (v &&& ~~~twoPow 32 12) }
      -- A fixed-delivery interrupt to self is the one that can land.
      if (v >>> 18) &&& 3 = 1 ∧ (v >>> 8) &&& 7 = 0 then (none,l'.raise (v.setWidth 8))
      else (none,l')
    else if off = regTimerInit then
      (none,{ l with
        regs := update l.regs (off/4) v
        timerNext := if v ≠ 0 then some (min (now+l.countToTsc v) (2^64-1)) else none })
    else if off/4 < 0x400 then (none,{ l with regs := update l.regs (off/4) v })
    else (none,l)

end
end Lapic

/-- A vector raised in the local APIC, and the pin it comes from. -/
abbrev Raise := ℕ × BitVec 8

structure IoApic where
  id : BitVec 32
  index : BitVec 8
  redir : ℕ → BitVec 64
  line : BitVec 32
  /-- Edge-triggered requests latched while masked. -/
  irr : BitVec 32

namespace IoApic

def pins : ℕ := 24

def rVector : BitVec 64 := 0xFF
def rDeliveryMode : BitVec 64 := 0x700
def rDestMode : BitVec 64 := twoPow 64 11
def rPolarityLow : BitVec 64 := twoPow 64 13
def rRemoteIrr : BitVec 64 := twoPow 64 14
def rLevel : BitVec 64 := twoPow 64 15
def rMasked : BitVec 64 := twoPow 64 16
def rDest : BitVec 64 := 0xFF00000000000000

/-- What an operating system can write: not the delivery status, and not Remote IRR. -/
def rWritableLow : BitVec 64 :=
  rVector ||| rDeliveryMode ||| rDestMode ||| rPolarityLow ||| rLevel ||| rMasked

def new : IoApic := ⟨0,0,fun _ => rMasked,0,0⟩

def vectorOf (e : BitVec 64) : BitVec 8 := (e &&& rVector).setWidth 8

/-- Fixed or lowest-priority delivery: the modes that are routed to the CPU model. -/
def Routed (e : BitVec 64) : Prop :=
  (e &&& rDeliveryMode) >>> 8 = 0 ∨ (e &&& rDeliveryMode) >>> 8 = 1

instance (e : BitVec 64) : Decidable (Routed e) := inferInstanceAs (Decidable (_ ∨ _))

section
variable (io : IoApic)

def asserted (pin : ℕ) : Bool := io.line &&& twoPow 32 pin ≠ 0

def service (pin : ℕ) : IoApic × List Raise :=
  let e := io.redir pin
  if e &&& rMasked ≠ 0 then (io,[])
  else if ¬ Routed e then (io,[])
  else if e &&& rLevel ≠ 0 then
    if io.asserted pin ∧ e &&& rRemoteIrr = 0 then
      ({ io with redir := update io.redir pin (e ||| rRemoteIrr) },[(pin,vectorOf e)])
    else (io,[])
  else if io.irr &&& twoPow 32 pin ≠ 0 then
    ({ io with irr := io.irr &&& ~~~twoPow 32 pin },[(pin,vectorOf e)])
  else (io,[])

def writeLow (old : BitVec 64) (v : BitVec 32) : BitVec 64 :=
  let e := (old &&& ~~~rWritableLow) ||| (v.setWidth 64 &&& rWritableLow)
  let e := if e &&& rLevel = 0 then e &&& ~~~rRemoteIrr else e ||| (old &&& rRemoteIrr)
  (old &&& 0xFFFFFFFF00000000#64) ||| (e &&& 0xFFFFFFFF#64)

def writeHigh (old : BitVec 64) (v : BitVec 32) : BitVec 64 :=
  (old &&& 0xFFFFFFFF#64) ||| ((v.setWidth 64 <<< 32) &&& rDest)

def writeRegister (v : BitVec 32) : IoApic × List Raise :=
  let i := io.index.toNat
  if i = 0 then ({ io with id := (v >>> 24) &&& 0xF },[])
  else if 0x10 ≤ i ∧ i < 0x10+48 then
    let pin := (i-0x10)/2
    let e := if (i-0x10)%2 = 0 then writeLow (io.redir pin) v else writeHigh (io.redir pin) v
    -- A change can unmask a request that arrived while masked.
    service { io with redir := update io.redir pin e } pin
  else (io,[])

def write (offset size : ℕ) (value : BitVec 64) : IoApic × List Raise :=
  if size ≠ 4 then (io,[])
  else
    let v := value.setWidth 32
    if offset/16 = 0 then ({ io with index := (v &&& 0xFF).setWidth 8 },[])
    else if offset/16 = 1 then io.writeRegister v
    else (io,[])

def setIrq (pin : ℕ) (level : Bool) : IoApic × List Raise :=
  if pins ≤ pin then (io,[])
  else
    let bit := twoPow 32 pin
    let was := io.asserted pin
    let io₁ := { io with line := if level then io.line ||| bit else io.line &&& ~~~bit }
    let is := io₁.asserted pin
    let io₂ :=
      if io.redir pin &&& rLevel = 0 then
        if is && !was then { io₁ with irr := io₁.irr ||| bit } else io₁
      -- A level that drops before it was serviced is forgotten.
      else if !is then { io₁ with irr := io₁.irr &&& ~~~bit } else io₁
    io₂.service pin

/-- One iteration of the loop of `eoi`. -/
def eoiPin (vector : BitVec 8) (s : IoApic × List Raise) (pin : ℕ) : IoApic × List Raise :=
  let e := s.1.redir pin
  if e &&& rLevel ≠ 0 ∧ e &&& rRemoteIrr ≠ 0 ∧ vectorOf e = vector then
    let r := service { s.1 with redir := update s.1.redir pin (e &&& ~~~rRemoteIrr) } pin
    (r.1,s.2 ++ r.2)
  else s

/-- The local APIC retired `vector`: its level-triggered pins become deliverable again. -/
def eoi (vector : BitVec 8) : IoApic × List Raise :=
  (List.range pins).foldl (eoiPin vector) (io,[])

end
end IoApic

structure Platform where
  lapic : Lapic
  ioapic : IoApic

namespace Platform

def new (tscHz : ℕ) : Platform := ⟨Lapic.new tscHz,IoApic.new⟩

def deliver (p : Platform) (r : IoApic × List Raise) : Platform × List Raise :=
  (⟨r.2.foldl (fun l e => l.raise e.2) p.lapic,r.1⟩,r.2)

section
variable (p : Platform) (off size : ℕ) (value : BitVec 64)

def lapicWrite (now : ℕ) :
    Platform × List Raise :=
  let r := p.lapic.write off size value now
  let p := { p with lapic := r.2 }
  match r.1 with
  | some vector => p.deliver (p.ioapic.eoi vector)
  | none => (p,[])

def ioapicWrite : Platform × List Raise :=
  p.deliver (p.ioapic.write off size value)

end

def setGsi (p : Platform) (pin : ℕ) (level : Bool) : Platform × List Raise :=
  p.deliver (p.ioapic.setIrq pin level)

end Platform
end Enlil.Boot
