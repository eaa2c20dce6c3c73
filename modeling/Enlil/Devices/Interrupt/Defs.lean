import Enlil.Lib.BitReg

/-! # Interrupt controllers of a guest: model of `lapic.rs`, `ioapic.rs` and `controller.rs` -/

namespace Enlil.Devices
open BitVec (ofNat twoPow)

inductive DeliveryMode where
  | fixed | lowestPriority | smi | nmi | init | startUp | extInt
deriving DecidableEq

def DeliveryMode.fromBits (bits : BitVec 3) : DeliveryMode :=
  match bits.toNat with
  | 1 => .lowestPriority
  | 2 => .smi
  | 4 => .nmi
  | 5 => .init
  | 6 => .startUp
  | 7 => .extInt
  | _ => .fixed

inductive TriggerMode where
  | edge | level
deriving DecidableEq

structure InterruptEntry where
  vector : BitVec 8
  deliveryMode : DeliveryMode
  triggerMode : TriggerMode

def InterruptEntry.edge (vector : BitVec 8) : InterruptEntry := ⟨vector,.fixed,.edge⟩

inductive TimerMode where
  | oneShot | periodic | tscDeadline
deriving DecidableEq

structure LocalApic where
  id : BitVec 8
  enabled : Bool
  tpr : BitVec 32
  ldr : BitVec 32
  dfr : BitVec 32
  svr : BitVec 32
  isr : BitVec 256
  tmr : BitVec 256
  irr : BitVec 256
  esr : BitVec 32
  icr : BitVec 64
  lvtTimer : BitVec 32
  lvtThermal : BitVec 32
  lvtPerf : BitVec 32
  lvtLint0 : BitVec 32
  lvtLint1 : BitVec 32
  lvtError : BitVec 32
  lvtCmci : BitVec 32
  timerInitial : ℕ
  timerCurrent : ℕ
  timerDivide : BitVec 32
  /-- Input ticks that the divide configuration has not consumed. -/
  timerDivideResidual : ℕ
  timerMode : TimerMode
  tscDeadline : ℕ
deriving DecidableEq

inductive LapicReg where
  | id | version | tpr | apr | ppr | eoi | ldr | dfr | svr
  | isr (i : ℕ) | tmr (i : ℕ) | irr (i : ℕ)
  | esr | icrLow | icrHigh | lvtTimer | lvtThermal | lvtPerf | lvtLint0 | lvtLint1 | lvtError
  | lvtCmci | timerInit | timerCurrent | timerDivide | selfIpi | other
deriving DecidableEq

def LapicReg.ofOffset (offset : ℕ) : LapicReg :=
  if offset = 0x020 then .id
  else if offset = 0x030 then .version
  else if offset = 0x080 then .tpr
  else if offset = 0x090 then .apr
  else if offset = 0x0A0 then .ppr
  else if offset = 0x0B0 then .eoi
  else if offset = 0x0D0 then .ldr
  else if offset = 0x0E0 then .dfr
  else if offset = 0x0F0 then .svr
  else if 0x100 ≤ offset ∧ offset < 0x180 then .isr ((offset-0x100)/0x10)
  else if 0x180 ≤ offset ∧ offset < 0x200 then .tmr ((offset-0x180)/0x10)
  else if 0x200 ≤ offset ∧ offset < 0x280 then .irr ((offset-0x200)/0x10)
  else if offset = 0x280 then .esr
  else if offset = 0x2F0 then .lvtCmci
  else if offset = 0x300 then .icrLow
  else if offset = 0x310 then .icrHigh
  else if offset = 0x320 then .lvtTimer
  else if offset = 0x330 then .lvtThermal
  else if offset = 0x340 then .lvtPerf
  else if offset = 0x350 then .lvtLint0
  else if offset = 0x360 then .lvtLint1
  else if offset = 0x370 then .lvtError
  else if offset = 0x380 then .timerInit
  else if offset = 0x390 then .timerCurrent
  else if offset = 0x3E0 then .timerDivide
  else if offset = 0x3F0 then .selfIpi
  else .other

namespace LocalApic

def lvtTimerWriteMask : BitVec 32 := 0x000700FF
def lvtDeliveryWriteMask : BitVec 32 := 0x000107FF
def lvtLintWriteMask : BitVec 32 := 0x0001A7FF
def lvtErrorWriteMask : BitVec 32 := 0x000100FF
def svrWriteMask : BitVec 32 := 0x000003FF
def icrLowWriteMask : BitVec 32 := 0x000CCFFF
def icrHighWriteMask : BitVec 32 := 0xFF000000
def timerDcrWriteMask : BitVec 32 := 0x0000000B
def lvtMasked : BitVec 32 := 0x00010000

def new (id : BitVec 8) : LocalApic where
  id := id
  enabled := false
  tpr := 0
  ldr := 0
  dfr := 0xFFFFFFFF
  svr := 0xFF
  isr := 0
  tmr := 0
  irr := 0
  esr := 0
  icr := 0
  lvtTimer := lvtMasked
  lvtThermal := lvtMasked
  lvtPerf := lvtMasked
  lvtLint0 := lvtMasked
  lvtLint1 := lvtMasked
  lvtError := lvtMasked
  lvtCmci := lvtMasked
  timerInitial := 0
  timerCurrent := 0
  timerDivide := 0
  timerDivideResidual := 0
  timerMode := .oneShot
  tscDeadline := 0

section
variable (l : LocalApic)

def inServiceVector : Option ℕ := BitReg.highest? l.isr

def matchesLogical (dest : BitVec 8) : Bool :=
  let logicalId : BitVec 8 := (l.ldr >>> 24).setWidth 8
  if l.dfr >>> 28 = 0xF then logicalId &&& dest ≠ 0
  else logicalId &&& 0xF0 = dest &&& 0xF0 ∧ logicalId &&& dest &&& 0x0F ≠ 0

def computeApr : BitVec 32 :=
  let isrPrio : BitVec 32 := (l.inServiceVector.elim 0 fun v => ofNat 32 (v/16))
  if isrPrio ≤ l.tpr >>> 4 then l.tpr else (isrPrio <<< 4) ||| (isrPrio &&& 0xF)

def computePpr : BitVec 32 :=
  let isrv : BitVec 32 := ofNat 32 (l.inServiceVector.getD 0)
  if isrv >>> 4 ≤ l.tpr >>> 4 then l.tpr else isrv &&& 0xF0

def acceptInterrupt (entry : InterruptEntry) : Bool × LocalApic :=
  if !l.enabled then (false,l)
  -- Vectors below 16 are reserved.
  else if entry.vector.toNat < 16 then (false,l)
  else
    let bit := twoPow 256 entry.vector.toNat
    (true,{ l with
      irr := l.irr ||| bit
      tmr := if entry.triggerMode = .level then l.tmr ||| bit else l.tmr &&& ~~~bit })

def acceptInterruptVector (vector : BitVec 8) : Bool × LocalApic :=
  l.acceptInterrupt (.edge vector)

def pendingInterrupt : Option ℕ :=
  if !l.enabled then none
  else
    match BitReg.highest? l.irr with
    | none => none
    | some pendingVec =>
      let servicingVec := l.inServiceVector.getD 0
      let ppr : BitVec 8 := l.computePpr.setWidth 8
      if ppr.toNat/16 < pendingVec/16 ∧ servicingVec/16 < pendingVec/16 then
        some pendingVec
      else none

def startServicing (vector : ℕ) : LocalApic :=
  let bit := twoPow 256 vector
  { l with irr := l.irr &&& ~~~bit, isr := l.isr ||| bit }

def acceptHighestInterrupt : Option ℕ × LocalApic :=
  match l.pendingInterrupt with
  | none => (none,l)
  | some vector => (some vector,l.startServicing vector)

def handleEoi : LocalApic :=
  match l.inServiceVector with
  | none => l
  | some vector => { l with isr := l.isr &&& ~~~twoPow 256 vector }

def readReg : LapicReg → BitVec 32
  | .id => l.id.setWidth 32 <<< 24
  | .version => 0x14 ||| (6 <<< 16)
  | .tpr => l.tpr
  | .apr => l.computeApr
  | .ppr => l.computePpr
  | .ldr => l.ldr
  | .dfr => l.dfr
  | .svr => l.svr
  | .isr i => (l.isr >>> (32*i)).setWidth 32
  | .tmr i => (l.tmr >>> (32*i)).setWidth 32
  | .irr i => (l.irr >>> (32*i)).setWidth 32
  | .esr => l.esr
  | .icrLow => l.icr.setWidth 32
  | .icrHigh => (l.icr >>> 32).setWidth 32
  | .lvtTimer => l.lvtTimer
  | .lvtThermal => l.lvtThermal
  | .lvtPerf => l.lvtPerf
  | .lvtLint0 => l.lvtLint0
  | .lvtLint1 => l.lvtLint1
  | .lvtError => l.lvtError
  | .lvtCmci => l.lvtCmci
  | .timerInit => ofNat 32 l.timerInitial
  | .timerCurrent => if l.timerMode = .tscDeadline then 0 else ofNat 32 l.timerCurrent
  | .timerDivide => l.timerDivide
  | .eoi | .selfIpi | .other => 0

def readRegister (offset : ℕ) : BitVec 32 := l.readReg (.ofOffset offset)

def timerModeOf (value : BitVec 32) : TimerMode :=
  match ((value >>> 17) &&& 0x3).toNat with
  | 1 => .periodic
  | 2 => .tscDeadline
  | _ => .oneShot

def writeReg (value : BitVec 32) : LapicReg → LocalApic
  | .id => { l with id := (value >>> 24).setWidth 8 }
  | .tpr => { l with tpr := value &&& 0xFF }
  | .ldr => { l with ldr := value &&& 0xFF000000 }
  | .dfr => { l with dfr := value ||| 0x0FFFFFFF }
  | .svr => { l with svr := value &&& svrWriteMask, enabled := value &&& 0x100 ≠ 0 }
  | .eoi => l.handleEoi
  | .esr => { l with esr := 0 }
  | .icrLow => { l with
      icr := (l.icr &&& 0xFFFFFFFF00000000) ||| (value &&& icrLowWriteMask).setWidth 64 }
  | .icrHigh => { l with
      icr := (l.icr &&& 0xFFFFFFFF) ||| ((value &&& icrHighWriteMask).setWidth 64 <<< 32) }
  | .lvtTimer => { l with
      lvtTimer := value &&& lvtTimerWriteMask
      -- A change of the mode disarms a pending deadline.
      tscDeadline := if timerModeOf value ≠ l.timerMode then 0 else l.tscDeadline
      timerMode := timerModeOf value }
  | .lvtThermal => { l with lvtThermal := value &&& lvtDeliveryWriteMask }
  | .lvtPerf => { l with lvtPerf := value &&& lvtDeliveryWriteMask }
  | .lvtLint0 => { l with lvtLint0 := value &&& lvtLintWriteMask }
  | .lvtLint1 => { l with lvtLint1 := value &&& lvtLintWriteMask }
  | .lvtError => { l with lvtError := value &&& lvtErrorWriteMask }
  | .lvtCmci => { l with lvtCmci := value &&& lvtDeliveryWriteMask }
  | .timerInit =>
    -- The deadline mode has no initial count.
    if l.timerMode = .tscDeadline then l
    else { l with
      timerInitial := value.toNat, timerCurrent := value.toNat, timerDivideResidual := 0 }
  | .timerDivide => { l with timerDivide := value &&& timerDcrWriteMask, timerDivideResidual := 0 }
  | .selfIpi => (l.acceptInterrupt (.edge (value.setWidth 8))).2
  | .version | .apr | .ppr | .isr _ | .tmr _ | .irr _ | .timerCurrent | .other => l

def writeRegister (offset : ℕ) (value : BitVec 32) : LocalApic :=
  l.writeReg value (.ofOffset offset)

def timerDivisor : ℕ :=
  let b3 := (l.timerDivide >>> 3) &&& 1
  let b1 := (l.timerDivide >>> 1) &&& 1
  let b0 := l.timerDivide &&& 1
  let combined := ((b3 <<< 2) ||| (b1 <<< 1) ||| b0).toNat
  if combined = 0b111 then 1 else 2^(combined+1)

def fireTimer : LocalApic :=
  if l.lvtTimer &&& lvtMasked = 0 then (l.acceptInterrupt (.edge (l.lvtTimer.setWidth 8))).2 else l

/-- The count after an expiry within `ticks`. A periodic timer carries the ticks beyond the expiry
into the next period. -/
def timerReload (ticks : ℕ) : ℕ :=
  if l.timerMode = .periodic then l.timerInitial-(ticks-l.timerCurrent)%l.timerInitial else 0

def timerTick (ticks : ℕ) : Bool × LocalApic :=
  if l.timerInitial = 0 ∨ l.timerMode = .tscDeadline then (false,l)
  else
    let total := min (l.timerDivideResidual+ticks) (2^32-1)
    let ticks := total/l.timerDivisor
    let l := { l with timerDivideResidual := total%l.timerDivisor }
    if ticks = 0 then (false,l)
    else if l.timerCurrent ≤ ticks then
      (true,{ l.fireTimer with timerCurrent := l.timerReload ticks })
    else (false,{ l with timerCurrent := l.timerCurrent-ticks })

end
end LocalApic

/-! ### I/O APIC -/

structure RedirectionEntry where
  vector : BitVec 8
  deliveryMode : DeliveryMode
  destLogical : Bool
  deliveryPending : Bool
  activeLow : Bool
  remoteIrr : Bool
  levelTriggered : Bool
  masked : Bool
  destination : BitVec 8

namespace RedirectionEntry

def default : RedirectionEntry := ⟨0,.fixed,false,false,false,false,false,true,0⟩

def setLow (e : RedirectionEntry) (val : BitVec 32) : RedirectionEntry :=
  { e with
    vector := val.setWidth 8
    deliveryMode := .fromBits ((val >>> 8).setWidth 3)
    destLogical := val.getLsbD 11
    activeLow := val.getLsbD 13
    levelTriggered := val.getLsbD 15
    masked := val.getLsbD 16 }

def setHigh (e : RedirectionEntry) (val : BitVec 32) : RedirectionEntry :=
  { e with destination := (val >>> 24).setWidth 8 }

end RedirectionEntry

structure InterruptRoute where
  vector : BitVec 8
  deliveryMode : DeliveryMode
  destLogical : Bool
  destination : BitVec 8
  levelTriggered : Bool

structure IoApic where
  id : BitVec 8
  regSelect : BitVec 8
  entries : ℕ → RedirectionEntry
  irqLevel : ℕ → Bool

namespace IoApic

def numPins : ℕ := 24

def new (id : BitVec 8) : IoApic := ⟨id,0,fun _ => .default,fun _ => false⟩

section
variable (io : IoApic)

def writeRegister (reg : BitVec 8) (value : BitVec 32) : IoApic :=
  if reg = 0 then { io with id := (value >>> 24).setWidth 8 &&& 0xF }
  else if 0x10 ≤ reg.toNat then
    let index := reg.toNat-0x10
    let pin := index/2
    if numPins ≤ pin then io
    else
      let entry := io.entries pin
      let entry := if index%2 = 0 then entry.setLow value else entry.setHigh value
      { io with entries := Function.update io.entries pin entry }
  else io

def mmioWrite (offset : ℕ) (value : BitVec 32) : IoApic :=
  if offset = 0x00 then { io with regSelect := value.setWidth 8 }
  else if offset = 0x10 then io.writeRegister io.regSelect value
  else io

def routeOf (e : RedirectionEntry) : InterruptRoute :=
  ⟨e.vector,e.deliveryMode,e.destLogical,e.destination,e.levelTriggered⟩

def setIrq (irq : ℕ) : Option InterruptRoute × IoApic :=
  let e := io.entries irq
  if numPins ≤ irq then (none,io)
  else if e.masked then (none,io)
  else if e.levelTriggered then
    -- Already asserted.
    if io.irqLevel irq then (none,io)
    else
      (some (routeOf e),{ io with
        irqLevel := Function.update io.irqLevel irq true
        entries := Function.update io.entries irq { e with remoteIrr := true } })
  else (some (routeOf e),io)

def clearIrq (irq : ℕ) : IoApic :=
  if irq < numPins then { io with irqLevel := Function.update io.irqLevel irq false } else io

def retires (e : RedirectionEntry) (vector : BitVec 8) : Bool :=
  e.levelTriggered && e.remoteIrr && e.vector = vector

def eoi (vector : BitVec 8) : List InterruptRoute × IoApic :=
  let again := fun pin => retires (io.entries pin) vector && io.irqLevel pin &&
    !(io.entries pin).masked
  (((List.range numPins).filter again).map fun pin => routeOf (io.entries pin),
    { io with entries := fun pin =>
        if pin < numPins ∧ retires (io.entries pin) vector then
          { io.entries pin with remoteIrr := again pin, deliveryPending := false }
        else io.entries pin })

end
end IoApic

structure InterruptController where
  lapics : List LocalApic
  ioapic : IoApic
  activeLapic : BitVec 8

namespace InterruptController

def new (numVcpus : ℕ) : InterruptController :=
  ⟨(List.range numVcpus).map fun i => .new (ofNat 8 i),.new 0,0⟩

def minByKey {α : Type} (key : α → ℕ) : List α → Option α
  | [] => none
  | x :: xs =>
    match minByKey key xs with
    | none => some x
    | some y => if key x ≤ key y then some x else some y

section
variable (c : InterruptController)

def setActiveLapic (vcpu : BitVec 8) : InterruptController :=
  { c with activeLapic := vcpu }

def lapic (vcpu : BitVec 8) : Option LocalApic :=
  c.lapics.find? fun l => l.id = vcpu

def updateFirst (id : BitVec 8) (f : LocalApic → LocalApic) : List LocalApic → List LocalApic
  | [] => []
  | l :: ls => if l.id = id then f l :: ls else l :: updateFirst id f ls

def lapicMut (vcpu : BitVec 8) (f : LocalApic → LocalApic) :
    InterruptController :=
  { c with lapics := updateFirst vcpu f c.lapics }

/-- Deliver to the local APICs that a predicate selects: to the enabled one with the lowest task
priority, or to each. -/
def deliverTo (sel : LocalApic → Bool) (entry : InterruptEntry) :
    InterruptController :=
  if entry.deliveryMode = .lowestPriority then
    match minByKey (fun i => ((c.lapics.getD i (.new 0)).tpr &&& 0xFF).toNat)
      ((List.range c.lapics.length).filter fun i =>
        sel (c.lapics.getD i (.new 0)) && (c.lapics.getD i (.new 0)).enabled) with
    | none => c
    | some i => { c with lapics := c.lapics.modify i fun l => (l.acceptInterrupt entry).2 }
  else
    { c with lapics := c.lapics.map fun l => if sel l then (l.acceptInterrupt entry).2 else l }

def deliverPhysical (dest : BitVec 8) (entry : InterruptEntry) :
    InterruptController :=
  c.deliverTo (fun l => dest = 0xFF ∨ l.id = dest) entry

def deliverLogical (dest : BitVec 8) (entry : InterruptEntry) :
    InterruptController :=
  c.deliverTo (fun l => l.enabled && l.matchesLogical dest) entry

def deliverRoute (route : InterruptRoute) : InterruptController :=
  let entry : InterruptEntry :=
    ⟨route.vector,route.deliveryMode,if route.levelTriggered then .level else .edge⟩
  if route.destLogical then c.deliverLogical route.destination entry
  else c.deliverPhysical route.destination entry

def deliverIrq (irq : ℕ) : InterruptController :=
  match c.ioapic.setIrq irq with
  | (some route,ioapic) => deliverRoute { c with ioapic := ioapic } route
  | (none,ioapic) => { c with ioapic := ioapic }

def clearIrq (irq : ℕ) : InterruptController :=
  { c with ioapic := c.ioapic.clearIrq irq }

def sendIpi (sourceId : BitVec 8) (icr : BitVec 64) :
    InterruptController :=
  let mode := DeliveryMode.fromBits ((icr >>> 8).setWidth 3)
  if mode ≠ .fixed ∧ mode ≠ .lowestPriority then c
  else
    let entry : InterruptEntry := ⟨icr.setWidth 8,mode,.edge⟩
    let dest : BitVec 8 := (icr >>> 56).setWidth 8
    match ((icr >>> 18) &&& 0x3).toNat with
    | 0b01 => c.lapicMut sourceId fun l => (l.acceptInterrupt entry).2
    | 0b10 => c.deliverPhysical 0xFF entry
    | 0b11 => c.deliverTo (fun l => l.id ≠ sourceId) entry
    | _ => if icr.getLsbD 11 then c.deliverLogical dest entry else c.deliverPhysical dest entry

def eoi (vcpu vector : BitVec 8) : InterruptController :=
  let c := c.lapicMut vcpu LocalApic.handleEoi
  let (routes,ioapic) := c.ioapic.eoi vector
  routes.foldl deliverRoute { c with ioapic := ioapic }

def writeLapic (vcpu : BitVec 8) (offset : ℕ) (value : BitVec 32) :
    InterruptController :=
  if LapicReg.ofOffset offset = .eoi then
    match (c.lapic vcpu).bind LocalApic.inServiceVector with
    | none => c
    | some vector => c.eoi vcpu (ofNat 8 vector)
  else
    match c.lapic vcpu with
    | none => c
    | some l =>
      let l' := l.writeRegister offset value
      let c' := c.lapicMut vcpu fun l => l.writeRegister offset value
      if LapicReg.ofOffset offset = .icrLow then c'.sendIpi l'.id l'.icr else c'

def readLapic (vcpu : BitVec 8) (offset : ℕ) : BitVec 32 :=
  (c.lapic vcpu).elim 0 fun l => l.readRegister offset

def mmioWrite (offset : ℕ) (value : BitVec 32) : InterruptController :=
  c.writeLapic c.activeLapic offset value

def mmioRead (offset : ℕ) : BitVec 32 := c.readLapic c.activeLapic offset

end
end InterruptController
end Enlil.Devices
