import Enlil.Lib.Word

/-!
# Platform timers: model of `pit.rs`, `hpet.rs`, `acpi_pm.rs` and the periodic part of `rtc.rs`
-/

namespace Enlil.Devices

inductive ChannelMode where
  | interruptOnTerminalCount | hardwareRetriggerable | rateGenerator | squareWave
  | softwareStrobe | hardwareStrobe
deriving DecidableEq

structure PitChannel where
  count : BitVec 16
  reload : BitVec 16
  mode : ChannelMode
  output : Bool
  gate : Bool
  enabled : Bool
deriving DecidableEq

namespace PitChannel

def new : PitChannel := ⟨0,0,.interruptOnTerminalCount,false,true,false⟩

def tick (ch : PitChannel) : Bool × PitChannel :=
  if !ch.enabled || !ch.gate then (false,ch)
  else
    match ch.mode with
    | .interruptOnTerminalCount =>
      if ch.count = 0 then (false,{ ch with output := true })
      else if ch.count-1 = 0 then (true,{ ch with count := 0, output := true })
      else (false,{ ch with count := ch.count-1 })
    | .rateGenerator =>
      if ch.count-1 = 0 then (true,{ ch with count := ch.reload, output := false })
      else (false,{ ch with count := ch.count-1, output := true })
    | .squareWave =>
      if ch.count = 0 then (false,{ ch with count := ch.reload })
      else if ch.count-2 ≤ 1 then
        (!ch.output,{ ch with count := ch.reload, output := !ch.output })
      else (false,{ ch with count := ch.count-2 })
    | .hardwareRetriggerable | .softwareStrobe | .hardwareStrobe =>
      if ch.count = 0 then (false,ch) else (false,{ ch with count := ch.count-1 })

end PitChannel

def Pit.nsPerTick : ℕ := 838

structure Pit where
  channel0 : PitChannel
  channel1 : PitChannel
  channel2 : PitChannel
  /-- Time that has not made up an input clock yet. -/
  accumulatorNs : ℕ
  accumulatorNs_lt : accumulatorNs < Pit.nsPerTick
deriving DecidableEq

namespace Pit

def new : Pit := ⟨.new,.new,.new,0,by decide⟩

def clock (p : Pit) : Bool × Pit :=
  (p.channel0.tick.1,{ p with
    channel0 := p.channel0.tick.2, channel1 := p.channel1.tick.2, channel2 := p.channel2.tick.2 })

def clocks : ℕ → Pit → ℕ × Pit
  | 0, p => (0,p)
  | n+1, p => ((clocks n p.clock.2).1+p.clock.1.toNat,(clocks n p.clock.2).2)

def tick (p : Pit) (ns : ℕ) : ℕ × Pit :=
  let total := Word.add64 p.accumulatorNs ns
  clocks (total/nsPerTick)
    { p with
      accumulatorNs := total%nsPerTick
      accumulatorNs_lt := Nat.mod_lt _ (by decide) }

end Pit

structure HpetTimer where
  config : BitVec 64
  comparator : BitVec 64
  period : BitVec 64
  index : ℕ
deriving DecidableEq

namespace HpetTimer

def isLevelTriggered (t : HpetTimer) : Bool := t.config.getLsbD 1
def interruptEnabled (t : HpetTimer) : Bool := t.config.getLsbD 2
def isPeriodic (t : HpetTimer) : Bool := t.config.getLsbD 3
def irqRoute (t : HpetTimer) : ℕ := ((t.config >>> 9) &&& 0x1F).toNat

def fires (t : HpetTimer) (old new : BitVec 64) : Bool :=
  t.interruptEnabled && decide (old < t.comparator) && decide (t.comparator ≤ new)

def rearm (t : HpetTimer) (old new : BitVec 64) : HpetTimer :=
  if t.fires old new && t.isPeriodic then { t with comparator := t.comparator+t.period } else t

end HpetTimer

def HpetTimer.new (index : ℕ) : HpetTimer := ⟨0x000F000000000030,0,0,index⟩

structure Hpet where
  config : BitVec 64
  counter : BitVec 64
  timers : List HpetTimer
  interruptStatus : BitVec 64
deriving DecidableEq

namespace Hpet

def tickNs : ℕ := 100

def new : Hpet := ⟨0,0,(List.range 3).map .new,0⟩

def isEnabled (h : Hpet) : Bool := h.config.getLsbD 0
def legacyRouting (h : Hpet) : Bool := h.config.getLsbD 1

def tick (h : Hpet) (ticks : ℕ) : List (ℕ × ℕ) × Hpet :=
  if !h.isEnabled then ([],h)
  else
    let new := h.counter+BitVec.ofNat 64 ticks
    let fired := h.timers.filter fun t => t.fires h.counter new
    (fired.map fun t => (t.index,t.irqRoute),
      { h with
        counter := new
        timers := h.timers.map fun t => t.rearm h.counter new
        interruptStatus := (fired.filter HpetTimer.isLevelTriggered).foldl
          (fun status t => status ||| BitVec.twoPow 64 t.index) h.interruptStatus })

end Hpet

structure AcpiPmTimer where
  counter : BitVec 32
deriving DecidableEq

namespace AcpiPmTimer

def freqHz : ℕ := 3579545

def nanosPerSec : ℕ := 1000000000

def nsToTicks (ns : ℕ) : BitVec 32 := BitVec.ofNat 32 (ns*freqHz/nanosPerSec)

def advance (t : AcpiPmTimer) (ticks : BitVec 32) : AcpiPmTimer := ⟨t.counter+ticks⟩

end AcpiPmTimer

structure Rtc146818 where
  regA : BitVec 8
  regB : BitVec 8
  regC : BitVec 8
  periodicAccumNs : ℕ
deriving DecidableEq

namespace Rtc146818

/-- After power-on: 1024 Hz selected, all interrupts disabled. -/
def new : Rtc146818 := ⟨0x26,0x06,0,0⟩

def periodicRateHz (r : Rtc146818) : Option ℕ :=
  match (r.regA &&& 0x0F).toNat with
  | 0 => none
  | 1 => some 256
  | 2 => some 128
  | n => some (32768 >>> (n-1))

def tickPeriodic (r : Rtc146818) : Bool × Rtc146818 :=
  if r.periodicRateHz.isNone then (false,r)
  else
    let asserted := r.regB.getLsbD 6
    (asserted,{ r with regC := if asserted then r.regC ||| 0xC0 else r.regC ||| 0x40 })

def advancePeriodic (r : Rtc146818) (ns : ℕ) : Bool × Rtc146818 :=
  match r.periodicRateHz with
  | none => (false,{ r with periodicAccumNs := 0 })
  | some rate =>
    let accum := min (r.periodicAccumNs+ns) (2^64-1)
    let due := accum*rate/1000000000
    if due = 0 then (false,{ r with periodicAccumNs := accum })
    else tickPeriodic { r with periodicAccumNs := accum-due*1000000000/rate }

end Rtc146818
end Enlil.Devices
