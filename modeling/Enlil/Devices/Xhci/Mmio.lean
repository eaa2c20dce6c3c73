import Enlil.Devices.Pcie.Msix
import Enlil.Devices.Xhci.Execution
import Enlil.Lib.Runs

/-!
# Interrupts of the virtual xHCI function: model of `usb/controller.rs`, `XhciMmio`, and of the USB
calls of `device_bus.rs`

`DNCTRL`, `MFINDEX` and of a port everything but `PORTSC` and the speed are left out.
-/

namespace Enlil.Devices.Xhci
open Pcie List InterrupterRegisterSet

/-! ### Register writes -/

namespace InterrupterRegisterSet
section
variable (i : InterrupterRegisterSet)

def interruptPending : Bool := i.iman.getLsbD 0

def interruptEnabled : Bool := i.iman.getLsbD 1

def writeIman (value : BitVec 32) : InterrupterRegisterSet :=
  let iman := if value.getLsbD 0 then i.iman &&& ~~~1 else i.iman
  { i with iman := (iman &&& 1) ||| (value &&& 2) }

end
end InterrupterRegisterSet

/-- Write `PORTSC`. `speed` is that of the device that was connected last. -/
def PortRegisterSet.writePortsc (p : PortRegisterSet) (speed : ℕ) (value : BitVec 32) :
    PortRegisterSet :=
  let x := p.portsc &&& ~~~(value &&& 0x00FE0000)
  -- a one disables the port
  let x := if value.getLsbD 1 then x &&& ~~~0x2 else x
  -- a reset completes at once
  let x := if value.getLsbD 4 && x.getLsbD 0 then
    (0x200203 ||| BitVec.ofNat 32 speed <<< 10 : BitVec 32) else x
  let x := if value.getLsbD 16 then
    let newPls := value >>> 5 &&& 0xF
    let oldPls := x >>> 5 &&& 0xF
    let y := (x &&& ~~~(0x1E0 : BitVec 32)) ||| (newPls <<< 5)
    if newPls = 0 ∧ oldPls = 3 then y ||| 0x400000 else y
    else x
  let x := if value.getLsbD 9 then x ||| 0x200 else x &&& ~~~0x200
  ⟨(x &&& ~~~0x0E000000) ||| (value &&& 0x0E000000)⟩

namespace OperationalRegisters

def reset (op : OperationalRegisters) : OperationalRegisters := new op.ports.length

def writeUsbcmd (op : OperationalRegisters) (value : BitVec 32) : OperationalRegisters :=
  if value.getLsbD 1 then op.reset
  else
    { op with
      usbcmd := value &&& 0x2C0D
      usbsts :=
        if value.getLsbD 0 && !op.isRunning then op.usbsts &&& ~~~1
        else if !value.getLsbD 0 && op.isRunning then op.usbsts ||| 1
        else op.usbsts }

end OperationalRegisters

def writeLo (v : ℕ) (value : BitVec 32) : ℕ := v/2^32*2^32+value.toNat

def writeHi (v : ℕ) (value : BitVec 32) : ℕ := v%2^32+value.toNat*2^32

structure XhciFunction (M : Type) where
  ctrl : VirtualXhciController M
  portSpeeds : List ℕ
  msix : MsixTable

namespace XhciFunction
variable {M : Type} (f : XhciFunction M)

def msixTableBarOffset : ℕ := 0x8000

def msixPbaBarOffset : ℕ := 0x9000

def new (numPorts : ℕ) : XhciFunction M := ⟨.new numPorts,replicate numPorts 0,.new 1⟩

def withOp (op : OperationalRegisters) : XhciFunction M := { f with ctrl := { f.ctrl with op } }

def withInterrupter (interrupter : InterrupterRegisterSet) : XhciFunction M :=
  { f with ctrl := { f.ctrl with interrupter } }

section
variable (offset : ℕ) (value : BitVec 32)

def writeOperational : XhciFunction M :=
  let op := f.ctrl.op
  match offset with
  | 0x00 =>
    { f.withOp (op.writeUsbcmd value) with
      portSpeeds := if value.getLsbD 1 then f.portSpeeds.map fun _ => 0 else f.portSpeeds }
  | 0x04 => f.withOp { op with usbsts := op.usbsts &&& ~~~(value &&& 0x1C) }
  | 0x18 =>
    { f with ctrl := { f.ctrl with
      op := { op with crcr := (op.crcr &&& ~~~0xFFFFFFFF) ||| value.setWidth 64 }
      guestCommandRing := none } }
  | 0x1C =>
    { f with ctrl := { f.ctrl with
      op := { op with crcr := (op.crcr &&& 0xFFFFFFFF) ||| value.setWidth 64 <<< 32 }
      guestCommandRing := none } }
  | 0x30 => f.withOp { op with dcbaap := writeLo op.dcbaap value }
  | 0x34 => f.withOp { op with dcbaap := writeHi op.dcbaap value }
  | 0x38 => f.withOp { op with config := value &&& 0xFF }
  | o =>
    if 0x400 ≤ o ∧ (o-0x400)%16 = 0 then
      let port := (o-0x400)/16
      f.withOp { op with
        ports := op.ports.modify port fun p => p.writePortsc (f.portSpeeds.getD port 0) value }
    else f

def writeRuntime : XhciFunction M :=
  let i := f.ctrl.interrupter
  match offset with
  | 0x20 => f.withInterrupter (i.writeIman value)
  | 0x24 => f.withInterrupter { i with imod := value }
  | 0x28 => f.withInterrupter { i with erstsz := (value &&& 0xFFFF).toNat }
  | 0x30 => f.withInterrupter { i with erstba := writeLo i.erstba value }
  | 0x34 => f.withInterrupter { i with erstba := writeHi i.erstba value }
  | 0x38 => f.withInterrupter (i.writeErdp (writeLo i.erdp value))
  | 0x3C => f.withInterrupter (i.writeErdp (writeHi i.erdp value))
  | _ => f

def inMsixTable (offset : ℕ) : Bool :=
  msixTableBarOffset ≤ offset && offset < msixTableBarOffset+f.msix.entries.length*16

def inMsixPba (offset : ℕ) : Bool :=
  msixPbaBarOffset ≤ offset && offset < msixPbaBarOffset+(f.msix.entries.length+63)/64*8

def writeRegister : XhciFunction M :=
  if offset < 0x20 then f
  else if offset < 0x1000 then f.writeOperational (offset-0x20) value
  else if offset < 0x2000 then f.writeRuntime (offset-0x1000) value
  else if f.inMsixTable offset then
    { f with msix := f.msix.writeTableU32 (offset-msixTableBarOffset) value }
  else if f.inMsixPba offset then f
  else
    let index := min ((offset-0x2000)/4) 255
    { f with ctrl := { f.ctrl with doorbells := f.ctrl.doorbells.write (.ofNat 8 index) value } }

end

def intxLevel : Bool :=
  f.ctrl.interrupter.interruptPending && f.ctrl.interrupter.interruptEnabled

end XhciFunction

/-! ### The adapter and the bus -/

/-- What the probes of configuration space say: MSI-X with its function mask, MSI with its message,
or neither. -/
inductive InterruptMode where
  | msix (functionMasked : Bool)
  | msi (message : MsixMessage)
  | intx

structure XhciMmio (M : Type) where
  function : XhciFunction M
  mode : InterruptMode
  lastIntLevel : Bool
  inta : List Bool
  messages : List MsixMessage

namespace XhciMmio
variable {M : Type} (s : XhciMmio M)

def drive (level : Bool) : XhciMmio M := { s with inta := s.inta ++ [level] }

def send (messages : List MsixMessage) : XhciMmio M := { s with messages := s.messages ++ messages }

def dispatchMsix (globallyMasked : Bool) : XhciMmio M :=
  let level := s.function.intxLevel
  let r := if level && !s.lastIntLevel then s.function.msix.signal 0 globallyMasked
    else (none,s.function.msix)
  let replayed := r.2.takePending globallyMasked
  { (s.drive false).send (r.1.toList ++ replayed.1) with
    function := { s.function with msix := replayed.2 }
    lastIntLevel := level }

def dispatchMsi (message : MsixMessage) : XhciMmio M :=
  let level := s.function.intxLevel
  { (s.drive false).send (if level && !s.lastIntLevel then [message] else []) with
    lastIntLevel := level }

def dispatchInterrupt : XhciMmio M :=
  match s.mode with
  | .msix functionMasked => s.dispatchMsix functionMasked
  | .msi message => s.dispatchMsi message
  | .intx => { s.drive s.function.intxLevel with lastIntLevel := s.function.intxLevel }

def writeRegisters (offset size : ℕ) (data : BitVec 64) : XhciFunction M :=
  let reg := offset/4*4
  let f := s.function.writeRegister reg (data.setWidth 32)
  if 8 ≤ size then f.writeRegister (reg+4) ((data >>> 32).setWidth 32) else f

def mmioWrite (offset size : ℕ) (data : BitVec 64) : XhciMmio M :=
  { s with function := s.writeRegisters offset size data }.dispatchInterrupt

def withCtrl (ctrl : VirtualXhciController M) : XhciMmio M :=
  { s with function := { s.function with ctrl } }

def connectUsbDevice (port speed : ℕ) (connected : Bool) : XhciMmio M :=
  let r := if connected then s.function.ctrl.connectDevice port speed
    else s.function.ctrl.disconnectDevice port
  let portSpeeds := s.function.portSpeeds.set port (if connected then speed else 0)
  let s' := { s with function := { s.function with ctrl := r.2, portSpeeds } }
  if r.1 then s'.drive s'.function.intxLevel else s'

def attachUsbDevice (speed : DeviceSpeed) : XhciMmio M :=
  let c := s.function.ctrl
  let r := c.attachDevice speed
  let portSpeeds :=
    match (c.portRange speed).find? fun i => !(c.op.ports.getD i ⟨0⟩).isConnected with
    | none => s.function.portSpeeds
    | some port => s.function.portSpeeds.set port speed.xhciSpeedId
  let s' := { s with function := { s.function with ctrl := r.2, portSpeeds } }
  if r.1.isSome then s'.drive s'.function.intxLevel else s'

def serviceUsbDma [UsbDeviceModel M] (s : XhciMmio M) (mem : DmaMemory) (fuel : ℕ) : XhciMmio M :=
  match Service.serviceDoorbells ⟨s.function.ctrl,mem,0⟩ fuel with
  | none => s
  | some r => (s.withCtrl r.ctrl).drive (s.withCtrl r.ctrl).function.intxLevel

/-- A call, or a write to configuration space that changes the interrupt mode. -/
inductive Event where
  | mmioWrite (offset size : ℕ) (data : BitVec 64)
  | serviceUsbDma (mem : DmaMemory) (fuel : ℕ)
  | connectUsbDevice (port speed : ℕ) (connected : Bool)
  | attachUsbDevice (speed : DeviceSpeed)
  | configure (mode : InterruptMode)

def step [UsbDeviceModel M] (s : XhciMmio M) : Event → XhciMmio M
  | .mmioWrite offset size data =>
    -- The bus sends nothing beyond the window here.
    if offset < 0x10000 then s.mmioWrite offset size data else s
  | .serviceUsbDma mem fuel => s.serviceUsbDma mem fuel
  | .connectUsbDevice port speed connected => s.connectUsbDevice port speed connected
  | .attachUsbDevice speed => s.attachUsbDevice speed
  | .configure mode => { s with mode }

def new (numPorts : ℕ) : XhciMmio M := ⟨.new numPorts,.intx,false,[],[]⟩

def runAt [UsbDeviceModel M] (numPorts : ℕ) (events : List Event) (k : ℕ) : XhciMmio M :=
  (events.take k).foldl step (new numPorts)

def Event.isRegisterWrite : Event → Bool
  | .mmioWrite offset _ _ => offset < 0x10000
  | _ => false

def pending : Bool := s.function.msix.pending.getD 0 false

def deliverable (functionMasked : Bool) : Bool :=
  !functionMasked && !((s.function.msix.entries[0]?).map MsixEntry.masked).getD true

def vectorMessages : List MsixMessage :=
  ((s.function.msix.entries[0]?).map MsixEntry.message).toList

/-- A call made with MSI-X enabled does not assert `INTA#`. If the interrupt condition rises, there
is one message, or the vector is pending if it is masked, until a register write finds it unmasked.
-/
structure Exclusive (functionMasked : Bool) (s : XhciMmio M) (e : Event) (s' : XhciMmio M) :
    Prop where
  intx : ∃ n, s'.inta = s.inta ++ replicate n false
  rise : s.function.intxLevel = false → s'.function.intxLevel = true →
    if s'.deliverable functionMasked then s'.messages = s.messages ++ s'.vectorMessages
    else s'.pending = true ∧ s'.messages = s.messages
  single : s'.vectorMessages.length = 1
  replay : s.pending = true → e.isRegisterWrite = true → s'.deliverable functionMasked = true →
    s'.messages = s.messages ++ s'.vectorMessages ∧ s'.pending = false
  held : s.pending = true → (e.isRegisterWrite && s'.deliverable functionMasked) = false →
    s'.pending = true ∧ s'.messages = s.messages

/-- The calls that drive the pin themselves find the interrupter disabled, or they serve nothing
and nothing is pending, or they find no port to change. -/
def Quiet (s : XhciMmio M) : Event → Prop
  | .serviceUsbDma _ _ => s.function.ctrl.interrupter.interruptEnabled = false ∨
    (s.function.ctrl.interrupter.interruptPending = false ∧
      (s.function.ctrl.op.isRunning = false ∨ s.function.ctrl.doorbells.drainPending.1 = []))
  | .connectUsbDevice port _ _ => s.function.ctrl.interrupter.interruptEnabled = false ∨
    s.function.ctrl.op.ports.length ≤ port
  | .attachUsbDevice speed => s.function.ctrl.interrupter.interruptEnabled = false ∨
    ∀ i ∈ s.function.ctrl.portRange speed, (s.function.ctrl.op.ports.getD i ⟨0⟩).isConnected = true
  | _ => True

end XhciMmio

/-! ### The interrupt condition -/

/-- Events may have been posted: the enable bit of `IMAN` is kept and the pending bit is not
cleared. -/
structure Raises (iman iman' : BitVec 32) : Prop where
  enabled : iman'.getLsbD 1 = iman.getLsbD 1
  pending : iman.getLsbD 0 = true → iman'.getLsbD 0 = true

section
variable {x y z : BitVec 32}

lemma Raises.refl (x : BitVec 32) : Raises x x := ⟨rfl,id⟩

lemma Raises.trans (h : Raises x y) (h' : Raises y z) : Raises x z :=
  ⟨h'.enabled.trans h.enabled,fun hp => h'.pending (h.pending hp)⟩

lemma raises_or (x : BitVec 32) : Raises x (x ||| 1) := by
  constructor
  · rw [BitVec.getLsbD_or]
    exact Bool.or_false _
  · intro h
    rw [BitVec.getLsbD_or,h,Bool.true_or]

end
namespace InterrupterRegisterSet
variable (i : InterrupterRegisterSet)

lemma raises_post (trb : Trb) : Raises i.iman (i.post trb).iman := by
  rw [post]
  split
  · exact raises_or _
  · exact .refl _

lemma raises_posts (evs : List Trb) : Raises i.iman (evs.foldl post i).iman := by
  induction evs generalizing i with
  | nil => exact .refl _
  | cons trb rest ih => exact (raises_post i trb).trans (ih _)

lemma iman_flushToGuest (mem : DmaMemory) : (i.flushToGuest mem).2.1.iman = i.iman := by
  rw [flushToGuest]
  split
  · rfl
  · split <;> rfl

end InterrupterRegisterSet
namespace VirtualXhciController
variable {M : Type} (c : VirtualXhciController M)

lemma raises_postEventTrb (trb : Trb) :
    Raises c.interrupter.iman (c.postEventTrb trb).2.interrupter.iman := by
  rw [postEventTrb]
  split
  · exact raises_or _
  · exact .refl _

lemma raises_signalPortChange (port : ℕ) :
    Raises c.interrupter.iman (c.signalPortChange port).2.interrupter.iman :=
  raises_postEventTrb { c with op := { c.op with usbsts := c.op.usbsts ||| 0x10 } } _

lemma raises_connectDevice (port speed : ℕ) :
    Raises c.interrupter.iman (c.connectDevice port speed).2.interrupter.iman := by
  rw [connectDevice]
  split
  · exact raises_signalPortChange
      { c with op := { c.op with ports := c.op.ports.set port (.connected speed) } } port
  · exact .refl _

lemma interrupter_unbindPort (port : ℕ) : (c.unbindPort port).interrupter = c.interrupter := by
  rw [unbindPort]
  split <;> rfl

lemma raises_disconnectDevice (port : ℕ) :
    Raises c.interrupter.iman (c.disconnectDevice port).2.interrupter.iman := by
  rw [disconnectDevice]
  split
  · have hsignal := raises_signalPortChange
      (VirtualXhciController.unbindPort { c with
        op := { c.op with ports := c.op.ports.set port .disconnected }
        portModels := c.portModels.set port none } port) port
    rwa [interrupter_unbindPort] at hsignal
  · exact .refl _

lemma raises_attachDevice (speed : DeviceSpeed) :
    Raises c.interrupter.iman (c.attachDevice speed).2.interrupter.iman := by
  rw [attachDevice]
  split
  · exact .refl _
  · exact raises_connectDevice _ _ _

end VirtualXhciController
namespace Service
variable {M : Type} [UsbDeviceModel M] {s s' : Service M} {fuel : ℕ}
omit [UsbDeviceModel M] in
lemma iman_flushEvents (s : Service M) :
    s.flushEvents.ctrl.interrupter.iman = s.ctrl.interrupter.iman :=
  InterrupterRegisterSet.iman_flushToGuest _ _

lemma raises_serviceDoorbells (h : s.serviceDoorbells fuel = some s') :
    Raises s.ctrl.interrupter.iman s'.ctrl.interrupter.iman := by
  rw [serviceDoorbells] at h
  split at h
  · obtain ⟨r,hr,rfl⟩ := Option.map_eq_some_iff.mp h
    obtain ⟨evs,hposts⟩ := (serves_serviceTargets hr).events
    rw [iman_flushEvents,hposts]
    exact raises_posts _ evs
  · cases h
    exact .refl _

lemma iman_serviceDoorbells (hidle : s.ctrl.op.isRunning = false ∨ s.targets = [])
    (h : s.serviceDoorbells fuel = some s') :
    s'.ctrl.interrupter.iman = s.ctrl.interrupter.iman := by
  rw [serviceDoorbells] at h
  split at h
  next hrunning =>
    rw [hidle.resolve_left (by rw [hrunning]; exact Bool.noConfusion)] at h
    cases h
    exact iman_flushEvents _
  next =>
    cases h
    rfl

end Service

/-! ### One call -/

namespace XhciFunction
variable {M : Type} {f : XhciFunction M} {entry : MsixEntry} {p : Bool}

lemma msix_withOp (op : OperationalRegisters) : (f.withOp op).msix = f.msix := rfl

lemma msix_withInterrupter (i : InterrupterRegisterSet) : (f.withInterrupter i).msix = f.msix := rfl

section
variable (offset : ℕ) (value : BitVec 32)
include offset value

lemma msix_writeOperational :
    (f.writeOperational offset value).msix = f.msix := by
  simp only [writeOperational]
  split
  case h_1 => exact msix_withOp (f.ctrl.op.writeUsbcmd value)
  case h_8 => split <;> [exact msix_withOp _; rfl]
  all_goals first | exact msix_withOp _ | rfl

lemma msix_writeRuntime :
    (f.writeRuntime offset value).msix = f.msix := by
  simp only [writeRuntime]
  split
  case h_8 => rfl
  all_goals exact msix_withInterrupter _

lemma msix_writeRegister (h : f.msix = ⟨[entry],[p]⟩) :
    ∃ entry', (f.writeRegister offset value).msix = ⟨[entry'],[p]⟩ := by
  rw [writeRegister]
  split
  · exact ⟨entry,h⟩
  split
  · exact ⟨entry,(msix_writeOperational _ _).trans h⟩
  split
  · exact ⟨entry,(msix_writeRuntime _ _).trans h⟩
  split
  · simp only [h]
    exact MsixTable.writeTableU32_single _ _
  split
  · exact ⟨entry,h⟩
  · dsimp only
    exact ⟨entry,h⟩

end
end XhciFunction
namespace XhciMmio
variable {M : Type} {s s' : XhciMmio M} {e : Event} {functionMasked : Bool} {entry : MsixEntry}
  {p : Bool}

/-- The level seen last is not above the present one, and there is one vector. -/
structure Sampled (s : XhciMmio M) : Prop where
  level : s.lastIntLevel = true → s.function.intxLevel = true
  table : ∃ entry p, s.function.msix = ⟨[entry],[p]⟩

lemma vectorMessages_single (h : s.function.msix = ⟨[entry],[p]⟩) :
    s.vectorMessages = [entry.message] := by
  rw [vectorMessages,h]
  rfl

lemma intxLevel_of_raises (h : Raises s.function.ctrl.interrupter.iman
    s'.function.ctrl.interrupter.iman) (hlevel : s.function.intxLevel = true) :
    s'.function.intxLevel = true := by
  simp only [XhciFunction.intxLevel,interruptPending,interruptEnabled,Bool.and_eq_true] at hlevel ⊢
  exact ⟨h.pending hlevel.1,h.enabled.trans hlevel.2⟩

lemma msix_writeRegisters (offset size : ℕ) (data : BitVec 64)
    (h : s.function.msix = ⟨[entry],[p]⟩) :
    ∃ entry', (s.writeRegisters offset size data).msix = ⟨[entry'],[p]⟩ := by
  obtain ⟨first,hfirst⟩ :=
    XhciFunction.msix_writeRegister (offset/4*4) (data.setWidth 32) h
  rw [writeRegisters]
  split
  · exact XhciFunction.msix_writeRegister _ _ hfirst
  · exact ⟨first,hfirst⟩

lemma dispatchMsix_single (functionMasked : Bool) (h : s.function.msix = ⟨[entry],[p]⟩) :
    s.dispatchMsix functionMasked =
      let raised := (s.function.intxLevel && !s.lastIntLevel) || p
      let deliver := !functionMasked && !entry.masked
      { s with
        function := { s.function with msix := ⟨[entry],[raised && !deliver]⟩ }
        inta := s.inta ++ [false]
        messages := s.messages ++ if raised && deliver then [entry.message] else []
        lastIntLevel := s.function.intxLevel } := by
  have hraise := Prod.ext_iff.mp (MsixTable.raise_single (e := entry) (p := p) functionMasked
    (s.function.intxLevel && !s.lastIntLevel))
  simp only at hraise
  simp only [dispatchMsix,h,drive,send,hraise.1,hraise.2]
  cases functionMasked <;> cases entry.masked <;> cases s.function.intxLevel && !s.lastIntLevel <;>
    cases p <;> rfl

lemma exclusive_mmioWrite (hs : Sampled s) (hmode : s.mode = .msix functionMasked)
    {offset : ℕ} (size : ℕ) (data : BitVec 64) (hoffset : offset < 0x10000) :
    Exclusive functionMasked s (.mmioWrite offset size data) (s.mmioWrite offset size data) := by
  obtain ⟨entry,p,hmsix⟩ := hs.table
  obtain ⟨entry',hmsix'⟩ := msix_writeRegisters offset size data hmsix
  have hpending : s.pending = p := by rw [pending,hmsix]; rfl
  have hdispatch := dispatchMsix_single
    (s := { s with function := s.writeRegisters offset size data }) functionMasked hmsix'
  have hwrite : s.mmioWrite offset size data = _ :=
    (by rw [mmioWrite,dispatchInterrupt,hmode] : _ = _).trans hdispatch
  rw [hwrite]
  refine ⟨⟨1,rfl⟩,fun hlow hhigh => ?_,rfl,fun hp _ hdeliver => ?_,fun hp hheld => ?_⟩
  · -- The level seen last was low too, so that the condition is seen to rise.
    have hlast : s.lastIntLevel = false := by
      cases h : s.lastIntLevel with
      | false => rfl
      | true => exact absurd (hs.level h) (by rw [hlow]; exact Bool.noConfusion)
    have hhigh' : (s.writeRegisters offset size data).intxLevel = true := hhigh
    cases functionMasked <;> cases hmasked : entry'.masked <;>
      simp [deliverable,vectorMessages,pending,hlast,hhigh',hmasked]
  · rw [hpending] at hp
    have hdeliver' : (!functionMasked && !entry'.masked) = true := hdeliver
    simp [hp,hdeliver',pending,vectorMessages]
  · rw [hpending] at hp
    have hheld' : (decide (offset < 0x10000) && (!functionMasked && !entry'.masked)) = false :=
      hheld
    rw [decide_eq_true hoffset,Bool.true_and] at hheld'
    simp [hp,hheld',pending]

lemma sampled_dispatchInterrupt (h : ∃ entry p, s.function.msix = ⟨[entry],[p]⟩) :
    Sampled s.dispatchInterrupt := by
  obtain ⟨entry,p,hmsix⟩ := h
  rw [dispatchInterrupt]
  split
  · rw [dispatchMsix_single _ hmsix]
    exact ⟨id,_,_,rfl⟩
  · exact ⟨id,_,_,hmsix⟩
  · exact ⟨id,_,_,hmsix⟩

/-- A call that drives the pin itself: the controller has changed, perhaps with new events posted. -/
structure Drives (s s' : XhciMmio M) : Prop where
  raises : Raises s.function.ctrl.interrupter.iman s'.function.ctrl.interrupter.iman
  msix : s'.function.msix = s.function.msix
  last : s'.lastIntLevel = s.lastIntLevel
  messages : s'.messages = s.messages
  inta : s'.inta = s.inta ∨ s'.inta = s.inta ++ [s'.function.intxLevel]

section
variable (h : Drives s s') (hs : Sampled s)
include h hs

lemma Drives.sampled : Sampled s' where
  level hlast := intxLevel_of_raises h.raises (hs.level (h.last ▸ hlast))
  table := h.msix ▸ hs.table

lemma Drives.exclusive (hwrite : e.isRegisterWrite = false)
    (hrise : s.function.intxLevel = false → s'.function.intxLevel = false)
    (hinta : s'.inta = s.inta ∨ s'.function.intxLevel = false) :
    Exclusive functionMasked s e s' := by
  obtain ⟨entry,p,hmsix⟩ := hs.table
  have hkept : s'.inta = s.inta → ∃ n, s'.inta = s.inta ++ replicate n false :=
    fun hinta => ⟨0,by rw [hinta,List.replicate_zero,List.append_nil]⟩
  refine ⟨?_,fun hlow hhigh => ?_,?_,fun _ hw => ?_,fun hp _ => ⟨?_,h.messages⟩⟩
  · obtain hinta | hlow := hinta
    · exact hkept hinta
    · obtain hinta | hdriven := h.inta
      · exact hkept hinta
      · exact ⟨1,by rw [hdriven,hlow,List.replicate_one]⟩
  · rw [hrise hlow] at hhigh
    exact Bool.noConfusion hhigh
  · rw [vectorMessages_single (h.msix.trans hmsix)]
    rfl
  · rw [hwrite] at hw
    exact Bool.noConfusion hw
  · rw [pending,h.msix]
    exact hp

lemma Drives.exclusive_of_low
    (hwrite : e.isRegisterWrite = false) (hlow : s'.function.intxLevel = false) :
    Exclusive functionMasked s e s' :=
  h.exclusive hs hwrite (fun _ => hlow) (.inr hlow)

lemma Drives.exclusive_of_same (hwrite : e.isRegisterWrite = false)
    (hsame : s'.function.ctrl = s.function.ctrl ∧ s'.inta = s.inta) :
    Exclusive functionMasked s e s' := by
  refine h.exclusive hs hwrite (fun hlow => ?_) (.inl hsame.2)
  rw [XhciFunction.intxLevel,hsame.1]
  exact hlow

end

lemma intxLevel_of_disabled (h : Raises s.function.ctrl.interrupter.iman
    s'.function.ctrl.interrupter.iman)
    (hdisabled : s.function.ctrl.interrupter.interruptEnabled = false) :
    s'.function.intxLevel = false := by
  have hdisabled' : s'.function.ctrl.interrupter.interruptEnabled = false :=
    h.enabled.trans hdisabled
  rw [XhciFunction.intxLevel,hdisabled',Bool.and_false]

variable (s) in
lemma drives_connectUsbDevice (port speed : ℕ) (connected : Bool) :
    Drives s (s.connectUsbDevice port speed connected) := by
  cases connected with
  | true =>
    have hraises := VirtualXhciController.raises_connectDevice s.function.ctrl port speed
    simp only [connectUsbDevice,↓reduceIte]
    split
    · exact ⟨hraises,rfl,rfl,rfl,.inr rfl⟩
    · exact ⟨hraises,rfl,rfl,rfl,.inl rfl⟩
  | false =>
    have hraises := VirtualXhciController.raises_disconnectDevice s.function.ctrl port
    simp only [connectUsbDevice,Bool.false_eq_true,↓reduceIte]
    split
    · exact ⟨hraises,rfl,rfl,rfl,.inr rfl⟩
    · exact ⟨hraises,rfl,rfl,rfl,.inl rfl⟩

variable (s) in
lemma drives_attachUsbDevice (speed : DeviceSpeed) : Drives s (s.attachUsbDevice speed) := by
  have hraises := VirtualXhciController.raises_attachDevice s.function.ctrl speed
  simp only [attachUsbDevice]
  split
  · exact ⟨hraises,rfl,rfl,rfl,.inr rfl⟩
  · exact ⟨hraises,rfl,rfl,rfl,.inl rfl⟩

section
variable [UsbDeviceModel M]

lemma drives_serviceUsbDma (s : XhciMmio M) (mem : DmaMemory) (fuel : ℕ) :
    Drives s (s.serviceUsbDma mem fuel) := by
  rw [serviceUsbDma]
  split
  next => exact ⟨.refl _,rfl,rfl,rfl,.inl rfl⟩
  next r hr => exact ⟨Service.raises_serviceDoorbells hr,rfl,rfl,rfl,.inr rfl⟩

lemma intxLevel_serviceUsbDma {mem : DmaMemory} {fuel : ℕ}
    (hquiet : Quiet s (.serviceUsbDma mem fuel)) :
    (s.serviceUsbDma mem fuel).function.intxLevel = false := by
  obtain hdisabled | ⟨hpending,hidle⟩ := hquiet
  · exact intxLevel_of_disabled (drives_serviceUsbDma s mem fuel).raises hdisabled
  · have hkept : (s.serviceUsbDma mem fuel).function.ctrl.interrupter.iman =
        s.function.ctrl.interrupter.iman := by
      rw [serviceUsbDma]
      split
      next => rfl
      next r hr => exact Service.iman_serviceDoorbells hidle hr
    rw [XhciFunction.intxLevel,interruptPending,hkept]
    rw [interruptPending] at hpending
    rw [hpending,Bool.false_and]

/-! ### Runs
-/

lemma sampled_step (hs : Sampled s) (e : Event) : Sampled (step s e) := by
  cases e with
  | mmioWrite offset size data =>
    obtain ⟨entry,p,hmsix⟩ := hs.table
    obtain ⟨entry',hmsix'⟩ := msix_writeRegisters offset size data hmsix
    rw [step]
    split
    · exact sampled_dispatchInterrupt ⟨entry',p,hmsix'⟩
    · exact hs
  | serviceUsbDma mem fuel => exact (drives_serviceUsbDma s mem fuel).sampled hs
  | connectUsbDevice port speed connected =>
    exact (drives_connectUsbDevice s port speed connected).sampled hs
  | attachUsbDevice speed => exact (drives_attachUsbDevice s speed).sampled hs
  | configure mode => exact ⟨hs.level,hs.table⟩

lemma exclusive_step (hs : Sampled s) (hmode : s.mode = .msix functionMasked)
    (hquiet : Quiet s e) : Exclusive functionMasked s e (step s e) := by
  cases e with
  | mmioWrite offset size data =>
    rw [step]
    split
    next hoffset => exact exclusive_mmioWrite hs hmode size data hoffset
    next hoffset =>
      have hdrives : Drives s s := ⟨.refl _,rfl,rfl,rfl,.inl rfl⟩
      exact hdrives.exclusive hs (decide_eq_false hoffset) id (.inl rfl)
  | serviceUsbDma mem fuel =>
    exact (drives_serviceUsbDma s mem fuel).exclusive_of_low hs rfl (intxLevel_serviceUsbDma hquiet)
  | connectUsbDevice port speed connected =>
    have hdrives := drives_connectUsbDevice s port speed connected
    obtain hdisabled | hport := hquiet
    · exact hdrives.exclusive_of_low hs rfl (intxLevel_of_disabled hdrives.raises hdisabled)
    · refine hdrives.exclusive_of_same hs rfl ?_
      have hnone := Nat.not_lt.mpr hport
      cases connected <;>
        simp [connectUsbDevice,VirtualXhciController.connectDevice,
          VirtualXhciController.disconnectDevice,hnone]
  | attachUsbDevice speed =>
    have hdrives := drives_attachUsbDevice s speed
    obtain hdisabled | htaken := hquiet
    · exact hdrives.exclusive_of_low hs rfl (intxLevel_of_disabled hdrives.raises hdisabled)
    · have hnone : (s.function.ctrl.portRange speed).find?
          (fun i => !(s.function.ctrl.op.ports.getD i ⟨0⟩).isConnected) = none :=
        List.find?_eq_none.mpr fun i hi => by rw [htaken i hi]; decide
      refine hdrives.exclusive_of_same hs rfl ?_
      simp only [attachUsbDevice,VirtualXhciController.attachDevice,hnone]
      exact ⟨rfl,rfl⟩
  | configure mode =>
    have hdrives : Drives s { s with mode } := ⟨.refl _,rfl,rfl,rfl,.inl rfl⟩
    exact hdrives.exclusive hs rfl id (.inl rfl)

/-- In every run whose calls are quiet, the calls made with MSI-X enabled do what they should. -/
theorem exclusive_of_quiet (numPorts : ℕ) (events : List Event)
    (hquiet : ∀ k e functionMasked, events[k]? = some e →
      (runAt (M := M) numPorts events k).mode = .msix functionMasked →
      Quiet (runAt (M := M) numPorts events k) e) :
    ∀ k e functionMasked, events[k]? = some e →
      (runAt (M := M) numPorts events k).mode = .msix functionMasked →
      Exclusive functionMasked (runAt (M := M) numPorts events k) e
        (runAt numPorts events (k+1)) := by
  have hsampled : ∀ k, Sampled (runAt (M := M) numPorts events k) :=
    Runs.forall_take (I := Sampled) (K := fun _ _ => True) (fun s e hs _ => sampled_step hs e)
      ⟨Bool.noConfusion,_,_,rfl⟩ (fun _ _ _ => trivial)
  intro k e functionMasked he hmode
  have hnext : runAt (M := M) numPorts events (k+1) = step (runAt numPorts events k) e :=
    Runs.foldl_take_succ he
  rw [hnext]
  exact exclusive_step (hsampled k) hmode (hquiet k e functionMasked he hmode)

/-- A guest that enables MSI-X, unmasks the vector and enables the interrupter after a device was
connected: the message is sent by the write that enables it. -/
theorem exclusive_after_enable : Exclusive false
      (runAt (M := Empty) 4 [.configure (.msix false),.connectUsbDevice 0 3 true,
        .mmioWrite 0x800C 4 0,.mmioWrite 0x1020 4 2] 3)
      (.mmioWrite 0x1020 4 2)
      (runAt (M := Empty) 4 [.configure (.msix false),.connectUsbDevice 0 3 true,
        .mmioWrite 0x800C 4 0,.mmioWrite 0x1020 4 2] 4) := by
  refine exclusive_of_quiet 4 _ (fun k e functionMasked he _ => ?_) 3 _ false rfl rfl
  match k with
  | 0 => cases he; trivial
  | 1 => cases he; exact .inl rfl
  | 2 => cases he; trivial
  | 3 => cases he; trivial
  | k+4 => cases he

/-- A device is connected while the interrupter is enabled in MSI-X mode: the pin is asserted, and
no message is sent although the vector is unmasked. -/
theorem not_exclusive_after_connect :
    (runAt (M := Empty) 4 [.configure (.msix false),.mmioWrite 0x800C 4 0,.mmioWrite 0x1020 4 2,
      .connectUsbDevice 0 3 true] 3).function.intxLevel = false ∧
    (runAt (M := Empty) 4 [.configure (.msix false),.mmioWrite 0x800C 4 0,.mmioWrite 0x1020 4 2,
      .connectUsbDevice 0 3 true] 4).function.intxLevel = true ∧
    (runAt (M := Empty) 4 [.configure (.msix false),.mmioWrite 0x800C 4 0,.mmioWrite 0x1020 4 2,
      .connectUsbDevice 0 3 true] 4).inta = [false,false,true] ∧
    (runAt (M := Empty) 4 [.configure (.msix false),.mmioWrite 0x800C 4 0,.mmioWrite 0x1020 4 2,
      .connectUsbDevice 0 3 true] 4).messages = [] ∧
    (runAt (M := Empty) 4 [.configure (.msix false),.mmioWrite 0x800C 4 0,.mmioWrite 0x1020 4 2,
      .connectUsbDevice 0 3 true] 4).pending = false ∧
    ¬ Exclusive false (runAt (M := Empty) 4 [.configure (.msix false),.mmioWrite 0x800C 4 0,
        .mmioWrite 0x1020 4 2,.connectUsbDevice 0 3 true] 3)
      (.connectUsbDevice 0 3 true)
      (runAt (M := Empty) 4 [.configure (.msix false),.mmioWrite 0x800C 4 0,
        .mmioWrite 0x1020 4 2,.connectUsbDevice 0 3 true] 4) := by
  refine ⟨by decide +kernel,by decide +kernel,by decide +kernel,by decide +kernel,
    by decide +kernel,fun h => ?_⟩
  have hrise := h.rise (by decide +kernel) (by decide +kernel)
  exact absurd hrise (by decide +kernel)

end
end XhciMmio
end Enlil.Devices.Xhci
