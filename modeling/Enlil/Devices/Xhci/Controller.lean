import Enlil.Devices.Xhci.Context
import Enlil.Devices.Xhci.Event
import Enlil.Devices.Xhci.Ring

/-! # The virtual xHCI controller: model of `usb/controller.rs`, registers and commands -/

namespace Enlil.Devices.Xhci
open List Word SlotState Function EndpointContext

inductive DeviceSpeed where
  | low | full | high | super | superPlus
deriving DecidableEq

namespace DeviceSpeed

def xhciSpeedId : DeviceSpeed → ℕ
  | .full => 1
  | .low => 2
  | .high => 3
  | .super => 4
  | .superPlus => 5

def isSuperspeed : DeviceSpeed → Bool
  | .super | .superPlus => true
  | _ => false

end DeviceSpeed

structure PortRegisterSet where
  portsc : BitVec 32
deriving DecidableEq

namespace PortRegisterSet

def isConnected (p : PortRegisterSet) : Bool := p.portsc.getLsbD 0

def connected (speed : ℕ) : PortRegisterSet :=
  ⟨0x20201 ||| BitVec.ofNat 32 speed <<< 10⟩

def disconnected : PortRegisterSet := ⟨0x20200⟩

end PortRegisterSet

structure OperationalRegisters where
  usbcmd : BitVec 32
  usbsts : BitVec 32
  crcr : BitVec 64
  dcbaap : ℕ
  config : BitVec 32
  ports : List PortRegisterSet

namespace OperationalRegisters

def new (numPorts : ℕ) : OperationalRegisters where
  usbcmd := 0
  usbsts := 1
  crcr := 0
  dcbaap := 0
  config := 0
  ports := replicate numPorts ⟨0⟩

def isRunning (op : OperationalRegisters) : Bool := op.usbcmd.getLsbD 0

def maxSlotsEnabled (op : OperationalRegisters) : ℕ := (op.config &&& 0xFF).toNat

end OperationalRegisters

inductive DoorbellTarget where
  | hostCommand
  | controlEndpoint (slotId : BitVec 8)
  | endpoint (slotId endpointId : BitVec 8)
  | stream (slotId endpointId : BitVec 8) (streamId : BitVec 16)
deriving DecidableEq

def DoorbellTarget.decode (doorbellIndex : BitVec 8) (value : BitVec 32) : DoorbellTarget :=
  let target := value.extractLsb' 0 8
  let streamId := value.extractLsb' 16 16
  if doorbellIndex = 0 then .hostCommand
  else if target = 0 then .controlEndpoint doorbellIndex
  else if streamId ≠ 0 then .stream doorbellIndex target streamId
  else .endpoint doorbellIndex target

structure DoorbellArray where
  bells : List (BitVec 32 × Bool)

namespace DoorbellArray

def new (maxSlots : ℕ) : DoorbellArray := ⟨replicate (maxSlots+1) (0,false)⟩

def write (d : DoorbellArray) (index : BitVec 8) (value : BitVec 32) : DoorbellArray :=
  ⟨d.bells.set index.toNat (value,true)⟩

def drainPending (d : DoorbellArray) : List DoorbellTarget × DoorbellArray :=
  (d.bells.zipIdx.filterMap fun bell =>
      if bell.1.2 then some (.decode (.ofNat 8 bell.2) bell.1.1) else none,
    ⟨d.bells.map fun bell => (bell.1,false)⟩)

end DoorbellArray

/-- How far the control endpoint of a slot is in Setup, Data, Status. -/
inductive ControlStage where
  | setupDone (setup : SetupPacket)
  | dataDone (setup : SetupPacket) (outData : List UInt8) (responded : Bool)

abbrev EndpointKey := BitVec 8 × BitVec 8

structure VirtualXhciController (M : Type) where
  op : OperationalRegisters
  interrupter : InterrupterRegisterSet
  doorbells : DoorbellArray
  commandRing : TrbRing
  guestCommandRing : Option GuestRingCursor
  slots : List Bool
  transferRings : EndpointKey → Option TransferRing
  endpointConfigs : EndpointKey → Option EndpointContext
  deviceModels : BitVec 8 → Option M
  controlState : BitVec 8 → Option ControlStage
  portModels : List (Option M)
  slotPorts : BitVec 8 → Option ℕ
  guestResidentTransfers : Bool
  guestTransferRings : EndpointKey → Option GuestRingCursor

namespace VirtualXhciController
variable {M : Type}

def maxSlots : ℕ := 32

def new (numPorts : ℕ) : VirtualXhciController M where
  op := .new numPorts
  interrupter := .new
  doorbells := .new maxSlots
  commandRing := .new
  guestCommandRing := none
  slots := replicate maxSlots false
  transferRings := fun _ => none
  endpointConfigs := fun _ => none
  deviceModels := fun _ => none
  controlState := fun _ => none
  portModels := replicate numPorts none
  slotPorts := fun _ => none
  guestResidentTransfers := false
  guestTransferRings := fun _ => none

variable (c : VirtualXhciController M)

/-- Post an event and raise `EINT` and the pending bit, if there was room for it. -/
def postEventTrb (trb : Trb) : Bool × VirtualXhciController M :=
  let posted := c.interrupter.eventRing.postEvent trb
  if posted.1 then
    (true,{ c with
      op := { c.op with usbsts := c.op.usbsts ||| 0x8 }
      interrupter := { c.interrupter with eventRing := posted.2 }.setPending })
  else (false,c)

section
variable (slotId : BitVec 8)

def slotEnabled : Bool := c.slots.getD (slotId-1).toNat false

def allIds : List (BitVec 8) := (range 256).map (BitVec.ofNat 8)

def slotEndpointDcis : List (BitVec 8) :=
  allIds.filter fun dci => (c.endpointConfigs (slotId,dci)).isSome && controlDci < dci

def highestConfiguredDci : BitVec 8 :=
  ((allIds.filter fun dci => (c.endpointConfigs (slotId,dci)).isSome).getLast?).getD 0

def enableSlot : (TrbCompletionCode × BitVec 8) × VirtualXhciController M :=
  let limit := min c.op.maxSlotsEnabled maxSlots
  match (c.slots.take limit).findIdx? (· == false) with
  | some i => ((.success,.ofNat 8 (i+1)),{ c with slots := c.slots.set i true })
  | none => ((.noSlotsAvailableError,0),c)

/-- Run `f` on the output context of a slot, if the driver has given one. -/
def withOutputContext (f : ℕ → DmaMemory → DmaMemory) (mem : DmaMemory) :
    DmaMemory :=
  if c.op.dcbaap = 0 then mem
  else
    match deviceContextPointer mem c.op.dcbaap slotId with
    | none => mem
    | some outCtx => f outCtx mem

def patchSlotContext (f : SlotContext → SlotContext) (outCtx : ℕ) (mem : DmaMemory) : DmaMemory :=
  match readContextEntry mem (add64 outCtx (deviceContextEntryOffset 0)) with
  | none => mem
  | some bytes =>
    mem.tryWrite (add64 outCtx (deviceContextEntryOffset 0)) (f (.parse bytes)).toBytes

def zeroEndpoints (dcis : List (BitVec 8)) (outCtx : ℕ) (mem : DmaMemory) : DmaMemory :=
  dcis.foldl
    (fun mem dci => mem.tryWrite (add64 outCtx (deviceContextEntryOffset dci)) zeroEntry) mem

def writeEndpoints (dcis : List (BitVec 8)) (outCtx : ℕ) (mem : DmaMemory) :
    DmaMemory :=
  dcis.foldl (fun mem dci =>
      match c.endpointConfigs (slotId,dci) with
      | none => mem
      | some ctx =>
        mem.tryWrite (add64 outCtx (deviceContextEntryOffset dci))
          (withEpState ctx.toBytes EpState.running.raw))
    mem

def publishDisabledContext (dcis : List (BitVec 8)) : DmaMemory → DmaMemory :=
  c.withOutputContext slotId fun outCtx mem =>
    zeroEndpoints dcis outCtx
      (patchSlotContext (fun slot => { slot with
        slotState := disabledEnabled.raw, contextEntries := 0, usbDeviceAddress := 0 })
        outCtx mem)

def publishDeconfiguredContext (dropped : List (BitVec 8)) : DmaMemory → DmaMemory :=
  c.withOutputContext slotId fun outCtx mem =>
    zeroEndpoints dropped outCtx
      (patchSlotContext (fun slot => { slot with
        slotState := addressed.raw, contextEntries := 1 }) outCtx mem)

def publishResetContext (dropped : List (BitVec 8)) : DmaMemory → DmaMemory :=
  c.withOutputContext slotId fun outCtx mem =>
    zeroEndpoints dropped outCtx
      (patchSlotContext (fun slot => { slot with
        slotState := default.raw, usbDeviceAddress := 0, contextEntries := 1 })
        outCtx mem)

def publishAddressedContext (inputContextPtr : ℕ) (bsr : Bool) : DmaMemory → DmaMemory :=
  c.withOutputContext slotId fun outCtx mem =>
    match readContextEntry mem (add64 inputContextPtr (inputContextEntryOffset 0)) with
    | none => mem
    | some bytes =>
      let slot := SlotContext.parse bytes
      let slot := { slot with
        slotState := if bsr then default.raw else addressed.raw
        usbDeviceAddress := if bsr then 0 else slotId
        contextEntries := if slot.contextEntries = 0 then 1 else slot.contextEntries }
      c.writeEndpoints slotId [controlDci] outCtx
        (mem.tryWrite (add64 outCtx (deviceContextEntryOffset 0)) slot.toBytes)

def publishConfiguredContext (inputContextPtr : ℕ)
    (added dropped : List (BitVec 8)) : DmaMemory → DmaMemory :=
  c.withOutputContext slotId fun outCtx mem =>
    let mem :=
      match readContextEntry mem (add64 inputContextPtr (inputContextEntryOffset 0)) with
      | none => mem
      | some bytes =>
        let highest := c.highestConfiguredDci slotId
        let slot := { SlotContext.parse bytes with
          slotState := configured.raw
          contextEntries := if highest = 0 then 1 else highest }
        mem.tryWrite (add64 outCtx (deviceContextEntryOffset 0)) slot.toBytes
    zeroEndpoints dropped outCtx (c.writeEndpoints slotId added outCtx mem)

def publishEpState (slotId dci : BitVec 8) (state : EpState) : DmaMemory → DmaMemory :=
  c.withOutputContext slotId fun outCtx mem =>
    let entry := add64 outCtx (deviceContextEntryOffset dci)
    match readContextEntry mem entry with
    | none => mem
    | some bytes => mem.tryWrite entry (withEpState bytes state.raw)

abbrev Outcome (M : Type) := TrbCompletionCode × VirtualXhciController M × DmaMemory

/-- Drop the entries of a map that belong to the endpoints `p` of a slot. -/
def dropEndpoints {β : Type} (slotId : BitVec 8) (p : BitVec 8 → Bool) (m : EndpointKey → Option β) :
    EndpointKey → Option β :=
  fun key => if key.1 = slotId ∧ p key.2 = true then none else m key

def parkModel : VirtualXhciController M :=
  { c with
    deviceModels := update c.deviceModels slotId none
    slotPorts := update c.slotPorts slotId none
    portModels :=
      match c.slotPorts slotId with
      | none => c.portModels
      | some port => c.portModels.set port (c.deviceModels slotId) }

def disableSlot (mem : DmaMemory) : Outcome M :=
  if c.slotEnabled slotId then
    let dcis := controlDci :: c.slotEndpointDcis slotId
    let c' := { c with
      slots := c.slots.set (slotId-1).toNat false
      transferRings := dropEndpoints slotId (fun _ => true) c.transferRings
      endpointConfigs := dropEndpoints slotId (fun _ => true) c.endpointConfigs
      guestTransferRings := dropEndpoints slotId (fun _ => true) c.guestTransferRings
      controlState := update c.controlState slotId none }
    let c' := c'.parkModel slotId
    (.success,c',c'.publishDisabledContext slotId dcis mem)
  else (.trbError,c,mem)

def addressedPort (inputContextPtr : ℕ) (mem : DmaMemory) : Except TrbCompletionCode ℕ :=
  match mem.read inputContextPtr 8 with
  | none => .error .trbError
  | some control =>
    -- the slot context and the control endpoint must be added
    if dword control 1 &&& 0x3 ≠ 0x3 then .error .parameterError
    else
      match mem.read (add64 inputContextPtr 0x24) 4 with
      | none => .error .trbError
      | some dword1 =>
        match (dword1.getD 2 0).toNat with
        | 0 => .error .parameterError
        | port+1 => if c.portModels.length ≤ port then .error .parameterError else .ok port

def bindModel (port : ℕ) : VirtualXhciController M :=
  match c.portModels.getD port none with
  | none => c
  | some model =>
    { c with
      portModels := c.portModels.set port none
      deviceModels := update c.deviceModels slotId (some model)
      slotPorts := update c.slotPorts slotId (some port) }

def addressDevice (inputContextPtr : ℕ) (bsr : Bool) (mem : DmaMemory) :
    Outcome M :=
  if c.slotEnabled slotId then
    match c.addressedPort inputContextPtr mem with
    | .error code => (code,c,mem)
    | .ok port =>
      let c' := c.bindModel slotId port
      let ep0 := add64 inputContextPtr (inputContextEntryOffset controlDci)
      let c' := match (readContextEntry mem ep0).bind parse with
        | none => c'
        | some ctx => { c' with
            endpointConfigs := update c'.endpointConfigs (slotId,controlDci) (some ctx) }
      (.success,c',c'.publishAddressedContext slotId inputContextPtr bsr mem)
  else (.trbError,c,mem)

def configurableDcis : List (BitVec 8) := (range' 2 30).map (BitVec.ofNat 8)

def parseAdded (mem : DmaMemory) (inputContextPtr : ℕ) (control : InputControlContext) :
    List (BitVec 8) → Except TrbCompletionCode (List (BitVec 8 × EndpointContext))
  | [] => .ok []
  | dci :: rest =>
    if control.adds dci.toNat then
      match readContextEntry mem (add64 inputContextPtr (inputContextEntryOffset dci)) with
      | none => .error .trbError
      | some bytes =>
        match parse bytes with
        | none => .error .parameterError
        | some ctx =>
          if ctx.endpointType.validForDci dci then
            (parseAdded mem inputContextPtr control rest).map ((dci,ctx) :: ·)
          else .error .parameterError
    else parseAdded mem inputContextPtr control rest

def addEndpoint (added : BitVec 8 × EndpointContext) :
    VirtualXhciController M :=
  let ring := { TransferRing.new with
    ring := { TrbRing.new with guestBaseAddr := added.2.trDequeuePointer.toNat } }
  { c with
    transferRings := update c.transferRings (slotId,added.1) (some ring)
    endpointConfigs := update c.endpointConfigs (slotId,added.1) (some added.2)
    guestTransferRings := update c.guestTransferRings (slotId,added.1) none }

def configureEndpoint (inputContextPtr : ℕ) (deconfigure : Bool) (mem : DmaMemory) : Outcome M :=
  if c.slotEnabled slotId then
    if deconfigure then
      let dropped := c.slotEndpointDcis slotId
      let c' := { c with
        transferRings := dropEndpoints slotId (fun dci => controlDci < dci) c.transferRings
        endpointConfigs := dropEndpoints slotId (fun dci => controlDci < dci) c.endpointConfigs }
      (.success,c',c'.publishDeconfiguredContext slotId dropped mem)
    else
      match InputControlContext.read mem inputContextPtr with
      | none => (.trbError,c,mem)
      | some control =>
        if control.drops 0 || control.drops 1 || control.adds 1 then (.parameterError,c,mem)
        else
          match parseAdded mem inputContextPtr control configurableDcis with
          | .error code => (code,c,mem)
          | .ok added =>
            let dropped := configurableDcis.filter fun dci => control.drops dci.toNat
            let isDropped := fun dci => dropped.contains dci
            let c' := { c with
              transferRings := dropEndpoints slotId isDropped c.transferRings
              endpointConfigs := dropEndpoints slotId isDropped c.endpointConfigs
              guestTransferRings := dropEndpoints slotId isDropped c.guestTransferRings }
            let c' := added.foldl (fun c' => c'.addEndpoint slotId) c'
            (.success,c',
              c'.publishConfiguredContext slotId inputContextPtr (added.map (·.1)) dropped mem)
  else (.trbError,c,mem)

def evaluateContext (inputContextPtr : ℕ) (mem : DmaMemory) : Outcome M :=
  if c.slotEnabled slotId then
    match InputControlContext.read mem inputContextPtr with
    | none => (.trbError,c,mem)
    | some control =>
      if control.adds 1 then
        let ep0 := add64 inputContextPtr (inputContextEntryOffset controlDci)
        match readContextEntry mem ep0 with
        | none => (.trbError,c,mem)
        | some bytes =>
          match parse bytes with
          | none => (.parameterError,c,mem)
          | some newEp0 =>
            let key := (slotId,controlDci)
            let c' := { c with
              endpointConfigs := update c.endpointConfigs key
                ((c.endpointConfigs key).map fun ep0 =>
                  { ep0 with maxPacketSize := newEp0.maxPacketSize }) }
            (.success,c', c'.withOutputContext slotId (c'.writeEndpoints slotId [controlDci]) mem)
      else (.success,c,mem)
  else (.trbError,c,mem)

def stopEndpoint (slotId endpointId : BitVec 8) (mem : DmaMemory) : Outcome M :=
  if c.slotEnabled slotId then
    let key := (slotId,endpointId)
    let c' := { c with
      transferRings := update c.transferRings key ((c.transferRings key).map fun ring =>
          { ring with ring := { ring.ring with running := false } }) }
    (.success,c',c'.publishEpState slotId endpointId .stopped mem)
  else (.trbError,c,mem)

def resetEndpoint (slotId endpointId : BitVec 8) (mem : DmaMemory) : Outcome M :=
  if c.slotEnabled slotId then
    match c.transferRings (slotId,endpointId) with
    | none => (.success,c,mem)
    | some ring =>
      let c' := { c with
        transferRings := update c.transferRings (slotId,endpointId) (some ring.clearHalt) }
      (.success,c',c'.publishEpState slotId endpointId .running mem)
  else (.trbError,c,mem)

def setTrDequeuePointer (slotId endpointId : BitVec 8) (dequeuePtr : ℕ) (dcs : Bool)
    (mem : DmaMemory) : Outcome M :=
  if c.slotEnabled slotId then
    let key := (slotId,endpointId)
    if (c.transferRings key).isNone && (c.endpointConfigs key).isNone then
      (.contextStateError,c,mem)
    else
      let c' := { c with
        transferRings := update c.transferRings key ((c.transferRings key).map fun ring =>
            let inner := ring.ring.reset
            { halted := false
              ring := { inner with guestBaseAddr := dequeuePtr, cycleState := dcs, running := true } })
        endpointConfigs := update c.endpointConfigs key ((c.endpointConfigs key).map fun ctx =>
            { ctx with
              trDequeuePointer := BitVec.ofNat 64 dequeuePtr &&& ~~~0xF
              dequeueCycleState := dcs })
        guestTransferRings := update c.guestTransferRings key none }
      (.success,c',mem)
  else (.trbError,c,mem)

def resetDevice (mem : DmaMemory) : Outcome M :=
  if c.slotEnabled slotId then
    let dropped := c.slotEndpointDcis slotId
    let c' := { c with
      transferRings := dropEndpoints slotId (fun dci => controlDci < dci) c.transferRings
      endpointConfigs := dropEndpoints slotId (fun dci => controlDci < dci) c.endpointConfigs
      guestTransferRings := dropEndpoints slotId (fun dci => controlDci < dci) c.guestTransferRings
      controlState := update c.controlState slotId none }
    (.success,c',c'.publishResetContext slotId dropped mem)
  else (.trbError,c,mem)

end

def runCommand (trb : Trb) (mem : DmaMemory) :
    (TrbCompletionCode × BitVec 8) × VirtualXhciController M × DmaMemory :=
  let report := fun (slotId : BitVec 8) (o : Outcome M) => ((o.1,slotId),o.2)
  match CommandTrb.fromTrb trb with
  | some .noOp => ((.success,0),c,mem)
  | some .enableSlot => (c.enableSlot.1,c.enableSlot.2,mem)
  | some (.disableSlot slotId) => report slotId (c.disableSlot slotId mem)
  | some (.addressDevice slotId ptr) =>
    -- bit 9 of an Address Device command is BSR
    report slotId (c.addressDevice slotId ptr (trb.control.getLsbD 9) mem)
  | some (.configureEndpoint slotId ptr deconfigure) =>
    report slotId (c.configureEndpoint slotId ptr deconfigure mem)
  | some (.evaluateContext slotId ptr) => report slotId (c.evaluateContext slotId ptr mem)
  | some (.stopEndpoint slotId endpointId) => report slotId (c.stopEndpoint slotId endpointId mem)
  | some (.resetEndpoint slotId endpointId) => report slotId (c.resetEndpoint slotId endpointId mem)
  | some (.setTrDequeuePointer slotId endpointId ptr dcs) =>
    report slotId (c.setTrDequeuePointer slotId endpointId ptr dcs mem)
  | some (.resetDevice slotId) => report slotId (c.resetDevice slotId mem)
  | none => ((.trbError,0),c,mem)

def executeCommand (trb : Trb) (trbPointer : ℕ) (mem : DmaMemory) :
    VirtualXhciController M × DmaMemory :=
  let r := c.runCommand trb mem
  ((r.2.1.postEventTrb (EventRing.commandCompletion trbPointer r.1.1 r.1.2)).2,r.2.2)

def signalPortChange (port : ℕ) : Bool × VirtualXhciController M :=
  let c' := { c with op := { c.op with usbsts := c.op.usbsts ||| 0x10 } }
  c'.postEventTrb (EventRing.portStatusChange (min (port+1) 255) .success)

def connectDevice (port speed : ℕ) : Bool × VirtualXhciController M :=
  if port < c.op.ports.length then
    let c' := { c with op := { c.op with ports := c.op.ports.set port (.connected speed) } }
    c'.signalPortChange port
  else (false,c)

section
variable (speed : DeviceSpeed)

def portRange : List ℕ :=
  let usb2 := (c.op.ports.length+1)/2
  if speed.isSuperspeed then range' usb2 (c.op.ports.length-usb2) else range usb2

def attachDevice : Option ℕ × VirtualXhciController M :=
  match (c.portRange speed).find? fun i => !(c.op.ports.getD i ⟨0⟩).isConnected with
  | none => (none,c)
  | some port =>
    let r := c.connectDevice port speed.xhciSpeedId
    (if r.1 then some port else none,r.2)

def attachDeviceWithModel (model : M) : Option ℕ × VirtualXhciController M :=
  let r := c.attachDevice speed
  match r.1 with
  | none => r
  | some port => (some port,{ r.2 with portModels := r.2.portModels.set port (some model) })

end

def unbindPort (port : ℕ) : VirtualXhciController M :=
  match allIds.find? fun slotId => c.slotPorts slotId == some port with
  | none => c
  | some slotId => { c with
      slotPorts := update c.slotPorts slotId none
      deviceModels := update c.deviceModels slotId none }

def disconnectDevice (port : ℕ) : Bool × VirtualXhciController M :=
  if port < c.op.ports.length then
    let c' := { c with
      op := { c.op with ports := c.op.ports.set port .disconnected }
      portModels := c.portModels.set port none }
    (c'.unbindPort port).signalPortChange port
  else (false,c)

end VirtualXhciController
end Enlil.Devices.Xhci
