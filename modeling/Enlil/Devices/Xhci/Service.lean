import Enlil.Devices.Xhci.Controller
import Enlil.Lib.Loop

/-!
# Doorbells and transfers: model of `usb/controller.rs`, `service_doorbells`

Next to the controller and guest memory the state keeps what the service has done so far. What a
device model answers is up to the model. Lengths of a TD are added up modulo `2 ^ 32`.
-/

namespace Enlil.Devices.Xhci
open Function

inductive UsbTransferResult where
  | ack (accepted : ℕ)
  | data (bytes : List UInt8)
  | stall
  | error

/-- What a device answers to a transfer, and the device after it. -/
class UsbDeviceModel (M : Type) where
  control : M → SetupPacket → List UInt8 → UsbTransferResult × M
  transferOut : M → ℕ → List UInt8 → UsbTransferResult × M
  transferIn : M → ℕ → ℕ → UsbTransferResult × M

/-- A controller without devices has no model to ask. -/
instance : UsbDeviceModel Empty where
  control := nofun
  transferOut := nofun
  transferIn := nofun

/-- The controller at work on guest memory, with the number of TRBs fetched so far. -/
structure Service (M : Type) where
  ctrl : VirtualXhciController M
  mem : DmaMemory
  fetched : ℕ

def commandBurstLimit : ℕ := 256

def transferBurstLimit : ℕ := 256

def VirtualXhciController.ringLen {M : Type} (c : VirtualXhciController M) (key : EndpointKey) :
    ℕ :=
  ((c.transferRings key).map (·.len)).getD 0

namespace Service
variable {M : Type}
section
variable (s : Service M)

def postEvent (trb : Trb) : Service M :=
  { s with ctrl := (s.ctrl.postEventTrb trb).2 }

def postTransferEvent (trbPointer residual : ℕ) (code : TrbCompletionCode)
    (slotId dci : BitVec 8) : Service M :=
  s.postEvent (EventRing.transferEvent trbPointer residual code slotId dci)

def flushEvents : Service M :=
  let r := s.ctrl.interrupter.flushToGuest s.mem
  { s with
    ctrl := { s.ctrl with interrupter := r.2.1 }
    mem := r.2.2 }

def executeCommand (trb : Trb) (trbPointer : ℕ) : Service M :=
  let r := s.ctrl.runCommand trb s.mem
  { s with ctrl := r.2.1, mem := r.2.2 }.postEvent
    (EventRing.commandCompletion trbPointer r.1.1 r.1.2)

def drainCommand : Bool × Service M :=
  match s.ctrl.commandRing.dequeue with
  | none => (false,s)
  | some (trb,ring') =>
    let s' := { s with ctrl := { s.ctrl with commandRing := ring' }, fetched := s.fetched+1 }
    (true,s'.executeCommand trb trb.parameter.toNat)

def drainCommands : Service M :=
  Loop.rounds drainCommand s.ctrl.commandRing.ring.len s

def guestCommand (r : GuestRingCursor × Service M) : Bool × GuestRingCursor × Service M :=
  let s' := { r.2 with fetched := r.2.fetched+r.1.trbsRead r.2.mem }
  match r.1.fetch r.2.mem with
  | (none,cur') => (false,cur',s')
  | (some (address,trb),cur') => (true,cur',s'.executeCommand trb address)

def commandBurst (r : GuestRingCursor × Service M) : GuestRingCursor × Service M :=
  Loop.rounds guestCommand commandBurstLimit r

def processCommandRing : Service M :=
  if s.ctrl.op.isRunning then
    let pointer := (s.ctrl.op.crcr &&& ~~~0x3F).toNat
    if pointer = 0 then s.drainCommands
    else
      let cursor := s.ctrl.guestCommandRing.getD ⟨pointer,s.ctrl.op.crcr.getLsbD 0⟩
      let r := commandBurst (cursor,{ s with ctrl := { s.ctrl with guestCommandRing := none } })
      { r.2 with ctrl := { r.2.ctrl with guestCommandRing := some r.1 } }
  else s

def lastPointer (td : Td) : ℕ := (td.getLast?.map (·.1)).getD 0

def tdIoc (td : Td) : Bool := td.any fun t => t.2.interruptOnCompletion

/-- Address and length of each buffer; `none` if a TRB carries no data. -/
def tdBuffers (td : Td) : Option (List (ℕ × ℕ)) :=
  td.mapM fun t =>
    match t.2 with
    | .data buffer length _ _ _ => some (buffer,length)
    | .normal buffer length _ _ _ => some (buffer,length)
    | _ => none

def requestedLength (buffers : List (ℕ × ℕ)) : ℕ := (buffers.map (·.2)).sum%2^32

def gatherBuffers (mem : DmaMemory) : List (ℕ × ℕ) → Option (List UInt8)
  | [] => some []
  | (address,length) :: rest =>
    match mem.read address length with
    | none => none
    | some chunk => (gatherBuffers mem rest).map (chunk ++ ·)

def scatterFrom (bytes : List UInt8) : List (ℕ × ℕ) → ℕ → DmaMemory → Option ℕ × DmaMemory
  | [], offset, mem => (some offset,mem)
  | (address,length) :: rest, offset, mem =>
    if bytes.length ≤ offset then (some offset,mem)
    else
      let take := min length (bytes.length-offset)
      match mem.write address ((bytes.drop offset).take take) with
      | none => (none,mem)
      | some mem' => scatterFrom bytes rest (offset+take) mem'

def scatter (mem : DmaMemory) (buffers : List (ℕ × ℕ)) (bytes : List UInt8) :
    Option ℕ × DmaMemory :=
  scatterFrom bytes buffers 0 mem

def setControl (slotId : BitVec 8) (stage : Option ControlStage) : Service M :=
  { s with
    ctrl := { s.ctrl with controlState := update s.ctrl.controlState slotId stage } }

def setModel (slotId : BitVec 8) (model : M) : Service M :=
  { s with
    ctrl := { s.ctrl with
      deviceModels := update s.ctrl.deviceModels slotId (some model) } }

def askModel (slotId : BitVec 8) (ask : M → UsbTransferResult × M) :
    UsbTransferResult × Service M :=
  match s.ctrl.deviceModels slotId with
  | none => (.error,s)
  | some model => ((ask model).1,s.setModel slotId (ask model).2)

def completeTd (trbPointer requested transferred : ℕ) (ioc : Bool)
    (slotId dci : BitVec 8) : Service M :=
  let residual := requested-transferred%2^32
  let code := if 0 < residual then TrbCompletionCode.shortPacket else .success
  if ioc || 0 < residual then s.postTransferEvent trbPointer residual code slotId dci else s

def stallEndpoint (slotId dci : BitVec 8) (trbPointer residual : ℕ) : Service M :=
  let key := (slotId,dci)
  let rings := update s.ctrl.transferRings key ((s.ctrl.transferRings key).map (·.halt))
  let s' := { s with ctrl := { s.ctrl with transferRings := rings } }
  let s' := if dci = controlDci then s'.setControl slotId none else s'
  { s' with mem := s'.ctrl.publishEpState slotId dci .halted s'.mem }.postTransferEvent
    trbPointer residual .stallError slotId dci

end
section Execute
variable [UsbDeviceModel M] (s : Service M) (slotId dci : BitVec 8) (td : Td)
section
variable (setup : SetupPacket) (buffers : List (ℕ × ℕ))

def executeControlIn : Service M :=
  let requested := requestedLength buffers
  match s.askModel slotId fun model => UsbDeviceModel.control model setup [] with
  | (.data bytes,s) =>
    match scatter s.mem buffers bytes with
    | (none,mem') =>
      { s with mem := mem' }.postTransferEvent (lastPointer td) requested .usbTransactionError
        slotId controlDci
    | (some written,mem') =>
      ({ s with mem := mem' }.setControl slotId (some (.dataDone setup [] true))).completeTd
        (lastPointer td) requested written (tdIoc td) slotId controlDci
  | (.stall,s) => s.stallEndpoint slotId controlDci (lastPointer td) requested
  | (_,s) =>
    s.postTransferEvent (lastPointer td) requested .usbTransactionError slotId controlDci

def executeControlOut : Service M :=
  match gatherBuffers s.mem buffers with
  | none =>
    s.postTransferEvent (lastPointer td) (requestedLength buffers) .usbTransactionError slotId
      controlDci
  | some data =>
    let s' := s.setControl slotId (some (.dataDone setup data false))
    if tdIoc td then s'.postTransferEvent (lastPointer td) 0 .success slotId controlDci else s'

end

def executeControlData (dirIn : Bool) : Service M :=
  match tdBuffers td with
  | none => s.postTransferEvent (lastPointer td) 0 .trbError slotId controlDci
  | some buffers =>
    let s' := s.setControl slotId none
    match s.ctrl.controlState slotId with
    | some (.setupDone setup) =>
      if setup.isDeviceToHost = dirIn then
        if dirIn then s'.executeControlIn slotId td setup buffers
        else s'.executeControlOut slotId td setup buffers
      else s'.postTransferEvent (lastPointer td) 0 .trbError slotId controlDci
    | _ => s'.postTransferEvent (lastPointer td) 0 .trbError slotId controlDci

def runControlRequest (setup : SetupPacket) (outData : List UInt8) :
    TrbCompletionCode × Service M :=
  match s.askModel slotId fun model => UsbDeviceModel.control model setup outData with
  | (.ack _,s) => (.success,s)
  | (.data _,s) => (.success,s)
  | (.stall,s) => (.stallError,s)
  | (.error,s) => (.usbTransactionError,s)

/-- The request that a status stage completes, if it did not run yet. -/
def finishControl : TrbCompletionCode × Service M :=
  let s' := s.setControl slotId none
  match s.ctrl.controlState slotId with
  | some (.dataDone _ _ true) => (.success,s')
  | some (.dataDone setup outData false) => s'.runControlRequest slotId setup outData
  | some (.setupDone setup) => s'.runControlRequest slotId setup []
  | none => (.trbError,s')

def executeControlStatus (trbPointer : ℕ) (ioc : Bool) : Service M :=
  let r := s.finishControl slotId
  if r.1 = .stallError then r.2.stallEndpoint slotId controlDci trbPointer 0
  else if ioc || r.1 ≠ .success then r.2.postTransferEvent trbPointer 0 r.1 slotId controlDci
  else r.2

def executeControlTd : Service M :=
  match td with
  | [] => s
  | (pointer,.setup packet _ ioc) :: _ =>
    let s' := s.setControl slotId (some (.setupDone packet))
    if ioc then s'.postTransferEvent pointer 0 .success slotId controlDci else s'
  | (_,.data _ _ dirIn _ _) :: _ => s.executeControlData slotId td dirIn
  | (_,.status _ ioc) :: _ => s.executeControlStatus slotId (lastPointer td) ioc
  | (_,.noOp ioc) :: _ =>
    if ioc then s.postTransferEvent (lastPointer td) 0 .success slotId controlDci else s
  | (_,.normal ..) :: _ => s.postTransferEvent (lastPointer td) 0 .trbError slotId controlDci

def transferNormal (buffers : List (ℕ × ℕ)) : UsbTransferResult × Service M :=
  let endpoint := dciEndpointNumber dci
  if dciIsIn dci then
    s.askModel slotId fun model =>
      UsbDeviceModel.transferIn model endpoint (requestedLength buffers)
  else
    match gatherBuffers s.mem buffers with
    | none => (.error,s)
    | some data => s.askModel slotId fun model => UsbDeviceModel.transferOut model endpoint data

def executeNormalData (buffers : List (ℕ × ℕ)) : Service M :=
  let requested := requestedLength buffers
  match s.transferNormal slotId dci buffers with
  | (.data bytes,s) =>
    match scatter s.mem buffers bytes with
    | (none,mem') =>
      { s with mem := mem' }.postTransferEvent (lastPointer td) requested .usbTransactionError
        slotId dci
    | (some written,mem') =>
      { s with mem := mem' }.completeTd (lastPointer td) requested written (tdIoc td) slotId dci
  | (.ack accepted,s) => s.completeTd (lastPointer td) requested accepted (tdIoc td) slotId dci
  | (.stall,s) => s.stallEndpoint slotId dci (lastPointer td) requested
  | (.error,s) => s.postTransferEvent (lastPointer td) requested .usbTransactionError slotId dci

def executeNormalTd : Service M :=
  match td with
  | [] => s
  | (_,.noOp ioc) :: _ =>
    if ioc then s.postTransferEvent (lastPointer td) 0 .success slotId dci else s
  | _ =>
    match tdBuffers td with
    | none => s.postTransferEvent (lastPointer td) 0 .trbError slotId dci
    | some buffers => s.executeNormalData slotId dci td buffers

def executeTd : Service M :=
  if dci = controlDci then s.executeControlTd slotId td else s.executeNormalTd slotId dci td

end Execute
variable [UsbDeviceModel M]

def isHalted (s : Service M) (slotId dci : BitVec 8) : Bool :=
  ((s.ctrl.transferRings (slotId,dci)).map (·.halted)).getD false

def setRing (s : Service M) (key : EndpointKey) (ring : TransferRing) : Service M :=
  { s with
    ctrl := { s.ctrl with transferRings := update s.ctrl.transferRings key (some ring) } }

def drainTransfer (slotId dci : BitVec 8) (s : Service M) : Bool × Service M :=
  match s.ctrl.transferRings (slotId,dci) with
  | none => (false,s)
  | some ring =>
    if ring.halted || ring.ring.ring.isEmpty then (false,s)
    else
      let ring' := ring.gatherTd.2
      let s' := { s with fetched := s.fetched+(ring.len-ring'.len) }.setRing (slotId,dci) ring'
      match ring.gatherTd.1 with
      | .error trbPointer => (true,s'.postTransferEvent trbPointer 0 .trbError slotId dci)
      | .ok [] => (false,s')
      | .ok td => (true,s'.executeTd slotId dci td)

/-- Execute the TDs of the controller's own ring of an endpoint. Each takes a TRB off the ring,
and none is added. -/
def drainInternalTransferRing (s : Service M) (slotId dci : BitVec 8) : Service M :=
  Loop.rounds (drainTransfer slotId dci) (s.ctrl.ringLen (slotId,dci)) s

/-- One round of the loop over the TDs of a guest ring; the first part of the result says whether
the loop goes on. -/
def transferRound (slotId dci : BitVec 8) (cur : GuestRingCursor) (s : Service M) (fuel : ℕ) :
    Option (Bool × GuestRingCursor × Service M) :=
  (gatherTransferTd s.mem fuel cur []).map fun r =>
    let s' := { s with fetched := s.fetched+gatherReads s.mem fuel cur }
    match r.1 with
    | .ok [] => (false,r.2,s')
    | .ok td =>
      let s'' := s'.executeTd slotId dci td
      (!s''.isHalted slotId dci,r.2,s'')
    | .error trbPointer => (false,r.2,s'.postTransferEvent trbPointer 0 .trbError slotId dci)

/-- Execute up to `n` TDs from a ring in guest memory. -/
def transferBurst (slotId dci : BitVec 8) :
    ℕ → GuestRingCursor → Service M → ℕ → Option (GuestRingCursor × Service M)
  | 0, cur, s, _ => some (cur,s)
  | n+1, cur, s, fuel =>
    (transferRound slotId dci cur s fuel).bind fun r =>
      if r.1 then transferBurst slotId dci n r.2.1 r.2.2 fuel else some r.2

section
variable (s : Service M) (slotId dci : BitVec 8)

/-- The cursor kept from before, or the one the endpoint's context declares. None for an endpoint
that is halted or has declared no ring. -/
def guestCursor : Option GuestRingCursor :=
  if s.isHalted slotId dci then none
  else
    match s.ctrl.endpointConfigs (slotId,dci) with
    | none => none
    | some ctx =>
      if ctx.trDequeuePointer = 0 then none
      else some ((s.ctrl.guestTransferRings (slotId,dci)).getD
        ⟨ctx.trDequeuePointer.toNat,ctx.dequeueCycleState⟩)

def setGuestRing (s : Service M) (key : EndpointKey) (cur : Option GuestRingCursor) : Service M :=
  { s with
    ctrl := { s.ctrl with
      guestTransferRings := update s.ctrl.guestTransferRings key cur } }

def processGuestTransferRing (fuel : ℕ) : Option (Service M) :=
  match s.guestCursor slotId dci with
  | none => some s
  | some cur =>
    (transferBurst slotId dci transferBurstLimit cur (s.setGuestRing (slotId,dci) none) fuel).map
      fun r => r.2.setGuestRing (slotId,dci) (some r.1)

def processTransferRing (fuel : ℕ) : Option (Service M) :=
  if !s.ctrl.slotEnabled slotId || s.isHalted slotId dci then some s
  else
    let s' := s.drainInternalTransferRing slotId dci
    if s'.ctrl.guestResidentTransfers then s'.processGuestTransferRing slotId dci fuel else some s'

end

def serviceTarget (s : Service M) : DoorbellTarget → ℕ → Option (Service M)
  | .hostCommand, _ => some s.processCommandRing
  | .controlEndpoint slotId, fuel => s.processTransferRing slotId controlDci fuel
  | .endpoint slotId dci, fuel => s.processTransferRing slotId dci fuel
  | .stream slotId dci _, fuel => s.processTransferRing slotId dci fuel

def serviceTargets : List DoorbellTarget → Service M → ℕ → Option (Service M)
  | [], s, _ => some s
  | target :: rest, s, fuel =>
    (s.serviceTarget target fuel).bind fun s' => serviceTargets rest s' fuel

def targets (s : Service M) : List DoorbellTarget := s.ctrl.doorbells.drainPending.1

def drained (s : Service M) : Service M :=
  { s with ctrl := { s.ctrl with doorbells := s.ctrl.doorbells.drainPending.2 } }

def serviceDoorbells (s : Service M) (fuel : ℕ) : Option (Service M) :=
  if s.ctrl.op.isRunning then (serviceTargets s.targets s.drained fuel).map flushEvents
  else some s

end Service
end Enlil.Devices.Xhci
