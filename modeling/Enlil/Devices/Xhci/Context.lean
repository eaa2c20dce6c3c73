import Enlil.Devices.Xhci.Trb
import Enlil.Lib.Word

/-! # Device contexts: model of `usb/xhci/context.rs` -/

namespace Enlil.Devices.Xhci

def contextSize : ℕ := 32

def maxDci : ℕ := 31

def controlDci : BitVec 8 := 1

section
variable (dci : BitVec 8)

def dciIsIn : Bool := dci.toNat%2 == 1

def dciEndpointNumber : ℕ := dci.toNat/2

def inputContextEntryOffset : ℕ := contextSize*(1+dci.toNat)

def deviceContextEntryOffset : ℕ := contextSize*dci.toNat

end

def readContextEntry (mem : DmaMemory) (addr : ℕ) : Option (List UInt8) := mem.read addr 32

def dword (bytes : List UInt8) (i : ℕ) : BitVec 32 := .ofNat 32 (Le.toNat ((bytes.drop (4*i)).take 4))

def withEpState (bytes : List UInt8) (state : UInt8) : List UInt8 :=
  bytes.set 0 ((bytes.getD 0 0 &&& ~~~0x7) ||| (state &&& 0x7))

def zeroEntry : List UInt8 := List.replicate 32 0

structure InputControlContext where
  dropFlags : BitVec 32
  addFlags : BitVec 32

namespace InputControlContext

def read (mem : DmaMemory) (inputContextPtr : ℕ) : Option InputControlContext :=
  (mem.read inputContextPtr 8).map fun bytes => ⟨dword bytes 0,dword bytes 1⟩

def adds (c : InputControlContext) (dci : ℕ) : Bool := dci ≤ maxDci && c.addFlags.getLsbD dci

def drops (c : InputControlContext) (dci : ℕ) : Bool := dci ≤ maxDci && c.dropFlags.getLsbD dci

end InputControlContext

inductive EndpointType where
  | isochOut | bulkOut | interruptOut | control | isochIn | bulkIn | interruptIn
deriving DecidableEq

namespace EndpointType

def fromRaw : ℕ → Option EndpointType
  | 1 => some .isochOut
  | 2 => some .bulkOut
  | 3 => some .interruptOut
  | 4 => some .control
  | 5 => some .isochIn
  | 6 => some .bulkIn
  | 7 => some .interruptIn
  | _ => none

def raw : EndpointType → ℕ
  | .isochOut => 1
  | .bulkOut => 2
  | .interruptOut => 3
  | .control => 4
  | .isochIn => 5
  | .bulkIn => 6
  | .interruptIn => 7

def isIn : EndpointType → Bool
  | .isochIn | .bulkIn | .interruptIn => true
  | _ => false

def validForDci (t : EndpointType) (dci : BitVec 8) : Bool :=
  if dci = 0 then false
  else if dci = 1 then t == .control
  else decide (dci.toNat ≤ maxDci) && t != .control && t.isIn == dciIsIn dci

end EndpointType

inductive EpState where
  | running | halted | stopped
deriving DecidableEq

def EpState.raw : EpState → UInt8
  | .running => 1
  | .halted => 2
  | .stopped => 3

structure EndpointContext where
  endpointType : EndpointType
  maxPacketSize : BitVec 16
  maxBurstSize : BitVec 8
  errorCount : BitVec 8
  interval : BitVec 8
  trDequeuePointer : BitVec 64
  dequeueCycleState : Bool
  averageTrbLength : BitVec 16

namespace EndpointContext

def parse (bytes : List UInt8) : Option EndpointContext :=
  let d0 := dword bytes 0
  let d1 := dword bytes 1
  let dequeue := (dword bytes 2).setWidth 64 ||| (dword bytes 3).setWidth 64 <<< 32
  (EndpointType.fromRaw (d1 >>> 3 &&& 0x7).toNat).map fun endpointType =>
    { endpointType := endpointType
      maxPacketSize := d1.extractLsb' 16 16
      maxBurstSize := d1.extractLsb' 8 8
      errorCount := (d1.extractLsb' 1 2).setWidth 8
      interval := d0.extractLsb' 16 8
      trDequeuePointer := dequeue &&& ~~~0xF
      dequeueCycleState := dequeue.getLsbD 0
      averageTrbLength := (dword bytes 4).extractLsb' 0 16 }

def toBytes (c : EndpointContext) : List UInt8 :=
  let d0 : BitVec 32 := c.interval.setWidth 32 <<< 16
  let d1 : BitVec 32 := (c.errorCount &&& 0x3).setWidth 32 <<< 1 |||
    BitVec.ofNat 32 c.endpointType.raw <<< 3 ||| c.maxBurstSize.setWidth 32 <<< 8 |||
    c.maxPacketSize.setWidth 32 <<< 16
  let dequeue := c.trDequeuePointer &&& ~~~0xF ||| .ofNat 64 c.dequeueCycleState.toNat
  Le.bytes 4 d0.toNat ++ Le.bytes 4 d1.toNat ++ Le.bytes 8 dequeue.toNat ++
    Le.bytes 4 c.averageTrbLength.toNat ++ List.replicate 12 0

end EndpointContext

inductive SlotState where
  | disabledEnabled | default | addressed | configured
deriving DecidableEq

def SlotState.raw : SlotState → BitVec 8
  | .disabledEnabled => 0
  | .default => 1
  | .addressed => 2
  | .configured => 3

structure SlotContext where
  routeString : BitVec 32
  speed : BitVec 8
  contextEntries : BitVec 8
  rootHubPortNumber : BitVec 8
  usbDeviceAddress : BitVec 8
  slotState : BitVec 8

namespace SlotContext

def parse (bytes : List UInt8) : SlotContext :=
  let d0 := dword bytes 0
  let d1 := dword bytes 1
  let d3 := dword bytes 3
  { routeString := d0 &&& 0xFFFFF
    speed := (d0.extractLsb' 20 4).setWidth 8
    contextEntries := (d0.extractLsb' 27 5).setWidth 8
    rootHubPortNumber := d1.extractLsb' 16 8
    usbDeviceAddress := d3.extractLsb' 0 8
    slotState := (d3.extractLsb' 27 5).setWidth 8 }

def toBytes (c : SlotContext) : List UInt8 :=
  let d0 : BitVec 32 := c.routeString &&& 0xFFFFF ||| (c.speed &&& 0xF).setWidth 32 <<< 20 |||
    (c.contextEntries &&& 0x1F).setWidth 32 <<< 27
  let d1 : BitVec 32 := c.rootHubPortNumber.setWidth 32 <<< 16
  let d3 : BitVec 32 := c.usbDeviceAddress.setWidth 32 ||| (c.slotState &&& 0x1F).setWidth 32 <<< 27
  Le.bytes 4 d0.toNat ++ Le.bytes 4 d1.toNat ++ Le.bytes 4 0 ++ Le.bytes 4 d3.toNat ++
    List.replicate 16 0

end SlotContext

def deviceContextPointer (mem : DmaMemory) (dcbaap : ℕ) (slotId : BitVec 8) : Option ℕ :=
  if slotId = 0 then none
  else
    match mem.read (Word.add64 dcbaap (slotId.toNat*8)) 8 with
    | none => none
    | some bytes =>
      let ptr := Le.toNat bytes &&& Word.not64 0x3F
      if ptr ≠ 0 then some ptr else none

end Enlil.Devices.Xhci
