import Enlil.Boot.GuestMemory

/-!
# Transfer Request Blocks: model of `usb/xhci/trb.rs` and the codecs of `usb/xhci/transfer.rs`
-/

namespace Enlil.Devices.Xhci
open List BitVec Le

/-- Guest memory as the controller sees it, with the contract of the boot crate's trait: an
access that is not backed as a whole fails and changes nothing. -/
abbrev DmaMemory := Boot.GuestMemory

inductive TrbType where
  | normal | setupStage | dataStage | statusStage | isoch | link | eventData | noOp
  | enableSlotCommand | disableSlotCommand | addressDeviceCommand | configureEndpointCommand
  | evaluateContextCommand | resetEndpointCommand | stopEndpointCommand
  | setTrDequeuePointerCommand | resetDeviceCommand | noOpCommand
  | transferEvent | commandCompletionEvent | portStatusChangeEvent | hostControllerEvent
  | unknown
deriving DecidableEq

def TrbType.fromRaw : ℕ → TrbType
  | 1 => .normal
  | 2 => .setupStage
  | 3 => .dataStage
  | 4 => .statusStage
  | 5 => .isoch
  | 6 => .link
  | 7 => .eventData
  | 8 => .noOp
  | 9 => .enableSlotCommand
  | 10 => .disableSlotCommand
  | 11 => .addressDeviceCommand
  | 12 => .configureEndpointCommand
  | 13 => .evaluateContextCommand
  | 14 => .resetEndpointCommand
  | 15 => .stopEndpointCommand
  | 16 => .setTrDequeuePointerCommand
  | 17 => .resetDeviceCommand
  | 23 => .noOpCommand
  | 32 => .transferEvent
  | 33 => .commandCompletionEvent
  | 34 => .portStatusChangeEvent
  | 37 => .hostControllerEvent
  | _ => .unknown

@[ext]
structure Trb where
  parameter : BitVec 64
  status : BitVec 32
  control : BitVec 32
deriving DecidableEq

namespace Trb

def zeroed : Trb := ⟨0,0,0⟩

section
variable (t : Trb)

def trbType : ℕ := (t.control >>> 10 &&& 0x3F).toNat

def decodedType : TrbType := .fromRaw t.trbType

def cycleBit : Bool := t.control.getLsbD 0

def setCycleBit (cycle : Bool) : Trb :=
  { t with control := if cycle then t.control ||| 1 else t.control &&& ~~~1 }

def toBytes : List UInt8 :=
  Le.bytes 8 t.parameter.toNat ++ Le.bytes 4 t.status.toNat ++ Le.bytes 4 t.control.toNat

def fromBytes (buf : List UInt8) : Trb where
  parameter := .ofNat 64 (Le.toNat (buf.take 8))
  status := .ofNat 32 (Le.toNat ((buf.drop 8).take 4))
  control := .ofNat 32 (Le.toNat ((buf.drop 12).take 4))

@[simp] lemma length_toBytes : t.toBytes.length = 16 := by
  simp only [toBytes,length_append,length_bytes]

end

private lemma ofNat_toNat_bytes {w : ℕ} (n : ℕ) (x : BitVec w) (h : 256^n = 2^w) :
    BitVec.ofNat w (Le.toNat (Le.bytes n x.toNat)) = x := by
  rw [toNat_bytes,h,Nat.mod_eq_of_lt x.isLt,BitVec.ofNat_toNat,setWidth_eq]

lemma fromBytes_toBytes (t : Trb) : fromBytes t.toBytes = t := by
  have h0 : t.toBytes.take 8 = Le.bytes 8 t.parameter.toNat := by
    rw [toBytes,List.append_assoc,take_left' (length_bytes 8 _)]
  have h1 : (t.toBytes.drop 8).take 4 = Le.bytes 4 t.status.toNat := by
    rw [toBytes,List.append_assoc,drop_left' (length_bytes 8 _),
      take_left' (length_bytes 4 _)]
  have h2 : (t.toBytes.drop 12).take 4 = Le.bytes 4 t.control.toNat := by
    rw [toBytes,drop_left' (by rw [length_append,length_bytes,length_bytes]),
      take_of_length_le (Nat.le_of_eq (length_bytes 4 _))]
  ext1
  · rw [fromBytes,h0,ofNat_toNat_bytes 8 _ (by decide)]
  · rw [fromBytes,h1,ofNat_toNat_bytes 4 _ (by decide)]
  · rw [fromBytes,h2,ofNat_toNat_bytes 4 _ (by decide)]

@[simp] lemma cycleBit_setCycleBit (t : Trb) (c : Bool) : (t.setCycleBit c).cycleBit = c := by
  cases c <;> simp [cycleBit,setCycleBit]

@[simp] lemma setCycleBit_setCycleBit (t : Trb) (c c' : Bool) :
    (t.setCycleBit c).setCycleBit c' = t.setCycleBit c' := by
  unfold setCycleBit
  congr 1
  cases c <;> cases c' <;> simp only [if_true,Bool.false_eq_true,if_false] <;> ext i hi <;>
    simp only [getElem_or,getElem_and,getElem_not] <;>
    cases t.control[i] <;> cases (1 : BitVec 32)[i] <;> rfl

end Trb

inductive TrbCompletionCode where
  | success | usbTransactionError | trbError | stallError | noSlotsAvailableError | shortPacket
  | parameterError | contextStateError
deriving DecidableEq

def TrbCompletionCode.raw : TrbCompletionCode → ℕ
  | .success => 1
  | .usbTransactionError => 4
  | .trbError => 5
  | .stallError => 6
  | .noSlotsAvailableError => 9
  | .shortPacket => 13
  | .parameterError => 17
  | .contextStateError => 19

inductive CommandTrb where
  | enableSlot
  | disableSlot (slotId : BitVec 8)
  | addressDevice (slotId : BitVec 8) (inputContextPtr : ℕ)
  | configureEndpoint (slotId : BitVec 8) (inputContextPtr : ℕ) (deconfigure : Bool)
  | evaluateContext (slotId : BitVec 8) (inputContextPtr : ℕ)
  | resetEndpoint (slotId endpointId : BitVec 8)
  | stopEndpoint (slotId endpointId : BitVec 8)
  | setTrDequeuePointer (slotId endpointId : BitVec 8) (dequeuePtr : ℕ) (dcs : Bool)
  | resetDevice (slotId : BitVec 8)
  | noOp
deriving DecidableEq

def CommandTrb.fromTrb (t : Trb) : Option CommandTrb :=
  let slotId := t.control.extractLsb' 24 8
  let endpointId := (t.control.extractLsb' 16 5).setWidth 8
  match t.decodedType with
  | .enableSlotCommand => some .enableSlot
  | .disableSlotCommand => some (.disableSlot slotId)
  | .addressDeviceCommand => some (.addressDevice slotId t.parameter.toNat)
  | .configureEndpointCommand =>
    some (.configureEndpoint slotId t.parameter.toNat (t.control.getLsbD 9))
  | .evaluateContextCommand => some (.evaluateContext slotId t.parameter.toNat)
  | .resetEndpointCommand => some (.resetEndpoint slotId endpointId)
  | .stopEndpointCommand => some (.stopEndpoint slotId endpointId)
  | .setTrDequeuePointerCommand =>
    some (.setTrDequeuePointer slotId endpointId (t.parameter &&& ~~~0xF).toNat
      (t.parameter.getLsbD 0))
  | .resetDeviceCommand => some (.resetDevice slotId)
  | .noOpCommand => some .noOp
  | _ => none

structure SetupPacket where
  requestType : BitVec 8
  request : BitVec 8
  value : BitVec 16
  index : BitVec 16
  length : BitVec 16
deriving DecidableEq

namespace SetupPacket

def fromLeU64 (raw : BitVec 64) : SetupPacket where
  requestType := raw.extractLsb' 0 8
  request := raw.extractLsb' 8 8
  value := raw.extractLsb' 16 16
  index := raw.extractLsb' 32 16
  length := raw.extractLsb' 48 16

def isDeviceToHost (p : SetupPacket) : Bool := p.requestType.getLsbD 7

end SetupPacket

inductive TransferType where
  | noData | outData | inData
deriving DecidableEq

def TransferType.fromRaw : ℕ → Option TransferType
  | 0 => some .noData
  | 2 => some .outData
  | 3 => some .inData
  | _ => none

inductive TransferTrb where
  | setup (packet : SetupPacket) (transferType : TransferType) (ioc : Bool)
  | data (buffer length : ℕ) (dirIn chain ioc : Bool)
  | status (dirIn ioc : Bool)
  | normal (buffer length : ℕ) (chain ioc isp : Bool)
  | noOp (ioc : Bool)
deriving DecidableEq

namespace TransferTrb

def trbLen (t : Trb) : ℕ := (t.status &&& 0x0001FFFF).toNat

def fromTrb (t : Trb) : Option TransferTrb :=
  let ioc := t.control.getLsbD 5
  let chain := t.control.getLsbD 4
  match t.decodedType with
  | .setupStage =>
    -- the packet is immediate data: without IDT (bit 6) the TRB is malformed
    if t.control.getLsbD 6 then
      (TransferType.fromRaw (t.control.extractLsb' 16 2).toNat).map fun transferType =>
        .setup (.fromLeU64 t.parameter) transferType ioc
    else none
  | .dataStage => some (.data t.parameter.toNat (trbLen t) (t.control.getLsbD 16) chain ioc)
  | .statusStage => some (.status (t.control.getLsbD 16) ioc)
  | .normal => some (.normal t.parameter.toNat (trbLen t) chain ioc (t.control.getLsbD 2))
  | .noOp => some (.noOp ioc)
  | _ => none

def chains : TransferTrb → Bool
  | .data _ _ _ chain _ => chain
  | .normal _ _ chain _ _ => chain
  | .setup .. | .status .. | .noOp .. => false

def interruptOnCompletion : TransferTrb → Bool
  | .setup _ _ ioc => ioc
  | .data _ _ _ _ ioc => ioc
  | .status _ ioc => ioc
  | .normal _ _ _ ioc _ => ioc
  | .noOp ioc => ioc

end TransferTrb
end Enlil.Devices.Xhci
