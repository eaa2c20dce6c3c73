import Enlil.Lib.ByteRegs
import Mathlib.Data.List.Range

/-! # PCI configuration spaces: model of `pcie.rs`, `PciConfigSpace` -/

namespace Enlil.Devices.Pcie
open ByteRegs

structure PciBdf where
  bus : BitVec 8
  device : BitVec 8
  function : BitVec 8
  deriving DecidableEq

def configSpaceSize : ℕ := 4096

structure PciConfigSpace where
  data : Bytes
  barMasks : Fin 6 → BitVec 32
  bdf : PciBdf

def statusOffset : ℕ := 0x06
def commandOffset : ℕ := 0x04
def bar0 : ℕ := 0x10
def bar5 : ℕ := 0x24
def capabilityPtr : ℕ := 0x34
def pmCapOffset : ℕ := 0x50
def msiCapOffset : ℕ := 0x60
def msixCapOffset : ℕ := 0x70
def pcieCapOffset : ℕ := 0x90

namespace PciConfigSpace
variable (c : PciConfigSpace)
section
variable (offset : ℕ)

def readU8 : BitVec 8 := read8 configSpaceSize c.data offset

def readU16 : BitVec 16 := read16 configSpaceSize c.data offset

def readU32 : BitVec 32 := read32 configSpaceSize c.data offset

def writeU8 (value : BitVec 8) : PciConfigSpace :=
  { c with data := write8 configSpaceSize c.data offset value }

def writeU16 (value : BitVec 16) : PciConfigSpace :=
  { c with data := write16 configSpaceSize c.data offset value }

def writeU32 (value : BitVec 32) : PciConfigSpace :=
  { c with data := write32 configSpaceSize c.data offset value }

def new (bdf : PciBdf) (vendorId deviceId : BitVec 16) : PciConfigSpace :=
  ((PciConfigSpace.mk (fun _ => 0) (fun _ => 0) bdf).writeU16 0x00 vendorId).writeU16 0x02 deviceId

def setClass (cls subclass progIf revision : BitVec 8) : PciConfigSpace :=
  (((c.writeU8 0x08 revision).writeU8 0x09 progIf).writeU8 0x0A subclass).writeU8 0x0B cls

def setBar (barIndex : ℕ) (value mask : BitVec 32) : PciConfigSpace :=
  if h : barIndex < 6 then
    { c.writeU32 (bar0+barIndex*4) value with
      barMasks := Function.update c.barMasks ⟨barIndex,h⟩ mask }
  else c

def setHeaderType (headerType : BitVec 8) : PciConfigSpace := c.writeU8 0x0E headerType

def setSubsystem (vendor device : BitVec 16) : PciConfigSpace :=
  (c.writeU16 0x2C vendor).writeU16 0x2E device

def setInterrupt (line pin : BitVec 8) : PciConfigSpace := (c.writeU8 0x3C line).writeU8 0x3D pin

def setHead (head : ℕ) : PciConfigSpace :=
  let c := c.writeU8 capabilityPtr (.ofNat 8 head)
  c.writeU16 statusOffset (c.readU16 statusOffset ||| 0x0010)

def addPowerManagementCapability : PciConfigSpace :=
  ((((c.writeU8 pmCapOffset 0x01).writeU8 (pmCapOffset+1) 0x00).writeU16
    (pmCapOffset+2) 0x0003).writeU16 (pmCapOffset+4) 0x0000).setHead pmCapOffset

def addMsiCapability : PciConfigSpace :=
  let prevHead := c.readU8 capabilityPtr
  ((((((c.writeU8 msiCapOffset 0x05).writeU8 (msiCapOffset+1) prevHead).writeU16
    (msiCapOffset+2) 0x0080).writeU32 (msiCapOffset+4) 0).writeU32 (msiCapOffset+8) 0).writeU16
      (msiCapOffset+12) 0).setHead msiCapOffset

def addMsixCapability (tableSize : BitVec 16) (tableBir : BitVec 8) (tableOffset : BitVec 32)
    (pbaBir : BitVec 8) (pbaOffset : BitVec 32) : PciConfigSpace :=
  let prevHead := c.readU8 capabilityPtr
  let encodedSize : BitVec 16 := .ofNat 16 (tableSize.toNat-1) &&& 0x07FF
  let table := (tableOffset &&& ~~~0x7) ||| (tableBir &&& 0x7).zeroExtend 32
  let pba := (pbaOffset &&& ~~~0x7) ||| (pbaBir &&& 0x7).zeroExtend 32
  (((((c.writeU8 msixCapOffset 0x11).writeU8 (msixCapOffset+1) prevHead).writeU16
    (msixCapOffset+2) encodedSize).writeU32 (msixCapOffset+4) table).writeU32
      (msixCapOffset+8) pba).setHead msixCapOffset

def addPciExpressCapability (devicePortType : BitVec 8) : PciConfigSpace :=
  let prevHead := c.readU8 capabilityPtr
  let capsReg : BitVec 16 := 0x0002 ||| (devicePortType &&& 0xF).zeroExtend 16 <<< 4
  ((((((((c.writeU8 pcieCapOffset 0x10).writeU8 (pcieCapOffset+1) prevHead).writeU16
    (pcieCapOffset+2) capsReg).writeU32 (pcieCapOffset+4) 0x1).writeU16 (pcieCapOffset+8)
      0).writeU16 (pcieCapOffset+10) 0).writeU32 (pcieCapOffset+12) 0x11).writeU16
        (pcieCapOffset+16) 0).writeU16 (pcieCapOffset+18) 0x11 |>.setHead pcieCapOffset

def createXhciController (bdf : PciBdf) (mmioBase : BitVec 32) (line : BitVec 8) : PciConfigSpace :=
  ((((((((new bdf 0x1912 0x0015).setClass 0x0C 0x03 0x30 0x02).setHeaderType 0x00).setBar 0 mmioBase
    0xFFFF0000).setInterrupt line 1).addPowerManagementCapability).addMsiCapability).addMsixCapability
      1 0 0x8000 0 0x9000).addPciExpressCapability 0x0

def msixEnabled : Bool := c.readU16 (msixCapOffset+2) &&& 0x8000 ≠ 0

def msixFunctionMasked : Bool := c.readU16 (msixCapOffset+2) &&& 0x4000 ≠ 0

def msixTableSize : ℕ :=
  if c.readU8 msixCapOffset ≠ 0x11 then 0
  else (c.readU16 (msixCapOffset+2) &&& 0x07FF).toNat+1

/-- The read-only bytes of the header: vendor and device, revision and class, header type,
subsystem. -/
def byteIsReadOnly : Bool :=
  offset ≤ 0x03 || (0x08 ≤ offset && offset ≤ 0x0B) || offset = 0x0E ||
    (0x2C ≤ offset && offset ≤ 0x2F)

end

/-- Follow the capabilities list from `ptr` and look for a header that has the byte. -/
def walk : ℕ → BitVec 8 → ℕ → Bool
  | 0, _, _ => false
  | n+1, ptr, offset =>
    if ptr.toNat < 0x40 then false
    else if offset = ptr.toNat ∨ offset = ptr.toNat+1 then true
    else walk n (c.readU8 (ptr.toNat+1)) offset

def capabilityHeaderByteIsReadOnly (offset : ℕ) : Bool :=
  if c.readU16 statusOffset &&& 0x0010 = 0 then false
  else c.walk 48 (c.readU8 capabilityPtr) offset

def overlaps (offset width lo hi : ℕ) : Bool := offset < hi && lo < offset+width

def writeBytes (offset width : ℕ) (value : BitVec 32) : PciConfigSpace :=
  (List.range (min width 4)).foldl (fun c i =>
    if !byteIsReadOnly (offset+i) && !c.capabilityHeaderByteIsReadOnly (offset+i) then
      c.writeU8 (offset+i) (value.extractLsb' (8*i) 8)
    else c) c

variable (before : PciConfigSpace) (offset width : ℕ)

/-- The table size and the places of the table and the pending bits are put back. -/
def restoreMsix : PciConfigSpace :=
  if overlaps offset width msixCapOffset (msixCapOffset+12) &&
      decide (before.readU8 msixCapOffset = 0x11) then
    let ctrl := (c.readU16 (msixCapOffset+2) &&& ~~~0x07FF) |||
      (before.readU16 (msixCapOffset+2) &&& 0x07FF)
    ((c.writeU16 (msixCapOffset+2) ctrl).writeU32 (msixCapOffset+4)
      (before.readU32 (msixCapOffset+4))).writeU32 (msixCapOffset+8)
        (before.readU32 (msixCapOffset+8))
  else c

/-- Only the enable bit and the number of enabled messages stay. -/
def restoreMsi : PciConfigSpace :=
  if overlaps offset width (msiCapOffset+2) (msiCapOffset+4) &&
      decide (before.readU8 msiCapOffset = 0x05) then
    c.writeU16 (msiCapOffset+2) ((c.readU16 (msiCapOffset+2) &&& 0x0071) |||
      (before.readU16 (msiCapOffset+2) &&& ~~~0x0071))
  else c

def restorePm : PciConfigSpace :=
  if overlaps offset width (pmCapOffset+2) (pmCapOffset+4) &&
      decide (before.readU8 pmCapOffset = 0x01) then
    c.writeU16 (pmCapOffset+2) (before.readU16 (pmCapOffset+2))
  else c

def restorePcie : PciConfigSpace :=
  if overlaps offset width (pcieCapOffset+2) (pcieCapOffset+4) &&
      decide (before.readU8 pcieCapOffset = 0x10) then
    c.writeU16 (pcieCapOffset+2) (before.readU16 (pcieCapOffset+2))
  else c

def covered (offset width reg : ℕ) : BitVec 16 :=
  (if offset ≤ reg then 0x00FF else 0) ||| (if reg+1 < offset+width then 0xFF00 else 0)

/-- Error bits to which a one was written are cleared, and nothing else. -/
def restoreStatus : PciConfigSpace :=
  if overlaps offset width statusOffset (statusOffset+2) then
    let w1cClear := c.readU16 statusOffset &&& 0xF900 &&& covered offset width statusOffset
    c.writeU16 statusOffset (before.readU16 statusOffset &&& ~~~w1cClear)
  else c

def restoreCommand : PciConfigSpace :=
  if overlaps offset width commandOffset (commandOffset+2) then
    let writable := 0x0547 &&& covered offset width commandOffset
    c.writeU16 commandOffset ((before.readU16 commandOffset &&& ~~~writable) |||
      (c.readU16 commandOffset &&& writable))
  else c

def guestWrite (value : BitVec 32) : PciConfigSpace :=
  if h : (bar0 ≤ offset ∧ offset ≤ bar5) ∧ width = 4 ∧ (offset-bar0)/4 < 6 then
    let mask := c.barMasks ⟨(offset-bar0)/4,h.2.2⟩
    c.writeU32 offset ((value &&& mask) ||| (c.readU32 offset &&& ~~~mask))
  else
    (((((((c.writeBytes offset width value).restoreMsix c offset width).restoreMsi c offset
      width).restorePm c offset width).restorePcie c offset width).restoreStatus c offset
        width).restoreCommand c offset width)

end PciConfigSpace
end Enlil.Devices.Pcie
