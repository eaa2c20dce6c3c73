import Enlil.Boot.Blockdev
import Enlil.Boot.GuestMemory

/-! # The virtio-blk device: model of `enlil-boot/src/virtio_blk.rs` -/

namespace Enlil.Boot
open Le BlockBackend Word

structure PciFunction where
  command : ℕ
deriving DecidableEq

namespace PciFunction

def busMaster (p : PciFunction) : Bool := p.command &&& 0x4 ≠ 0

def intxDisabled (p : PciFunction) : Bool := p.command &&& 0x400 ≠ 0

end PciFunction
namespace VirtioBlk

def queueMax : ℕ := 128

def maxIoBytes : ℕ := 4*1024*1024

def isrOff : ℕ := 0x2000

def notifyOff : ℕ := 0x1000

def diskId : List UInt8 := "enlil-virtual-disk\x00\x00".toUTF8.toList

structure Queue where
  size : ℕ
  enabled : Bool
  desc : ℕ
  avail : ℕ
  used : ℕ
  lastAvail : ℕ
  usedIdx : ℕ
deriving DecidableEq

def Queue.default : Queue := ⟨0,false,0,0,0,0,0⟩

structure Seg where
  gpa : ℕ
  len : ℕ
  write : Bool
deriving DecidableEq

end VirtioBlk
open VirtioBlk in
structure VirtioBlk (β : Type) where
  pci : PciFunction
  backend : β
  readOnly : Bool
  status : ℕ
  isr : ℕ
  devFeatureSel : ℕ
  drvFeatureSel : ℕ
  driverFeatures : ℕ
  queueSel : ℕ
  queue : Queue

namespace VirtioBlk
variable {β : Type}

section
variable (d : VirtioBlk β)

/-- `VERSION_1`, `SEG_MAX`, `BLK_SIZE`, `FLUSH`, and `RO` on a read-only disk. -/
def deviceFeatures : ℕ :=
  2^32 ||| 2^2 ||| 2^6 ||| 2^9 ||| if d.readOnly then 2^5 else 0

def irqLine : Bool := d.isr ≠ 0 ∧ d.pci.intxDisabled = false

def reset : VirtioBlk β :=
  { d with
    status := 0, isr := 0, devFeatureSel := 0, drvFeatureSel := 0, driverFeatures := 0,
    queueSel := 0, queue := .default }

def featureHalf (sel feats : ℕ) : ℕ :=
  if sel = 0 then feats%2^32 else if sel = 1 then feats/2^32 else 0

def commonImage : List UInt8 :=
  let present : Bool := d.queueSel = 0
  let q := d.queue
  bytes 4 d.devFeatureSel ++ bytes 4 (featureHalf d.devFeatureSel d.deviceFeatures) ++
    bytes 4 d.drvFeatureSel ++ bytes 4 (featureHalf d.drvFeatureSel d.driverFeatures) ++
    bytes 2 0xFFFF ++ bytes 2 1 ++ bytes 1 d.status ++ bytes 1 0 ++
    bytes 2 d.queueSel ++ bytes 2 (if present then q.size else 0) ++ bytes 2 0xFFFF ++
    bytes 2 (if present && q.enabled then 1 else 0) ++ bytes 2 0 ++
    bytes 8 (if present then q.desc else 0) ++ bytes 8 (if present then q.avail else 0) ++
    bytes 8 (if present then q.used else 0)

/-- Capacity in sectors, `size_max`, `seg_max`, geometry and block size. -/
def deviceImage [BlockBackend β] (d : VirtioBlk β) : List UInt8 :=
  bytes 8 (sectors d.backend) ++ bytes 4 0 ++ bytes 4 126 ++ bytes 4 0 ++
    bytes 4 sectorSize ++ List.replicate 0x28 0

/-- `size` bytes at `off`; bytes past the image are zero. -/
def extract (image : List UInt8) (off size : ℕ) : ℕ :=
  toNat ((List.range size).map fun i => image.getD (off+i) 0)

/-- A guest read within `BAR0`. Reading the interrupt status clears it. -/
def mmioRead [BlockBackend β] (d : VirtioBlk β) (off size : ℕ) : ℕ × VirtioBlk β :=
  if off < 0x1000 then (extract d.commonImage off size,d)
  else if isrOff ≤ off ∧ off < isrOff+0x1000 then
    if off = isrOff then (d.isr,{ d with isr := 0 }) else (0,d)
  else if 0x3000 ≤ off ∧ off < 0x4000 then (extract d.deviceImage (off-0x3000) size,d)
  else (0,d)

/-- A write to the device status. `FEATURES_OK` stays only if the driver's features are a
subset of the device's with `VERSION_1`. -/
def writeStatus (val : ℕ) : VirtioBlk β :=
  if val = 0 then d.reset
  else
    let accepted : Bool := d.driverFeatures &&& not64 d.deviceFeatures = 0 ∧
      d.driverFeatures &&& 2^32 ≠ 0
    { d with status := if val &&& 8 ≠ 0 ∧ accepted = false then val &&& 0xF7 else val }

def setLow (reg val : ℕ) : ℕ := (reg &&& 0xFFFFFFFF00000000) ||| (val &&& 0xFFFFFFFF)

def setHigh (reg val : ℕ) : ℕ := (reg &&& 0xFFFFFFFF) ||| (val &&& 0xFFFFFFFF) <<< 32

def isPowerOfTwo (n : ℕ) : Bool := n ≠ 0 ∧ n &&& (n-1) = 0

def writeCommonField (off size val : ℕ) : VirtioBlk β :=
  let isQueue0 : Bool := d.queueSel = 0
  let q := d.queue
  if off = 0x00 ∧ size = 4 then { d with devFeatureSel := val%2^32 }
  else if off = 0x08 ∧ size = 4 then { d with drvFeatureSel := val%2^32 }
  else if off = 0x0C ∧ size = 4 then
    if d.drvFeatureSel = 0 then { d with driverFeatures := setLow d.driverFeatures val }
    else if d.drvFeatureSel = 1 then { d with driverFeatures := setHigh d.driverFeatures val }
    else d
  else if off = 0x14 ∧ size = 1 then d.writeStatus (val%2^8)
  else if off = 0x16 ∧ size = 2 then { d with queueSel := val%2^16 }
  else if isQueue0 = false then d
  else if off = 0x18 ∧ size = 2 then
    let n := val%2^16
    if q.enabled = false ∧ n ≠ 0 ∧ n ≤ queueMax ∧ isPowerOfTwo n then
      { d with queue := { q with size := n } }
    else d
  else if off = 0x1C ∧ size = 2 then
    if val &&& 1 ≠ 0 ∧ q.size ≠ 0 then
      { d with queue := { q with enabled := true, lastAvail := 0, usedIdx := 0 } }
    else { d with queue := { q with enabled := false } }
  else if off = 0x20 ∧ size = 4 then { d with queue := { q with desc := setLow q.desc val } }
  else if off = 0x24 ∧ size = 4 then { d with queue := { q with desc := setHigh q.desc val } }
  else if off = 0x28 ∧ size = 4 then { d with queue := { q with avail := setLow q.avail val } }
  else if off = 0x2C ∧ size = 4 then { d with queue := { q with avail := setHigh q.avail val } }
  else if off = 0x30 ∧ size = 4 then { d with queue := { q with used := setLow q.used val } }
  else if off = 0x34 ∧ size = 4 then { d with queue := { q with used := setHigh q.used val } }
  else if off = 0x20 ∧ size = 8 then { d with queue := { q with desc := val } }
  else if off = 0x28 ∧ size = 8 then { d with queue := { q with avail := val } }
  else if off = 0x30 ∧ size = 8 then { d with queue := { q with used := val } }
  else d

/-- A write whose driver-feature selector names no word leaves before the default of the queue
size is set. -/
def isIgnored (off size : ℕ) : Bool :=
  off = 0x0C ∧ size = 4 ∧ d.drvFeatureSel ≠ 0 ∧ d.drvFeatureSel ≠ 1

def writeCommon (off size val : ℕ) : VirtioBlk β :=
  if d.isIgnored off size then d
  else
    let d := d.writeCommonField off size val
    if d.queue.size = 0 ∧ d.queue.enabled = false then
      { d with queue := { d.queue with size := queueMax } }
    else d

end

/-- The loop of `read_chain`: at most `fuel` more descriptors, from index `idx` on. -/
def readChainLoop (q : Queue) (m : GuestMemory) : (fuel idx : ℕ) → List Seg → Option (List Seg)
  | 0, _, _ => none
  | fuel+1, idx, segs =>
    if q.size ≤ idx then none
    else
      let d := add64 q.desc (16*idx)
      match m.rd64 d, m.rd32 (add64 d 8), m.rd16 (add64 d 12),
        m.rd16 (add64 d 14) with
      | some addr, some len, some flags, some next =>
        if flags &&& 4 ≠ 0 then none
        else
          let segs := segs ++ [⟨addr,len,flags &&& 2 ≠ 0⟩]
          if flags &&& 1 = 0 then some segs else readChainLoop q m fuel next segs
      | _, _, _, _ => none

def readChain (q : Queue) (m : GuestMemory) (head : ℕ) : Option (List Seg) :=
  readChainLoop q m q.size head []

/-- Write a buffer to segments, the first from `pos` on. Returns the position where it stopped
if a write failed. -/
def scatter (m : GuestMemory) (buf : List UInt8) : List Seg → ℕ → Except ℕ Unit × GuestMemory
  | [], _ => (.ok (),m)
  | s :: segs, pos =>
    match m.write s.gpa ((buf.drop pos).take s.len) with
    | none => (.error pos,m)
    | some m' => scatter m' buf segs (pos+s.len)

def gather (m : GuestMemory) : List Seg → Option (List UInt8)
  | [] => some []
  | s :: segs =>
    match m.read s.gpa s.len, gather m segs with
    | some bytes, some rest => some (bytes ++ rest)
    | _, _ => none

def scatterId (m : GuestMemory) : List Seg → List UInt8 → ℕ → (ℕ × ℕ) × GuestMemory
  | [], _, written => ((0,written),m)
  | s :: segs, left, written =>
    let n := min left.length s.len
    match m.write s.gpa (left.take n) with
    | none => ((1,written),m)
    | some m' => scatterId m' segs (left.drop n) (written+n)

variable [BlockBackend β]

/-- Run one decoded request. Returns its status and the number of data bytes written to the
guest. -/
def execute (d : VirtioBlk β) (m : GuestMemory) (kind sector : ℕ) (data : List Seg) :
    (ℕ × ℕ) × VirtioBlk β × GuestMemory :=
  let total := (data.map Seg.len).sum
  let ioOk : Bool := total ≤ maxIoBytes ∧ total%sectorSize = 0
  if kind = 0 then
    if ioOk = false ∨ data.any (fun s => !s.write) then ((1,0),d,m)
    else
      match read d.backend sector total with
      | (.error _,b) => ((1,0),{ d with backend := b },m)
      | (.ok buf,b) =>
        match scatter m buf data 0 with
        | (.error pos,m) => ((1,pos),{ d with backend := b },m)
        | (.ok (),m) => ((0,total),{ d with backend := b },m)
  else if kind = 1 then
    if ioOk = false ∨ d.readOnly ∨ data.any (·.write) then ((1,0),d,m)
    else
      match gather m data with
      | none => ((1,0),d,m)
      | some buf =>
        match write d.backend sector buf with
        | (.ok (),b) => ((0,0),{ d with backend := b },m)
        | (.error _,b) => ((1,0),{ d with backend := b },m)
  else if kind = 4 then
    match flush d.backend with
    | (.ok (),b) => ((0,0),{ d with backend := b },m)
    | (.error _,b) => ((1,0),{ d with backend := b },m)
  else if kind = 8 then
    let (r,m) := scatterId m (data.filter (·.write)) diskId 0
    (r,d,m)
  else ((2,0),d,m)

def handleRequest (d : VirtioBlk β) (m : GuestMemory) (head : ℕ) : ℕ × VirtioBlk β × GuestMemory :=
  match readChain d.queue m head with
  | none => (0,d,m)
  | some segs =>
    match segs.head?, segs.getLast? with
    | some hdr, some status =>
      if segs.length < 2 ∨ hdr.write ∨ hdr.len < 16 ∨ status.write = false ∨ status.len < 1 then
        (0,d,m)
      else
        let statusGpa := sub64 (add64 status.gpa status.len) 1
        match m.read hdr.gpa 16 with
        | none => (0,d,m)
        | some h =>
          let kind := toNat (h.take 4)
          let sector := toNat (h.drop 8)
          let ((result,written),d,m) := d.execute m kind sector segs.tail.dropLast
          (min (written+1) (2^32-1),d,m.tryWrite statusGpa [.ofNat result])
    | _, _ => (0,d,m)

/-- What a notification did: the heads it executed, and the entries it put on the used ring
with the lengths reported. -/
structure Served where
  executed : List ℕ
  posted : List (ℕ × ℕ)
deriving DecidableEq

def Served.none : Served := ⟨[],[]⟩

structure LoopState (β : Type) where
  dev : VirtioBlk β
  mem : GuestMemory
  lastAvail : ℕ
  usedIdx : ℕ
  served : Served

def usedElem (e : ℕ × ℕ) : List UInt8 := bytes 4 e.1 ++ bytes 4 e.2

def processLoop (q : Queue) (availIdx : ℕ) : (fuel : ℕ) → LoopState β → LoopState β
  | 0, s => s
  | fuel+1, s =>
    if s.lastAvail = availIdx then s
    else
      match s.mem.rd16 (add64 q.avail (4+2*(s.lastAvail%q.size))) with
      | none => s
      | some head =>
        let (written,dev,mem) := s.dev.handleRequest s.mem head
        let executed := s.served.executed ++ [head]
        match mem.write (add64 q.used (4+8*(s.usedIdx%q.size)))
          (usedElem (head,written)) with
        | none => { s with dev := dev, mem := mem, served.executed := executed }
        | some mem =>
          processLoop q availIdx fuel ⟨dev,mem,(s.lastAvail+1)%2^16,(s.usedIdx+1)%2^16,
              ⟨executed,s.served.posted ++ [(head,written)]⟩⟩

def process (d : VirtioBlk β) (m : GuestMemory) : Served × VirtioBlk β × GuestMemory :=
  let q := d.queue
  if q.enabled = false ∨ d.status &&& 4 = 0 ∨ d.pci.busMaster = false ∨ q.size = 0 then
    (.none,d,m)
  else
    match m.rd16 (add64 q.avail 2) with
    | none => (.none,d,m)
    | some availIdx =>
      let s := processLoop q availIdx q.size ⟨d,m,q.lastAvail,q.usedIdx,.none⟩
      if s.served.posted.isEmpty then (s.served,s.dev,s.mem)
      else
        (s.served,
          { s.dev with
            queue := { s.dev.queue with lastAvail := s.lastAvail, usedIdx := s.usedIdx },
            isr := s.dev.isr ||| 1 },
          s.mem.tryWrite (add64 q.used 2) (bytes 2 s.usedIdx))

/-- A guest write within `BAR0`; one to the notify register runs the queue. -/
def mmioWrite (d : VirtioBlk β) (off size val : ℕ) (m : GuestMemory) :
    Served × VirtioBlk β × GuestMemory :=
  if off < 0x1000 then (.none,d.writeCommon off size val,m)
  else if off = notifyOff then d.process m
  else (.none,d,m)

end VirtioBlk
end Enlil.Boot
