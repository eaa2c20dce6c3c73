import Enlil.Boot.Insn.Defs
import Enlil.Boot.VirtioBlk.Defs

/-! # The NVMe controller: model of the commands of `enlil-boot/src/nvme_dev.rs` -/

namespace Enlil.Boot
open Word Le List BlockBackend Function
namespace Nvme

def queueEntriesMax : ℕ := 256

def ioQueuesMax : ℕ := 8

def pageSize : ℕ := 4096

def maxTransferBytes : ℕ := 32*pageSize

def aerLimit : ℕ := 4

structure NvmeIdentity where
  vendor : ℕ
  device : ℕ
  serial : List UInt8
  model : List UInt8
  firmware : List UInt8

structure Sq where
  base : ℕ
  size : ℕ
  cqid : ℕ
  head : ℕ
  tail : ℕ
  head_lt : head < size
  tail_lt : tail < size

/-- A completion queue; `phase` is the tag of the next entry. -/
structure Cq where
  base : ℕ
  size : ℕ
  head : ℕ
  tail : ℕ
  phase : Bool
  ien : Bool
  head_lt : head < size
  tail_lt : tail < size

def Sq.new (base size cqid : ℕ) (h : 0 < size) : Sq := ⟨base,size,cqid,0,0,h,h⟩

def Cq.new (base size : ℕ) (ien : Bool) (h : 0 < size) : Cq :=
  ⟨base,size,0,0,true,ien,h,h⟩

def Sq.fetch (sq : Sq) : Sq :=
  { sq with
    head := (sq.head+1)%sq.size
    head_lt := Nat.mod_lt _ (Nat.zero_lt_of_lt sq.head_lt) }

def Cq.post (cq : Cq) : Cq :=
  if h : cq.tail+1 = cq.size then
    { cq with tail := 0, phase := !cq.phase, tail_lt := Nat.zero_lt_of_lt cq.tail_lt }
  else { cq with tail := cq.tail+1, tail_lt := Nat.lt_of_le_of_ne cq.tail_lt h }

def Cq.isFull (cq : Cq) : Bool := (cq.tail+1)%cq.size = cq.head

def Cq.slotAddr (cq : Cq) (slot : ℕ) : ℕ := add64 cq.base (slot*16)

structure Regs where
  cc : ℕ
  csts : ℕ
  aqa : ℕ
  asq : ℕ
  acq : ℕ
  intm : ℕ

structure Command where
  opcode : ℕ
  cid : ℕ
  nsid : ℕ
  prp1 : ℕ
  prp2 : ℕ
  cdw10 : ℕ
  cdw11 : ℕ
  cdw12 : ℕ
deriving DecidableEq

def join (lo hi : ℕ) : ℕ := hi <<< 32 ||| lo

def Command.parse (raw : List UInt8) : Command :=
  let dw := fun i => toNat ((raw.drop (4*i)).take 4)
  { opcode := toNat (raw.take 1)
    cid := toNat ((raw.drop 2).take 2)
    nsid := dw 1
    prp1 := join (dw 6) (dw 7)
    prp2 := join (dw 8) (dw 9)
    cdw10 := dw 10
    cdw11 := dw 11
    cdw12 := dw 12 }

structure Outcome where
  status : ℕ
  result : ℕ
deriving DecidableEq

def Outcome.ok : Outcome := ⟨0,0⟩

def Outcome.err (status : ℕ) : Outcome := ⟨status,0⟩

def statusField (code : ℕ) (dnr : Bool) : ℕ :=
  (code &&& 0xFF) <<< 1 ||| ((code >>> 8) &&& 0x7) <<< 9 ||| if dnr then 2^15 else 0

def blockStatus : BlockError → ℕ
  | .outOfRange => 0x0080
  | .denied => 0x0182
  | .unaligned => 0x0002
  | .io => 0x0006

def put (page : List UInt8) (off : ℕ) (bytes : List UInt8) : List UInt8 :=
  page.take off ++ bytes ++ page.drop (off+bytes.length)

def padAscii (n : ℕ) (src : List UInt8) : List UInt8 :=
  src.take n ++ replicate (n-src.length) 0x20

/-- The loop of `prp_segments` over the list pages. Every entry places at least one byte, so `fuel`
bounds their number. -/
def prpLoop (m : GuestMemory) : (fuel page index left : ℕ) → List (ℕ × ℕ) → Option (List (ℕ × ℕ))
  | 0, _, _, left, segments => if left = 0 then some segments else none
  | fuel+1, page, index, left, segments =>
    if left = 0 then some segments
    else
      match m.rd64 (add64 page (index*8)) with
      | none => none
      | some entry =>
        -- The last slot of a list page is a chain pointer when more follows.
        let next : Option (ℕ × ℕ × ℕ) :=
          if index = pageSize/8-1 ∧ 1 < divCeil left pageSize then
            if entry = 0 ∨ entry &&& 7 ≠ 0 then none
            else
              let page := entry/pageSize*pageSize
              let index := entry%pageSize/8
              (m.rd64 (add64 page (index*8))).map fun entry => (page,index,entry)
          else some (page,index,entry)
        match next with
        | none => none
        | some (page,index,entry) =>
          if entry = 0 ∨ entry%pageSize ≠ 0 then none
          else
            let n := min left pageSize
            prpLoop m fuel page (index+1) (left-n) (segments ++ [(entry,n)])

def prpSegments (m : GuestMemory) (prp1 prp2 len : ℕ) : Option (List (ℕ × ℕ)) :=
  if len = 0 ∨ maxTransferBytes < len ∨ prp1 = 0 then none
  else
    let first := min (pageSize-prp1%pageSize) len
    let left := len-first
    if left = 0 then some [(prp1,first)]
    else if prp2 = 0 then none
    else if left ≤ pageSize then
      if prp2%pageSize ≠ 0 then none else some [(prp1,first),(prp2,left)]
    else if prp2 &&& 7 ≠ 0 then none
    else
      prpLoop m left (prp2/pageSize*pageSize) (prp2%pageSize/8) left [(prp1,first)]

def scatter (m : GuestMemory) (data : List UInt8) : List (ℕ × ℕ) → ℕ → Bool × GuestMemory
  | [], _ => (true,m)
  | (gpa,len) :: segments, pos =>
    match m.write gpa ((data.drop pos).take len) with
    | none => (false,m)
    | some m' => scatter m' data segments (pos+len)

def gather (m : GuestMemory) : List (ℕ × ℕ) → Option (List UInt8)
  | [] => some []
  | (gpa,len) :: segments =>
    match m.read gpa len, gather m segments with
    | some bytes, some rest => some (bytes ++ rest)
    | _, _ => none

def writePrp (m : GuestMemory) (prp1 prp2 : ℕ) (data : List UInt8) : Bool × GuestMemory :=
  match prpSegments m prp1 prp2 data.length with
  | none => (false,m)
  | some segments => scatter m data segments 0

def transferOut (m : GuestMemory) (c : Command) (data : List UInt8) : Outcome × GuestMemory :=
  match writePrp m c.prp1 c.prp2 data with
  | (true,m) => (.ok,m)
  | (false,m) => (.err 0x0004,m)

def getLogPage (c : Command) (m : GuestMemory) : Outcome × GuestMemory :=
  let numd := ((c.cdw10 >>> 16) &&& 0xFFF) ||| (c.cdw11 &&& 0xFFFF) <<< 12
  let len := (numd+1)*4
  if maxTransferBytes < len then (.err 0x0002,m)
  else
    let page := replicate len 0
    let page :=
      if c.cdw10 &&& 0xFF = 0x02 ∧ 512 ≤ len then put page 1 (bytes 2 313 ++ [100,10])
      else page
    transferOut m c page

end Nvme
open Nvme

structure NvmeDevice (β : Type) where
  backend : β
  identity : NvmeIdentity
  pci : PciFunction
  regs : Regs
  /-- Queue 0 is the admin queue. -/
  sqs : ℕ → Option Sq
  cqs : ℕ → Option Cq
  features : List (ℕ × ℕ)
  grantedQueues : ℕ
  aerPending : List ℕ
  readOnly : Bool

namespace NvmeDevice
variable {β : Type}

def new (backend : β) (identity : NvmeIdentity) (readOnly : Bool) : NvmeDevice β where
  backend := backend
  identity := identity
  pci := ⟨0⟩
  regs := ⟨0,0,0,0,0,0⟩
  sqs := fun _ => none
  cqs := fun _ => none
  features := [(1,0),(2,0),(4,0x0157),(5,0),(6,0),(7,0),(8,0),(9,0),(0xA,0), (0xB,0)]
  grantedQueues := 0
  aerPending := []
  readOnly := readOnly

def ready (d : NvmeDevice β) : Bool := d.regs.csts &&& 1 ≠ 0

def nguid (d : NvmeDevice β) : List UInt8 :=
  let folded := d.identity.serial.zipIdx.foldl
    (fun g (b,i) =>
      let r := i/16%8
      g.set (i%16) (g.getD (i%16) 0 ^^^ (b <<< .ofNat r ||| b >>> .ofNat ((8-r)%8))))
    (replicate 16 0)
  put folded 0 [0x00,0x25,0x38]

def identifyController (d : NvmeDevice β) : List UInt8 :=
  let nqn := "nqn.2026-10.org.enlil:".toUTF8.toList ++ d.identity.serial
  let fields : List (ℕ × List UInt8) :=
    [(0,bytes 2 d.identity.vendor),(2,bytes 2 d.identity.vendor),
      (4,padAscii 20 d.identity.serial),(24,padAscii 40 d.identity.model),
      (64,padAscii 8 d.identity.firmware),(73,[0x00,0x25,0x38]),(77,[5]),
      (80,bytes 4 0x00010300),(259,[.ofNat (aerLimit-1)]),(260,[0x02]),(262,[63]),
      (266,bytes 2 0x0157),(268,bytes 2 0x015F),(512,[0x66]),(513,[0x44]),
      (516,bytes 4 1),(520,bytes 2 (2^3 ||| 2^2)),(768,nqn.take 223)]
  fields.foldl (fun page (off,bytes) => put page off bytes) (replicate pageSize 0)

variable [BlockBackend β]

def identifyNamespace (d : NvmeDevice β) : List UInt8 :=
  let sectors := bytes 8 (sectors d.backend)
  let fields : List (ℕ × List UInt8) :=
    [(0,sectors),(8,sectors),(16,sectors),(104,d.nguid),(128,bytes 4 (9 <<< 16))]
  fields.foldl (fun page (off,bytes) => put page off bytes) (replicate pageSize 0)

def identify (d : NvmeDevice β) (c : Command) (m : GuestMemory) : Outcome × GuestMemory :=
  let empty : List UInt8 := replicate pageSize 0
  let cns := c.cdw10 &&& 0xFF
  if cns = 0x00 then
    if c.nsid ≠ 1 ∧ c.nsid ≠ 0xFFFFFFFF then (.err 0x000B,m)
    else transferOut m c d.identifyNamespace
  else if cns = 0x01 then transferOut m c d.identifyController
  else if cns = 0x02 then
    -- Active namespaces above `nsid`.
    transferOut m c (if c.nsid < 1 then put empty 0 (bytes 4 1) else empty)
  else if cns = 0x03 then
    if c.nsid ≠ 1 then (.err 0x000B,m)
    else transferOut m c (put (put empty 0 [0x02,16]) 4 d.nguid)
  else if cns = 0x10 ∨ cns = 0x12 ∨ cns = 0x13 then transferOut m c empty
  else (.err 0x0002,m)

omit [BlockBackend β] in
lemma size_pos {size : ℕ} (h : 2 ≤ size ∧ size ≤ queueEntriesMax) : 0 < size := by omega

section
variable (d : NvmeDevice β) (c : Command)

def createCq : Outcome × NvmeDevice β :=
  let qid := c.cdw10 &&& 0xFFFF
  let size := ((c.cdw10 >>> 16) &&& 0xFFFF)+1
  if qid = 0 ∨ ioQueuesMax < qid ∨ (d.cqs qid).isSome then (.err 0x0101,d)
  else if h : 2 ≤ size ∧ size ≤ queueEntriesMax then
    if c.cdw11 &&& 1 = 0 ∨ c.prp1 = 0 ∨ c.prp1 &&& 0xFFF ≠ 0 then (.err 0x0002,d)
    else if (c.cdw11 >>> 16) &&& 0xFFFF ≠ 0 then (.err 0x0108,d)
    else
      (.ok,{ d with
        cqs := update d.cqs qid (some (.new c.prp1 size (c.cdw11 &&& 2 ≠ 0) (size_pos h))) })
  else (.err 0x0102,d)

def createSq : Outcome × NvmeDevice β :=
  let qid := c.cdw10 &&& 0xFFFF
  let size := ((c.cdw10 >>> 16) &&& 0xFFFF)+1
  let cqid := (c.cdw11 >>> 16) &&& 0xFFFF
  if qid = 0 ∨ ioQueuesMax < qid ∨ (d.sqs qid).isSome then (.err 0x0101,d)
  else if h : 2 ≤ size ∧ size ≤ queueEntriesMax then
    if cqid = 0 ∨ ioQueuesMax < cqid ∨ (d.cqs cqid).isNone then (.err 0x0100,d)
    else if c.cdw11 &&& 1 = 0 ∨ c.prp1 = 0 ∨ c.prp1 &&& 0xFFF ≠ 0 then (.err 0x0002,d)
    else
      (.ok,{ d with
        sqs := update d.sqs qid (some (.new c.prp1 size cqid (size_pos h))) })
  else (.err 0x0102,d)

def deleteSq : Outcome × NvmeDevice β :=
  let qid := c.cdw10 &&& 0xFFFF
  if qid = 0 ∨ ioQueuesMax < qid ∨ (d.sqs qid).isNone then (.err 0x0101,d)
  else (.ok,{ d with sqs := update d.sqs qid none })

def sqList (d : NvmeDevice β) : List Sq := (range (ioQueuesMax+1)).filterMap d.sqs

def deleteCq : Outcome × NvmeDevice β :=
  let qid := c.cdw10 &&& 0xFFFF
  if qid = 0 ∨ ioQueuesMax < qid ∨ (d.cqs qid).isNone then (.err 0x0101,d)
  else if d.sqList.any fun s => s.cqid = qid then (.err 0x010C,d)
  else (.ok,{ d with cqs := update d.cqs qid none })

def setFeatures : Outcome × NvmeDevice β :=
  let fid := c.cdw10 &&& 0xFF
  if fid = 0x07 then
    let granted := min (min (c.cdw11 &&& 0xFFFF) ((c.cdw11 >>> 16) &&& 0xFFFF)) (ioQueuesMax-1)
    (⟨0,granted ||| granted <<< 16⟩,{ d with grantedQueues := granted })
  else if d.features.any fun f => f.1 = fid then
    (.ok,{ d with features := d.features.map fun f => if f.1 = fid then (fid,c.cdw11) else f })
  else (.err 0x0002,d)

def getFeatures : Outcome :=
  let fid := c.cdw10 &&& 0xFF
  if fid = 0x07 then ⟨0,d.grantedQueues ||| d.grantedQueues <<< 16⟩
  else
    match d.features.find? fun f => f.1 = fid with
    | some f => ⟨0,f.2⟩
    | none => .err 0x0002

def admin (m : GuestMemory) : Outcome × Bool × NvmeDevice β × GuestMemory :=
  if c.opcode = 0x06 then
    let (out,m) := d.identify c m
    (out,false,d,m)
  else if c.opcode = 0x05 then
    let (out,d) := d.createCq c
    (out,false,d,m)
  else if c.opcode = 0x01 then
    let (out,d) := d.createSq c
    (out,false,d,m)
  else if c.opcode = 0x00 then
    let (out,d) := d.deleteSq c
    (out,false,d,m)
  else if c.opcode = 0x04 then
    let (out,d) := d.deleteCq c
    (out,false,d,m)
  else if c.opcode = 0x09 then
    let (out,d) := d.setFeatures c
    (out,false,d,m)
  else if c.opcode = 0x0A then (d.getFeatures c,false,d,m)
  else if c.opcode = 0x02 then
    let (out,m) := getLogPage c m
    (out,false,d,m)
  else if c.opcode = 0x08 then (⟨0,1⟩,false,d,m)
  else if c.opcode = 0x0C then
    if aerLimit ≤ d.aerPending.length then (.err 0x0103,false,d,m)
    else (.ok,true,{ d with aerPending := d.aerPending ++ [c.cid] },m)
  else (.err 0x0001,false,d,m)

def lbaRange (c : Command) : ℕ × ℕ := (join c.cdw10 c.cdw11,(c.cdw12 &&& 0xFFFF)+1)

def inRange (d : NvmeDevice β) (slba blocks : ℕ) : Bool :=
  match checkedAdd64 slba blocks with
  | some stop => stop ≤ sectors d.backend
  | none => false

def transfer (m : GuestMemory) : Outcome × NvmeDevice β × GuestMemory :=
  let (slba,blocks) := lbaRange c
  let bytes := blocks*sectorSize
  if maxTransferBytes < bytes then (.err 0x0002,d,m)
  else if d.inRange slba blocks = false then (.err 0x0080,d,m)
  else
    match prpSegments m c.prp1 c.prp2 bytes with
    | none => (.err 0x0002,d,m)
    | some segments =>
      if c.opcode = 0x02 then
        match read d.backend slba bytes with
        | (.error e,b) => (.err (blockStatus e),{ d with backend := b },m)
        | (.ok buf,b) =>
          match scatter m buf segments 0 with
          | (true,m) => (.ok,{ d with backend := b },m)
          | (false,m) => (.err 0x0004,{ d with backend := b },m)
      else if d.readOnly then (.err 0x0182,d,m)
      else
        match gather m segments with
        | none => (.err 0x0004,d,m)
        | some buf =>
          match write d.backend slba buf with
          | (.error e,b) => (.err (blockStatus e),{ d with backend := b },m)
          | (.ok (),b) => (.ok,{ d with backend := b },m)

/-- The loop of `write_zeroes` in chunks of at most `chunk`. Every chunk has at least one sector, so
`fuel` bounds their number. -/
def zeroLoop (chunk : ℕ) : (fuel : ℕ) → β → (lba left : ℕ) → Except BlockError Unit × β
  | 0, b, _, _ => (.ok (),b)
  | fuel+1, b, lba, left =>
    if left = 0 then (.ok (),b)
    else
      let n := min left chunk
      match write b lba (replicate (n*sectorSize) 0) with
      | (.error e,b) => (.error e,b)
      | (.ok (),b) => zeroLoop chunk fuel b (lba+n) (left-n)

def writeZeroes : Outcome × NvmeDevice β :=
  let (slba,blocks) := lbaRange c
  if d.inRange slba blocks = false then (.err 0x0080,d)
  else if d.readOnly then (.err 0x0182,d)
  else
    match zeroLoop (min maxTransferBytes (blocks*sectorSize)/sectorSize) blocks d.backend slba
      blocks with
    | (.error e,b) => (.err (blockStatus e),{ d with backend := b })
    | (.ok (),b) => (.ok,{ d with backend := b })

def io (m : GuestMemory) : Outcome × NvmeDevice β × GuestMemory :=
  if c.nsid ≠ 1 ∧ c.nsid ≠ 0xFFFFFFFF then (.err 0x000B,d,m)
  else if c.opcode = 0x00 then
    match flush d.backend with
    | (.ok (),b) => (.ok,{ d with backend := b },m)
    | (.error e,b) => (.err (blockStatus e),{ d with backend := b },m)
  else if c.opcode = 0x02 ∨ c.opcode = 0x01 then d.transfer c m
  else if c.opcode = 0x08 then
    let (out,d) := d.writeZeroes c
    (out,d,m)
  -- Deallocation is only a hint.
  else if c.opcode = 0x09 then (.ok,d,m)
  else (.err 0x0001,d,m)

end

structure Posted where
  cqid : ℕ
  slot : ℕ
  entry : List UInt8

def completionEntry (qid sqHead cid : ℕ) (out : Outcome) (phase : Bool) : List UInt8 :=
  let status := statusField out.status (out.status ≠ 0) ||| if phase then 1 else 0
  bytes 4 out.result ++ bytes 4 0 ++ bytes 2 sqHead ++ bytes 2 qid ++ bytes 2 cid ++ bytes 2 status

/-- Post a completion on queue `cqid` for a command from queue `qid`: the body first, then the
status with the phase. -/
def complete (d : NvmeDevice β) (qid cqid cid : ℕ) (out : Outcome) (m : GuestMemory) :
    Option Posted × NvmeDevice β × GuestMemory :=
  match d.cqs cqid with
  | none => (none,d,m)
  | some cq =>
    let sqHead := (d.sqs qid).elim 0 (·.head)
    let entry := completionEntry qid sqHead cid out cq.phase
    let addr := cq.slotAddr cq.tail
    let m := m.tryWrite addr (entry.take 14)
    let m := m.tryWrite (add64 addr 14) (entry.drop 14)
    (some ⟨cqid,cq.tail,entry⟩,{ d with cqs := update d.cqs cqid (some cq.post) },m)

/-- One command that was run, with the controller and the memory before and after it. -/
structure Step (β : Type) where
  qid : ℕ
  before : NvmeDevice β
  memBefore : GuestMemory
  fetched : Option Command
  held : Bool
  posted : Option Posted
  after : NvmeDevice β
  mem : GuestMemory

def dispatch (d : NvmeDevice β) (qid : ℕ) (c : Command) (m : GuestMemory) :
    Outcome × Bool × NvmeDevice β × GuestMemory :=
  if qid = 0 then d.admin c m
  else
    let (out,d,m) := d.io c m
    (out,false,d,m)

def runCommand (d : NvmeDevice β) (qid : ℕ) (cmd : Option Command) (m : GuestMemory) :
    Outcome × Bool × NvmeDevice β × GuestMemory :=
  match cmd with
  | none => (.err 0x0004,false,d,m)
  | some c => d.dispatch qid c m

def finish (before : NvmeDevice β) (memBefore : GuestMemory) (qid cqid : ℕ)
    (cmd : Option Command) (r : Outcome × Bool × NvmeDevice β × GuestMemory) : Step β :=
  let (out,held,d,m) := r
  if held then ⟨qid,before,memBefore,cmd,true,none,d,m⟩
  else
    let (posted,d,m) := d.complete qid cqid (cmd.elim 0 (·.cid)) out m
    ⟨qid,before,memBefore,cmd,false,posted,d,m⟩

/-- Run one command from submission queue `qid`, if one is waiting and its completion queue has
room. -/
def stepQueue (d : NvmeDevice β) (m : GuestMemory) (qid : ℕ) : Option (Step β) :=
  match d.sqs qid with
  | none => none
  | some sq =>
    if sq.head = sq.tail then none
    else
      match d.cqs sq.cqid with
      | none => none
      | some cq =>
        if cq.isFull then none
        else
          let cmd := (m.read (add64 sq.base (sq.head*64)) 64).map Command.parse
          -- The head advances first: even a command that cannot be read completes.
          let d' := { d with sqs := update d.sqs qid (some sq.fetch) }
          some (finish d m qid sq.cqid cmd (d'.runCommand qid cmd m))

end NvmeDevice
end Enlil.Boot
