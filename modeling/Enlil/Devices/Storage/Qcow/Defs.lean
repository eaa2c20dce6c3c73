import Enlil.Lib.Bytes
import Enlil.Lib.Word

/-!
# Qcow2 images: model of `storage/qcow.rs`

An image is a host file with the tables that the backend keeps in memory. Sums and products wrap at
64 bits; a shift by the word's width, a division by zero, a difference below zero or a slice out of
range ends the program without a result. A file position from `2 ^ 63` on cannot be sought, a read
past the end fails, and no file becomes longer than the host allows. Other host failures are left
out, and so are the lock of an operation and the consistency check, which no operation runs.
-/

namespace Enlil.Devices.Storage
open Prog Word

inductive QcowError where
  | headerTooShort (len : ℕ)
  | badMagic (magic : ℕ)
  | unsupportedVersion (version : ℕ)
  | fileTooSmall
  | unexpectedEof
  | invalidSeek
  | fileTooLarge
  | notFound
  | notUtf8
  | unsupportedWidth (bits : ℕ)
  | unwritableWidth (bits : ℕ)
  | noRefcountBlock (cluster : ℕ)
  | selfCoverageBroken (cluster slot : ℕ)
  | noRefcountTable (cluster offset clusters : ℕ)
  | growthBeyondTable (slot entries : ℕ)
  | beyondL1Table (offset : ℕ)
  | readOnly
  deriving DecidableEq

/-! ### The header -/

def qcow2Magic : ℕ := 0x514649FB

def l2OffsetMask : ℕ := 0x00FFFFFFFFFFFE00

def oflagZero : ℕ := 0x1

def oflagCopied : ℕ := 2^63

def reftOffsetMask : ℕ := 0xFFFFFFFFFFFFFE00

structure QcowHeader where
  version : ℕ
  backingFileOffset : ℕ
  backingFileSize : ℕ
  clusterBits : ℕ
  size : ℕ
  l1Size : ℕ
  l1TableOffset : ℕ
  refcountTableOffset : ℕ
  refcountTableClusters : ℕ
  refcountOrder : ℕ
  deriving DecidableEq

def QcowHeader.fromBytes (bytes : Buf) : Except QcowError QcowHeader :=
  let version := bytes.readBE 4 4
  if bytes.len < 72 then .error (.headerTooShort bytes.len)
  else if bytes.readBE 0 4 ≠ qcow2Magic then .error (.badMagic (bytes.readBE 0 4))
  else if version ≠ 2 ∧ version ≠ 3 then .error (.unsupportedVersion version)
  else .ok {
    version
    backingFileOffset := bytes.readBE 8 8
    backingFileSize := bytes.readBE 16 4
    clusterBits := bytes.readBE 20 4
    size := bytes.readBE 24 8
    l1Size := bytes.readBE 36 4
    l1TableOffset := bytes.readBE 40 8
    refcountTableOffset := bytes.readBE 48 8
    refcountTableClusters := bytes.readBE 56 4
    refcountOrder := if 3 ≤ version ∧ 100 ≤ bytes.len then bytes.readBE 96 4 else 4 }

/-- What an open image holds: its host file, the place of the refcount table and the L1 table. -/
structure QcowImage where
  file : Buf
  rtOffset : ℕ
  rtClusters : ℕ
  l1Table : List ℕ

abbrev QcowOp := Prog QcowImage QcowError

namespace QcowHeader
variable (h : QcowHeader)

def clusterSize : QcowOp ℕ := oneShl 64 h.clusterBits

def l2Entries : QcowOp ℕ := do
  let cs ← h.clusterSize
  pure (cs/8)

def refcountBits : QcowOp ℕ := oneShl 32 h.refcountOrder

def refcountBlockEntries : QcowOp ℕ := do
  let cs ← h.clusterSize
  let bits ← h.refcountBits
  pure (mul64 cs 8/bits)

def refcountTableClustersFor (rtIndex : ℕ) : QcowOp ℕ := do
  let bytesNeeded := mul64 (add64 rtIndex 1) 8
  let cs ← h.clusterSize
  let clusters := max (divCeil bytesNeeded cs) h.refcountTableClusters
  pure (min clusters (2^32-1))

end QcowHeader

/-! ### The host file -/

namespace QcowImage

def seek (pos : ℕ) : QcowOp Unit := ensure (pos < 2^63) .invalidSeek

def readExact (pos n : ℕ) : QcowOp (List UInt8) := do
  seek pos
  let s ← gets id
  ensure (n = 0 ∨ pos+n ≤ s.file.len) .unexpectedEof
  pure (s.file.slice pos n)

def readBE (pos n : ℕ) : QcowOp ℕ := do
  seek pos
  let s ← gets id
  ensure (pos+n ≤ s.file.len) .unexpectedEof
  pure (s.file.readBE pos n)

/-- Write `n` bytes from `pos` on into a file of at most `maxLen` bytes. -/
def writeAll (maxLen pos n : ℕ) (f : ℕ → UInt8) : QcowOp Unit := do
  seek pos
  if n = 0 then pure ()
  else
    ensure (pos+n ≤ maxLen) .fileTooLarge
    modify fun s => { s with file := s.file.store pos n f }

def writeBE (maxLen pos n v : ℕ) : QcowOp Unit :=
  writeAll maxLen pos n fun i => .ofNat (v/256^(n-1-i))

def setLen (maxLen n : ℕ) : QcowOp Unit := do
  ensure (n ≤ maxLen) .fileTooLarge
  modify fun s => { s with file := s.file.resize n }

end QcowImage
open QcowImage

def nextMultipleOf (a b : ℕ) : ℕ := if a%b = 0 then a else add64 a (b-a%b)

/-! ### Reading -/

inductive ClusterLoc where
  | mapped (hostOffset : ℕ)
  | zero
  | unallocated
  deriving DecidableEq

abbrev Reader := ℕ → ℕ → Option (Except QcowError (List UInt8))

def fill (n : ℕ) (bytes : List UInt8) : List UInt8 := bytes ++ List.replicate (n-bytes.length) 0

section
variable (h : QcowHeader)

def resolveCluster (guestOffset : ℕ) : QcowOp ClusterLoc := do
  let cs ← h.clusterSize
  let l2Entries ← h.l2Entries
  let l1Index ← div guestOffset (mul64 l2Entries cs)
  let s ← gets id
  if s.l1Table.length ≤ l1Index then pure .unallocated
  else
    let l2TableOffset := s.l1Table.getD l1Index 0 &&& l2OffsetMask
    if l2TableOffset = 0 then pure .unallocated
    else
      let l2Index ← rem (guestOffset/cs) l2Entries
      let l2Entry ← readBE (add64 l2TableOffset (mul64 l2Index 8)) 8
      if l2Entry &&& oflagZero ≠ 0 then pure .zero
      else
        let hostClusterOffset := l2Entry &&& l2OffsetMask
        if hostClusterOffset = 0 then pure .unallocated
        else
          let mask ← sub cs 1
          pure (.mapped (add64 hostClusterOffset (guestOffset &&& mask)))

def readFrom (backing : Option Reader) (offset chunk : ℕ) : ClusterLoc → QcowOp (List UInt8)
  | .mapped hostOffset => readExact hostOffset chunk
  | .zero => pure (List.replicate chunk 0)
  | .unallocated =>
    match backing with
    | none => pure (List.replicate chunk 0)
    | some read => do
      let bytes ← ofOutcome (read offset chunk)
      pure (fill chunk bytes)

/-- One pass through the loop of `read_at`, within a cluster. -/
def readChunk (backing : Option Reader) (offset chunk : ℕ) : QcowOp (List UInt8) := do
  let loc ← resolveCluster h offset
  readFrom backing offset chunk loc

/-- The loop of `read_at`; each pass reads at least one byte. -/
def readLoop (backing : Option Reader) : (fuel remaining offset : ℕ) → QcowOp (List UInt8)
  | 0, _, _ => pure []
  | fuel+1, remaining, offset =>
    if remaining = 0 then pure []
    else do
      let cs ← h.clusterSize
      let chunk := min remaining (cs-offset%cs)
      let bytes ← readChunk h backing offset chunk
      let rest ← readLoop backing fuel (remaining-chunk) (add64 offset chunk)
      pure (bytes ++ rest)

def readAt (backing : Option Reader) (offset len : ℕ) : QcowOp (List UInt8) :=
  if h.size ≤ offset then pure []
  else
    let remaining := min len (h.size-offset)
    readLoop h backing remaining remaining offset

end

def rawReadAt (file : Buf) : Reader := fun offset len =>
  if 2^63 ≤ offset then some (.error .invalidSeek)
  else some (.ok (fill len (file.slice offset (min len (file.len-offset)))))

inductive Backing where
  | none
  | raw (file : Buf)
  | qcow (header : QcowHeader) (image : QcowImage) (backing : Backing)

def Backing.reader : Backing → Option Reader
  | .none => Option.none
  | .raw file => some (rawReadAt file)
  | .qcow header image backing =>
    some fun offset len => ((readAt header backing.reader offset len) image).map Prod.fst

/-! ### Refcounts -/

section
variable (h : QcowHeader)

def rtEntries : QcowOp ℕ := do
  let s ← gets id
  let cs ← h.clusterSize
  pure (mul64 s.rtClusters cs/8)

def refcountBlockOffset (clusterIndex : ℕ) : QcowOp (Option ℕ) := do
  let rbEntries ← h.refcountBlockEntries
  let rtIndex ← div clusterIndex rbEntries
  let entries ← rtEntries h
  if entries ≤ rtIndex then pure none
  else
    let s ← gets id
    let entry ← readBE (add64 s.rtOffset (mul64 rtIndex 8)) 8
    let blockOffset := entry &&& reftOffsetMask
    pure (if blockOffset = 0 then none else some blockOffset)

def refcountWidth : ℕ → Option ℕ
  | 8 => some 1
  | 16 => some 2
  | 32 => some 4
  | 64 => some 8
  | _ => none

def readRefcount (clusterIndex : ℕ) : QcowOp ℕ := do
  match ← refcountBlockOffset h clusterIndex with
  | none => pure 0
  | some blockOffset =>
    let rbEntries ← h.refcountBlockEntries
    let blockIndex ← rem clusterIndex rbEntries
    let bits ← h.refcountBits
    if bits = 1 ∨ bits = 2 ∨ bits = 4 then
      let perByte := 8/bits
      let byte ← readBE (add64 blockOffset (blockIndex/perByte)) 1
      let within ← sub (perByte-1) (blockIndex%perByte)
      let shift := within*bits
      assert (shift < 64)
      pure ((byte >>> shift) &&& (2^bits-1))
    else
      match refcountWidth bits with
      | some w => readBE (add64 blockOffset (mul64 blockIndex w)) w
      | none => throw (.unsupportedWidth bits)

variable (maxLen : ℕ)

def writeRefcount (clusterIndex value : ℕ) : QcowOp Unit := do
  match ← refcountBlockOffset h clusterIndex with
  | none => throw (.noRefcountBlock clusterIndex)
  | some blockOffset =>
    let rbEntries ← h.refcountBlockEntries
    let blockIndex ← rem clusterIndex rbEntries
    let bits ← h.refcountBits
    match refcountWidth bits with
    | some w => writeBE maxLen (add64 blockOffset (mul64 blockIndex w)) w value
    | none => throw (.unwritableWidth bits)

/-! ### Growing the refcount table -/

/-- The loop that finds the number of new blocks. A number that falls short is replaced by a larger
one, so that fewer than `2 ^ 64` passes are made. -/
def blockCount (rbe blkStart firstSlot : ℕ) : (fuel nb : ℕ) → QcowOp (ℕ × ℕ)
  | 0, _ => panic
  | fuel+1, nb => do
    let topSlot ← div (add64 blkStart nb) rbe
    let d ← sub topSlot firstSlot
    let needed := add64 d 1
    if needed ≤ nb then pure (topSlot,nb) else blockCount rbe blkStart firstSlot fuel needed

def buildTable (cs oldOff oldClusters newClusters blkStart firstSlot topSlot : ℕ) :
    QcowOp Buf := do
  let table := Buf.zeros (mul64 newClusters cs)
  let oldLen := mul64 oldClusters cs
  assert (oldLen ≤ table.len)
  let old ← readExact oldOff oldLen
  foldN (topSlot+1-firstSlot) (table.put 0 old) fun k table => do
    let p := mul64 (firstSlot+k) 8
    assert (p+8 ≤ table.len)
    pure (table.writeBE p 8 (mul64 (add64 blkStart k) cs))

def buildBlocks (cs rbe nb arenaStart arenaEnd firstSlot : ℕ) : QcowOp Buf := do
  let bits ← h.refcountBits
  foldN (arenaEnd-arenaStart) (Buf.zeros (mul64 nb cs)) fun k blocks => do
    let cluster := arenaStart+k
    let slot ← div cluster rbe
    let ordinal ← sub slot firstSlot
    let within ← rem cluster rbe
    let base := mul64 ordinal cs
    match refcountWidth bits with
    | some w =>
      let p := add64 base (mul64 within w)
      assert (p+w ≤ blocks.len)
      pure (blocks.writeBE p w 1)
    | none => throw (.unwritableWidth bits)

def freeOldTable (oldFirst oldClusters : ℕ) : QcowOp Unit :=
  forN oldClusters fun k => do
    let rc ← readRefcount h (oldFirst+k)
    writeRefcount h maxLen (oldFirst+k) (rc-1)

def publishTable (newOff newClusters oldFirst oldClusters : ℕ) (table blocks : Buf) :
    QcowOp Unit := do
  writeAll maxLen newOff table.len table.byte
  writeAll maxLen (newOff+table.len) blocks.len blocks.byte
  modify fun s => { s with rtOffset := newOff, rtClusters := newClusters%2^32 }
  writeBE maxLen 48 8 newOff
  writeBE maxLen 56 4 newClusters
  freeOldTable h maxLen oldFirst oldClusters

def growRefcountTable (rtIndex : ℕ) : QcowOp Unit := do
  let cs ← h.clusterSize
  let rbe ← h.refcountBlockEntries
  let s ← gets id
  let oldOff := s.rtOffset
  let oldClusters := s.rtClusters
  let oldEntries ← rtEntries h
  if oldClusters = 0 ∨ oldOff = 0 then
    throw (.noRefcountTable (mul64 rtIndex rbe) oldOff oldClusters)
  else
    let newClusters ← h.refcountTableClustersFor rtIndex
    if newClusters ≤ oldClusters then pure ()
    else
      let newEntries := mul64 newClusters cs/8
      let arenaStart := divCeil s.file.len cs
      let blkStart := add64 arenaStart newClusters
      let (topSlot,nb) ← blockCount rbe blkStart oldEntries (2^64) 1
      let arenaEnd := add64 blkStart nb
      if newEntries ≤ topSlot then throw (.growthBeyondTable topSlot newEntries)
      else
        let table ← buildTable cs oldOff oldClusters newClusters blkStart oldEntries topSlot
        let blocks ← buildBlocks h cs rbe nb arenaStart arenaEnd oldEntries
        publishTable h maxLen (mul64 arenaStart cs) newClusters (oldOff/cs) oldClusters table blocks

/-! ### Allocating -/

def appendRefcountBlock (rbEntries rtIndex : ℕ) : QcowOp ℕ := do
  let cs ← h.clusterSize
  let s ← gets id
  let blockOff := nextMultipleOf s.file.len cs
  setLen maxLen (add64 blockOff cs)
  let blockSelfIndex := blockOff/cs
  let slot ← div blockSelfIndex rbEntries
  if slot ≠ rtIndex then throw (.selfCoverageBroken blockSelfIndex rtIndex)
  else
    let s ← gets id
    writeBE maxLen (add64 s.rtOffset (mul64 rtIndex 8)) 8 blockOff
    writeRefcount h maxLen blockSelfIndex 1
    pure blockOff

def coverSlot (rtIndex : ℕ) : QcowOp Unit := do
  let entries ← rtEntries h
  if entries ≤ rtIndex then growRefcountTable h maxLen rtIndex else pure ()

def allocateRefcountBlock (clusterIndex : ℕ) : QcowOp ℕ := do
  let rbEntries ← h.refcountBlockEntries
  let rtIndex ← div clusterIndex rbEntries
  coverSlot h maxLen rtIndex
  match ← refcountBlockOffset h clusterIndex with
  | some off => pure off
  | none => appendRefcountBlock h maxLen rbEntries rtIndex

/-- The loop of `allocate_host_cluster`; each pass but the last makes the file longer. -/
def allocateLoop : ℕ → QcowOp ℕ
  | 0 => panic
  | fuel+1 => do
    let cs ← h.clusterSize
    let s ← gets id
    let offset := nextMultipleOf s.file.len cs
    let index := offset/cs
    match ← refcountBlockOffset h index with
    | some _ =>
      setLen maxLen (add64 offset cs)
      writeRefcount h maxLen index 1
      pure offset
    | none =>
      let _ ← allocateRefcountBlock h maxLen index
      allocateLoop fuel

def allocateHostCluster : QcowOp ℕ := allocateLoop h maxLen (maxLen+1)

def allocateL2Table (l1Index : ℕ) : QcowOp ℕ := do
  let l2Off ← allocateHostCluster h maxLen
  let entry := l2Off ||| oflagCopied
  writeBE maxLen (add64 h.l1TableOffset (mul64 l1Index 8)) 8 entry
  let s ← gets id
  assert (l1Index < s.l1Table.length)
  modify fun s => { s with l1Table := s.l1Table.set l1Index entry }
  pure l2Off

def l2TableAt (l1Index existing : ℕ) : QcowOp ℕ :=
  if existing = 0 then allocateL2Table h maxLen l1Index else pure existing

/-- Fill a fresh data cluster with what the backing image has there, unless the old L2 entry says that
the cluster reads as zeros or has data. -/
def copyOnWrite (backing : Option Reader) (cs old guestOffset dataOff : ℕ) : QcowOp Unit :=
  match backing with
  | none => pure ()
  | some read =>
    if old &&& oflagZero = 0 ∧ old &&& l2OffsetMask = 0 then do
      let mask ← sub cs 1
      let bytes ← ofOutcome (read (guestOffset &&& not64 mask) cs)
      writeAll maxLen dataOff cs fun i => (fill cs bytes).getD i 0
    else pure ()

def allocateDataCluster (backing : Option Reader) (guestOffset : ℕ) : QcowOp ℕ := do
  let cs ← h.clusterSize
  let l2Entries ← h.l2Entries
  let l1Index ← div guestOffset (mul64 l2Entries cs)
  let s ← gets id
  if s.l1Table.length ≤ l1Index then throw (.beyondL1Table guestOffset)
  else
    let existing := s.l1Table.getD l1Index 0 &&& l2OffsetMask
    let l2TableOffset ← l2TableAt h maxLen l1Index existing
    let l2Index ← rem (guestOffset/cs) l2Entries
    let l2EntryOff := add64 l2TableOffset (mul64 l2Index 8)
    let old ← readBE l2EntryOff 8
    let dataOff ← allocateHostCluster h maxLen
    copyOnWrite maxLen backing cs old guestOffset dataOff
    writeBE maxLen l2EntryOff 8 (dataOff ||| oflagCopied)
    pure dataOff

def discardCluster (guestOffset : ℕ) : QcowOp Unit := do
  let cs ← h.clusterSize
  let l2Entries ← h.l2Entries
  let l1Index ← div guestOffset (mul64 l2Entries cs)
  let s ← gets id
  if s.l1Table.length ≤ l1Index then pure ()
  else
    let l2TableOffset := s.l1Table.getD l1Index 0 &&& l2OffsetMask
    if l2TableOffset = 0 then pure ()
    else
      let l2Index ← rem (guestOffset/cs) l2Entries
      let l2EntryOff := add64 l2TableOffset (mul64 l2Index 8)
      let entry ← readBE l2EntryOff 8
      let dataOff := entry &&& l2OffsetMask
      if entry &&& oflagZero ≠ 0 ∨ dataOff = 0 then pure ()
      else
        let dataIndex := dataOff/cs
        let rc ← readRefcount h dataIndex
        writeRefcount h maxLen dataIndex (rc-1)
        writeBE maxLen l2EntryOff 8 oflagZero

end

/-! ### The backend
-/

structure QcowBackend where
  header : QcowHeader
  writable : Bool
  backing : Backing
  maxLen : ℕ

structure PlannedWrite where
  hostOffset : ℕ
  bufStart : ℕ
  len : ℕ
  deriving DecidableEq

namespace QcowBackend
variable (q : QcowBackend)

def readAt (offset len : ℕ) : QcowOp (List UInt8) :=
  Storage.readAt q.header q.backing.reader offset len

def targetOf (offset : ℕ) : QcowOp ℕ := do
  match ← resolveCluster q.header offset with
  | .mapped hostOffset => pure hostOffset
  | _ =>
    let dataOff ← allocateDataCluster q.header q.maxLen q.backing.reader offset
    let cs ← q.header.clusterSize
    let mask ← sub cs 1
    pure (add64 dataOff (offset &&& mask))

/-- The first pass of `write_at`; each step plans at least one byte. -/
def planWrites (writableLen : ℕ) : (fuel done offset : ℕ) → QcowOp (List PlannedWrite)
  | 0, _, _ => pure []
  | fuel+1, done, offset =>
    if writableLen ≤ done then pure []
    else do
      let cs ← q.header.clusterSize
      let chunk := min (writableLen-done) (cs-offset%cs)
      let hostOffset ← q.targetOf offset
      let rest ← planWrites writableLen fuel (done+chunk) (add64 offset chunk)
      pure (⟨hostOffset,done,chunk⟩ :: rest)

def applyWrites (buf : List UInt8) : List PlannedWrite → QcowOp Unit
  | [] => pure ()
  | w :: rest => do
    assert (w.bufStart+w.len ≤ buf.length)
    writeAll q.maxLen w.hostOffset w.len fun i => buf.getD (w.bufStart+i) 0
    applyWrites buf rest

def writeAt (offset : ℕ) (buf : List UInt8) : QcowOp ℕ :=
  if q.writable = false then throw .readOnly
  else if q.header.size ≤ offset then pure 0
  else do
    let writableLen := min buf.length (q.header.size-offset)
    let plan ← q.planWrites writableLen writableLen 0 offset
    q.applyWrites buf plan
    pure writableLen

def trimLoop (cs stop : ℕ) : (fuel g : ℕ) → QcowOp Unit
  | 0, _ => panic
  | fuel+1, g =>
    if add64 g cs ≤ stop then do
      discardCluster q.header q.maxLen g
      trimLoop cs stop fuel (add64 g cs)
    else pure ()

/-- `trim`. A loop that ends makes at most one pass for each cluster below `2 ^ 64`, and one more. -/
def trim (offset len : ℕ) : QcowOp Unit :=
  if q.writable = false ∨ len = 0 ∨ q.header.size ≤ offset then pure ()
  else do
    let cs ← q.header.clusterSize
    let stop := min (min (offset+len) (2^64-1)) q.header.size
    q.trimLoop cs stop (2^64/cs+2) (mul64 (divCeil offset cs) cs)

end QcowBackend
end Enlil.Devices.Storage
