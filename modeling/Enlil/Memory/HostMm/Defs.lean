import Enlil.Lib.Checked
import Enlil.Memory.Frames
import Enlil.Memory.Paging

/-! # Host virtual memory: the address space -/

namespace Enlil.Memory
open Word Paging Flags Checked Prog

abbrev pageSize : ℕ := 4096
abbrev tableBytes : ℕ := 4096

def frameAddrMask : ℕ := 0x000FFFFFFFFFF000
def huge2mibAddrMask : ℕ := 0x000FFFFFFFE00000
def huge1gibAddrMask : ℕ := 0x000FFFFFC0000000
def huge2mibOffsetMask : ℕ := 0x1FFFFF
def huge1gibOffsetMask : ℕ := 0x3FFFFFFF

abbrev vaLimit : ℕ := 1 <<< 48

namespace Prot

def read : UInt8 := 0b001
def write : UInt8 := 0b010
def exec : UInt8 := 0b100

end Prot

structure GuardPages where
  low : ℕ
  high : ℕ
deriving DecidableEq, Repr

def GuardPages.count (g : GuardPages) : ℕ := add64 g.low g.high

structure MmapOptions where
  prot : UInt8
  guard : GuardPages
  va : Option ℕ
  extraFlags : ℕ
deriving DecidableEq, Repr

inductive MmError where
  | emptyRegion
  | unalignedAddress
  | nonCanonicalAddress
  | addressOverflow
  | outOfTableMemory
  | outOfVirtualMemory
  | outOfPhysicalFrames
  | overlappingMapping
  | pageNotMapped
  | hugePageOnPath
  | tablePoolOutOfImage
deriving DecidableEq, Repr

def protFlags (prot : UInt8) : ℕ :=
  present ||| (if prot &&& Prot.write ≠ 0 then writable else 0) |||
    (if prot &&& Prot.exec = 0 then noExecute else 0)

structure Region where
  base : ℕ
  pages : ℕ
  guardLow : ℕ
  guardHigh : ℕ
  prot : UInt8
  owned : Bool
deriving DecidableEq, Repr

namespace Region

def reservedBase (r : Region) : ℕ := sub64 r.base (mul64 r.guardLow pageSize)

def reservedPages (r : Region) : ℕ := add64 (add64 r.guardLow r.pages) r.guardHigh

def reservedEnd (r : Region) : ℕ := add64 r.reservedBase (mul64 r.reservedPages pageSize)

def usableEnd (r : Region) : ℕ := add64 r.base (mul64 r.pages pageSize)

end Region

structure HostAddressSpace where
  image : Buf
  imagePhysBase : ℕ
  cr3 : ℕ
  tablePoolStart : ℕ
  tableCursor : ℕ
  tableLimit : ℕ
  vaBase : ℕ
  vaLimit : ℕ
  mappings : List Region

def validateVa (va : ℕ) : Except MmError Unit := do
  ensure (va &&& (pageSize-1) = 0) .unalignedAddress
  ensure (va < vaLimit) .nonCanonicalAddress

namespace HostAddressSpace
section
variable (s : HostAddressSpace)

def initTablePool (base pages : ℕ) (reserveFirst : Bool) :
    Except MmError HostAddressSpace := do
  ensure (pages ≠ 0) .emptyRegion
  ensure (base &&& (pageSize-1) = 0) .unalignedAddress
  ensure (s.imagePhysBase ≤ base) .tablePoolOutOfImage
  let start := base-s.imagePhysBase
  let len ← ofOption .addressOverflow (checkedMul64 pages pageSize)
  let last ← ofOption .tablePoolOutOfImage (checkedAdd64 start len)
  ensure (last ≤ s.image.len) .tablePoolOutOfImage
  let s := { s with tablePoolStart := start, tableCursor := start, tableLimit := last }
  pure <|
    if reserveFirst then
      { s with
        image := s.image.zero start tableBytes
        tableCursor := start+tableBytes
        cr3 := base }
    else s

def empty (image : Buf) (imagePhysBase tablePoolBase tablePoolPages vaBase vaLen : ℕ) :
    Except MmError HostAddressSpace := do
  ensure (tablePoolPages ≠ 0 ∧ vaLen ≠ 0) .emptyRegion
  ensure (tablePoolBase &&& (pageSize-1) = 0 ∧ vaBase &&& (pageSize-1) = 0) .unalignedAddress
  let last ← ofOption .addressOverflow (checkedAdd64 vaBase vaLen)
  ensure (last ≤ Memory.vaLimit) .nonCanonicalAddress
  initTablePool ⟨image,imagePhysBase,tablePoolBase,0,0,0,vaBase,last,[]⟩
    tablePoolBase tablePoolPages true

def overIdentity (image : Buf) (cr3 vaBase vaLen : ℕ) : Except MmError HostAddressSpace := do
  ensure (vaLen ≠ 0) .emptyRegion
  ensure (vaBase &&& (pageSize-1) = 0) .unalignedAddress
  let last ← ofOption .addressOverflow (checkedAdd64 vaBase vaLen)
  ensure (last ≤ Memory.vaLimit) .nonCanonicalAddress
  pure ⟨image,0,cr3,0,0,0,vaBase,last,[]⟩

def setTablePool (base pages : ℕ) : Except MmError HostAddressSpace :=
  s.initTablePool base pages false

def tablePagesLeft : ℕ := (s.tableLimit-s.tableCursor)/tableBytes

def tableByteOffset (tablePa : ℕ) : Except MmError ℕ :=
  if tablePa < s.imagePhysBase then .error .addressOverflow
  else if s.image.len < tablePa-s.imagePhysBase+tableBytes then .error .addressOverflow
  else .ok (tablePa-s.imagePhysBase)

def readEntry (tablePa index : ℕ) : Except MmError ℕ :=
  match s.tableByteOffset tablePa with
  | .error e => .error e
  | .ok off => .ok (s.image.readLE (off+index*8) 8)

end

def writeEntry (tablePa index value : ℕ) : Prog HostAddressSpace MmError Unit := do
  let s ← gets id
  let off ← ofExcept (s.tableByteOffset tablePa)
  modify fun s => { s with image := s.image.writeLE (off+index*8) 8 value }

def allocTable : Prog HostAddressSpace MmError ℕ := do
  let s ← gets id
  let next ← ofOption .outOfTableMemory (checkedAdd64 s.tableCursor tableBytes)
  ensure (next ≤ s.tableLimit) .outOfTableMemory
  let off := s.tableCursor
  modify fun s => { s with tableCursor := next }
  assert (off+tableBytes ≤ s.image.len)
  modify fun s => { s with image := s.image.zero off tableBytes }
  pure (add64 s.imagePhysBase off)

def childTable (parentPa index : ℕ) : Prog HostAddressSpace MmError ℕ := do
  let s ← gets id
  let entry ← ofExcept (s.readEntry parentPa index)
  if entry &&& present = 0 then do
    let table ← allocTable
    writeEntry parentPa index (tableEntry table (present ||| writable))
    pure table
  else do
    ensure (entry &&& hugePage = 0) .hugePageOnPath
    pure (entry &&& frameAddrMask)

def mapPage (va pa : ℕ) (prot : UInt8) (extraFlags : ℕ) : Prog HostAddressSpace MmError Unit := do
  ofExcept (validateVa va)
  ensure (pa &&& (pageSize-1) = 0) .unalignedAddress
  let s ← gets id
  let pdpt ← childTable s.cr3 (pml4Index va)
  let pd ← childTable pdpt (pdptIndex va)
  let pt ← childTable pd (pdIndex va)
  let s ← gets id
  let entry ← ofExcept (s.readEntry pt (ptIndex va))
  ensure (entry &&& present = 0) .overlappingMapping
  writeEntry pt (ptIndex va) (pteEntry pa (protFlags prot ||| extraFlags))

inductive Descent where
  | absent
  | huge1gib (entry : ℕ)
  | huge2mib (entry : ℕ)
  | pageTable (pt : ℕ)
deriving DecidableEq, Repr

/-- The walk down to the page table of `va`, shared by every function that does not
allocate. -/
def descend (s : HostAddressSpace) (va : ℕ) : Except MmError Descent := do
  let pml4e ← s.readEntry s.cr3 (pml4Index va)
  if pml4e &&& present = 0 then return .absent
  let pdpte ← s.readEntry (pml4e &&& frameAddrMask) (pdptIndex va)
  if pdpte &&& present = 0 then return .absent
  if pdpte &&& hugePage ≠ 0 then return .huge1gib pdpte
  let pde ← s.readEntry (pdpte &&& frameAddrMask) (pdIndex va)
  if pde &&& present = 0 then return .absent
  if pde &&& hugePage ≠ 0 then return .huge2mib pde
  return .pageTable (pde &&& frameAddrMask)

def unmapPage (va : ℕ) : Prog HostAddressSpace MmError (Option PhysFrame) := do
  ofExcept (validateVa va)
  let s ← gets id
  match ← ofExcept (s.descend va) with
  | .absent => pure none
  | .huge1gib _ | .huge2mib _ => throw .hugePageOnPath
  | .pageTable pt => do
    let pte ← ofExcept (s.readEntry pt (ptIndex va))
    if pte &&& present = 0 then pure none
    else do
      writeEntry pt (ptIndex va) 0
      pure (some (PhysFrame.containingAddress (pte &&& frameAddrMask)))

def leafEntry (s : HostAddressSpace) (va : ℕ) : Except MmError (Option ℕ) := do
  match ← s.descend va with
  | .absent => return none
  | .huge1gib _ | .huge2mib _ => .error .hugePageOnPath
  | .pageTable pt =>
    let pte ← s.readEntry pt (ptIndex va)
    return if pte &&& present ≠ 0 then some pte else none

def ptOf (s : HostAddressSpace) (va : ℕ) : Except MmError ℕ := do
  match ← s.descend va with
  | .pageTable pt => return pt
  | _ => .error .pageNotMapped

def reprotectPage (va : ℕ) (prot : UInt8) : Prog HostAddressSpace MmError Unit := do
  let s ← gets id
  let pt ← ofExcept (s.ptOf va)
  let old ← ofExcept (s.readEntry pt (ptIndex va))
  ensure (old &&& present ≠ 0) .pageNotMapped
  writeEntry pt (ptIndex va) ((old &&& not64 (writable ||| noExecute)) ||| protFlags prot)

section
variable (s : HostAddressSpace)

def translate (va : ℕ) : Option ℕ :=
  if Memory.vaLimit ≤ va then none
  else
    match s.descend va with
    | .ok (.huge1gib e) => some ((e &&& huge1gibAddrMask) ||| (va &&& huge1gibOffsetMask))
    | .ok (.huge2mib e) => some ((e &&& huge2mibAddrMask) ||| (va &&& huge2mibOffsetMask))
    | .ok (.pageTable pt) =>
      match s.readEntry pt (ptIndex va) with
      | .ok pte =>
        if pte &&& present = 0 then none
        else some ((pte &&& frameAddrMask) ||| (va &&& (pageSize-1)))
      | .error _ => none
    | _ => none

def scanGap (len : ℕ) : ℕ → List Region → Except ℕ ℕ
  | cursor, [] => .error cursor
  | cursor, r :: rest =>
    if cursor < r.reservedBase ∧ len ≤ r.reservedBase-cursor then .ok cursor
    else scanGap len (if cursor < r.reservedEnd then r.reservedEnd else cursor) rest

def findFreeVa (pages : ℕ) : Except MmError ℕ := do
  let len ← ofOption .addressOverflow (checkedMul64 pages pageSize)
  match scanGap len s.vaBase s.mappings with
  | .ok cursor => .ok cursor
  | .error cursor =>
    ensure (cursor ≤ s.vaLimit ∧ len ≤ s.vaLimit-cursor) .outOfVirtualMemory
    pure cursor

def checkNoOverlap (base last : ℕ) : Except MmError Unit :=
  ensure (∀ r ∈ s.mappings, ¬ (base < r.reservedEnd ∧ r.reservedBase < last)) .overlappingMapping

def regionIndexOfUsable (va : ℕ) : Option ℕ :=
  s.mappings.findIdx? fun r => r.base ≤ va ∧ va < r.usableEnd

def isGuard (va : ℕ) : Bool :=
  s.mappings.any fun r =>
    r.reservedBase ≤ va ∧ va < r.reservedEnd ∧ (va < r.base ∨ r.usableEnd ≤ va)

end

def coalescePush (merged : List Region) (r : Region) : List Region :=
  match merged.getLast? with
  | none => [r]
  | some last =>
    if last.usableEnd = r.base ∧ last.prot = r.prot ∧ last.owned = r.owned ∧
        last.guardHigh = 0 ∧ r.guardLow = 0 then
      merged.dropLast ++ [{ last with pages := last.pages+r.pages, guardHigh := r.guardHigh }]
    else merged ++ [r]

def coalesce (regions : List Region) : List Region := regions.foldl coalescePush []

def insertRegion (regions : List Region) (region : Region) : List Region :=
  let pos := regions.findIdx fun r => region.reservedBase < r.reservedBase
  regions.take pos ++ region :: regions.drop pos

def addRegion (region : Region) : Prog HostAddressSpace MmError Unit :=
  modify fun s => { s with mappings := coalesce (insertRegion s.mappings region) }

/-- The records that replace a region of which `[os, oe)` was edited. -/
def survivors (r : Region) (os oe : ℕ) (removeMiddle : Bool) (middleProt : Option UInt8) :
    List Region :=
  (if r.base < os then
    [⟨r.base,(os-r.base)/pageSize,r.guardLow,0,r.prot,r.owned⟩] else []) ++
  (if removeMiddle then []
    else [⟨os,(oe-os)/pageSize,0,0,middleProt.getD r.prot,r.owned⟩]) ++
  (if oe < r.usableEnd then
    [⟨oe,(r.usableEnd-oe)/pageSize,0,r.guardHigh,r.prot,r.owned⟩] else [])

section Frames
variable {F : Type} [FrameSource F]

abbrev onSpace {α : Type} (x : Prog HostAddressSpace MmError α) :
    Prog (HostAddressSpace × F) MmError α :=
  focus Prod.fst (fun s p => (s,p.2)) x

def allocFrame : Prog (HostAddressSpace × F) MmError (Option PhysFrame) := fun (s,a) =>
  (FrameSource.allocFrame a).map fun (o,a') => (.ok o,(s,a'))

def freeFrame (frame : PhysFrame) : Prog (HostAddressSpace × F) MmError Unit := fun (s,a) =>
  (FrameSource.freeFrame a frame).map fun a' => (.ok (),(s,a'))

def freeFrames : List PhysFrame → Prog (HostAddressSpace × F) MmError Unit
  | [] => pure ()
  | frame :: rest => do
    freeFrame frame
    freeFrames rest

/-- The edit of one page of `r` inside `reshape`. -/
abbrev Edit (F : Type) := ℕ → Region → Prog (HostAddressSpace × F) MmError Unit

/-- The region loop of `reshape`; returns the records to keep. -/
def reshapeLoop (start last : ℕ) (removeMiddle : Bool) (middleProt : Option UInt8)
    (edit : Edit F) : List Region → List Region → Prog (HostAddressSpace × F) MmError (List Region)
  | kept, [] => pure kept
  | kept, r :: rest =>
    let os := max start r.base
    let oe := min last r.usableEnd
    if oe ≤ os then
      reshapeLoop start last removeMiddle middleProt edit (kept ++ [r]) rest
    else do
      forN (divCeil (oe-os) pageSize) fun k => edit (os+k*pageSize) r
      reshapeLoop start last removeMiddle middleProt edit
        (kept ++ survivors r os oe removeMiddle middleProt) rest

/-- Edit every usable page of `[start, last)` and rebuild the region list. The list is taken
out first, so that a failing edit leaves an empty one. -/
def reshape (start last : ℕ) (removeMiddle : Bool) (middleProt : Option UInt8)
    (edit : Edit F) : Prog (HostAddressSpace × F) MmError Unit := do
  let (s,_) ← gets id
  onSpace (modify fun s => { s with mappings := [] })
  let kept ← reshapeLoop start last removeMiddle middleProt edit [] s.mappings
  onSpace (modify fun s => { s with mappings := coalesce kept })

def validateEditRange (s : HostAddressSpace) (va pages : ℕ) : Except MmError (ℕ × ℕ) := do
  ensure (pages ≠ 0) .emptyRegion
  validateVa va
  let len ← ofOption .addressOverflow (checkedMul64 pages pageSize)
  let last ← ofOption .addressOverflow (checkedAdd64 va len)
  ensure (∀ k < pages, (s.regionIndexOfUsable (va+k*pageSize)).isSome) .pageNotMapped
  pure (va,last)

def mmapBase (s : HostAddressSpace) (pages : ℕ) (opts : MmapOptions) : Except MmError ℕ := do
  ensure (pages ≠ 0) .emptyRegion
  let reserved ← ofOption .addressOverflow (checkedAdd64 opts.guard.count pages)
  let reservedBytes ← ofOption .addressOverflow (checkedMul64 reserved pageSize)
  match opts.va with
  | some b =>
    validateVa b
    let last ← ofOption .addressOverflow (checkedAdd64 b reservedBytes)
    ensure (last ≤ s.vaLimit) .outOfVirtualMemory
    s.checkNoOverlap b last
    pure b
  | none => s.findFreeVa reserved

def allocFrames : ℕ → List PhysFrame → Prog (HostAddressSpace × F) MmError (List PhysFrame)
  | 0, phys => pure phys
  | n+1, phys => do
    match ← allocFrame with
    | some frame => allocFrames n (phys ++ [frame])
    | none => do
      freeFrames phys
      throw .outOfPhysicalFrames

def pageVa (usable i : ℕ) : ℕ := add64 usable (mul64 i pageSize)

/-- Map the frames in order from page `i` on, stopping at the first failure: the number of
pages mapped, and the error. -/
def mapFrames (usable : ℕ) (opts : MmapOptions) :
    ℕ → List PhysFrame → Prog HostAddressSpace MmError (ℕ × Option MmError)
  | i, [] => pure (i,none)
  | i, frame :: rest => do
    match ← attempt
        (mapPage (pageVa usable i) frame.startAddress opts.prot opts.extraFlags) with
    | .error e => pure (i,some e)
    | .ok _ => mapFrames usable opts (i+1) rest

def rollback (usable : ℕ) : ℕ → List PhysFrame → Prog (HostAddressSpace × F) MmError Unit
  | _, [] => pure ()
  | i, frame :: rest => do
    let _ ← onSpace (attempt (unmapPage (pageVa usable i)))
    freeFrame frame
    rollback usable (i+1) rest

def mmap (pages : ℕ) (opts : MmapOptions) : Prog (HostAddressSpace × F) MmError ℕ := do
  let (s,_) ← gets id
  let base ← ofExcept (s.mmapBase pages opts)
  let usable := add64 base (mul64 opts.guard.low pageSize)
  let phys ← allocFrames pages []
  let (mapped,failed) ← onSpace (mapFrames usable opts 0 phys)
  match failed with
  | some e => do
    rollback usable 0 (phys.take mapped)
    freeFrames (phys.drop mapped)
    throw e
  | none => do
    onSpace (addRegion ⟨usable,pages,opts.guard.low,opts.guard.high,opts.prot,true⟩)
    pure usable

/-- The pre-walk of `mapFixed`: no leaf of the range may be live. -/
def checkUnmapped (s : HostAddressSpace) (va : ℕ) : ℕ → Except MmError Unit
  | 0 => .ok ()
  | n+1 => do
    checkUnmapped s va n
    match s.leafEntry (va+n*pageSize) with
    | .ok none => .ok ()
    | .ok (some _) | .error .hugePageOnPath => .error .overlappingMapping
    | .error e => .error e

def mapFixedCheck (s : HostAddressSpace) (va pa pages : ℕ) : Except MmError Unit := do
  ensure (pages ≠ 0) .emptyRegion
  validateVa va
  ensure (pa &&& (pageSize-1) = 0) .unalignedAddress
  let len ← ofOption .addressOverflow (checkedMul64 pages pageSize)
  let last ← ofOption .addressOverflow (checkedAdd64 va len)
  ensure (last ≤ s.vaLimit) .outOfVirtualMemory
  s.checkNoOverlap va last
  s.checkUnmapped va pages

def mapFixed (va pa pages : ℕ) (prot : UInt8) (extraFlags : ℕ) :
    Prog HostAddressSpace MmError Unit := do
  let s ← gets id
  ofExcept (s.mapFixedCheck va pa pages)
  forN pages fun i =>
    mapPage (va+i*pageSize) (add64 pa (mul64 i pageSize)) prot extraFlags
  addRegion ⟨va,pages,0,0,prot,false⟩

def munmapEdit : Edit F := fun va region => do
  let frame ← onSpace (unmapPage va)
  let frame ← ofOption .pageNotMapped frame
  if region.owned then freeFrame frame else pure ()

def munmap (va pages : ℕ) : Prog (HostAddressSpace × F) MmError Unit := do
  let (s,_) ← gets id
  let (start,last) ← ofExcept (s.validateEditRange va pages)
  reshape start last true none munmapEdit

def mprotect (va pages : ℕ) (prot : UInt8) : Prog (HostAddressSpace × F) MmError Unit := do
  let (s,_) ← gets id
  let (start,last) ← ofExcept (s.validateEditRange va pages)
  reshape start last false (some prot) fun va _ => onSpace (reprotectPage va prot)

end Frames
end HostAddressSpace
end Enlil.Memory
