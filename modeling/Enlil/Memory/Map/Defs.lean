import Mathlib.Data.List.Sort
import Enlil.Lib.Loop
import Enlil.Lib.Word

/-! # Physical memory map: model of `enlil-platform/src/memory/map.rs` -/

namespace Enlil.Memory

inductive MemoryKind where
  | usable
  | reserved
  | acpiReclaimable
  | acpiNvs
  | bad
  | mmio
  deriving DecidableEq, Repr

def MemoryKind.isAllocatable : MemoryKind → Bool
  | .usable => true
  | _ => false

structure MemoryRegion where
  base : ℕ
  size : ℕ
  kind : MemoryKind
  deriving DecidableEq, Repr

namespace MemoryRegion

def endAddr (r : MemoryRegion) : ℕ := Word.add64 r.base r.size

def contains (r : MemoryRegion) (addr : ℕ) : Bool :=
  decide (r.base ≤ addr) && decide (addr < r.endAddr)

end MemoryRegion

def isPowerOfTwo (a : ℕ) : Bool := a == 2^a.log2

/-- A physical memory map: contiguous regions kept sorted by base address. -/
structure MemoryMap where
  regions : List MemoryRegion
  deriving DecidableEq, Repr

structure MemoryPlanRequest where
  heapSize : ℕ
  dmaSize : ℕ
  guestRamSizes : List ℕ
  align : ℕ
  preclaimedHeap : Option (ℕ × ℕ)
  deriving DecidableEq, Repr

structure HypervisorRegions where
  dma : MemoryRegion
  heap : MemoryRegion
  guestRam : List MemoryRegion
  deriving DecidableEq, Repr

structure E820Entry where
  base : UInt64
  length : UInt64
  kind : UInt32
  deriving DecidableEq, Repr

def E820Entry.memoryKind (e : E820Entry) : MemoryKind :=
  if e.kind = 1 then .usable
  else if e.kind = 3 then .acpiReclaimable
  else if e.kind = 4 then .acpiNvs
  else if e.kind = 5 then .bad
  else .reserved

def E820Entry.region (e : E820Entry) : MemoryRegion :=
  ⟨e.base.toNat,e.length.toNat,e.memoryKind⟩

/-- The fields of a UEFI memory descriptor that a map is built from. -/
structure UefiMemoryDescriptor where
  kind : UInt32
  physStart : UInt64
  pageCount : UInt64
  deriving DecidableEq, Repr

section
variable (d : UefiMemoryDescriptor)

def UefiMemoryDescriptor.memoryKind : MemoryKind :=
  if d.kind = 1 ∨ d.kind = 2 ∨ d.kind = 3 ∨ d.kind = 4 ∨ d.kind = 7 then .usable
  else if d.kind = 8 then .bad
  else if d.kind = 9 then .acpiReclaimable
  else if d.kind = 10 then .acpiNvs
  else .reserved

def UefiMemoryDescriptor.lengthBytes : ℕ :=
  Word.mul64 d.pageCount.toNat 4096

def UefiMemoryDescriptor.region : MemoryRegion :=
  ⟨d.physStart.toNat,d.lengthBytes,d.memoryKind⟩

end
namespace MemoryMap

def fromRegions (regions : List MemoryRegion) : MemoryMap :=
  ⟨regions.insertionSort fun r r' => r.base ≤ r'.base⟩

def fromE820 (entries : List E820Entry) : MemoryMap :=
  fromRegions ((entries.filter fun e => e.length ≠ 0).map E820Entry.region)

def fromUefi (descriptors : List UefiMemoryDescriptor) : MemoryMap :=
  fromRegions ((descriptors.filter fun d => d.pageCount ≠ 0).map UefiMemoryDescriptor.region)

/-- The regions that replace a usable one once a span inside it is reserved: the usable remainders
survive on either side. -/
def splitPieces (region : MemoryRegion) (start size : ℕ) : List MemoryRegion :=
  let stop := Word.add64 start size
  (if region.base < start then [⟨region.base,start-region.base,region.kind⟩] else [])
    ++ [⟨start,size,.reserved⟩]
    ++ (if stop < region.endAddr then [⟨stop,region.endAddr-stop,region.kind⟩] else [])

def splitReserve (m : MemoryMap) (idx start size : ℕ) : MemoryMap :=
  match m.regions[idx]? with
  | none => m
  | some region =>
    ⟨m.regions.take idx ++ splitPieces region start size ++ m.regions.drop (idx+1)⟩

/-- The index of the first usable region that can hold the request below `limit`, with the aligned
start inside it. -/
def carveScan (size align limit : ℕ) : ℕ → List MemoryRegion → Option (ℕ × ℕ)
  | _, [] => none
  | i, region :: rest =>
    if region.kind.isAllocatable then
      let start := Word.alignUp64 region.base align
      match Word.checkedAdd64 start size with
      | none => carveScan size align limit (i+1) rest
      | some stop =>
        if stop ≤ region.endAddr ∧ stop ≤ limit then some (i,start)
        else carveScan size align limit (i+1) rest
    else carveScan size align limit (i+1) rest

/-- `carve_below`: first fit in ascending address order, ending at or below `limit`.
The outer `none` is the alignment assertion. -/
def carveBelow (m : MemoryMap) (size align limit : ℕ) : Option (MemoryMap × Option ℕ) :=
  if isPowerOfTwo align then
    if size = 0 then some (m,none)
    else
      match carveScan size align limit 0 m.regions with
      | none => some (m,none)
      | some (i,start) => some (m.splitReserve i start size,some start)
  else none

def carve (m : MemoryMap) (size align : ℕ) : Option (MemoryMap × Option ℕ) :=
  m.carveBelow size align (2^64-1)

/-- `first_usable_overlap`: index, start and length of the first usable overlap with
`[base, stop)`. -/
def firstUsableOverlap (base stop : ℕ) : ℕ → List MemoryRegion → Option (ℕ × ℕ × ℕ)
  | _, [] => none
  | i, region :: rest =>
    if region.kind.isAllocatable ∧ max region.base base < min region.endAddr stop then
      some (i,max region.base base,min region.endAddr stop-max region.base base)
    else firstUsableOverlap base stop (i+1) rest

def reservePass (base stop : ℕ) : MemoryMap × Bool → Option (MemoryMap × Bool)
  | (m,_) =>
    (firstUsableOverlap base stop 0 m.regions).map fun (idx,start,len) =>
      (m.splitReserve idx start len,true)

section
variable (m : MemoryMap)

/-- `reserve_span`: retype every usable part of the span. The result is `none` only if the
loop ran out of fuel. -/
def reserveSpan (base size : ℕ) : Option (MemoryMap × Bool) :=
  if size = 0 then some (m,false)
  else
    match Word.checkedAdd64 base size with
    | none => some (m,false)
    | some stop => Loop.run (reservePass base stop) (m.regions.length+1) (m,false)

/-- `is_consistent`: adjacent regions are sorted by base and never overlap. -/
def isConsistent : Bool := go m.regions
where
  go : List MemoryRegion → Bool
    | a :: b :: rest => decide (a.endAddr ≤ b.base) && go (b :: rest)
    | _ => true

def coalescePush (merged : List MemoryRegion) (region : MemoryRegion) : List MemoryRegion :=
  match merged.getLast? with
  | some last =>
    if last.kind = region.kind ∧ last.endAddr = region.base then
      merged.dropLast ++ [{ last with size := Word.add64 last.size region.size }]
    else merged ++ [region]
  | none => merged ++ [region]

def coalesce : MemoryMap := ⟨m.regions.foldl coalescePush []⟩

def spanScan (stop : ℕ) : ℕ → List MemoryRegion → Bool
  | _, [] => false
  | cursor, region :: rest =>
    if region.kind ≠ .reserved then spanScan stop cursor rest
    else if region.endAddr ≤ cursor then spanScan stop cursor rest
    else if cursor < region.base then false
    else if stop ≤ region.endAddr then true
    else spanScan stop region.endAddr rest

/-- `span_is_reserved`: every byte of the span sits inside reserved regions. -/
def spanIsReserved (base size : ℕ) : Bool :=
  match Word.checkedAdd64 base size with
  | none => false
  | some stop => if size = 0 then false else spanScan stop base m.regions

/-- The guest loop of `plan_hypervisor_regions`: carve one region per size, stopping at the
first that does not fit. -/
def carveGuests (align : ℕ) :
    List ℕ → MemoryMap → Option (MemoryMap × Option (List MemoryRegion))
  | [], trial => some (trial,some [])
  | size :: sizes, trial =>
    match trial.carve size align with
    | none => none
    | some (trial,none) => some (trial,none)
    | some (trial,some base) =>
      match carveGuests align sizes trial with
      | none => none
      | some (trial,guests) =>
        some (trial,guests.map fun guests => ⟨base,size,.reserved⟩ :: guests)

def planHeap (trial : MemoryMap) (req : MemoryPlanRequest) :
    Option (MemoryMap × Option MemoryRegion) :=
  match req.preclaimedHeap with
  | some (base,size) =>
    if size < req.heapSize ∨ trial.spanIsReserved base size = false then some (trial,none)
    else some (trial,some ⟨base,size,.reserved⟩)
  | none =>
    (trial.carve req.heapSize req.align).map fun (trial,base) =>
      (trial,base.map fun base => ⟨base,req.heapSize,.reserved⟩)

/-- DMA window, heap, then guest RAM, carved on a scratch copy that replaces the map only if every
step succeeded. -/
def planHypervisorRegions (req : MemoryPlanRequest) :
    Option (MemoryMap × Option HypervisorRegions) :=
  match m.carveBelow req.dmaSize req.align (2^32) with
  | none => none
  | some (_,none) => some (m,none)
  | some (trial,some dmaBase) =>
    match planHeap trial req with
    | none => none
    | some (_,none) => some (m,none)
    | some (trial,some heap) =>
      match carveGuests req.align req.guestRamSizes trial with
      | none => none
      | some (_,none) => some (m,none)
      | some (trial,some guestRam) =>
        some (trial,some ⟨⟨dmaBase,req.dmaSize,.reserved⟩,heap,guestRam⟩)

end
end MemoryMap
end Enlil.Memory
