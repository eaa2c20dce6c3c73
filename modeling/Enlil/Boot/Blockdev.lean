import Enlil.Lib.Word
import Mathlib.Data.List.Sort

/-! # Block storage for guests: model of `enlil-boot/src/blockdev.rs` -/

namespace Enlil.Boot

def sectorSize : ℕ := 512

inductive BlockError where
  | outOfRange | denied | unaligned | io
deriving DecidableEq

class BlockBackend (β : Type) where
  sectors : β → ℕ
  read : β → (lba len : ℕ) → Except BlockError (List UInt8) × β
  write : β → (lba : ℕ) → List UInt8 → Except BlockError Unit × β
  flush : β → Except BlockError Unit × β

def checkSpan (sectors lba len : ℕ) : Except BlockError ℕ :=
  if len%sectorSize ≠ 0 then .error .unaligned
  else
    let n := len/sectorSize
    match Word.checkedAdd64 lba n with
    | some stop => if stop ≤ sectors then .ok n else .error .outOfRange
    | none => .error .outOfRange

structure RamDisk where
  data : List UInt8

namespace RamDisk

def sectors (d : RamDisk) : ℕ := d.data.length/sectorSize

instance : BlockBackend RamDisk where
  sectors := sectors
  read d lba len :=
    match checkSpan d.sectors lba len with
    | .error e => (.error e,d)
    | .ok _ => (.ok ((d.data.drop (lba*sectorSize)).take len),d)
  write d lba data :=
    match checkSpan d.sectors lba data.length with
    | .error e => (.error e,d)
    | .ok _ =>
      let start := lba*sectorSize
      (.ok (),⟨d.data.take start ++ data ++ d.data.drop (start+data.length)⟩)
  flush d := (.ok (),d)

end RamDisk

structure Allow where
  start : ℕ
  stop : ℕ
  writable : Bool
deriving DecidableEq

structure DiskMap (β : Type) where
  inner : β
  ranges : List Allow

namespace DiskMap
variable {β : Type}

def new (inner : β) (ranges : List Allow) : DiskMap β :=
  ⟨inner,(ranges.filter fun r => r.start < r.stop).insertionSort fun a b => a.start ≤ b.start⟩

def readable (ranges : List Allow) (lba : ℕ) : Bool :=
  ranges.any fun r => r.start ≤ lba && lba < r.stop

def writable (ranges : List Allow) (lba : ℕ) : Bool :=
  ranges.any fun r => r.writable && r.start ≤ lba && lba < r.stop

def runEndLoop (ranges : List Allow) (isReadable : Bool) : (fuel stop : ℕ) → ℕ
  | 0, stop => stop
  | fuel+1, stop =>
    if readable ranges stop = isReadable then runEndLoop ranges isReadable fuel (stop+1)
    else stop

/-- The end of the run of sectors from `lba` on that share its readability, at most `limit`. -/
def runEnd (ranges : List Allow) (lba limit : ℕ) : ℕ :=
  runEndLoop ranges (readable ranges lba) (limit-(lba+1)) (lba+1)

variable [BlockBackend β]

/-- The loop of `read`, run by run. Every run has at least one sector, so `fuel` bounds their
number. -/
def readLoop (ranges : List Allow) (stop : ℕ) :
    (fuel : ℕ) → β → ℕ → List UInt8 → Except BlockError (List UInt8) × β
  | 0, b, _, buf => (.ok buf,b)
  | fuel+1, b, cur, buf =>
    if cur < stop then
      let next := runEnd ranges cur stop
      if readable ranges cur then
        match BlockBackend.read b cur ((next-cur)*sectorSize) with
        | (.error e,b') => (.error e,b')
        | (.ok bytes,b') => readLoop ranges stop fuel b' next (buf ++ bytes)
      else
        readLoop ranges stop fuel b next (buf ++ List.replicate ((next-cur)*sectorSize) 0)
    else (.ok buf,b)

def withInner {α : Type} (d : DiskMap β) (r : α × β) : α × DiskMap β :=
  (r.1,{ d with inner := r.2 })

instance : BlockBackend (DiskMap β) where
  sectors d := BlockBackend.sectors d.inner
  read d lba len :=
    match checkSpan (BlockBackend.sectors d.inner) lba len with
    | .error e => (.error e,d)
    | .ok n => d.withInner (readLoop d.ranges (lba+n) n d.inner lba [])
  write d lba data :=
    match checkSpan (BlockBackend.sectors d.inner) lba data.length with
    | .error e => (.error e,d)
    | .ok n =>
      -- All or nothing: one sector without write access refuses the whole request.
      if (List.range' lba n).any fun s => !writable d.ranges s then (.error .denied,d)
      else d.withInner (BlockBackend.write d.inner lba data)
  flush d := d.withInner (BlockBackend.flush d.inner)

end DiskMap
end Enlil.Boot
