import Enlil.Lib.Bytes
import Enlil.Lib.Word

/-! # Nested page tables: entries, the walker and the 2 MiB builder -/

namespace Enlil.Npt
open Word Prog

abbrev pageSize : ℕ := 4096
abbrev huge2mib : ℕ := 2*1024*1024
abbrev tableEntries : ℕ := 512

namespace Flags

def present : ℕ := 1 <<< 0
def writable : ℕ := 1 <<< 1
def user : ℕ := 1 <<< 2
def hugePage : ℕ := 1 <<< 7

end Flags

/-- Bits 51:12 of an entry: the physical address of the next table or of the frame. -/
def addrMask : ℕ := 0x000FFFFFFFFFF000

structure NptLayout where
  ncr3 : ℕ
  tableCount : ℕ
  bytes : ℕ
deriving DecidableEq, Repr

inductive NptError where
  | emptyRegion
  | unalignedBase
  | unalignedSpaBase
  | mapTooLarge (numPd : ℕ)
  | tablesExceedBuffer (needed have' : ℕ)
  | intermediateNotPresent
  | hugePageOnPath
  | notAHugePageLeaf
  | addressOutOfRange (addr : ℕ)
  | rangeOverlap (gpa : ℕ)
  | guardPageOutOfRange (index numPages : ℕ)
  | guardAddressOutOfRange (guard rangeBase rangeLen : ℕ)
  | gpaOutOfRange (gpa baseGpa numPages : ℕ)
  | dirtyRangeOverflow (baseGpa numPages : ℕ)
deriving DecidableEq, Repr

def readEntry (buf : Buf) (offset : ℕ) : Except NptError ℕ :=
  if offset+8 ≤ buf.len then .ok (buf.readLE offset 8) else .error .intermediateNotPresent

def writeEntry (offset entry : ℕ) : Prog Buf NptError Unit := Buf.storeLE offset 8 entry

def childOffset (buf : Buf) (physBase tableOff index : ℕ) : Except NptError ℕ := do
  let entry ← readEntry buf (tableOff+index*8)
  if entry &&& Flags.present = 0 then .error .intermediateNotPresent
  else if entry &&& Flags.hugePage ≠ 0 then .error .hugePageOnPath
  else if entry &&& addrMask < physBase then .error .intermediateNotPresent
  else if buf.len < (entry &&& addrMask)-physBase+4096 then .error .intermediateNotPresent
  else .ok ((entry &&& addrMask)-physBase)

def pml4Index (gpa : ℕ) : ℕ := (gpa >>> 39) &&& 0x1FF
def pdptIndex (gpa : ℕ) : ℕ := (gpa >>> 30) &&& 0x1FF
def pdIndex (gpa : ℕ) : ℕ := (gpa >>> 21) &&& 0x1FF
def ptIndex (gpa : ℕ) : ℕ := (gpa >>> 12) &&& 0x1FF

def translateNpt (buf : Buf) (physBase gpa : ℕ) : Option ℕ := do
  let pdptOff ← (childOffset buf physBase 0 (pml4Index gpa)).toOption
  let pdOff ← (childOffset buf physBase pdptOff (pdptIndex gpa)).toOption
  let pdEntry ← (readEntry buf (pdOff+pdIndex gpa*8)).toOption
  if pdEntry &&& Flags.present = 0 then none
  else if pdEntry &&& Flags.hugePage ≠ 0 then
    some ((pdEntry &&& addrMask) ||| (gpa &&& (huge2mib-1)))
  else
    let leafTableOff ← (childOffset buf physBase pdOff (pdIndex gpa)).toOption
    let leaf ← (readEntry buf (leafTableOff+ptIndex gpa*8)).toOption
    if leaf &&& Flags.present = 0 then none
    else some ((leaf &&& addrMask) ||| (gpa &&& (pageSize-1)))

def tableFlags : ℕ := Flags.present ||| Flags.writable ||| Flags.user
def hugeLeafFlags : ℕ := Flags.present ||| Flags.writable ||| Flags.user ||| Flags.hugePage

/-- Map guest-physical `[0, bytesToMap)` with 2 MiB leaves; the tables go to the front of the
buffer. -/
def buildNpt2mib (physBase spaBase bytesToMap : ℕ) : Prog Buf NptError NptLayout := do
  ensure (bytesToMap ≠ 0) .emptyRegion
  ensure (physBase &&& (pageSize-1) = 0) .unalignedBase
  ensure (spaBase &&& (huge2mib-1) = 0) .unalignedSpaBase
  let num2mib := divCeil bytesToMap huge2mib
  let numPd := divCeil num2mib tableEntries
  ensure (numPd ≤ tableEntries) (.mapTooLarge numPd)
  let tableCount := 2+numPd
  let buf ← gets id
  let regionBytes ← ofOption (.tablesExceedBuffer (2^64-1) buf.len)
    (checkedMul64 tableCount 4096)
  ensure (regionBytes ≤ buf.len) (.tablesExceedBuffer regionBytes buf.len)
  Buf.storeZero 0 regionBytes
  let pdptPa := add64 physBase pageSize
  let firstPdPa := add64 physBase (2*pageSize)
  let pdptOff := 4096
  let firstPdOff := 2*4096
  writeEntry 0 ((pdptPa &&& addrMask) ||| tableFlags)
  forN numPd fun k =>
    let pdPa := add64 firstPdPa (k*pageSize)
    writeEntry (pdptOff+k*8) ((pdPa &&& addrMask) ||| tableFlags)
  forN num2mib fun page =>
    let k := page/512
    let j := page%512
    let pdOff := firstPdOff+k*4096
    let phys := add64 spaBase (page*huge2mib)
    writeEntry (pdOff+j*8) ((phys &&& addrMask) ||| hugeLeafFlags)
  pure ⟨physBase,tableCount,regionBytes⟩

def buildIdentityNpt2mib (physBase bytesToMap : ℕ) : Prog Buf NptError NptLayout :=
  buildNpt2mib physBase 0 bytesToMap

/-- Set or clear the `WRITABLE` bit of the present 2 MiB leaf that maps `gpa`. -/
def setNpt2mibLeafWritable (physBase gpa : ℕ) (writable : Bool) : Prog Buf NptError Unit := do
  ensure (gpa &&& (huge2mib-1) = 0) .unalignedBase
  let buf ← gets id
  let pdptOff ← ofExcept (childOffset buf physBase 0 (pml4Index gpa))
  let pdOff ← ofExcept (childOffset buf physBase pdptOff (pdptIndex gpa))
  let entry ← ofExcept (readEntry buf (pdOff+pdIndex gpa*8))
  ensure (entry &&& Flags.present ≠ 0 ∧ entry &&& Flags.hugePage ≠ 0) .notAHugePageLeaf
  let updated := if writable then entry ||| Flags.writable else entry &&& not64 Flags.writable
  writeEntry (pdOff+pdIndex gpa*8) updated

end Enlil.Npt
