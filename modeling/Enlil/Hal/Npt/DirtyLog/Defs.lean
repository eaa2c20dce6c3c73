import Enlil.Hal.Npt.Entries
import Enlil.Lib.Bitmap

/-! # Dirty-page tracking by write protection -/

namespace Enlil.Npt
open Word

def dirtyBitmapWords (numPages : ℕ) : ℕ := divCeil numPages 64

/-- A dirty log; the fields that `new` checks are carried along. -/
structure NptDirtyLog where
  baseGpa : ℕ
  numPages : ℕ
  bits : List ℕ
  aligned : baseGpa &&& (huge2mib-1) = 0
  enough : dirtyBitmapWords numPages ≤ bits.length
  inRange : baseGpa+numPages*huge2mib < 2^64

namespace NptDirtyLog

def new (baseGpa numPages : ℕ) (bits : List ℕ) : Except NptError NptDirtyLog :=
  if numPages = 0 then .error .emptyRegion
  else if ha : baseGpa &&& (huge2mib-1) = 0 then
    if hw : bits.length < dirtyBitmapWords numPages then
      .error (.tablesExceedBuffer (dirtyBitmapWords numPages*8) (bits.length*8))
    else if numPages*huge2mib < 2^64 then
      if hr : baseGpa+numPages*huge2mib < 2^64 then
        .ok {
          baseGpa := baseGpa
          numPages := numPages
          bits := List.replicate bits.length 0
          aligned := ha
          enough := by rw [List.length_replicate]; omega
          inRange := hr }
      else .error (.dirtyRangeOverflow baseGpa numPages)
    else .error (.dirtyRangeOverflow baseGpa numPages)
  else .error .unalignedBase

def locate (page : ℕ) : ℕ × ℕ := (page/64,1 <<< (page%64))

section
variable (log : NptDirtyLog)

def pageIndex (gpa : ℕ) : Option ℕ :=
  if gpa < log.baseGpa then none
  else
    let page := (gpa-log.baseGpa)/huge2mib
    if page < log.numPages then some page else none

def wordAt (word : ℕ) : ℕ := log.bits.getD word 0

def outOfRange (gpa : ℕ) : NptError :=
  .gpaOutOfRange gpa log.baseGpa log.numPages

def record (faultGpa : ℕ) : Except NptError (Bool × NptDirtyLog) :=
  match log.pageIndex faultGpa with
  | none => .error (log.outOfRange faultGpa)
  | some page =>
    let (word,mask) := locate page
    let fresh := log.wordAt word &&& mask = 0
    .ok (fresh,{ log with
      bits := log.bits.set word (log.wordAt word ||| mask)
      enough := by rw [List.length_set]; exact log.enough })

def isDirty (gpa : ℕ) : Except NptError Bool :=
  match log.pageIndex gpa with
  | none => .error (log.outOfRange gpa)
  | some page =>
    let (word,mask) := locate page
    .ok (log.wordAt word &&& mask ≠ 0)

def dirtyPageCount : ℕ := (log.bits.map Bitmap.countOnes).sum

def dirtyPages : List ℕ :=
  (List.range log.numPages).filterMap fun page =>
    let (word,mask) := locate page
    if log.wordAt word &&& mask = 0 then none
    else checkedAdd64 log.baseGpa (page*huge2mib)

def reprotectPages (physBase : ℕ) : List ℕ → ℕ → Prog Buf NptError ℕ
  | [], count => pure count
  | gpa :: rest, count => do
    setNpt2mibLeafWritable physBase gpa false
    reprotectPages physBase rest (count+1)

def reprotectRecorded (physBase : ℕ) : Prog Buf NptError ℕ :=
  reprotectPages physBase log.dirtyPages 0

def clear : NptDirtyLog :=
  { log with
    bits := List.replicate log.bits.length 0
    enough := by rw [List.length_replicate]; exact log.enough }

def endEpoch (physBase : ℕ) : Prog Buf NptError (ℕ × NptDirtyLog) := do
  let count ← log.reprotectRecorded physBase
  pure (count,log.clear)

end
end NptDirtyLog

def leafOff (buf : Buf) (physBase gpa : ℕ) : Except NptError ℕ := do
  let pdptOff ← childOffset buf physBase 0 (pml4Index gpa)
  let pdOff ← childOffset buf physBase pdptOff (pdptIndex gpa)
  .ok (pdOff+pdIndex gpa*8)

/-- A guest's tables with their dirty log. `written` are the pages written since the last epoch that
ended successfully. -/
structure Tracked where
  npt : Buf
  physBase : ℕ
  log : NptDirtyLog
  written : List ℕ

inductive TrackEvent where
  | write (gpa : ℕ)
  | reprotect
  | endEpoch

namespace Tracked

def leafEntry (σ : Tracked) (gpa : ℕ) : Except NptError ℕ := do
  let off ← leafOff σ.npt σ.physBase gpa
  readEntry σ.npt off

/-- The processor faults unless the leaf is writable; the handler records the 2 MiB page and grants
the write, which then completes. -/
def write (σ : Tracked) (gpa : ℕ) : Option Tracked :=
  let page := gpa &&& not64 (huge2mib-1)
  match σ.leafEntry page with
  | .error _ => none
  | .ok entry =>
    if entry &&& Flags.writable ≠ 0 then some { σ with written := page :: σ.written }
    else
      match σ.log.record page, setNpt2mibLeafWritable σ.physBase page true σ.npt with
      | .ok (_,log), some (.ok (),npt) =>
        some { σ with npt := npt, log := log, written := page :: σ.written }
      | _, _ => none

def step (σ : Tracked) : TrackEvent → Option Tracked
  | .write gpa => σ.write gpa
  | .reprotect => (σ.log.reprotectRecorded σ.physBase σ.npt).map fun (_,npt) =>
    { σ with npt := npt }
  | .endEpoch => (σ.log.endEpoch σ.physBase σ.npt).map fun
    | (.ok (_,log),npt) => { σ with npt := npt, log := log, written := [] }
    | (.error _,npt) => { σ with npt := npt }

def run (σ : Tracked) : List TrackEvent → Option Tracked
  | [] => some σ
  | e :: es => (σ.step e).bind fun σ' => σ'.run es

end Tracked
end Enlil.Npt
