import Enlil.Hal.Npt.Defs

/-! # Nested page tables: the incremental mapper -/

namespace Enlil.Npt
open Word Prog

structure NptMapper where
  buf : Buf
  physBase : ℕ
  tablesUsed : ℕ

inductive MapperChild where
  | absent
  | hugeLeaf
  | table (off : ℕ)
deriving DecidableEq

namespace NptMapper

def onBuf {α : Type} (x : Prog Buf NptError α) : Prog NptMapper NptError α :=
  focus (·.buf) (fun b s => { s with buf := b }) x

def allocTable : Prog NptMapper NptError (ℕ × ℕ) := do
  let s ← gets id
  let tooBig := NptError.tablesExceedBuffer (2^64-1) s.buf.len
  let off ← ofOption tooBig (checkedMul64 s.tablesUsed 4096)
  let last ← ofOption tooBig (checkedAdd64 off 4096)
  ensure (last ≤ s.buf.len) (.tablesExceedBuffer last s.buf.len)
  onBuf (Buf.storeZero off last)
  modify fun s => { s with tablesUsed := s.tablesUsed+1 }
  pure (add64 s.physBase off,off)

def pointerOff (s : NptMapper) (entry : ℕ) : Except NptError ℕ :=
  if entry &&& addrMask < s.physBase then .error .intermediateNotPresent
  else if s.buf.len < (entry &&& addrMask)-s.physBase+4096 then .error .intermediateNotPresent
  else .ok ((entry &&& addrMask)-s.physBase)

def childTableOff (tableOff index : ℕ) : Prog NptMapper NptError ℕ := do
  let s ← gets id
  let entry ← ofExcept (readEntry s.buf (tableOff+index*8))
  if entry &&& Flags.present ≠ 0 then
    ofExcept (pointerOff s entry)
  else do
    let (pa,off) ← allocTable
    onBuf (writeEntry (tableOff+index*8) ((pa &&& addrMask) ||| tableFlags))
    pure off

def pdOffFor (gpa : ℕ) : Prog NptMapper NptError ℕ := do
  let pdptOff ← childTableOff 0 (pml4Index gpa)
  childTableOff pdptOff (pdptIndex gpa)

def pdChild (s : NptMapper) (pdOff index : ℕ) : Except NptError MapperChild :=
  match readEntry s.buf (pdOff+index*8) with
  | .error e => .error e
  | .ok entry =>
    if entry &&& Flags.present = 0 then .ok .absent
    else if entry &&& Flags.hugePage ≠ 0 then .ok .hugeLeaf
    else
      match pointerOff s entry with
      | .error e => .error e
      | .ok off => .ok (.table off)

def ptOffFor (gpa : ℕ) : Prog NptMapper NptError ℕ := do
  let pdOff ← pdOffFor gpa
  let s ← gets id
  let child ← ofExcept (pdChild s pdOff (pdIndex gpa))
  match child with
  | .table off => pure off
  | .absent => do
    let (pa,off) ← allocTable
    onBuf (writeEntry (pdOff+pdIndex gpa*8) ((pa &&& addrMask) ||| tableFlags))
    pure off
  | .hugeLeaf => throw (.rangeOverlap gpa)

def mapHugeLeaf (gpa spa : ℕ) : Prog NptMapper NptError Unit := do
  let pdOff ← pdOffFor gpa
  let s ← gets id
  let child ← ofExcept (pdChild s pdOff (pdIndex gpa))
  ensure (child = .absent) (.rangeOverlap gpa)
  onBuf (writeEntry (pdOff+pdIndex gpa*8) ((spa &&& addrMask) ||| hugeLeafFlags))

/-- Map one 4 KiB page; a guard page (`none`) is checked but left not present. -/
def mapSmallPage (gpa : ℕ) (spa : Option ℕ) : Prog NptMapper NptError Unit := do
  let ptOff ← ptOffFor gpa
  let off := ptOff+ptIndex gpa*8
  let s ← gets id
  let leaf ← ofExcept (readEntry s.buf off)
  ensure (leaf &&& Flags.present = 0) (.rangeOverlap gpa)
  match spa with
  | some spa => onBuf (writeEntry off ((spa &&& addrMask) ||| tableFlags))
  | none => pure ()

/-- The chunk loop of `mapRange`; the fuel bounds the number of iterations. -/
def mapChunks (guardGpas : List ℕ) : ℕ → ℕ → ℕ → ℕ → Prog NptMapper NptError Unit
  | 0, _, _, _ => panic
  | fuel+1, gpa, spa, remaining =>
    if remaining = 0 then pure ()
    else
      let chunkHasGuard := guardGpas.any fun guard => gpa ≤ guard && guard < gpa+huge2mib
      if gpa &&& (huge2mib-1) = 0 ∧ spa &&& (huge2mib-1) = 0 ∧ huge2mib ≤ remaining ∧
          chunkHasGuard = false then do
        mapHugeLeaf gpa spa
        mapChunks guardGpas fuel (gpa+huge2mib) (add64 spa huge2mib) (remaining-huge2mib)
      else do
        mapSmallPage gpa (if gpa ∈ guardGpas then none else some spa)
        mapChunks guardGpas fuel (gpa+pageSize) (add64 spa pageSize) (remaining-pageSize)

def checkGuards (gpa last len : ℕ) : List ℕ → Except NptError Unit
  | [] => .ok ()
  | guard :: rest =>
    if guard &&& (pageSize-1) ≠ 0 then .error .unalignedBase
    else if guard < gpa ∨ last ≤ guard then .error (.guardAddressOutOfRange guard gpa len)
    else checkGuards gpa last len rest

def mapRange (gpa spa len : ℕ) (guardGpas : List ℕ) : Prog NptMapper NptError Unit := do
  ensure (len ≠ 0) .emptyRegion
  ensure (gpa &&& (pageSize-1) = 0 ∧ spa &&& (pageSize-1) = 0 ∧
    len &&& (pageSize-1) = 0) .unalignedBase
  let last ← ofOption (.addressOutOfRange gpa) (checkedAdd64 gpa len)
  ensure (last ≤ 1 <<< 48) (.addressOutOfRange (last-1))
  ofExcept (checkGuards gpa last len guardGpas)
  mapChunks guardGpas (len/pageSize+1) gpa spa len

def new (buf : Buf) (physBase : ℕ) : Option (Except NptError NptMapper) :=
  if physBase &&& (pageSize-1) ≠ 0 then some (.error .unalignedBase)
  else if buf.len < 4096 then some (.error (.tablesExceedBuffer 4096 buf.len))
  else (allocTable ⟨buf,physBase,0⟩).map fun
    | (.ok _,s) => .ok s
    | (.error e,_) => .error e

end NptMapper
end Enlil.Npt
