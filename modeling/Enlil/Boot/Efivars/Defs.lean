import Enlil.Lib.Bytes
import Enlil.Lib.Le
import Enlil.Lib.Word

/-!
# Boot entries in a firmware variable store: model of `enlil-boot/src/efivars.rs`

Offsets are natural numbers: they stay below the length of the image and sizes below `2 ^ 32`, so no
sum of them wraps.
-/

namespace Enlil.Boot.Efivars
open Le Char

def globalVariable : List UInt8 :=
  [0x61,0xDF,0xE4,0x8B,0xCA,0x93,0xD2,0x11,0xAA,0x0D,0x00,0xE0,0x98,0x03,0x2B,0x8C]

def authStoreGuid : List UInt8 :=
  [0x78,0x2C,0xF3,0xAA,0x7B,0x94,0x9A,0x43,0xA1,0x80,0x2E,0x14,0x4E,0xC3,0x77,0x92]

def plainStoreGuid : List UInt8 :=
  [0x16,0x36,0xCF,0xDD,0x75,0x32,0x64,0x41,0x98,0xB6,0xFE,0x85,0x70,0x7F,0xFE,0x7D]

def fvSignature : List UInt8 := [0x5F,0x46,0x56,0x48]

def storeHeaderBytes : ℕ := 28

def varStartId : List UInt8 := [0xAA,0x55]

def varAdded : UInt8 := 0x3F

def varAddedInTransition : UInt8 := 0x3E

def varDeleted : UInt8 := 0xFD

def erased : UInt8 := 0xFF

inductive SeedError where
  | notAFirmwareVolume | notAVariableStore | corrupt | full | tooLong
deriving DecidableEq

structure Partition where
  number : ℕ
  uniqueGuid : List UInt8
  firstLba : ℕ
  lastLba : ℕ

def Partition.sectors (p : Partition) : ℕ := Word.add64 (Word.sub64 p.lastLba p.firstLba) 1

structure BootEntry where
  description : List Char
  partition : Partition
  loader : List Char

def utf16 (c : Char) : List ℕ :=
  if c.toNat < 0x10000 then [c.toNat]
  else [0xD800+(c.toNat-0x10000)/0x400,0xDC00+(c.toNat-0x10000)%0x400]

def utf16z (s : List Char) : List UInt8 := (s.flatMap utf16 ++ [0]).flatMap (bytes 2)

def loaderPath (loader : List Char) : List Char :=
  let backslash := ofNat 0x5C
  let path := loader.map fun c => if c = ofNat 0x2F then backslash else c
  if path.head? = some backslash then path else backslash :: path

def devicePath (p : Partition) (loader : List Char) : Except SeedError (List UInt8) :=
  let name := utf16z (loaderPath loader)
  if 4+name.length < 2^16 then
    .ok ([0x04,0x01,42,0] ++ bytes 4 p.number ++ bytes 8 p.firstLba ++
      bytes 8 p.sectors ++ p.uniqueGuid ++ [2,2] ++ [0x04,0x04] ++
      bytes 2 (4+name.length) ++ name ++ [0x7F,0xFF,0x04,0x00])
  else .error .tooLong

def loadOption (entry : BootEntry) : Except SeedError (List UInt8) :=
  match devicePath entry.partition entry.loader with
  | .error e => .error e
  | .ok dp =>
    if dp.length < 2^16 then
      .ok (bytes 4 1 ++ bytes 2 dp.length ++ utf16z entry.description ++ dp)
    else .error .tooLong

def align (n : ℕ) : ℕ := (n+3)/4*4

structure Store where
  first : ℕ
  stop : ℕ
  auth : Bool
deriving DecidableEq

namespace Store
section
variable (s : Store)

def headerBytes : ℕ := if s.auth then 60 else 32

def nameAt : ℕ := if s.auth then 36 else 8

def dataAt : ℕ := if s.auth then 40 else 12

def guidAt : ℕ := if s.auth then 44 else 16

lemma headerBytes_ge : 32 ≤ s.headerBytes := by
  unfold headerBytes
  split <;> decide

end
end Store

def fvHeaderLen (image : Buf) : ℕ := toNat (image.slice 48 2)

def locate (image : Buf) : Except SeedError Store :=
  if image.len < 44 ∨ image.slice 40 4 ≠ fvSignature then .error .notAFirmwareVolume
  else if image.len < 50 then .error .notAFirmwareVolume
  else
    let header := fvHeaderLen image
    if image.len < header+storeHeaderBytes then .error .notAVariableStore
    else
      let guid := image.slice header 16
      if guid ≠ authStoreGuid ∧ guid ≠ plainStoreGuid then .error .notAVariableStore
      else if image.byte (header+20) ≠ 0x5A ∨ image.byte (header+21) ≠ 0xFE then
        .error .notAVariableStore
      else
        let size := toNat (image.slice (header+16) 4)
        if size < storeHeaderBytes ∨ image.len < header+size then .error .notAVariableStore
        else .ok ⟨header+storeHeaderBytes,header+size,guid = authStoreGuid⟩

structure Var where
  pos : ℕ
  state : UInt8
  name : List Char
  guid : List UInt8
  dataOff : ℕ
  dataLen : ℕ
deriving DecidableEq

def Var.live (v : Var) : Bool := v.state = varAdded ∨ v.state = varAddedInTransition

def units : List UInt8 → List ℕ
  | a :: b :: rest => toNat [a,b] :: units rest
  | _ => []

def decodeUtf16 : List ℕ → List Char
  | [] => []
  | [u] => if u < 0xD800 ∨ 0xDFFF < u then [ofNat u] else [ofNat 0xFFFD]
  | u :: u' :: us =>
    if u < 0xD800 ∨ 0xDFFF < u then ofNat u :: decodeUtf16 (u' :: us)
    else if u < 0xDC00 ∧ 0xDC00 ≤ u' ∧ u' ≤ 0xDFFF then
      ofNat ((u-0xD800)*0x400+(u'-0xDC00)+0x10000) :: decodeUtf16 us
    else ofNat 0xFFFD :: decodeUtf16 (u' :: us)

def decodeName (bytes : List UInt8) : List Char := decodeUtf16 ((units bytes).takeWhile (· ≠ 0))

def le32At (image : Buf) (off : ℕ) : Except SeedError ℕ :=
  if image.len < off+4 then .error .corrupt else .ok (toNat (image.slice off 4))

/-- Name and data follow the header back to back; only the next header is aligned. -/
def readVar (image : Buf) (store : Store) (pos : ℕ) : Except SeedError (Var × ℕ) :=
  match le32At image (pos+store.nameAt), le32At image (pos+store.dataAt) with
  | .ok nameSize, .ok dataSize =>
    let nameOff := pos+store.headerBytes
    let dataOff := nameOff+nameSize
    let next := align (dataOff+dataSize)
    if store.stop < next ∨ store.stop < nameOff+nameSize then .error .corrupt
    else
      .ok (⟨pos,image.byte (pos+2),decodeName (image.slice nameOff nameSize),
        image.slice (pos+store.guidAt) 16,dataOff,dataSize⟩,next)
  | _, _ => .error .corrupt

lemma readVar_next_gt {image : Buf} {store : Store} {pos next : ℕ} {v : Var}
    (h : readVar image store pos = .ok (v,next)) : pos < next := by
  unfold readVar at h
  split at h
  · simp only at h
    split at h
    · cases h
    · cases h
      have hheader := store.headerBytes_ge
      unfold align
      omega
  · cases h

def walk (image : Buf) (store : Store) (pos : ℕ) : Except SeedError (List Var × ℕ) :=
  if _hroom : pos+store.headerBytes ≤ store.stop then
    if image.slice pos 2 ≠ varStartId then .ok ([],pos)
    else
      match _hread : readVar image store pos with
      | .error e => .error e
      | .ok (v,next) =>
        match walk image store next with
        | .error e => .error e
        | .ok (vars,tail) => .ok (v :: vars,tail)
  else .ok ([],pos)
termination_by store.stop-pos
decreasing_by
  have hgt := readVar_next_gt _hread
  have hpos := store.headerBytes_ge
  omega

/-- The header of a complete variable. In the authenticated layout the monotonic count, the time
stamp and the key index are zero. -/
def encodeHeader (store : Store) (nameLen dataLen : ℕ) (guid : List UInt8) : List UInt8 :=
  varStartId ++ [varAdded,0] ++ bytes 4 0x07 ++
    (if store.auth then List.replicate 28 0 else []) ++ bytes 4 (min nameLen (2^32-1)) ++
    bytes 4 (min dataLen (2^32-1)) ++ guid

def encodeVariable (store : Store) (name : List Char) (guid data : List UInt8) : List UInt8 :=
  let v := encodeHeader store (utf16z name).length data.length guid ++ utf16z name ++ data
  v ++ List.replicate (align v.length-v.length) erased

def hexVal (c : Char) : Option ℕ :=
  let n := c.toNat
  if 48 ≤ n ∧ n ≤ 57 then some (n-48)
  else if 65 ≤ n ∧ n ≤ 70 then some (n-55)
  else if 97 ≤ n ∧ n ≤ 102 then some (n-87)
  else none

def bootPrefix : List Char := ['B', 'o', 'o', 't']

def bootNumber (name : List Char) : Option ℕ :=
  if name.take 4 = bootPrefix then
    match (name.drop 4).map hexVal with
    | [some a,some b,some c,some d] => some (a*4096+b*256+c*16+d)
    | _ => none
  else none

def hexDigit (d : ℕ) : Char := ofNat (if d < 10 then 48+d else 55+d)

def bootName (n : ℕ) : List Char :=
  bootPrefix ++ [hexDigit (n/4096%16),hexDigit (n/256%16),hexDigit (n/16%16),
    hexDigit (n%16)]

def bootOrderName : List Char := ['B', 'o', 'o', 't', 'O', 'r', 'd', 'e', 'r']

def Var.liveGlobal (v : Var) : Bool := v.live ∧ v.guid = globalVariable

def dataOf (image : Buf) (v : Var) : List UInt8 := image.slice v.dataOff v.dataLen

def orderVar (vars : List Var) : Option Var :=
  (vars.filter Var.liveGlobal).find? fun v => v.name = bootOrderName

def bootOrder (image : Buf) (vars : List Var) : List ℕ :=
  (orderVar vars).elim [] fun v => units (dataOf image v)

def bootVars (vars : List Var) : List (ℕ × Var) :=
  (vars.filter Var.liveGlobal).filterMap fun v => (bootNumber v.name).map fun n => (n,v)

/-- The lowest number from `n` on that is not used, of the next `fuel` numbers. -/
def lowestFree (used : List ℕ) : (fuel n : ℕ) → Option ℕ
  | 0, _ => none
  | fuel+1, n => if used.contains n then lowestFree used fuel (n+1) else some n

def bootVariable (image : Buf) (store : Store) (vars : List Var) (option : List UInt8) :
    Except SeedError (ℕ × List (List UInt8)) :=
  match (bootVars vars).find? fun e => dataOf image e.2 = option with
  | some e => .ok (e.1,[])
  | none =>
    match lowestFree ((bootVars vars).map Prod.fst) (2^16) 0 with
    | none => .error .full
    | some n => .ok (n,[encodeVariable store (bootName n) globalVariable option])

def newOrder (number : ℕ) (order : List ℕ) : List UInt8 :=
  (number :: order.filter (· ≠ number)).flatMap (bytes 2)

def retire (image : Buf) : Option Var → Buf
  | some v => image.put (v.pos+2) [image.byte (v.pos+2) &&& varDeleted]
  | none => image

def putAll (image : Buf) (pos : ℕ) : List (List UInt8) → Buf
  | [] => image
  | item :: items => putAll (image.put pos item) (pos+item.length) items

/-- The end of `seed_boot_entry`: put the entry first in the boot order, and write what is new if
all of it fits. -/
def commit (image : Buf) (store : Store) (vars : List Var) (tail number : ℕ)
    (added : List (List UInt8)) : Except SeedError ℕ × Buf :=
  let order := bootOrder image vars
  let rewritesOrder : Bool := order.head? ≠ some number
  let pending :=
    if rewritesOrder then
      added ++ [encodeVariable store bootOrderName globalVariable (newOrder number order)]
    else added
  if pending = [] then (.ok number,image)
  else
    let total := (pending.map List.length).sum
    if store.stop < tail ∨ image.len < store.stop then (.error .corrupt,image)
    else if store.stop-tail < total then (.error .full,image)
    -- Free space that is not erased: a variable header that was not recognised.
    else if (image.slice tail total).any (· ≠ erased) then (.error .corrupt,image)
    else
      (.ok number,
        putAll (if rewritesOrder then retire image (orderVar vars) else image) tail pending)

def seedBootEntry (image : Buf) (entry : BootEntry) : Except SeedError ℕ × Buf :=
  match locate image with
  | .error e => (.error e,image)
  | .ok store =>
    match walk image store store.first with
    | .error e => (.error e,image)
    | .ok (vars,tail) =>
      match loadOption entry with
      | .error e => (.error e,image)
      | .ok option =>
        match bootVariable image store vars option with
        | .error e => (.error e,image)
        | .ok (number,added) => commit image store vars tail number added

end Enlil.Boot.Efivars
