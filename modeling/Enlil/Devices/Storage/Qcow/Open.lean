import Enlil.Devices.Storage.Qcow.Defs
import Enlil.Lib.Chain
import Enlil.Lib.Checked
import Mathlib.Data.List.SplitOn

/-! # Opening an image and its backing images -/

namespace Enlil.Devices.Storage

inductive PathComponent where
  | rootDir
  | curDir
  | parentDir
  | normal (name : List UInt8)
  deriving DecidableEq

abbrev Path := List PathComponent

namespace Path

def componentOf (piece : List UInt8) : PathComponent :=
  if piece = [0x2E,0x2E] then .parentDir else .normal piece

/-- `Path::new`. Repeated separators and dots are dropped, but for a dot in front. -/
def new (bytes : List UInt8) : Path :=
  let pieces := bytes.splitOn 0x2F
  let components := (pieces.filter fun piece => piece ≠ [] ∧ piece ≠ [0x2E]).map componentOf
  if bytes.head? = some 0x2F then .rootDir :: components
  else if pieces.head? = some [0x2E] then .curDir :: components
  else components

def isAbsolute (p : Path) : Bool := p.head? == some .rootDir

def parent (p : Path) : Option Path := if p = [] ∨ p = [.rootDir] then none else some p.dropLast

def join (base p : Path) : Path := if base = [] then p else base ++ p.filter (· ≠ .curDir)

def isUtf8 (p : Path) : Bool :=
  p.all fun
    | .normal name => ByteArray.validateUTF8 ⟨name.toArray⟩
    | _ => true

end Path

/-- Files by their paths, none longer than the host allows. -/
structure FileSystem where
  files : List (Path × Buf)
  maxLen : ℕ
  maxLen_lt : maxLen < 2^63
  len_le : ∀ f ∈ files, f.2.len ≤ maxLen

def FileSystem.openFile (fs : FileSystem) (path : Path) : Except QcowError Buf :=
  match fs.files.find? fun f => f.1 = path with
  | some f => .ok f.2
  | none => .error .notFound

def readHeader (file : Buf) : Except QcowError QcowHeader :=
  if min 104 file.len < 72 then .error .fileTooSmall else QcowHeader.fromBytes (file.resize 104)

def readL1Table (file : Buf) (h : QcowHeader) : Except QcowError (List ℕ) :=
  if 2^63 ≤ h.l1TableOffset then .error .invalidSeek
  else if h.l1Size ≠ 0 ∧ file.len < h.l1TableOffset+8*h.l1Size then .error .unexpectedEof
  else .ok ((List.range h.l1Size).map fun i => file.readBE (h.l1TableOffset+8*i) 8)

inductive BackingRef where
  | none
  | raw (file : Buf)
  | qcow (path : Path)

def resolveBacking (imagePath backingPath : Path) : Path :=
  if backingPath.isAbsolute then backingPath
  else Path.join ((Path.parent imagePath).getD [.curDir]) backingPath

/-- `open_backing`, up to the point where it opens a qcow2 image. -/
def findBacking (fs : FileSystem) (file : Buf) (h : QcowHeader) (imagePath : Path) :
    Except QcowError BackingRef := do
  if h.backingFileOffset = 0 ∨ h.backingFileSize = 0 then return .none
  if 2^63 ≤ h.backingFileOffset then throw .invalidSeek
  if file.len < h.backingFileOffset+h.backingFileSize then throw .unexpectedEof
  let name := file.slice h.backingFileOffset h.backingFileSize
  if ByteArray.validateUTF8 ⟨name.toArray⟩ = false then throw .notUtf8
  let resolved := resolveBacking imagePath (Path.new name)
  let backing ← fs.openFile resolved
  if 4 ≤ backing.len ∧ backing.readBE 0 4 = qcow2Magic then return .qcow resolved
  if resolved.isUtf8 = false then throw .notUtf8
  return .raw backing

def inspect (fs : FileSystem) (path : Path) : Except QcowError (QcowHeader × QcowImage × BackingRef) := do
  let file ← fs.openFile path
  let h ← readHeader file
  let l1Table ← readL1Table file h
  let backing ← findBacking fs file h path
  return (h,⟨file,h.refcountTableOffset,h.refcountTableClusters,l1Table⟩,backing)

structure FreshImage (fs : FileSystem) (h : QcowHeader) (image : QcowImage) : Prop where
  len_le : image.file.len ≤ fs.maxLen
  header : readHeader image.file = .ok h
  rtOffset : image.rtOffset = h.refcountTableOffset
  rtClusters : image.rtClusters = h.refcountTableClusters
  l1Table : readL1Table image.file h = .ok image.l1Table

variable {fs : FileSystem} {path : Path} {h : QcowHeader} {file : Buf}

lemma FileSystem.len_le_of_openFile
    (hfile : fs.openFile path = .ok file) : file.len ≤ fs.maxLen := by
  rw [FileSystem.openFile] at hfile
  split at hfile
  case _ f hf =>
    cases hfile
    exact fs.len_le f (List.mem_of_find?_eq_some hf)
  case _ => cases hfile

lemma fresh_of_inspect {image : QcowImage}
    {ref : BackingRef} (hinspect : inspect fs path = .ok (h,image,ref)) : FreshImage fs h image := by
  simp only [inspect,Checked.bind_eq_ok,Checked.pure_eq_ok,Prod.mk.injEq] at hinspect
  obtain ⟨file,hfile,_,hheader,l1Table,hl1,_,_,rfl,rfl,rfl⟩ := hinspect
  exact ⟨FileSystem.len_le_of_openFile hfile,hheader,rfl,rfl,hl1⟩

lemma refcountTableClusters_lt (hh : readHeader file = .ok h) :
    h.refcountTableClusters < 2^32 := by
  rw [readHeader] at hh
  split at hh
  · cases hh
  · rw [QcowHeader.fromBytes] at hh
    repeat' split at hh
    all_goals cases hh
    all_goals exact Buf.readBE_lt

structure OpenedImage where
  header : QcowHeader
  image : QcowImage
  backing : Backing

/-- `QcowBackend::open`, with at most `fuel` images of the chain opened. -/
def openImage (fs : FileSystem) : (fuel : ℕ) → Path → Option (Except QcowError OpenedImage)
  | 0, _ => none
  | fuel+1, path =>
    match inspect fs path with
    | .error e => some (.error e)
    | .ok (h,image,.none) => some (.ok ⟨h,image,.none⟩)
    | .ok (h,image,.raw file) => some (.ok ⟨h,image,.raw file⟩)
    | .ok (h,image,.qcow backing) =>
      (openImage fs fuel backing).map fun r =>
        r.map fun lower => ⟨h,image,.qcow lower.header lower.image lower.backing⟩

lemma openImage_standalone
    {l1Table : List ℕ} (hfile : fs.openFile path = .ok file) (hheader : readHeader file = .ok h)
    (hl1 : readL1Table file h = .ok l1Table) (hbacking : h.backingFileOffset = 0) :
    openImage fs 1 path = some (.ok
      ⟨h,⟨file,h.refcountTableOffset,h.refcountTableClusters,l1Table⟩,.none⟩) := by
  have hnone : findBacking fs file h path = .ok .none := by
    rw [findBacking,if_pos (.inl hbacking)]
    rfl
  have hinspect : inspect fs path =
      .ok (h,⟨file,h.refcountTableOffset,h.refcountTableClusters,l1Table⟩,.none) := by
    rw [inspect,hfile]
    show (readHeader file >>= _) = _
    rw [hheader]
    show (readL1Table file h >>= _) = _
    rw [hl1]
    show (findBacking fs file h path >>= _) = _
    rw [hnone]
    rfl
  rw [openImage,hinspect]

lemma fresh_of_open {fuel : ℕ} {o : OpenedImage}
    (hopen : openImage fs fuel path = some (.ok o)) : FreshImage fs o.header o.image := by
  cases fuel with
  | zero => cases hopen
  | succ fuel =>
    rw [openImage] at hopen
    split at hopen
    · cases hopen
    case _ hinspect =>
      cases hopen
      exact fresh_of_inspect hinspect
    case _ hinspect =>
      cases hopen
      exact fresh_of_inspect hinspect
    case _ hinspect =>
      obtain ⟨r,-,hr⟩ := Option.map_eq_some_iff.mp hopen
      cases r with
      | error e => cases hr
      | ok lower =>
        cases hr
        exact fresh_of_inspect hinspect

section
variable (fs : FileSystem)

def backingImage (path : Path) : Option Path :=
  match inspect fs path with
  | .ok (_,_,.qcow backing) => some backing
  | _ => none

def chainAt (path : Path) (k : ℕ) : Option Path :=
  Chain.after (backingImage fs) k path

lemma isSome_openImage (fuel : ℕ) (path : Path) :
    (openImage fs fuel path).isSome ↔ chainAt fs path fuel = none := by
  induction fuel generalizing path with
  | zero => exact ⟨nofun,nofun⟩
  | succ fuel ih =>
    rw [openImage,chainAt,Chain.after,backingImage]
    rcases inspect fs path with e | ⟨h,image,_ | file | backing⟩
    · exact ⟨fun _ => rfl,fun _ => rfl⟩
    · exact ⟨fun _ => rfl,fun _ => rfl⟩
    · exact ⟨fun _ => rfl,fun _ => rfl⟩
    · rw [Option.isSome_map]
      exact ih backing

lemma finite_backingImage : {p | (backingImage fs p).isSome}.Finite := by
  refine (fs.files.map Prod.fst).toFinset.finite_toSet.subset fun path hpath => ?_
  have hopen : ∃ file, fs.openFile path = .ok file := by
    cases hfile : fs.openFile path with
    | ok file => exact ⟨file,rfl⟩
    | error e =>
      have hnone : backingImage fs path = none := by
        rw [backingImage,inspect,hfile]
        rfl
      have hsome : (backingImage fs path).isSome := hpath
      rw [hnone] at hsome
      cases hsome
  obtain ⟨file,hfile⟩ := hopen
  rw [FileSystem.openFile] at hfile
  split at hfile
  case _ f hf =>
    have hkey : f.1 = path := by simpa using List.find?_some hf
    simpa using ⟨f.2,hkey ▸ List.mem_of_find?_eq_some hf⟩
  case _ => cases hfile

end

/-- Opening a path ends, with an image or an error, just when no image is reached twice from it by
following backing references. -/
theorem terminates_iff (fs : FileSystem) (path : Path) :
    (∃ fuel, (openImage fs fuel path).isSome) ↔
      ∀ i j p, i < j → chainAt fs path i = some p → chainAt fs path j ≠ some p := by
  simp only [isSome_openImage]
  exact Chain.ends_iff (finite_backingImage fs)

/-- The header of a version 2 image of one byte that has the file `a` as its backing file. -/
def backedByA : Buf := Buf.ofList
  ([0x51,0x46,0x49,0xFB,0,0,0,2,0,0,0,0,0,0,0,72,0,0,0,1,0,0,0,16,
    0,0,0,0,0,0,0,1] ++ List.replicate 40 0 ++ [0x61])

def selfBacked : FileSystem where
  files := [(Path.new [0x61],backedByA)]
  maxLen := 2^63-1
  maxLen_lt := by decide
  len_le f hf := by
    rw [List.mem_singleton.mp hf]
    decide

/-- An image that names itself as its backing file is opened again and again. -/
theorem not_terminates_selfBacked :
    ¬ ∃ fuel, (openImage selfBacked fuel (Path.new [0x61])).isSome := by
  have hself : backingImage selfBacked (Path.new [0x61]) = some (Path.new [0x61]) := by
    decide +kernel
  rintro ⟨fuel,hfuel⟩
  refine Chain.not_ends_of_return Nat.zero_lt_one rfl ?_ fuel ((isSome_openImage _ _ _).mp hfuel)
  rw [Chain.after,hself]
  rfl

end Enlil.Devices.Storage
