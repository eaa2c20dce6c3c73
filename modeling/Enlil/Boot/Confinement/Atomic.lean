import Enlil.Boot.Confinement.Disk
import Enlil.Boot.Nvme.Defs

/-! # Commands that are refused -/

namespace Enlil.Boot
open Nvme List Bool BlockBackend Disk DiskMap RamDisk Nat

/-- A backend whose writes of whole sectors on the disk store their data, or fail as the device. -/
structure Storing (β : Type) [Disk β] : Prop where
  fails : ∀ {b : β} {lba n : ℕ} {data : List UInt8} {e : BlockError},
    checkSpan (sectors b) lba data.length = .ok n →
    (write b lba data).1 = .error e → e = .io
  sectors : ∀ {b : β} {lba : ℕ} {data : List UInt8}, (write b lba data).1 = .ok () →
    sectors (write b lba data).2 = sectors b
  stores : ∀ {b : β} {lba s : ℕ} {data : List UInt8}, (write b lba data).1 = .ok () →
    InSpan lba data.length s → Disk.content (write b lba data).2 s =
      (data.drop ((s-lba)*sectorSize)).take sectorSize

def zeroSector : List UInt8 := replicate sectorSize 0

lemma checkSpan_of_le {sectors lba n : ℕ} (hle : lba+n ≤ sectors) (hlt : lba+n < 2^64) :
    checkSpan sectors lba (n*sectorSize) = .ok n := by
  have hpos : 0 < sectorSize := by decide
  simp only [checkSpan,mul_mod_left,ne_eq,not_true_eq_false,if_false,
    Nat.mul_div_cancel _ hpos,Word.checkedAdd64_of_lt hlt,if_pos hle]

variable {β : Type} [Disk β] {lba n left chunk fuel : ℕ}

lemma DiskMap.write_zeros (hβ : Storing β) (d : DiskMap β) (lba n : ℕ)
    (hle : lba+n ≤ sectors d) (hlt : lba+n < 2^64) :
    ((∃ s, lba ≤ s ∧ s < lba+n ∧ ¬ Writable d.ranges s) ∧
      write d lba (replicate (n*sectorSize) 0) = (.error .denied,d)) ∨
    ((write d.inner lba (replicate (n*sectorSize) 0)).1 = .error .io ∧
      ∃ d', write d lba (replicate (n*sectorSize) 0) = (.error .io,d')) ∨
    (∀ s, lba ≤ s → s < lba+n → Writable d.ranges s) ∧
      ∃ d', write d lba (replicate (n*sectorSize) 0) = (.ok (),d') ∧
        d'.ranges = d.ranges ∧ sectors d' = sectors d ∧
        ∀ s, content d'.inner s =
          if lba ≤ s ∧ s < lba+n then zeroSector else content d.inner s := by
  have hspan : checkSpan (sectors d.inner) lba
      (replicate (n*sectorSize) (0 : UInt8)).length = .ok n := by
    rw [length_replicate]
    exact checkSpan_of_le hle hlt
  by_cases hdenied : (List.range' lba n).any (fun s => !writable d.ranges s) = true
  · obtain ⟨s,hs,hnot⟩ := List.any_eq_true.mp hdenied
    obtain ⟨hlo,hhi⟩ := mem_range'_1.mp hs
    refine .inl ⟨⟨s,hlo,hhi,fun h => ?_⟩,write_of_denied hspan hdenied⟩
    rw [(writable_iff _ _).mpr h] at hnot
    cases hnot
  · rw [write_of_ok hspan hdenied]
    cases hwrite : (write d.inner lba (replicate (n*sectorSize) 0)).1 with
    | error e =>
      obtain rfl := hβ.fails hspan hwrite
      exact .inr (.inl ⟨rfl,_,Prod.ext hwrite rfl⟩)
    | ok _ =>
      refine .inr (.inr ⟨fun s hlo hhi => writable_of_not_any hdenied hlo hhi,_,
        Prod.ext hwrite rfl,rfl,hβ.sectors hwrite,fun s => ?_⟩)
      split_ifs with hs
      · refine (hβ.stores hwrite (by rwa [length_replicate,inSpan_sectors])).trans ?_
        rw [drop_replicate,take_replicate,zeroSector,← Nat.sub_mul]
        have hone : 1*sectorSize ≤ (n-(s-lba))*sectorSize := mul_le_mul_right _ (by omega)
        rw [Nat.one_mul] at hone
        rw [min_eq_left hone]
      · exact write_frame _ _ _ _ (by rwa [length_replicate,inSpan_sectors])

lemma DiskMap.content_read (d : DiskMap β) (lba len : ℕ) :
    content (read d lba len).2.inner = content d.inner := by
  cases hspan : checkSpan (sectors d.inner) lba len with
  | error e => rw [read_of_error hspan]
  | ok n =>
    rw [read_of_ok hspan]
    exact readLoop_content d.inner n lba []

lemma DiskMap.write_refused (hβ : Storing β) {d d' : DiskMap β} {data : List UInt8} {e : BlockError}
    (h : write d lba data = (.error e,d')) (he : e ≠ .io) : d' = d := by
  cases hspan : checkSpan (sectors d.inner) lba data.length with
  | error e' =>
    rw [write_of_error hspan] at h
    exact (Prod.ext_iff.mp h).2.symm
  | ok n =>
    by_cases hdenied : (List.range' lba n).any (fun s => !writable d.ranges s) = true
    · rw [write_of_denied hspan hdenied] at h
      exact (Prod.ext_iff.mp h).2.symm
    · rw [write_of_ok hspan hdenied] at h
      exact absurd (hβ.fails hspan (Prod.ext_iff.mp h).1) he

namespace NvmeDevice

/-- The sectors of the chunks before the first one that is refused hold zeros. -/
def BlankUpTo (chunk : ℕ) (d : DiskMap β) (lba left : ℕ) : Prop :=
  ∀ s, lba ≤ s → s < lba+left →
    (∀ t, lba ≤ t → t < lba+((s-lba)/chunk+1)*chunk → DiskMap.Writable d.ranges t) →
    Disk.content d.inner s = zeroSector

lemma zeroLoop_unchanged_iff (hβ : Storing β) (hchunk : 0 < chunk) {d : DiskMap β}
    (hle : lba+left ≤ sectors d) (hlt : lba+left < 2^64) {e : BlockError}
    (herr : (zeroLoop chunk fuel d lba left).1 = .error e) (hio : e ≠ .io) :
    (∀ s < lba, content (zeroLoop chunk fuel d lba left).2.inner s = content d.inner s) ∧
    (content (zeroLoop chunk fuel d lba left).2.inner = content d.inner ↔
      BlankUpTo chunk d lba left) := by
  induction fuel generalizing d lba left with
  | zero => cases herr
  | succ fuel ih =>
    by_cases hzero : left = 0
    · rw [zeroLoop,if_pos hzero] at herr
      cases herr
    rw [zeroLoop,if_neg hzero] at herr ⊢
    obtain ⟨⟨t,hlo,hhi,hnot⟩,hwrite⟩ | ⟨-,d',hwrite⟩ | ⟨hall,d',hwrite,hranges,hsectors,hcontent⟩ :=
      write_zeros hβ d lba (min left chunk) (by omega) (by omega)
    · -- the first chunk is refused, so nothing has been zeroed
      simp only [hwrite]
      refine ⟨fun _ _ => trivial,
        iff_of_true trivial fun s hs _ hwritable => absurd (hwritable t hlo ?_) hnot⟩
      have hend : 1*chunk ≤ ((s-lba)/chunk+1)*chunk :=
        mul_le_mul_right _ (le_add_left 1 _)
      omega
    · simp only [hwrite] at herr
      cases herr
      exact absurd rfl hio
    · simp only [hwrite] at herr ⊢
      obtain ⟨hframe,hiff⟩ := ih (by omega) (by omega) herr
      have hmore : chunk < left := by
        by_contra hnot
        rw [min_eq_left (by omega),Nat.sub_self] at herr
        cases fuel <;> cases herr
      rw [min_eq_right hmore.le] at *
      have hfirst : ∀ s, lba ≤ s → s < lba+chunk → content d'.inner s = zeroSector :=
        fun s hlo hhi => (hcontent s).trans (if_pos ⟨hlo,hhi⟩)
      have hrest : ∀ s, lba+chunk ≤ s → content d'.inner s = content d.inner s :=
        fun s hlo => (hcontent s).trans (if_neg (by omega))
      have hindex : ∀ s, lba+chunk ≤ s → ((s-lba)/chunk+1)*chunk =
          chunk+((s-(lba+chunk))/chunk+1)*chunk := by
        intro s hlo
        rw [show s-lba = s-(lba+chunk)+chunk by omega,add_div_right _ hchunk,
          succ_mul,Nat.add_comm]
      refine ⟨fun s hs => (hframe s (by omega)).trans ((hcontent s).trans (if_neg (by omega))),?_⟩
      constructor
      · intro hsame s hlo hhi hwritable
        have hsame' : content d'.inner = content d.inner := by
          funext s
          by_cases hin : s < lba+chunk
          · rw [← hframe s hin,hsame]
          · exact hrest s (by omega)
        by_cases hin : s < lba+chunk
        · rw [← hsame']
          exact hfirst s hlo hin
        · rw [← hrest s (by omega)]
          refine hiff.mp (hsame.trans hsame'.symm) s (by omega) (by omega) fun t hlo' hhi' => ?_
          rw [hranges]
          exact hwritable t (by omega) (by rw [hindex s (by omega)]; omega)
      · intro hblank
        have hsame' : content d'.inner = content d.inner := by
          funext s
          rw [hcontent]
          split_ifs with hin
          · refine (hblank s hin.1 (by omega) fun t hlo hhi => hall t hlo ?_).symm
            rwa [div_eq_of_lt (by omega),Nat.zero_add,Nat.one_mul] at hhi
          · rfl
        refine (hiff.mpr fun s hlo hhi hwritable => ?_).trans hsame'
        rw [hrest s hlo]
        refine hblank s (by omega) (by omega) fun t hlo' hhi' => ?_
        by_cases hin : t < lba+chunk
        · exact hall t hlo' hin
        · rw [hindex s hlo] at hhi'
          rw [← hranges]
          exact hwritable t (by omega) (by omega)

def Zeroes (d : NvmeDevice (DiskMap β)) (c : Command) : Prop :=
  c.opcode = 0x08 ∧ (c.nsid = 1 ∨ c.nsid = 0xFFFFFFFF) ∧
    d.inRange (lbaRange c).1 (lbaRange c).2 = true ∧ d.readOnly = false

variable {d : NvmeDevice (DiskMap β)} {m : GuestMemory} {c : Command}

lemma transfer_unchanged (hβ : Storing β) (herr : (d.transfer c m).1.status ≠ 0)
    (hio : (d.transfer c m).1.status ≠ 0x0006) :
    Disk.content (d.transfer c m).2.1.backend.inner = Disk.content d.backend.inner := by
  unfold transfer at herr hio ⊢
  simp only at herr hio ⊢
  cases hprp : prpSegments m c.prp1 c.prp2 ((lbaRange c).2*sectorSize) with
  | none =>
    simp only
    split_ifs <;> rfl
  | some segments =>
    simp only [hprp] at herr hio ⊢
    split_ifs at herr hio ⊢
    · rfl
    · rfl
    · have hread := d.backend.content_read (lbaRange c).1 ((lbaRange c).2*sectorSize)
      generalize read d.backend _ _ = r at hread ⊢
      obtain ⟨result,b⟩ := r
      cases result with
      | error e => exact hread
      | ok buf =>
        simp only
        generalize scatter m buf segments 0 = written
        obtain ⟨done,m'⟩ := written
        cases done <;> exact hread
    · rfl
    · cases hgather : gather m segments with
      | none => rfl
      | some buf =>
        simp only [hgather] at herr hio ⊢
        cases hwrite : write d.backend (lbaRange c).1 buf with
        | mk result b =>
          rw [hwrite] at herr hio
          cases result with
          | error e =>
            have he : e ≠ .io := fun h => hio (by rw [h]; rfl)
            exact congrArg (fun b => Disk.content b.inner) (DiskMap.write_refused hβ hwrite he)
          | ok _ => exact absurd rfl herr

lemma io_unchanged (hβ : Storing β)
    (hnot : ¬ d.Zeroes c) (herr : (d.io c m).1.status ≠ 0) (hio : (d.io c m).1.status ≠ 0x0006) :
    content (d.io c m).2.1.backend.inner = content d.backend.inner := by
  unfold io at herr hio ⊢
  split_ifs at herr hio ⊢ with hns hflush htransfer hzero htrim
  · rfl
  · cases hrun : flush d.backend with
    | mk result b =>
      have hframe : content b.inner = content d.backend.inner := by
        rw [show b = (flush d.backend).2 by rw [hrun]]
        exact flush_frame d.backend.inner
      cases result <;> exact hframe
  · exact transfer_unchanged hβ herr hio
  · simp only [writeZeroes]
    split_ifs with hrange hro
    · rfl
    · rfl
    · refine absurd ⟨hzero,?_,eq_true_of_not_eq_false hrange,eq_false_of_not_eq_true hro⟩ hnot
      tauto
  · rfl
  · rfl

def ioEffect (d : NvmeDevice (DiskMap β)) (c : Command) (m : GuestMemory) : ℕ × (ℕ → List UInt8) :=
  ((d.io c m).1.status,Disk.content (d.io c m).2.1.backend.inner)

def status : Except BlockError Unit → ℕ
  | .error e => blockStatus e
  | .ok () => 0

lemma Zeroes.ioEffect (h : d.Zeroes c) {r : Except BlockError Unit × DiskMap β}
    (hloop : zeroLoop (min 256 (lbaRange c).2) (lbaRange c).2 d.backend (lbaRange c).1
      (lbaRange c).2 = r) :
    d.ioEffect c m = (status r.1,content r.2.inner) := by
  obtain ⟨hop,hns,hrange,hro⟩ := h
  have hchunk : min maxTransferBytes ((lbaRange c).2*sectorSize)/sectorSize =
      min 256 (lbaRange c).2 := by
    rw [maxTransferBytes,sectorSize,Nvme.pageSize]
    omega
  rw [← hchunk] at hloop
  rw [NvmeDevice.ioEffect,NvmeDevice.io,if_neg (by tauto),if_neg (by rw [hop]; decide),
    if_neg (by rw [hop]; decide),if_pos hop,writeZeroes]
  simp only [hrange,hro,true_eq_false,false_eq_true,if_false,hloop]
  obtain ⟨_ | _,b⟩ := r <;> rfl

/-- An I/O command that fails, but not as the device, leaves the disk unchanged iff it is not one that
has zeroed sectors which were not blank. -/
theorem io_error_unchanged_iff (hβ : Storing β) (d : NvmeDevice (DiskMap β)) (c : Command)
    (m : GuestMemory) (herr : (d.ioEffect c m).1 ≠ 0) (hio : (d.ioEffect c m).1 ≠ 0x0006) :
    (d.ioEffect c m).2 = Disk.content d.backend.inner ↔
      (d.Zeroes c → BlankUpTo (min 256 (lbaRange c).2) d.backend (lbaRange c).1 (lbaRange c).2) := by
  by_cases hzeroes : d.Zeroes c
  swap
  · exact iff_of_true (io_unchanged hβ hzeroes herr hio) fun h => absurd h hzeroes
  obtain ⟨hlt,hle⟩ : (lbaRange c).1+(lbaRange c).2 < 2^64 ∧
      (lbaRange c).1+(lbaRange c).2 ≤ sectors d.backend := by
    have hrange := hzeroes.2.2.1
    rw [inRange] at hrange
    split at hrange
    · next stop hstop =>
      obtain ⟨hlt,rfl⟩ := Word.checkedAdd64_eq_some.mp hstop
      exact ⟨hlt,of_decide_eq_true hrange⟩
    · cases hrange
  have hpos : 0 < min 256 (lbaRange c).2 := by
    rw [lbaRange]
    omega
  rw [hzeroes.ioEffect rfl] at herr hio ⊢
  cases hloop : (zeroLoop (min 256 (lbaRange c).2) (lbaRange c).2 d.backend (lbaRange c).1
      (lbaRange c).2).1 with
  | error e =>
    have he : e ≠ .io := fun h => hio (by rw [hloop,h]; rfl)
    exact (zeroLoop_unchanged_iff hβ hpos hle hlt hloop he).2.trans
      ⟨fun h _ => h,fun h => h hzeroes⟩
  | ok _ => exact absurd (congrArg status hloop) herr

end NvmeDevice

lemma RamDisk.storing : Storing RamDisk where
  fails {d lba n data e} hspan hwrite := by
    rw [write_of_ok hspan] at hwrite
    cases hwrite
  sectors {d lba data} _ := sectors_eq (write_length d lba data)
  stores {d lba s data} hwrite hs := by
    cases hspan : checkSpan d.sectors lba data.length with
    | error e =>
      rw [write_of_error hspan] at hwrite
      cases hwrite
    | ok n =>
      rw [write_of_ok hspan]
      obtain ⟨hlen,-⟩ := checkSpan_eq_ok hspan
      rw [hlen,inSpan_sectors] at hs
      refine ext_getElem? fun j => ?_
      show (List.take sectorSize (List.drop (s*sectorSize) _))[j]? = _
      simp only [getElem?_take,getElem?_drop]
      split_ifs with hj
      · rw [getElem?_splice (span_fits hspan),if_pos]
        · congr 1
          have := Nat.sub_mul s lba sectorSize
          have := mul_le_mul_right sectorSize hs.1
          omega
        · have := mul_le_mul_right sectorSize hs.1
          have := mul_le_mul_right sectorSize (show s+1 ≤ lba+n by omega)
          rw [Nat.add_mul,Nat.add_mul] at this
          omega
      · rfl

lemma RamDisk.sectors_replicate (n : ℕ) :
    sectors ⟨replicate (n*sectorSize) 1⟩ = n := by
  rw [sectors,length_replicate,Nat.mul_div_cancel _ (by decide)]

lemma RamDisk.write_ne_io {n lba : ℕ} {b : RamDisk} (hlt : n+n < 2^64) (hb : b.sectors = n+n)
    (hle : lba+n ≤ n+n) :
    (write b lba (replicate (n*sectorSize) 0)).1 ≠ .error .io := by
  rw [write_of_ok (n := n) (by
    rw [length_replicate,hb]
    exact checkSpan_of_le hle (by omega))]
  exact fun h => nomatch h

namespace NvmeDevice

def noMemory : GuestMemory := ⟨fun _ _ => false,fun _ => 0,fun _ _ h => nomatch h⟩

def onesDevice (sectors writable : ℕ) : NvmeDevice (DiskMap RamDisk) :=
  .new ⟨⟨replicate (sectors*sectorSize) 1⟩,[⟨0,writable,true⟩]⟩ ⟨0,0,[],[],[]⟩ false

def zeroCommand (sectors : ℕ) : Command := ⟨0x08,0,1,0,0,0,0,sectors-1⟩

theorem io_error_unchanged_iff_one_chunk :
    ((onesDevice 2 1).ioEffect (zeroCommand 2) noMemory).1 = 0x0182 ∧
      ((onesDevice 2 1).ioEffect (zeroCommand 2) noMemory).2 =
        Disk.content (onesDevice 2 1).backend.inner := by
  have hstatus : ((onesDevice 2 1).ioEffect (zeroCommand 2) noMemory).1 = 0x0182 := by
    decide +kernel
  have hblank : BlankUpTo (min 256 (lbaRange (zeroCommand 2)).2) (onesDevice 2 1).backend
      (lbaRange (zeroCommand 2)).1 (lbaRange (zeroCommand 2)).2 := by
    intro s hlo hhi hwritable
    have hend : (1 : ℕ) < 0+((s-0)/2+1)*2 := by omega
    obtain ⟨r,hr,-,-,hlt⟩ := hwritable 1 (by decide) hend
    cases mem_singleton.mp hr
    exact absurd hlt (by decide)
  have hiff := io_error_unchanged_iff storing (onesDevice 2 1) (zeroCommand 2) noMemory
    (ne_of_eq_of_ne hstatus (by decide)) (ne_of_eq_of_ne hstatus (by decide))
  exact ⟨hstatus,hiff.mpr fun _ => hblank⟩

lemma zeroLoop_half (hβ : Storing β) (n : ℕ) {b : β} (hpos : 0 < n) (hlt : n+n < 2^64)
    (hb : sectors b = n+n)
    (hok : ∀ b lba, sectors (b : β) = n+n → lba+n ≤ n+n →
      (write b lba (replicate (n*sectorSize) 0)).1 ≠ .error .io) :
    ∃ b', zeroLoop n (n+n) (⟨b,[⟨0,n,true⟩]⟩ : DiskMap β) 0 (n+n) =
      (.error .denied,⟨b',[⟨0,n,true⟩]⟩) ∧ content b' 0 = zeroSector := by
  obtain ⟨fuel,hfuel⟩ := Nat.exists_eq_add_of_le' (show 2 ≤ n+n by omega)
  obtain ⟨⟨s,-,hs,hnot⟩,-⟩ | ⟨hio,-⟩ | ⟨-,⟨b',r⟩,hfirst,hranges,hsectors,hcontent⟩ :=
    write_zeros hβ ⟨b,[⟨0,n,true⟩]⟩ 0 n (show 0+n ≤ sectors b by omega) (by omega)
  · exact absurd ⟨_,mem_singleton_self _,rfl,zero_le s,by simpa using hs⟩ hnot
  · exact absurd hio (hok b 0 hb (by omega))
  obtain rfl : r = _ := hranges
  have hb' : sectors b' = n+n := hsectors.trans hb
  obtain ⟨-,hsecond⟩ | ⟨hio,-⟩ | ⟨hall,-⟩ :=
    write_zeros hβ ⟨b',[⟨0,n,true⟩]⟩ n n (show n+n ≤ sectors b' from hb'.ge) hlt
  · refine ⟨b',?_,(hcontent 0).trans (if_pos (by omega))⟩
    nth_rewrite 1 [hfuel]
    rw [zeroLoop,if_neg (by omega)]
    simp only [min_eq_right (le_add_right n n),hfirst,Nat.zero_add,Nat.add_sub_cancel]
    rw [zeroLoop,if_neg (by omega)]
    simp only [min_self,hsecond]
  · exact absurd hio (hok b' n hb' le_rfl)
  · obtain ⟨r,hr,-,-,hlt'⟩ := hall n le_rfl (by omega)
    cases mem_singleton.mp hr
    exact absurd hlt' (lt_irrefl n)

/-- A command is refused after it has zeroed sectors. -/
theorem write_zeroes_stops_half_way :
    ((onesDevice 512 256).ioEffect (zeroCommand 512) noMemory).1 = 0x0182 ∧
      ((onesDevice 512 256).ioEffect (zeroCommand 512) noMemory).2 0 ≠
        Disk.content (onesDevice 512 256).backend.inner 0 := by
  generalize hdata : replicate (512*sectorSize) (1 : UInt8) = data
  have hb : RamDisk.sectors ⟨data⟩ = 256+256 := by
    rw [← hdata]
    exact RamDisk.sectors_replicate 512
  have hdevice : onesDevice 512 256 = .new ⟨⟨data⟩,[⟨0,256,true⟩]⟩ ⟨0,0,[],[],[]⟩ false := by
    rw [onesDevice,hdata]
  have hzeroes : (onesDevice 512 256).Zeroes (zeroCommand 512) := by
    refine ⟨rfl,.inl rfl,?_,rfl⟩
    rw [hdevice]
    show decide (512 ≤ RamDisk.sectors ⟨data⟩) = true
    rw [hb]
    rfl
  have hhalf : ∀ n, 0 < n → n+n < 2^64 → RamDisk.sectors ⟨data⟩ = n+n → _ :=
    fun n hpos hlt hb => zeroLoop_half RamDisk.storing n hpos hlt hb fun _ _ =>
      RamDisk.write_ne_io hlt
  obtain ⟨b',hloop,hzero⟩ := hhalf 256 (by decide) (by decide) hb
  have hrange : lbaRange (zeroCommand 512) = (0,256+256) := rfl
  have hmin : min 256 (256+256) = 256 := by decide
  have hone : RamDisk.content ⟨data⟩ 0 ≠ zeroSector := by
    rw [RamDisk.content,← hdata,Nat.zero_mul,drop_zero,take_replicate,zeroSector]
    exact fun h => absurd (congrArg (·.head?) h) (by decide)
  rw [hdevice] at hzeroes ⊢
  have heffect := hzeroes.ioEffect (m := noMemory) rfl
  have hbackend : (new (⟨⟨data⟩,[⟨0,256,true⟩]⟩ : DiskMap RamDisk) ⟨0,0,[],[],[]⟩ false).backend =
    ⟨⟨data⟩,[⟨0,256,true⟩]⟩ := rfl
  simp only [hrange] at heffect
  rw [hmin,hbackend,hloop] at heffect
  rw [heffect]
  exact ⟨rfl,fun h => hone (h.symm.trans hzero)⟩

end NvmeDevice
end Enlil.Boot
