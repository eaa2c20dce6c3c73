import Enlil.Devices.Storage.Qcow.Open
import Enlil.Lib.Runs

/-! # Operations on images that return -/

namespace Enlil.Devices.Storage
open Prog QcowImage List Nat Word Option

/-! ### Geometry -/

namespace QcowHeader

structure Readable (h : QcowHeader) : Prop where
  three_le : 3 ≤ h.clusterBits
  le : h.clusterBits ≤ 33

/-- A refcount block has room for itself and one cluster more. -/
structure Allocatable (h : QcowHeader) : Prop extends Readable h where
  order_lt : h.refcountOrder < 32
  two_le : 2 ≤ 2^h.clusterBits*8/2^h.refcountOrder

variable {h : QcowHeader}
section
variable (hr : h.Readable)
include hr

lemma Readable.clusterSize_eq : h.clusterSize = pure (2^h.clusterBits) :=
  oneShl_of_lt (by have := hr.le; omega)

lemma Readable.l2Entries_eq : h.l2Entries = pure (2^h.clusterBits/8) := by
  rw [l2Entries,hr.clusterSize_eq,pure_bind]

lemma Readable.eight_dvd : 8 ∣ 2^h.clusterBits :=
  pow_dvd_pow 2 hr.three_le

lemma Readable.eight_le : 8 ≤ 2^h.clusterBits :=
  le_of_dvd (Nat.two_pow_pos _) hr.eight_dvd

lemma Readable.size_le : 2^h.clusterBits ≤ 2^33 :=
  Nat.pow_le_pow_right (by decide) hr.le

lemma Readable.l2Entries_ne : 2^h.clusterBits/8 ≠ 0 := by
  have := hr.eight_le
  omega

lemma Readable.l1Span_eq : mul64 (2^h.clusterBits/8) (2^h.clusterBits) =
      2^h.clusterBits/8*2^h.clusterBits := by
  refine mul64_of_lt ?_
  have hsize := hr.size_le
  calc 2^h.clusterBits/8*2^h.clusterBits
      ≤ 2^33/8*2^33 := Nat.mul_le_mul (Nat.div_le_div_right hsize) hsize
    _ < 2^64 := by decide

lemma Readable.l1Span_ne :
    mul64 (2^h.clusterBits/8) (2^h.clusterBits) ≠ 0 := by
  rw [hr.l1Span_eq]
  exact Nat.mul_ne_zero hr.l2Entries_ne (Nat.two_pow_pos _).ne'

end

lemma Allocatable.refcountBits_eq (ha : h.Allocatable) :
    h.refcountBits = pure (2^h.refcountOrder) :=
  oneShl_of_lt ha.order_lt

lemma Allocatable.refcountBlockEntries_eq (ha : h.Allocatable) :
    h.refcountBlockEntries = pure (2^h.clusterBits*8/2^h.refcountOrder) := by
  have hsize := ha.size_le
  rw [refcountBlockEntries,ha.clusterSize_eq,pure_bind,ha.refcountBits_eq,pure_bind,
    mul64_of_lt (by omega)]

lemma Allocatable.entries_ne (ha : h.Allocatable) :
    2^h.clusterBits*8/2^h.refcountOrder ≠ 0 := by
  have := ha.two_le
  omega

end QcowHeader

/-! ### Reading -/

lemma isQuery_seek (pos : ℕ) : (seek pos).IsQuery := isQuery_ensure

lemma isQuery_readBE (pos n : ℕ) : (readBE pos n).IsQuery :=
  (isQuery_seek pos).bind fun _ => (isQuery_gets _).bind fun _ =>
    isQuery_ensure.bind fun _ => isQuery_pure _

lemma isQuery_readExact (pos n : ℕ) : (readExact pos n).IsQuery :=
  (isQuery_seek pos).bind fun _ => (isQuery_gets _).bind fun _ =>
    isQuery_ensure.bind fun _ => isQuery_pure _

section
variable {h : QcowHeader}

lemma isQuery_resolveCluster (hr : h.Readable) (g : ℕ) : (resolveCluster h g).IsQuery := by
  rw [resolveCluster,hr.clusterSize_eq,pure_bind,hr.l2Entries_eq,pure_bind,
    div_of_ne hr.l1Span_ne,pure_bind]
  refine (isQuery_gets _).bind fun s => .ite (isQuery_pure _) (.ite (isQuery_pure _) ?_)
  rw [rem_of_ne hr.l2Entries_ne,pure_bind]
  refine (isQuery_readBE _ _).bind fun entry => .ite (isQuery_pure _) (.ite (isQuery_pure _) ?_)
  rw [sub_of_le Nat.one_le_two_pow,pure_bind]
  exact isQuery_pure _

def Returns (backing : Option Reader) : Prop :=
  ∀ read, backing = some read → ∀ offset len, read offset len ≠ none

section
variable (hr : h.Readable) (hb : Returns backing)
include hr hb

lemma isQuery_readChunk (offset chunk : ℕ) :
    (readChunk h backing offset chunk).IsQuery := by
  refine (isQuery_resolveCluster hr offset).bind fun loc => ?_
  cases loc with
  | mapped hostOffset => exact isQuery_readExact _ _
  | zero => exact isQuery_pure _
  | unallocated =>
    cases backing with
    | none => exact isQuery_pure _
    | some read =>
      exact (isQuery_ofOutcome (hb read rfl offset chunk)).bind fun _ => isQuery_pure _

lemma isQuery_readLoop (fuel remaining offset : ℕ) :
    (readLoop h backing fuel remaining offset).IsQuery := by
  induction fuel generalizing remaining offset with
  | zero => exact isQuery_pure _
  | succ fuel ih =>
    rw [readLoop]
    refine .ite (isQuery_pure _) ?_
    rw [hr.clusterSize_eq,pure_bind]
    exact (isQuery_readChunk hr hb _ _).bind fun _ => (ih _ _).bind fun _ => isQuery_pure _

lemma isQuery_readAt (offset len : ℕ) : (readAt h backing offset len).IsQuery :=
  .ite (isQuery_pure _) (isQuery_readLoop hr hb _ _ _)

end
end

/-- All images of a chain have clusters of a supported size. -/
def Backing.Readable : Backing → Prop
  | .none => True
  | .raw _ => True
  | .qcow header _ backing => header.Readable ∧ backing.Readable

lemma Backing.returns_reader (b : Backing) (hb : b.Readable) : Returns b.reader := by
  induction b with
  | none => exact nofun
  | raw file =>
    intro read hread offset len
    rw [← some.inj hread,rawReadAt]
    split <;> exact some_ne_none _
  | qcow header image backing ih =>
    intro read hread offset len
    obtain ⟨r,hr⟩ := isQuery_readAt hb.1 (ih hb.2) offset len image
    rw [← some.inj hread]
    show Option.map Prod.fst _ ≠ _
    rw [hr]
    exact some_ne_none _

/-! ### Refcounts -/

section
variable {h : QcowHeader}

lemma isQuery_rtEntries (hr : h.Readable) : (rtEntries h).IsQuery := by
  refine (isQuery_gets _).bind fun s => ?_
  rw [hr.clusterSize_eq,pure_bind]
  exact isQuery_pure _

lemma isQuery_refcountBlockOffset (ha : h.Allocatable) (index : ℕ) :
    (refcountBlockOffset h index).IsQuery := by
  rw [refcountBlockOffset,ha.refcountBlockEntries_eq,pure_bind,div_of_ne ha.entries_ne,pure_bind]
  refine (isQuery_rtEntries ha.toReadable).bind fun entries => .ite (isQuery_pure _) ?_
  exact (isQuery_gets _).bind fun s => (isQuery_readBE _ _).bind fun _ => isQuery_pure _

variable
  {bits rbe blkStart firstSlot cs len rtIndex oldClusters oldEntries newClusters oldOff : ℕ}
  {topSlot w within nb newOff : ℕ}

lemma subByte_shift (hbits : bits = 1 ∨ bits = 2 ∨ bits = 4) (index : ℕ) :
    index%(8/bits) ≤ 8/bits-1 ∧ (8/bits-1-index%(8/bits))*bits < 64 := by
  rcases hbits with rfl | rfl | rfl <;> omega

lemma isQuery_readRefcount (ha : h.Allocatable) (index : ℕ) : (readRefcount h index).IsQuery := by
  refine (isQuery_refcountBlockOffset ha index).bind fun block => ?_
  cases block with
  | none => exact isQuery_pure _
  | some blockOffset =>
    simp only [ha.refcountBlockEntries_eq,pure_bind,rem_of_ne ha.entries_ne,ha.refcountBits_eq]
    split
    case isTrue hbits =>
      refine (isQuery_readBE _ _).bind fun byte => ?_
      obtain ⟨hwithin,hshift⟩ := subByte_shift hbits (index%(2^h.clusterBits*8/2^h.refcountOrder))
      rw [sub_of_le hwithin,pure_bind,assert,if_pos hshift,pure_bind]
      exact isQuery_pure _
    case isFalse =>
      split
      · exact isQuery_readBE _ _
      · exact isQuery_throw _

/-! ### Writing -/

/-- The host file has at least `lo` bytes and no more than the host allows, and the refcount table has
not shrunk. -/
structure QcowImage.Fits (h : QcowHeader) (maxLen l1Size lo : ℕ) (s : QcowImage) : Prop where
  lo_le : lo ≤ s.file.len
  len_le : s.file.len ≤ maxLen
  rt_lt : s.rtClusters < 2^32
  rt_ge : h.refcountTableClusters ≤ s.rtClusters
  l1_length : s.l1Table.length = l1Size

variable {maxLen l1Size lo : ℕ} {s : QcowImage}
section
variable (hs : Fits h maxLen l1Size lo s)
include hs

lemma QcowImage.Fits.at_len : Fits h maxLen l1Size s.file.len s :=
  { hs with lo_le := le_rfl }

lemma QcowImage.Fits.mono {lo' : ℕ} (hlo : lo' ≤ lo) : Fits h maxLen l1Size lo' s :=
  { hs with lo_le := hlo.trans hs.lo_le }

lemma wp_writeAll {pos n : ℕ} {f : ℕ → UInt8} (hn : 0 < n) :
    (writeAll maxLen pos n f).wp s (fun _ => Fits h maxLen l1Size (max lo (pos+n)))
      (fun _ => Fits h maxLen l1Size lo) := by
  rw [writeAll,if_neg hn.ne']
  simp only [seek,wp_bind,wp_ensure,wp_modify]
  refine ⟨fun _ => ⟨fun hpos => ?_,fun _ => hs⟩,fun _ => hs⟩
  exact { hs with lo_le := max_le_max_right _ hs.lo_le, len_le := max_le hs.len_le hpos }

omit hs in
lemma keeps_writeAll (pos n : ℕ) (f : ℕ → UInt8) :
    Keeps (Fits h maxLen l1Size lo) (writeAll maxLen pos n f) := by
  rcases Nat.eq_zero_or_pos n with rfl | hn
  · exact (isQuery_seek pos).keeps.bind fun _ => (isQuery_pure _).keeps
  · exact fun s hs => (wp_writeAll hs hn).mono (fun _ _ hs' => hs'.mono (le_max_left _ _))
      fun _ _ hs' => hs'

omit hs in
lemma keeps_writeBE (pos n v : ℕ) : Keeps (Fits h maxLen l1Size lo) (writeBE maxLen pos n v) :=
  keeps_writeAll pos n _

lemma wp_setLen (n : ℕ) :
    (setLen maxLen n).wp s (fun _ => Fits h maxLen l1Size n) (fun _ => Fits h maxLen l1Size lo) := by
  simp only [setLen,wp_bind,wp_ensure,wp_modify]
  exact ⟨fun hn => { hs with lo_le := le_rfl, len_le := hn },fun _ => hs⟩

end

lemma keeps_writeRefcount (ha : h.Allocatable) (index value : ℕ) :
    Keeps (Fits h maxLen l1Size lo) (writeRefcount h maxLen index value) := by
  refine (isQuery_refcountBlockOffset ha index).keeps.bind fun block => ?_
  cases block with
  | none => exact (isQuery_throw _).keeps
  | some blockOffset =>
    simp only [ha.refcountBlockEntries_eq,pure_bind,rem_of_ne ha.entries_ne,ha.refcountBits_eq]
    split
    · exact keeps_writeBE _ _ _
    · exact (isQuery_throw _).keeps

lemma keeps_freeOldTable (ha : h.Allocatable) (oldFirst oldClusters : ℕ) :
    Keeps (Fits h maxLen l1Size lo) (freeOldTable h maxLen oldFirst oldClusters) :=
  Keeps.forN fun _ _ => (isQuery_readRefcount ha _).keeps.bind fun _ => keeps_writeRefcount ha _ _

/-! ### Growing the refcount table -/

/-- The search for the number of new blocks ends, since a block has room for two clusters. -/
lemma blockCount_eq (hrbe : 2 ≤ rbe)
    (hfirst : firstSlot ≤ blkStart/rbe) (hlt : 2*blkStart+2 < 2^64) (fuel nb : ℕ)
    (hnb : nb ≤ blkStart+2) (hfuel : blkStart+3 ≤ fuel+nb) :
    ∃ topSlot nb', blockCount rbe blkStart firstSlot fuel nb = pure (topSlot,nb') ∧
      topSlot = (blkStart+nb')/rbe ∧ firstSlot ≤ topSlot ∧ topSlot < firstSlot+nb' ∧
      nb' ≤ blkStart+2 := by
  induction fuel generalizing nb with
  | zero => omega
  | succ fuel ih =>
    have hend : add64 blkStart nb = blkStart+nb := add64_of_lt (by omega)
    have htop : firstSlot ≤ (blkStart+nb)/rbe :=
      hfirst.trans (Nat.div_le_div_right (Nat.le_add_right _ _))
    have hhalf : (blkStart+nb)/rbe ≤ blkStart+1 := by
      have := div_le_div_left hrbe (show 0 < 2 by decide) (a := blkStart+nb)
      omega
    rw [blockCount,hend,div_of_ne (by omega),pure_bind,sub_of_le htop,pure_bind,
      add64_of_lt (by omega)]
    by_cases hneeded : (blkStart+nb)/rbe-firstSlot+1 ≤ nb
    · rw [if_pos hneeded]
      exact ⟨_,nb,rfl,rfl,htop,by omega,hnb⟩
    · rw [if_neg hneeded]
      exact ih _ (by omega) (by omega)

/-- Where the new table and its blocks lie: the table has room for the slot that is wanted, and all
of it ends below `2 ^ 64`. -/
structure Arena (cs rbe len rtIndex oldClusters oldEntries newClusters : ℕ) : Prop where
  eight_le : 8 ≤ cs
  size_le : cs ≤ 2^33
  two_le : 2 ≤ rbe
  len_lt : len < 2^63
  slot : rtIndex = Word.divCeil len cs/rbe
  beyond : oldEntries ≤ rtIndex
  grows : oldClusters < newClusters
  tight : newClusters*cs < (rtIndex+1)*8+cs

namespace Arena
variable {cs rbe len rtIndex oldClusters oldEntries newClusters : ℕ}

lemma bytes_lt (h : Arena cs rbe len rtIndex oldClusters oldEntries newClusters) :
    divCeil len cs*cs+newClusters*cs+4*cs < 2^63+2^62+2^40 := by
  have hstart := divCeil_mul_lt len (show 0 < cs by have := h.eight_le; omega)
  have hcs := h.size_le
  have hlen := h.len_lt
  have htight := h.tight
  have hslot : rtIndex*2 ≤ divCeil len cs := by
    rw [h.slot]
    exact (Nat.mul_le_mul_left _ h.two_le).trans (div_mul_le_self _ _)
  have height : divCeil len cs*8 ≤ divCeil len cs*cs :=
    Nat.mul_le_mul_left _ h.eight_le
  omega

lemma clusters_lt (h : Arena cs rbe len rtIndex oldClusters oldEntries newClusters) :
    2*(divCeil len cs+newClusters)+2 < 2^64 := by
  have hbytes := h.bytes_lt
  have hstart : divCeil len cs*8 ≤ divCeil len cs*cs :=
    Nat.mul_le_mul_left _ h.eight_le
  have hnew : newClusters*8 ≤ newClusters*cs := Nat.mul_le_mul_left _ h.eight_le
  omega

end Arena

lemma wp_buildTable (s : QcowImage)
    (ha : Arena cs rbe len rtIndex oldClusters oldEntries newClusters)
    (htop : topSlot < newClusters*cs/8) :
    (buildTable cs oldOff oldClusters newClusters blkStart oldEntries topSlot).wp s
      (fun table s' => s' = s ∧ table.len = newClusters*cs) (fun _ s' => s' = s) := by
  have hbytes := ha.bytes_lt
  have hold : oldClusters*cs ≤ newClusters*cs := Nat.mul_le_mul_right _ ha.grows.le
  rw [buildTable,mul64_of_lt (show newClusters*cs < 2^64 by omega),
    mul64_of_lt (show oldClusters*cs < 2^64 by omega)]
  simp only [wp_bind,wp_assert]
  refine ⟨hold,(isQuery_readExact _ _).wp (fun old _ => ?_) fun _ _ => rfl⟩
  refine wp_foldN (fun _ (table : Buf) s' => s' = s ∧ table.len = newClusters*cs) ⟨rfl,rfl⟩ ?_
  rintro k table s' hk ⟨rfl,hlen⟩
  have hp : mul64 (oldEntries+k) 8 = (oldEntries+k)*8 := mul64_of_lt (by omega)
  simp only [wp_bind,wp_assert,wp_pure,hp]
  exact ⟨by omega,trivial,hlen⟩

lemma entry_le (hwithin : within < cs*8/(8*w)) :
    (within+1)*w ≤ cs := by
  have hdiv : cs*8/(8*w) = cs/w := by
    rw [mul_comm cs 8,Nat.mul_div_mul_left _ _ (by decide)]
  rw [hdiv] at hwithin
  exact (Nat.mul_le_mul_right _ hwithin).trans (div_mul_le_self _ _)

lemma eight_mul_width (h : refcountWidth bits = some w) : bits = 8*w ∧ 0 < w := by
  unfold refcountWidth at h
  split at h
  all_goals simp only [some.injEq,reduceCtorEq] at h
  all_goals omega

lemma wp_buildBlocks (s : QcowImage) (hh : h.Allocatable)
    (ha : Arena (2^h.clusterBits) (2^h.clusterBits*8/2^h.refcountOrder) len rtIndex
      oldClusters oldEntries newClusters)
    (hnb : nb ≤ divCeil len (2^h.clusterBits)+newClusters+2)
    (htop : (divCeil len (2^h.clusterBits)+newClusters+nb) /
      (2^h.clusterBits*8/2^h.refcountOrder) < oldEntries+nb) :
    (buildBlocks h (2^h.clusterBits) (2^h.clusterBits*8/2^h.refcountOrder) nb
      (divCeil len (2^h.clusterBits))
      (divCeil len (2^h.clusterBits)+newClusters+nb) oldEntries).wp s
      (fun blocks s' => s' = s ∧ blocks.len = nb*2^h.clusterBits) (fun _ s' => s' = s) := by
  have hbytes := ha.bytes_lt
  have hslot := ha.slot
  have hbeyond := ha.beyond
  have hnbBytes : nb*2^h.clusterBits ≤ divCeil len (2^h.clusterBits)*2^h.clusterBits +
      newClusters*2^h.clusterBits+2*2^h.clusterBits := by
    rw [← add_mul,← add_mul]
    exact Nat.mul_le_mul_right _ hnb
  rw [buildBlocks,hh.refcountBits_eq,pure_bind,
    mul64_of_lt (show nb*2^h.clusterBits < 2^64 by omega)]
  refine wp_foldN (fun _ (blocks : Buf) s' => s' = s ∧ blocks.len = nb*2^h.clusterBits) ⟨rfl,rfl⟩ ?_
  rintro k blocks s' hk ⟨rfl,hlen⟩
  dsimp only
  rw [div_of_ne hh.entries_ne,pure_bind]
  generalize hcs : 2^h.clusterBits = cs at *
  generalize hbits : 2^h.refcountOrder = bits at *
  generalize divCeil len cs = start at *
  have hlow : oldEntries ≤ (start+k)/(cs*8/bits) :=
    (hslot ▸ hbeyond).trans (Nat.div_le_div_right (Nat.le_add_right _ _))
  have hhigh : (start+k)/(cs*8/bits) < oldEntries+nb :=
    (Nat.div_le_div_right (by omega)).trans_lt htop
  rw [sub_of_le hlow,pure_bind,rem_of_ne (by have := ha.two_le; omega),pure_bind]
  split
  case _ w hw =>
    obtain ⟨rfl,hpos⟩ := eight_mul_width hw
    have hwithin := entry_le (mod_lt (start+k) (Nat.zero_lt_two.trans_le ha.two_le))
    have hbase : ((start+k)/(cs*8/(8*w))-oldEntries+1)*cs ≤ nb*cs :=
      Nat.mul_le_mul_right _ (by omega)
    rw [add_mul,one_mul] at hbase hwithin
    have hp : add64 (mul64 ((start+k)/(cs*8/(8*w))-oldEntries) cs)
        (mul64 ((start+k)%(cs*8/(8*w))) w) =
        ((start+k)/(cs*8/(8*w))-oldEntries)*cs +
          (start+k)%(cs*8/(8*w))*w := by
      rw [mul64_of_lt (by omega),mul64_of_lt (by omega),add64_of_lt (by omega)]
    simp only [wp_bind,wp_assert,wp_pure,hp]
    exact ⟨by omega,trivial,hlen⟩
  case _ => rfl

lemma rtEntries_eq (hr : h.Readable) (s : QcowImage) :
    rtEntries h s = some (.ok (mul64 s.rtClusters (2^h.clusterBits)/8),s) := by
  simp only [rtEntries,hr.clusterSize_eq]
  rfl

lemma wp_publishTable (hh : h.Allocatable) (hs : Fits h maxLen l1Size lo s)
    (hbehind : s.file.len ≤ newOff) (hlt : newClusters < 2^32)
    (hge : h.refcountTableClusters ≤ newClusters) {table : Buf} (htable : 0 < table.len)
    (oldFirst oldClusters : ℕ) (blocks : Buf) :
    (publishTable h maxLen newOff newClusters oldFirst oldClusters table blocks).wp s
      (fun _ => Fits h maxLen l1Size (s.file.len+1)) (fun _ => Fits h maxLen l1Size lo) := by
  have hlen := hs.lo_le
  rw [publishTable,wp_bind]
  refine (wp_writeAll hs htable).mono ?_ fun _ _ herr => herr
  intro _ s₁ hs₁
  have hlong : Fits h maxLen l1Size (s.file.len+1) s₁ := hs₁.mono (by omega)
  rw [wp_bind]
  refine (keeps_writeAll _ _ _ s₁ hlong).mono ?_ fun _ _ herr => herr.mono (by omega)
  intro _ s₂ hs₂
  rw [wp_bind,wp_modify]
  have hs₃ : Fits h maxLen l1Size (s.file.len+1)
      { s₂ with rtOffset := newOff, rtClusters := newClusters%2^32 } := by
    rw [mod_eq_of_lt hlt]
    exact { hs₂ with rt_lt := hlt, rt_ge := hge }
  have hoffset : Keeps (Fits h maxLen l1Size (s.file.len+1)) (writeBE maxLen 48 8 newOff) :=
    keeps_writeBE _ _ _
  have hrest := hoffset.bind fun _ => (keeps_writeBE 56 4 newClusters).bind fun _ =>
    keeps_freeOldTable hh oldFirst oldClusters
  exact (hrest _ hs₃).mono (fun _ _ hend => hend) fun _ _ herr => herr.mono (by omega)

lemma nextMultipleOf_eq (hr : h.Readable) (hlen : len < 2^63) :
    nextMultipleOf len (2^h.clusterBits) =
      divCeil len (2^h.clusterBits)*2^h.clusterBits := by
  have hsize := hr.size_le
  have hdm := div_add_mod len (2^h.clusterBits)
  have hmod := mod_lt len (Nat.two_pow_pos h.clusterBits)
  rw [mul_comm] at hdm
  rw [nextMultipleOf,divCeil]
  by_cases hzero : len%2^h.clusterBits = 0
  · rw [if_pos hzero,if_pos hzero]
    omega
  · rw [if_neg hzero,if_neg hzero,add64_of_lt (by omega),add_mul]
    omega

lemma behind_lt (hr : h.Readable) (hlen : len < 2^63) :
    len < add64 (nextMultipleOf len (2^h.clusterBits)) (2^h.clusterBits) := by
  have hsize := hr.size_le
  have hpos := Nat.two_pow_pos h.clusterBits
  have hge := divCeil_mul_ge len hpos
  have hup := divCeil_mul_lt len hpos
  rw [nextMultipleOf_eq hr hlen,add64_of_lt (by omega)]
  omega

variable (hh : h.Allocatable) (hmax : maxLen < 2^63)
section
variable (hs : Fits h maxLen l1Size lo s)
include hh hmax hs
variable {rtIndex : ℕ}

lemma arena_of_grow (hslot : rtIndex = divCeil s.file.len (2^h.clusterBits) /
      (2^h.clusterBits*8/2^h.refcountOrder))
    (hbeyond : mul64 s.rtClusters (2^h.clusterBits)/8 ≤ rtIndex) {newClusters : ℕ}
    (hnew : newClusters = min (max (divCeil (mul64 (add64 rtIndex 1) 8)
      (2^h.clusterBits)) h.refcountTableClusters) (2^32-1))
    (hgrows : s.rtClusters < newClusters) :
    Arena (2^h.clusterBits) (2^h.clusterBits*8/2^h.refcountOrder) s.file.len rtIndex
      s.rtClusters (mul64 s.rtClusters (2^h.clusterBits)/8) newClusters where
  eight_le := hh.eight_le
  size_le := hh.size_le
  two_le := hh.two_le
  len_lt := hs.len_le.trans_lt hmax
  slot := hslot
  beyond := hbeyond
  grows := hgrows
  tight := by
    have hlen : s.file.len < 2^63 := hs.len_le.trans_lt hmax
    have hceil : divCeil s.file.len (2^h.clusterBits) ≤ 2^60+1 := by
      have hdiv := div_le_div_left hh.eight_le (show 0 < 8 by decide) (a := s.file.len)
      rw [divCeil]
      split <;> omega
    have hindex : rtIndex ≤ 2^60+1 := hslot ▸ (Nat.div_le_self _ _).trans hceil
    rw [add64_of_lt (by omega),mul64_of_lt (by omega)] at hnew
    have hneeded : newClusters ≤ divCeil ((rtIndex+1)*8) (2^h.clusterBits) := by
      have := hs.rt_ge
      omega
    have hlt := divCeil_sub_one_mul_lt (Nat.two_pow_pos h.clusterBits)
      (show 0 < (rtIndex+1)*8 by omega)
    have hmul := Nat.mul_le_mul_right (2^h.clusterBits) hneeded
    rw [Nat.sub_mul,one_mul] at hlt
    omega

lemma wp_growRefcountTable (hslot : rtIndex = divCeil s.file.len (2^h.clusterBits) /
      (2^h.clusterBits*8/2^h.refcountOrder))
    (hbeyond : mul64 s.rtClusters (2^h.clusterBits)/8 ≤ rtIndex) :
    (growRefcountTable h maxLen rtIndex).wp s
      (fun _ s' => s' = s ∨ Fits h maxLen l1Size (s.file.len+1) s')
      (fun _ => Fits h maxLen l1Size lo) := by
  rw [growRefcountTable,hh.clusterSize_eq,pure_bind,hh.refcountBlockEntries_eq,pure_bind,
    wp_bind,wp_gets,wp_bind]
  refine wp.intro_ok (rtEntries_eq hh.toReadable s) ?_
  rw [wp_ite]
  refine ⟨fun _ => hs,fun _ => ?_⟩
  rw [QcowHeader.refcountTableClustersFor,hh.clusterSize_eq,pure_bind,pure_bind]
  generalize hnew : min (max (divCeil (mul64 (add64 rtIndex 1) 8)
      (2^h.clusterBits)) h.refcountTableClusters) (2^32-1) = newClusters
  rw [wp_ite]
  refine ⟨fun _ => .inl rfl,fun hle => ?_⟩
  have hgrows : s.rtClusters < newClusters := Nat.lt_of_not_le hle
  have ha := arena_of_grow hh hmax hs hslot hbeyond hnew.symm hgrows
  have hclusters := ha.clusters_lt
  have hbytes := ha.bytes_lt
  dsimp only [id]
  rw [add64_of_lt (show _+newClusters < 2^64 by omega)]
  obtain ⟨topSlot,nb,hcount,htop,hfirst,hroom,hnb⟩ := blockCount_eq hh.two_le
    ((hslot ▸ hbeyond).trans (Nat.div_le_div_right (Nat.le_add_right _ newClusters)))
    hclusters (2^64) 1 (by omega) (by omega)
  rw [hcount,pure_bind]
  dsimp only
  rw [add64_of_lt (by omega),mul64_of_lt (show newClusters*_ < 2^64 by omega),wp_ite]
  refine ⟨fun _ => hs,fun hlt => ?_⟩
  rw [wp_bind]
  refine (wp_buildTable s ha (Nat.lt_of_not_le hlt)).mono ?_ fun _ s' heq => heq ▸ hs
  rintro table _ ⟨rfl,htable⟩
  rw [wp_bind]
  refine (wp_buildBlocks _ hh ha hnb (htop ▸ hroom)).mono ?_ fun _ s' heq => heq ▸ hs
  rintro blocks s' ⟨rfl,-⟩
  rw [mul64_of_lt (by omega)]
  refine (wp_publishTable hh hs (divCeil_mul_ge _ (Nat.two_pow_pos _)) (by omega) ?_ ?_ _ _
    blocks).mono (fun _ _ hend => .inr hend) fun _ _ herr => herr
  · exact hs.rt_ge.trans hgrows.le
  · rw [htable]
    exact Nat.mul_pos (by omega) (Nat.two_pow_pos _)

/-! ### Allocating -/

lemma wp_appendRefcountBlock (rtIndex : ℕ) :
    (appendRefcountBlock h maxLen (2^h.clusterBits*8/2^h.refcountOrder) rtIndex).wp s
      (fun _ => Fits h maxLen l1Size (s.file.len+1)) (fun _ => Fits h maxLen l1Size lo) := by
  have hlt := behind_lt hh.toReadable (hs.len_le.trans_lt hmax)
  have hlen := hs.lo_le
  rw [appendRefcountBlock,hh.clusterSize_eq,pure_bind,wp_bind,wp_gets,wp_bind]
  refine (wp_setLen hs _).mono ?_ fun _ _ herr => herr
  intro _ s₁ hs₁
  have hlong : Fits h maxLen l1Size (s.file.len+1) s₁ := hs₁.mono hlt
  dsimp only [id]
  rw [div_of_ne hh.entries_ne,pure_bind,wp_ite]
  refine ⟨fun _ => hlong.mono (by omega),fun _ => ?_⟩
  rw [wp_bind,wp_gets]
  have hentry : Keeps (Fits h maxLen l1Size (s.file.len+1))
      (writeBE maxLen (add64 s₁.rtOffset (mul64 rtIndex 8)) 8
        (nextMultipleOf s.file.len (2^h.clusterBits))) :=
    keeps_writeBE _ _ _
  have hrest := hentry.bind fun _ => (keeps_writeRefcount hh
    (nextMultipleOf s.file.len (2^h.clusterBits)/2^h.clusterBits) 1).bind fun _ =>
      (isQuery_pure (nextMultipleOf s.file.len (2^h.clusterBits))).keeps
  exact (hrest s₁ hlong).mono (fun _ _ hend => hend) fun _ _ herr => herr.mono (by omega)

lemma wp_coverSlot (hslot : rtIndex = divCeil s.file.len (2^h.clusterBits) /
      (2^h.clusterBits*8/2^h.refcountOrder)) :
    (coverSlot h maxLen rtIndex).wp s (fun _ s' => s' = s ∨ Fits h maxLen l1Size (s.file.len+1) s')
      (fun _ => Fits h maxLen l1Size lo) := by
  rw [coverSlot,wp_bind]
  refine wp.intro_ok (rtEntries_eq hh.toReadable s) ?_
  rw [wp_ite]
  exact ⟨fun hbeyond => wp_growRefcountTable hh hmax hs hslot hbeyond,fun _ => .inl rfl⟩

lemma wp_allocateRefcountBlock
    (hmissing : refcountBlockOffset h (divCeil s.file.len (2^h.clusterBits)) s =
      some (.ok none,s)) :
    (allocateRefcountBlock h maxLen (divCeil s.file.len (2^h.clusterBits))).wp s
      (fun _ => Fits h maxLen l1Size (s.file.len+1)) (fun _ => Fits h maxLen l1Size lo) := by
  have hlen := hs.lo_le
  rw [allocateRefcountBlock,hh.refcountBlockEntries_eq,pure_bind,div_of_ne hh.entries_ne,
    pure_bind,wp_bind]
  refine (wp_coverSlot hh hmax hs rfl).mono ?_ fun _ _ herr => herr
  intro _ s₁ hs₁
  have hfits : Fits h maxLen l1Size s.file.len s₁ := by
    rcases hs₁ with rfl | hlong
    · exact hs.at_len
    · exact hlong.mono (le_succ _)
  rw [wp_bind]
  refine (isQuery_refcountBlockOffset hh _).wp (fun block hblock => ?_) fun _ _ => hfits.mono hlen
  cases block with
  | some off =>
    rcases hs₁ with rfl | hlong
    · rw [hmissing] at hblock
      cases hblock
    · exact hlong
  | none =>
    refine (wp_appendRefcountBlock hh hmax hfits _).mono ?_ fun _ _ herr => herr.mono hlen
    exact fun _ _ hend => hend.mono (succ_le_succ hfits.lo_le)

lemma wp_allocateLoop {fuel : ℕ} (hfuel : maxLen < fuel+s.file.len) :
    (allocateLoop h maxLen fuel).wp s (fun _ => Fits h maxLen l1Size lo)
      (fun _ => Fits h maxLen l1Size lo) := by
  induction fuel generalizing s with
  | zero =>
    have := hs.len_le
    omega
  | succ fuel ih =>
    have hlen : s.file.len < 2^63 := hs.len_le.trans_lt hmax
    have hlt := behind_lt hh.toReadable hlen
    have hlo := hs.lo_le
    rw [allocateLoop,hh.clusterSize_eq,pure_bind,wp_bind,wp_gets]
    dsimp only [id]
    have hindex : nextMultipleOf s.file.len (2^h.clusterBits)/2^h.clusterBits =
        divCeil s.file.len (2^h.clusterBits) := by
      rw [nextMultipleOf_eq hh.toReadable hlen,Nat.mul_div_cancel _ (Nat.two_pow_pos _)]
    rw [hindex,wp_bind]
    refine (isQuery_refcountBlockOffset hh _).wp (fun block hblock => ?_) fun _ _ => hs
    cases block with
    | some off =>
      dsimp only
      rw [wp_bind]
      refine (wp_setLen hs _).mono ?_ fun _ _ herr => herr
      intro _ s₁ hs₁
      exact ((keeps_writeRefcount hh _ 1).bind fun _ => (isQuery_pure _).keeps) s₁
        (hs₁.mono (by omega))
    | none =>
      dsimp only
      rw [wp_bind]
      refine (wp_allocateRefcountBlock hh hmax hs hblock).mono ?_ fun _ _ herr => herr
      intro _ s₁ hs₁
      have hlonger := hs₁.lo_le
      exact ih (hs₁.mono (by omega)) (by omega)

end
variable {backing : Option Reader}

lemma keeps_copyOnWrite (hb : Returns backing) (old guestOffset dataOff : ℕ) :
    Keeps (Fits h maxLen l1Size lo)
      (copyOnWrite maxLen backing (2^h.clusterBits) old guestOffset dataOff) := by
  cases backing with
  | none => exact (isQuery_pure _).keeps
  | some read =>
    rw [copyOnWrite]
    split
    · rw [sub_of_le Nat.one_le_two_pow,pure_bind]
      exact (isQuery_ofOutcome (hb read rfl _ _)).keeps.bind fun _ => keeps_writeAll _ _ _
    · exact (isQuery_pure _).keeps

section
include hh hmax

lemma keeps_allocateHostCluster : Keeps (Fits h maxLen l1Size lo) (allocateHostCluster h maxLen) :=
  fun _ hs => wp_allocateLoop hh hmax hs (by omega)

lemma keeps_allocateL2Table {l1Index : ℕ} (hindex : l1Index < l1Size) :
    Keeps (Fits h maxLen l1Size lo) (allocateL2Table h maxLen l1Index) := by
  refine (keeps_allocateHostCluster hh hmax).bind fun l2Off => (keeps_writeBE _ _ _).bind fun _ => ?_
  intro s hs
  simp only [wp_bind,wp_gets,wp_assert,wp_modify,wp_pure,id]
  refine ⟨hs.l1_length ▸ hindex,{ hs with l1_length := ?_ }⟩
  rw [length_set]
  exact hs.l1_length

variable {backing : Option Reader}

lemma keeps_l2TableAt {l1Index : ℕ} (hindex : l1Index < l1Size) (existing : ℕ) :
    Keeps (Fits h maxLen l1Size lo) (l2TableAt h maxLen l1Index existing) := by
  rw [l2TableAt]
  split
  · exact keeps_allocateL2Table hh hmax hindex
  · exact (isQuery_pure _).keeps

lemma keeps_allocateDataCluster (hb : Returns backing) (guestOffset : ℕ) :
    Keeps (Fits h maxLen l1Size lo) (allocateDataCluster h maxLen backing guestOffset) := by
  intro s hs
  rw [allocateDataCluster,hh.clusterSize_eq,pure_bind,hh.l2Entries_eq,pure_bind,
    div_of_ne hh.l1Span_ne,pure_bind,wp_bind,wp_gets,wp_ite]
  refine ⟨fun _ => hs,fun hindex => ?_⟩
  have hlt := hs.l1_length ▸ Nat.lt_of_not_le hindex
  refine ((keeps_l2TableAt hh hmax hlt _).bind fun l2TableOffset => ?_) s hs
  rw [rem_of_ne hh.l2Entries_ne,pure_bind]
  exact (isQuery_readBE _ _).keeps.bind fun old =>
    (keeps_allocateHostCluster hh hmax).bind fun dataOff =>
      (keeps_copyOnWrite hb _ _ _).bind fun _ =>
        (keeps_writeBE _ _ _).bind fun _ => (isQuery_pure _).keeps

end

lemma keeps_discardCluster (hh : h.Allocatable) (guestOffset : ℕ) :
    Keeps (Fits h maxLen l1Size lo) (discardCluster h maxLen guestOffset) := by
  rw [discardCluster,hh.clusterSize_eq,pure_bind,hh.l2Entries_eq,pure_bind,
    div_of_ne hh.l1Span_ne,pure_bind]
  refine (isQuery_gets _).keeps.bind fun s =>
    .ite (isQuery_pure _).keeps (.ite (isQuery_pure _).keeps ?_)
  rw [rem_of_ne hh.l2Entries_ne,pure_bind]
  refine (isQuery_readBE _ _).keeps.bind fun entry => .ite (isQuery_pure _).keeps ?_
  exact (isQuery_readRefcount hh _).keeps.bind fun _ =>
    (keeps_writeRefcount hh _ _).bind fun _ => keeps_writeBE _ _ _

end

/-! ### The backend -/

namespace QcowBackend

/-- The geometry of the images of a chain is one that the backend's arithmetic supports. -/
structure Regular (q : QcowBackend) : Prop where
  header : q.header.Allocatable
  backing : q.backing.Readable
  size_le : q.header.size+2*2^q.header.clusterBits ≤ 2^64
  maxLen_lt : q.maxLen < 2^63

variable {q : QcowBackend} {l1Size lo : ℕ}
section
variable (hq : q.Regular)
include hq

lemma keeps_readAt (offset len : ℕ) :
    Keeps (Fits q.header q.maxLen l1Size lo) (q.readAt offset len) :=
  (isQuery_readAt hq.header.toReadable (q.backing.returns_reader hq.backing) offset len).keeps

lemma keeps_targetOf (offset : ℕ) :
    Keeps (Fits q.header q.maxLen l1Size lo) (q.targetOf offset) := by
  have hnew : Keeps (Fits q.header q.maxLen l1Size lo)
      (allocateDataCluster q.header q.maxLen q.backing.reader offset >>= fun dataOff =>
        q.header.clusterSize >>= fun cs => sub cs 1 >>= fun mask =>
          pure (add64 dataOff (offset &&& mask))) := by
    refine (keeps_allocateDataCluster hq.header hq.maxLen_lt
      (q.backing.returns_reader hq.backing) offset).bind fun dataOff => ?_
    rw [hq.header.clusterSize_eq,pure_bind,sub_of_le Nat.one_le_two_pow,pure_bind]
    exact (isQuery_pure _).keeps
  refine (isQuery_resolveCluster hq.header.toReadable offset).keeps.bind fun loc => ?_
  cases loc with
  | mapped hostOffset => exact (isQuery_pure _).keeps
  | zero => exact hnew
  | unallocated => exact hnew

lemma wp_planWrites {writableLen fuel done offset : ℕ} {s : QcowImage}
    (hs : Fits q.header q.maxLen l1Size lo s) :
    (q.planWrites writableLen fuel done offset).wp s
      (fun plan s' => Fits q.header q.maxLen l1Size lo s' ∧
        ∀ w ∈ plan, w.bufStart+w.len ≤ writableLen)
      (fun _ => Fits q.header q.maxLen l1Size lo) := by
  induction fuel generalizing done offset s with
  | zero => exact ⟨hs,fun _ hw => absurd hw not_mem_nil⟩
  | succ fuel ih =>
    rw [planWrites,wp_ite]
    refine ⟨fun _ => ⟨hs,fun _ hw => absurd hw not_mem_nil⟩,fun hdone => ?_⟩
    rw [hq.header.clusterSize_eq,pure_bind,wp_bind]
    refine (keeps_targetOf hq offset s hs).mono ?_ fun _ _ herr => herr
    intro hostOffset s₁ hs₁
    rw [wp_bind]
    refine (ih hs₁).mono ?_ fun _ _ herr => herr
    rintro rest s₂ ⟨hs₂,hrest⟩
    refine ⟨hs₂,fun w hw => ?_⟩
    rcases mem_cons.mp hw with rfl | hw
    · show done+min (writableLen-done) _ ≤ writableLen
      omega
    · exact hrest w hw

omit hq in
lemma keeps_applyWrites {buf : List UInt8} {plan : List PlannedWrite}
    (hplan : ∀ w ∈ plan, w.bufStart+w.len ≤ buf.length) :
    Keeps (Fits q.header q.maxLen l1Size lo) (q.applyWrites buf plan) := by
  induction plan with
  | nil => exact (isQuery_pure _).keeps
  | cons w rest ih =>
    rw [applyWrites,assert,if_pos (hplan w mem_cons_self),pure_bind]
    exact (keeps_writeAll _ _ _).bind fun _ => ih fun w' hw' => hplan w' (mem_cons_of_mem w hw')

lemma keeps_writeAt (offset : ℕ) (buf : List UInt8) :
    Keeps (Fits q.header q.maxLen l1Size lo) (q.writeAt offset buf) := by
  refine .ite (isQuery_throw _).keeps (.ite (isQuery_pure _).keeps fun s hs => ?_)
  rw [wp_bind]
  refine (wp_planWrites hq hs).mono ?_ fun _ _ herr => herr
  rintro plan s₁ ⟨hs₁,hplan⟩
  refine ((keeps_applyWrites fun w hw => ?_).bind fun _ => (isQuery_pure _).keeps) s₁ hs₁
  exact (hplan w hw).trans (min_le_left _ _)

lemma keeps_trimLoop {stop fuel g : ℕ} (hstop : stop+2*2^q.header.clusterBits ≤ 2^64)
    (hg : g+2^q.header.clusterBits < 2^64) (hpos : 0 < fuel)
    (hfuel : stop < g+fuel*2^q.header.clusterBits) :
    Keeps (Fits q.header q.maxLen l1Size lo) (q.trimLoop (2^q.header.clusterBits) stop fuel g) := by
  have hcs := Nat.two_pow_pos q.header.clusterBits
  induction fuel generalizing g with
  | zero => omega
  | succ fuel ih =>
    rw [trimLoop,add64_of_lt (by omega)]
    rw [add_mul] at hfuel
    by_cases hmore : g+2^q.header.clusterBits ≤ stop
    · rw [if_pos hmore]
      refine (keeps_discardCluster hq.header g).bind fun _ => ih (by omega) ?_ (by omega)
      by_contra hzero
      rw [Nat.eq_zero_of_not_pos hzero] at hfuel
      omega
    · rw [if_neg hmore]
      exact (isQuery_pure _).keeps

lemma keeps_trim (offset len : ℕ) :
    Keeps (Fits q.header q.maxLen l1Size lo) (q.trim offset len) := by
  rw [trim]
  split
  · exact (isQuery_pure _).keeps
  case isFalse hcond =>
    have hsize := hq.size_le
    have hcs := Nat.two_pow_pos q.header.clusterBits
    have hup := divCeil_mul_lt offset hcs
    have hrange : 2^64 < (2^64/2^q.header.clusterBits+2)*2^q.header.clusterBits := by
      have := lt_div_mul_add (a := 2^64) hcs
      rw [add_mul]
      omega
    rw [hq.header.clusterSize_eq,pure_bind,mul64_of_lt (by omega)]
    exact keeps_trimLoop hq (by omega) (by omega) (succ_pos _) (by omega)

end
end QcowBackend

/-! ### Runs
-/

inductive StorageCall where
  | readAt (offset len : ℕ)
  | writeAt (offset : ℕ) (buf : List UInt8)
  | trim (offset len : ℕ)

def QcowBackend.call (q : QcowBackend) : StorageCall → QcowOp Unit
  | .readAt offset len => q.readAt offset len >>= fun _ => pure ()
  | .writeAt offset buf => q.writeAt offset buf >>= fun _ => pure ()
  | .trim offset len => q.trim offset len

def QcowBackend.runAt (q : QcowBackend) (s : QcowImage) (calls : List StorageCall) (k : ℕ) :
    Option QcowImage :=
  (calls.take k).foldl (fun s c => s.bind fun s => (q.call c s).map Prod.snd) (some s)

variable {q : QcowBackend}

lemma QcowBackend.keeps_call {l1Size lo : ℕ} (hq : q.Regular) (c : StorageCall) :
    Prog.Keeps (Fits q.header q.maxLen l1Size lo) (q.call c) := by
  cases c with
  | readAt offset len => exact (keeps_readAt hq offset len).bind fun _ => (isQuery_pure _).keeps
  | writeAt offset buf => exact (keeps_writeAt hq offset buf).bind fun _ => (isQuery_pure _).keeps
  | trim offset len => exact keeps_trim hq offset len

lemma QcowBackend.fits_runAt {l1Size : ℕ} {s : QcowImage} (hq : q.Regular)
    (hs : Fits q.header q.maxLen l1Size 0 s) (calls : List StorageCall) (k : ℕ) :
    ∃ s', q.runAt s calls k = some s' ∧ Fits q.header q.maxLen l1Size 0 s' := by
  refine Runs.forall_take
    (I := fun o : Option QcowImage => ∃ s', o = some s' ∧ Fits q.header q.maxLen l1Size 0 s')
    (K := fun _ _ => True) ?_ ⟨s,rfl,hs⟩
    (fun _ _ _ => trivial) k
  rintro _ c ⟨s₁,rfl,hs₁⟩ -
  rcases (keeps_call hq c s₁ hs₁).exists with ⟨a,s₂,hcall,hs₂⟩ | ⟨e,s₂,hcall,hs₂⟩
  · exact ⟨s₂,by rw [bind_some,hcall]; rfl,hs₂⟩
  · exact ⟨s₂,by rw [bind_some,hcall]; rfl,hs₂⟩

namespace OpenedImage

def backend (o : OpenedImage) (writable : Bool) (maxLen : ℕ) : QcowBackend :=
  ⟨o.header,writable,o.backing,maxLen⟩

/-- The images of a chain have clusters of a supported size, and refcount blocks and disk have room
for two clusters. -/
structure Regular (o : OpenedImage) : Prop where
  header : o.header.Allocatable
  backing : o.backing.Readable
  size_le : o.header.size+2*2^o.header.clusterBits ≤ 2^64

variable {h : QcowHeader}

lemma l1Span_eq_zero (hr : ¬ h.Readable) :
    mul64 (2^h.clusterBits/8) (2^h.clusterBits) = 0 := by
  by_cases hsmall : h.clusterBits < 3
  · have hlt : 2^h.clusterBits < 8 := Nat.pow_lt_pow_right (by decide) hsmall
    rw [div_eq_of_lt hlt,mul64,zero_mul]
    rfl
  · have hlarge : 34 ≤ h.clusterBits := by
      by_contra hle
      exact hr ⟨by omega,by omega⟩
    rw [mul64,show 8 = 2^3 by rfl,Nat.pow_div (by omega) (by decide),← Nat.pow_add]
    exact mod_eq_zero_of_dvd (pow_dvd_pow 2 (by omega))

lemma clusterSize_eq_none (h64 : ¬ h.clusterBits < 64) (s : QcowImage) : h.clusterSize s = none :=
  bind_eq_none (assert_eq_panic h64)

lemma l1Index_eq_none {α : Type} (hr : ¬ h.Readable) (g : ℕ) (s : QcowImage)
    (next : ℕ → ℕ → ℕ → QcowOp α) :
    (do
      let cs ← h.clusterSize
      let l2Entries ← h.l2Entries
      let l1Index ← div g (mul64 l2Entries cs)
      next cs l2Entries l1Index : QcowOp α) s = none := by
  by_cases h64 : h.clusterBits < 64
  · have hcs : h.clusterSize = pure (2^h.clusterBits) := oneShl_of_lt h64
    have hdiv : (div g 0 : QcowOp ℕ) s = none := bind_eq_none (assert_eq_panic (by simp))
    rw [hcs,pure_bind,QcowHeader.l2Entries,hcs,pure_bind,pure_bind,l1Span_eq_zero hr]
    exact bind_eq_none hdiv
  · exact bind_eq_none (clusterSize_eq_none h64 s)

lemma resolveCluster_eq_none (hr : ¬ h.Readable) (g : ℕ) (s : QcowImage) :
    resolveCluster h g s = none :=
  l1Index_eq_none hr g s _

lemma readAt_eq_none {q : QcowBackend} (hr : ¬ q.header.Readable) {offset len : ℕ}
    (hoffset : offset < q.header.size) (hlen : 0 < len) (s : QcowImage) :
    q.readAt offset len s = none := by
  obtain ⟨n,hn⟩ := exists_eq_succ_of_ne_zero (show min len (q.header.size-offset) ≠ 0 by omega)
  have hloop : ∀ fuel, readLoop q.header q.backing.reader (fuel+1) (n+1) offset s = none := by
    intro fuel
    rw [readLoop,if_neg (succ_ne_zero n)]
    by_cases h64 : q.header.clusterBits < 64
    · have hcs : q.header.clusterSize = pure (2^q.header.clusterBits) := oneShl_of_lt h64
      rw [hcs,pure_bind]
      exact bind_eq_none (bind_eq_none (resolveCluster_eq_none hr offset s))
    · exact bind_eq_none (clusterSize_eq_none h64 s)
  rw [QcowBackend.readAt,readAt,if_neg (Nat.not_le.mpr hoffset),hn]
  exact hloop n

variable {o : OpenedImage}

lemma fits_of_open {fs : FileSystem} {fuel : ℕ} {path : Path}
    (hopen : openImage fs fuel path = some (.ok o)) :
    Fits o.header fs.maxLen o.image.l1Table.length 0 o.image := by
  have hfresh := fresh_of_open hopen
  refine ⟨zero_le _,hfresh.len_le,?_,?_,rfl⟩
  · rw [hfresh.rtClusters]
    exact refcountTableClusters_lt hfresh.header
  · rw [hfresh.rtClusters]

lemma Regular.backend (hreg : o.Regular) (fs : FileSystem) (writable : Bool) :
    (o.backend writable fs.maxLen).Regular :=
  ⟨hreg.header,hreg.backing,hreg.size_le,fs.maxLen_lt⟩

/-- Every operation of a run on a regular image returns; no read of a byte of the disk returns if
the clusters of the image have another size. -/
theorem returns_of_regular {fs : FileSystem} {fuel : ℕ} {path : Path} {o : OpenedImage}
    (hopen : openImage fs fuel path = some (.ok o)) (writable : Bool) :
    (o.Regular → ∀ calls k, ((o.backend writable fs.maxLen).runAt o.image calls k).isSome) ∧
    (¬ o.header.Readable → ∀ offset len, offset < o.header.size → 0 < len →
      (o.backend writable fs.maxLen).runAt o.image [.readAt offset len] 1 = none) := by
  constructor
  · intro hreg calls k
    obtain ⟨s,hsome,-⟩ := QcowBackend.fits_runAt (hreg.backend fs writable) (fits_of_open hopen) calls k
    rw [hsome]
    rfl
  · intro hr offset len hoffset hlen
    have hread : (o.backend writable fs.maxLen).readAt offset len o.image = none :=
      readAt_eq_none hr hoffset hlen o.image
    have hcall : (o.backend writable fs.maxLen).call (.readAt offset len) o.image = none :=
      bind_eq_none hread
    exact congrArg (Option.map Prod.snd) hcall

end OpenedImage

/-- The header of a version 2 image of one byte, with clusters of `2 ^ bits` bytes and no tables. -/
def bareImage (bits : UInt8) : Buf := Buf.ofList
  ([0x51,0x46,0x49,0xFB,0,0,0,2] ++ replicate 15 0 ++ [bits] ++ replicate 7 0 ++
    [1] ++ replicate 40 0)

def bareFile (bits : UInt8) : FileSystem where
  files := [(Path.new [0x61],bareImage bits)]
  maxLen := 2^63-1
  maxLen_lt := Nat.lt_succ_self _
  len_le f hf := by
    rw [mem_singleton.mp hf]
    show ([0x51,0x46,0x49,0xFB,0,0,0,2] ++ replicate 15 0 ++ [bits] ++
      replicate 7 0 ++ [1] ++ replicate 40 (0 : UInt8)).length ≤ _
    simp

lemma open_bareFile (bits : UInt8) (hbits : bits = 16 ∨ bits = 64 ∨ bits = 2) :
    openImage (bareFile bits) 1 (Path.new [0x61]) = some (.ok
      ⟨⟨2,0,0,bits.toNat,1,0,0,0,0,4⟩,⟨bareImage bits,0,0,[]⟩,.none⟩) := by
  have hfile : (bareFile bits).openFile (Path.new [0x61]) = .ok (bareImage bits) := by
    simp [FileSystem.openFile,bareFile]
  have hheader : readHeader (bareImage bits) = .ok ⟨2,0,0,bits.toNat,1,0,0,0,0,4⟩ := by
    rcases hbits with rfl | rfl | rfl <;> decide +kernel
  exact openImage_standalone hfile hheader rfl rfl

/-- With clusters of `2 ^ 16` bytes all operations return. -/
theorem returns_bareFile :
    ∃ o, openImage (bareFile 16) 1 (Path.new [0x61]) = some (.ok o) ∧ o.Regular ∧
      ((o.backend true (2^63-1)).runAt o.image [.writeAt 0 [7],.trim 0 1,.readAt 0 1] 3).isSome := by
  have hopen := open_bareFile 16 (.inl rfl)
  have hregular : OpenedImage.Regular ⟨⟨2,0,0,16,1,0,0,0,0,4⟩,⟨bareImage 16,0,0,[]⟩,.none⟩ :=
    ⟨⟨⟨by decide,by decide⟩,by decide,by decide⟩,trivial,by decide⟩
  exact ⟨_,hopen,hregular,(OpenedImage.returns_of_regular hopen true).1 hregular _ 3⟩

/-- Images with `cluster_bits` 64 and 2 are opened; the first read shifts by 64, or divides by zero. -/
theorem not_returns_bareFile : (∃ o, openImage (bareFile 64) 1 (Path.new [0x61]) = some (.ok o) ∧
      (o.backend true (2^63-1)).runAt o.image [.readAt 0 1] 1 = none) ∧
    ∃ o, openImage (bareFile 2) 1 (Path.new [0x61]) = some (.ok o) ∧
      (o.backend true (2^63-1)).runAt o.image [.readAt 0 1] 1 = none :=
  ⟨⟨_,open_bareFile 64 (.inr (.inl rfl)),rfl⟩,_,open_bareFile 2 (.inr (.inr rfl)),rfl⟩

end Enlil.Devices.Storage
