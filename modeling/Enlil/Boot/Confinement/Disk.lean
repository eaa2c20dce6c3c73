import Enlil.Boot.Blockdev

/-! # What a disk map lets through -/

namespace Enlil.Boot
open List Nat

def InSpan (lba len s : ℕ) : Prop := lba ≤ s ∧ (s-lba)*sectorSize < len

/-- A deterministic disk: operations depend on the internal state and on the sectors they name, and
change no other sector. -/
class Disk (β : Type) extends BlockBackend β where
  Control : Type
  control : β → Control
  content : β → ℕ → List UInt8
  sectors_local : ∀ {b b' : β}, control b = control b' → sectors b = sectors b'
  read_local : ∀ {b b' : β} {lba len : ℕ}, control b = control b' →
    (∀ s, InSpan lba len s → content b s = content b' s) →
    (read b lba len).1 = (read b' lba len).1 ∧
      control (read b lba len).2 = control (read b' lba len).2
  read_frame : ∀ (b : β) (lba len : ℕ), content (read b lba len).2 = content b
  write_local : ∀ {b b' : β} {lba : ℕ} {data : List UInt8}, control b = control b' →
    (∀ s, InSpan lba data.length s → content b s = content b' s) →
    (write b lba data).1 = (write b' lba data).1 ∧
      control (write b lba data).2 = control (write b' lba data).2 ∧
      ∀ s, InSpan lba data.length s →
        content (write b lba data).2 s = content (write b' lba data).2 s
  write_frame : ∀ (b : β) (lba : ℕ) (data : List UInt8) (s : ℕ), ¬ InSpan lba data.length s →
    content (write b lba data).2 s = content b s
  flush_local : ∀ {b b' : β}, control b = control b' →
    (flush b).1 = (flush b').1 ∧ control (flush b).2 = control (flush b').2
  flush_frame : ∀ b : β, content (flush b).2 = content b

lemma checkSpan_eq_ok {sectors lba len n : ℕ} (h : checkSpan sectors lba len = .ok n) :
    len = n*sectorSize ∧ lba+n ≤ sectors := by
  unfold checkSpan at h
  split at h
  · cases h
  next hmod =>
  simp only at h
  split at h
  · next stop hstop =>
    split at h
    · next hle =>
      cases h
      obtain ⟨-,rfl⟩ := Word.checkedAdd64_eq_some.mp hstop
      exact ⟨(Nat.div_mul_cancel (dvd_of_mod_eq_zero (not_not.mp hmod))).symm,hle⟩
    · cases h
  · cases h

/-- A relation of backends that no operation can tell apart. -/
structure Bisim {β : Type} [BlockBackend β] (R : β → β → Prop) : Prop where
  sectors : ∀ {b b'}, R b b' → BlockBackend.sectors b = BlockBackend.sectors b'
  read : ∀ {b b'} (lba len : ℕ), R b b' →
    (BlockBackend.read b lba len).1 = (BlockBackend.read b' lba len).1 ∧
      R (BlockBackend.read b lba len).2 (BlockBackend.read b' lba len).2
  write : ∀ {b b'} (lba : ℕ) (data : List UInt8), R b b' →
    (BlockBackend.write b lba data).1 = (BlockBackend.write b' lba data).1 ∧
      R (BlockBackend.write b lba data).2 (BlockBackend.write b' lba data).2
  flush : ∀ {b b'}, R b b' → (BlockBackend.flush b).1 = (BlockBackend.flush b').1 ∧
      R (BlockBackend.flush b).2 (BlockBackend.flush b').2

lemma exists_of_agree {α γ : Type} {R : γ → γ → Prop} {r r' : α × γ}
    (h : r.1 = r'.1 ∧ R r.2 r'.2) : ∃ x b b', r = (x,b) ∧ r' = (x,b') ∧ R b b' :=
  ⟨r.1,r.2,r'.2,rfl,Prod.ext h.1.symm rfl,h.2⟩

namespace Disk
variable {β : Type} [Disk β] {P : ℕ → Prop} {b b' : β} {lba len : ℕ} {data : List UInt8}

/-- The disks differ only in sectors outside `P`. -/
structure Same (P : ℕ → Prop) (b b' : β) : Prop where
  control_eq : control b = control b'
  content_eq : ∀ s, P s → content b s = content b' s

lemma Same.read (h : Same P b b') (hspan : ∀ s, InSpan lba len s → P s) :
    (BlockBackend.read b lba len).1 = (BlockBackend.read b' lba len).1 ∧
      Same P (BlockBackend.read b lba len).2 (BlockBackend.read b' lba len).2 := by
  obtain ⟨hresult,hcontrol⟩ :=
    read_local h.control_eq fun s hs => h.content_eq s (hspan s hs)
  refine ⟨hresult,hcontrol,fun s hs => ?_⟩
  rw [read_frame,read_frame]
  exact h.content_eq s hs

lemma Same.write (h : Same P b b') (hspan : ∀ s, InSpan lba data.length s → P s) :
    (BlockBackend.write b lba data).1 = (BlockBackend.write b' lba data).1 ∧
      Same P (BlockBackend.write b lba data).2 (BlockBackend.write b' lba data).2 := by
  obtain ⟨hresult,hcontrol,hcontent⟩ :=
    write_local h.control_eq fun s hs => h.content_eq s (hspan s hs)
  refine ⟨hresult,hcontrol,fun s hs => ?_⟩
  by_cases hin : InSpan lba data.length s
  · exact hcontent s hin
  · rw [write_frame _ _ _ _ hin,write_frame _ _ _ _ hin]
    exact h.content_eq s hs

lemma Same.flush (h : Same P b b') : (BlockBackend.flush b).1 = (BlockBackend.flush b').1 ∧
      Same P (BlockBackend.flush b).2 (BlockBackend.flush b').2 := by
  obtain ⟨hresult,hcontrol⟩ := flush_local h.control_eq
  refine ⟨hresult,hcontrol,fun s hs => ?_⟩
  rw [flush_frame,flush_frame]
  exact h.content_eq s hs

end Disk
namespace RamDisk

def content (d : RamDisk) (s : ℕ) : List UInt8 := (d.data.drop (s*sectorSize)).take sectorSize

variable {k s start lba len n : ℕ} {d d' : RamDisk}

lemma getElem?_of_content
    (h : d.content (k/sectorSize) = d'.content (k/sectorSize)) : d.data[k]? = d'.data[k]? := by
  have hk : k/sectorSize*sectorSize+k%sectorSize = k := by
    rw [mul_comm]
    exact div_add_mod k sectorSize
  have hlt : k%sectorSize < sectorSize := mod_lt _ (by decide)
  have hbyte := congrArg (·[k%sectorSize]?) h
  simp only [content,getElem?_take,if_pos hlt,getElem?_drop,hk] at hbyte
  exact hbyte

lemma content_eq_of_getElem?
    (h : ∀ k, k/sectorSize = s → d.data[k]? = d'.data[k]?) : d.content s = d'.content s := by
  refine ext_getElem? fun j => ?_
  simp only [content,getElem?_take,getElem?_drop]
  split
  · next hj =>
    refine h _ ?_
    rw [mul_comm,mul_add_div (by decide),div_eq_of_lt hj,add_zero]
  · rfl

lemma getElem?_splice {l data : List UInt8} (h : start+data.length ≤ l.length) (k : ℕ) :
    (l.take start ++ data ++ l.drop (start+data.length))[k]? =
      if start ≤ k ∧ k < start+data.length then data[k-start]? else l[k]? := by
  have hlen : (l.take start).length = start := by rw [length_take]; omega
  by_cases hbefore : k < start
  · rw [if_neg (by omega),append_assoc,getElem?_append_left (by omega),
      getElem?_take,if_pos hbefore]
  · by_cases hin : k < start+data.length
    · rw [if_pos ⟨by omega,hin⟩,getElem?_append_left (by rw [length_append]; omega),
        getElem?_append_right (by omega),hlen]
    · rw [if_neg (by omega),getElem?_append_right (by rw [length_append]; omega),
        length_append,hlen,getElem?_drop]
      congr 1
      omega

lemma inSpan_of_byte (hle : lba*sectorSize ≤ k)
    (hlt : k < lba*sectorSize+len) : InSpan lba len (k/sectorSize) := by
  have hdiv := div_add_mod k sectorSize
  have hsector : lba ≤ k/sectorSize := (Nat.le_div_iff_mul_le (by decide)).mpr hle
  refine ⟨hsector,?_⟩
  rw [Nat.sub_mul,mul_comm (k/sectorSize)]
  omega

lemma span_fits (h : checkSpan d.sectors lba len = .ok n) :
    lba*sectorSize+len ≤ d.data.length := by
  obtain ⟨rfl,hle⟩ := checkSpan_eq_ok h
  calc lba*sectorSize+n*sectorSize = (lba+n)*sectorSize := (add_mul _ _ _).symm
    _ ≤ d.sectors*sectorSize := Nat.mul_le_mul_right _ hle
    _ ≤ d.data.length := div_mul_le_self _ _

section Operations
variable {d d' : RamDisk} {lba len n : ℕ} {data : List UInt8} {e : BlockError}

lemma read_of_error (h : checkSpan d.sectors lba len = .error e) :
    BlockBackend.read d lba len = (.error e,d) := by
  simp only [BlockBackend.read,h]

lemma read_of_ok (h : checkSpan d.sectors lba len = .ok n) :
    BlockBackend.read d lba len = (.ok ((d.data.drop (lba*sectorSize)).take len),d) := by
  simp only [BlockBackend.read,h]

lemma write_of_error (h : checkSpan d.sectors lba data.length = .error e) :
    BlockBackend.write d lba data = (.error e,d) := by
  simp only [BlockBackend.write,h]

lemma write_of_ok (h : checkSpan d.sectors lba data.length = .ok n) :
    BlockBackend.write d lba data = (.ok (),⟨d.data.take (lba*sectorSize) ++ data ++
        d.data.drop (lba*sectorSize+data.length)⟩) := by
  simp only [BlockBackend.write,h]

lemma sectors_eq (h : d.data.length = d'.data.length) : d.sectors = d'.sectors := by
  rw [sectors,sectors,h]

lemma read_state (d : RamDisk) (lba len : ℕ) : (BlockBackend.read d lba len).2 = d := by
  cases hspan : checkSpan d.sectors lba len with
  | error e => rw [read_of_error hspan]
  | ok n => rw [read_of_ok hspan]

section
variable (hlen : d.data.length = d'.data.length)
include hlen

lemma read_result (h : ∀ s, InSpan lba len s → d.content s = d'.content s) :
    (BlockBackend.read d lba len).1 = (BlockBackend.read d' lba len).1 := by
  cases hspan : checkSpan d.sectors lba len with
  | error e => rw [read_of_error hspan,read_of_error (sectors_eq hlen ▸ hspan)]
  | ok n =>
    rw [read_of_ok hspan,read_of_ok (sectors_eq hlen ▸ hspan)]
    refine congrArg Except.ok (ext_getElem? fun i => ?_)
    simp only [getElem?_take,getElem?_drop]
    split
    · next hi =>
      exact getElem?_of_content (h _ (inSpan_of_byte (Nat.le_add_right _ _) (by omega)))
    · rfl

omit hlen in
lemma write_length (d : RamDisk) (lba : ℕ) (data : List UInt8) :
    (BlockBackend.write d lba data).2.data.length = d.data.length := by
  cases hspan : checkSpan d.sectors lba data.length with
  | error e => rw [write_of_error hspan]
  | ok n =>
    have hfits := span_fits hspan
    rw [write_of_ok hspan]
    simp only [length_append,length_take,length_drop]
    omega

lemma write_content (h : ∀ s, InSpan lba data.length s → d.content s = d'.content s) {s : ℕ}
    (hs : InSpan lba data.length s) :
    (BlockBackend.write d lba data).2.content s = (BlockBackend.write d' lba data).2.content s := by
  cases hspan : checkSpan d.sectors lba data.length with
  | error e =>
    rw [write_of_error hspan,write_of_error (sectors_eq hlen ▸ hspan)]
    exact h s hs
  | ok n =>
    have hspan' : checkSpan d'.sectors lba data.length = .ok n := sectors_eq hlen ▸ hspan
    rw [write_of_ok hspan,write_of_ok hspan']
    refine content_eq_of_getElem? fun k hk => ?_
    rw [getElem?_splice (span_fits hspan),getElem?_splice (span_fits hspan')]
    split
    · rfl
    · exact getElem?_of_content (hk ▸ h s hs)

omit hlen in
lemma write_outside {s : ℕ} (hs : ¬ InSpan lba data.length s) :
    (BlockBackend.write d lba data).2.content s = d.content s := by
  cases hspan : checkSpan d.sectors lba data.length with
  | error e => rw [write_of_error hspan]
  | ok n =>
    rw [write_of_ok hspan]
    refine content_eq_of_getElem? fun k hk => ?_
    rw [getElem?_splice (span_fits hspan),if_neg]
    rintro ⟨hle,hlt⟩
    exact hs (hk ▸ inSpan_of_byte hle hlt)

lemma write_result :
    (BlockBackend.write d lba data).1 = (BlockBackend.write d' lba data).1 := by
  cases hspan : checkSpan d.sectors lba data.length with
  | error e => rw [write_of_error hspan,write_of_error (sectors_eq hlen ▸ hspan)]
  | ok n => rw [write_of_ok hspan,write_of_ok (sectors_eq hlen ▸ hspan)]

end
end Operations

/-- A disk in memory stays inside the sectors that an operation names. -/
instance : Disk RamDisk where
  Control := ℕ
  control d := d.data.length
  content := content
  sectors_local h := sectors_eq h
  read_local hlen h := by
    refine ⟨read_result hlen h,?_⟩
    rwa [read_state,read_state]
  read_frame d lba len := by rw [read_state]
  write_local hlen h := by
    refine ⟨write_result hlen,?_,fun s hs => write_content hlen h hs⟩
    rwa [write_length,write_length]
  write_frame d lba data s hs := write_outside hs
  flush_local hlen := ⟨rfl,hlen⟩
  flush_frame _ := rfl

end RamDisk
namespace DiskMap
variable {β : Type}
section
variable (ranges : List Allow) (s : ℕ)

def Covered : Prop := ∃ r ∈ ranges, r.start ≤ s ∧ s < r.stop

def Writable : Prop :=
  ∃ r ∈ ranges, r.writable = true ∧ r.start ≤ s ∧ s < r.stop

lemma readable_iff :
    readable ranges s = true ↔ Covered ranges s := by
  simp only [readable,any_eq_true,Bool.and_eq_true,decide_eq_true_eq,Covered]

lemma writable_iff :
    writable ranges s = true ↔ Writable ranges s := by
  simp only [writable,any_eq_true,Bool.and_eq_true,decide_eq_true_eq,Writable,and_assoc]

end
variable {ranges : List Allow} {s lba n stop : ℕ}

lemma Writable.covered (h : Writable ranges s) :
    Covered ranges s := by
  obtain ⟨r,hr,-,hs⟩ := h
  exact ⟨r,hr,hs⟩

lemma mem_new {inner : β} {r : Allow} :
    r ∈ (new inner ranges).ranges ↔ r ∈ ranges ∧ r.start < r.stop := by
  rw [new,mem_insertionSort,mem_filter,decide_eq_true_eq]

section
variable (inner : β) (ranges : List Allow) (s : ℕ)

lemma covered_new :
    Covered (new inner ranges).ranges s ↔ Covered ranges s := by
  constructor
  · rintro ⟨r,hr,hs⟩
    exact ⟨r,(mem_new.mp hr).1,hs⟩
  · rintro ⟨r,hr,hs⟩
    exact ⟨r,mem_new.mpr ⟨hr,lt_of_le_of_lt hs.1 hs.2⟩,hs⟩

lemma writable_new :
    Writable (new inner ranges).ranges s ↔ Writable ranges s := by
  constructor
  · rintro ⟨r,hr,hs⟩
    exact ⟨r,(mem_new.mp hr).1,hs⟩
  · rintro ⟨r,hr,hw,hs⟩
    exact ⟨r,mem_new.mpr ⟨hr,lt_of_le_of_lt hs.1 hs.2⟩,hw,hs⟩

end
section RunEnd
variable {ranges : List Allow} {isReadable : Bool} {s : ℕ}

lemma runEndLoop_spec {fuel stop : ℕ} : stop ≤ runEndLoop ranges isReadable fuel stop ∧
      ∀ s, stop ≤ s → s < runEndLoop ranges isReadable fuel stop →
        readable ranges s = isReadable := by
  induction fuel generalizing stop with
  | zero => exact ⟨le_refl _,fun s hle hlt => absurd hle (Nat.not_le.mpr hlt)⟩
  | succ fuel ih =>
    rw [runEndLoop]
    split
    · next heq =>
      obtain ⟨hle,hrun⟩ := @ih (stop+1)
      refine ⟨le_of_succ_le hle,fun s hs hlt => ?_⟩
      rcases Nat.eq_or_lt_of_le hs with rfl | hs
      · exact heq
      · exact hrun s hs hlt
    · exact ⟨le_refl _,fun s hle hlt => absurd hle (Nat.not_le.mpr hlt)⟩

lemma readable_of_runEnd {lba limit : ℕ} (hle : lba ≤ s) (hlt : s < runEnd ranges lba limit) :
    readable ranges s = readable ranges lba := by
  rcases Nat.eq_or_lt_of_le hle with rfl | hgt
  · rfl
  · exact runEndLoop_spec.2 s hgt hlt

end RunEnd
variable [Disk β] {d d' : DiskMap β}

lemma inSpan_sectors : InSpan lba (n*sectorSize) s ↔ lba ≤ s ∧ s < lba+n := by
  have hpos : 0 < sectorSize := by decide
  unfold InSpan
  constructor
  · rintro ⟨hle,hlt⟩
    have := Nat.lt_of_mul_lt_mul_right hlt
    exact ⟨hle,by omega⟩
  · rintro ⟨hle,hlt⟩
    exact ⟨hle,Nat.mul_lt_mul_of_pos_right (by omega) hpos⟩

/-- Both maps have these ranges, and their disks differ in uncovered sectors. -/
structure SameMap (ranges : List Allow) (d d' : DiskMap β) : Prop where
  left_eq : d.ranges = ranges
  right_eq : d'.ranges = ranges
  same : Disk.Same (Covered ranges) d.inner d'.inner

lemma readLoop_same {b b' : β}
    (h : Disk.Same (Covered ranges) b b') (fuel cur : ℕ) (buf : List UInt8) :
    (readLoop ranges stop fuel b cur buf).1 = (readLoop ranges stop fuel b' cur buf).1 ∧
      Disk.Same (Covered ranges) (readLoop ranges stop fuel b cur buf).2
        (readLoop ranges stop fuel b' cur buf).2 := by
  induction fuel generalizing b b' cur buf with
  | zero => exact ⟨rfl,h⟩
  | succ fuel ih =>
    rw [readLoop,readLoop]
    by_cases hcur : cur < stop
    · rw [if_pos hcur,if_pos hcur]
      by_cases hreadable : readable ranges cur = true
      · -- A run that is read is covered, so both disks return the same bytes.
        have hspan : ∀ s, InSpan cur ((runEnd ranges cur stop-cur)*sectorSize) s →
            Covered ranges s := by
          intro s hs
          obtain ⟨hle,hlt⟩ := inSpan_sectors.mp hs
          have hrun : s < runEnd ranges cur stop := by omega
          rw [← readable_iff,readable_of_runEnd hle hrun,hreadable]
        obtain ⟨result,b₁,b₁',hr,hr',hsame⟩ := exists_of_agree (h.read hspan)
        simp only [if_pos hreadable,hr,hr']
        cases result with
        | error e => exact ⟨rfl,hsame⟩
        | ok bytes => exact ih hsame _ _
      · simp only [if_neg hreadable]
        exact ih h _ _
    · rw [if_neg hcur,if_neg hcur]
      exact ⟨rfl,h⟩

lemma withInner_same {α : Type} (h : SameMap ranges d d') {r r' : α × β}
    (hresult : r.1 = r'.1) (hsame : Disk.Same (Covered ranges) r.2 r'.2) :
    (d.withInner r).1 = (d'.withInner r').1 ∧
      SameMap ranges (d.withInner r).2 (d'.withInner r').2 :=
  ⟨hresult,h.left_eq,h.right_eq,hsame⟩

lemma writable_of_not_any
    (h : ¬ (range' lba n).any (fun s => !writable ranges s) = true) (hle : lba ≤ s)
    (hlt : s < lba+n) : Writable ranges s := by
  rw [← writable_iff]
  by_contra hnot
  refine h (any_eq_true.mpr ⟨s,mem_range'_1.mpr ⟨hle,hlt⟩,?_⟩)
  rw [Bool.not_eq_true] at hnot
  rw [hnot]
  rfl

section Operations
variable {lba len n : ℕ} {data : List UInt8} {e : BlockError}

lemma read_of_error (h : checkSpan (BlockBackend.sectors d.inner) lba len = .error e) :
    BlockBackend.read d lba len = (.error e,d) := by
  simp only [BlockBackend.read,h]

lemma read_of_ok (h : checkSpan (BlockBackend.sectors d.inner) lba len = .ok n) :
    BlockBackend.read d lba len =
      d.withInner (readLoop d.ranges (lba+n) n d.inner lba []) := by
  simp only [BlockBackend.read,h]

lemma write_of_error (h : checkSpan (BlockBackend.sectors d.inner) lba data.length = .error e) :
    BlockBackend.write d lba data = (.error e,d) := by
  simp only [BlockBackend.write,h]

section
variable (h : checkSpan (BlockBackend.sectors d.inner) lba data.length = .ok n)
include h

lemma write_of_denied (hdenied : (range' lba n).any (fun s => !writable d.ranges s) = true) :
    BlockBackend.write d lba data = (.error .denied,d) := by
  simp only [BlockBackend.write,h,if_pos hdenied]

lemma write_of_ok (hallowed : ¬ (range' lba n).any (fun s => !writable d.ranges s) = true) :
    BlockBackend.write d lba data = d.withInner (BlockBackend.write d.inner lba data) := by
  simp only [BlockBackend.write,h,if_neg hallowed]

lemma writable_of_inSpan
    (hallowed : ¬ (range' lba n).any (fun s => !writable d.ranges s) = true) {s : ℕ}
    (hs : InSpan lba data.length s) : Writable d.ranges s := by
  rw [(checkSpan_eq_ok h).1,inSpan_sectors] at hs
  exact writable_of_not_any hallowed hs.1 hs.2

end
end Operations

lemma bisim_same (ranges : List Allow) : Bisim (SameMap ranges : DiskMap β → DiskMap β → Prop) where
  sectors h := Disk.sectors_local h.same.control_eq
  read {d d'} lba len h := by
    have hsectors : BlockBackend.sectors d'.inner = BlockBackend.sectors d.inner :=
      (Disk.sectors_local h.same.control_eq).symm
    cases hspan : checkSpan (BlockBackend.sectors d.inner) lba len with
    | error e =>
      rw [read_of_error hspan,read_of_error (hsectors ▸ hspan)]
      exact ⟨rfl,h⟩
    | ok n =>
      rw [read_of_ok hspan,read_of_ok (hsectors ▸ hspan),h.left_eq,h.right_eq]
      obtain ⟨hresult,hsame⟩ := readLoop_same h.same n lba []
      exact withInner_same h hresult hsame
  write {d d'} lba data h := by
    have hsectors : BlockBackend.sectors d'.inner = BlockBackend.sectors d.inner :=
      (Disk.sectors_local h.same.control_eq).symm
    cases hspan : checkSpan (BlockBackend.sectors d.inner) lba data.length with
    | error e =>
      rw [write_of_error hspan,write_of_error (hsectors ▸ hspan)]
      exact ⟨rfl,h⟩
    | ok n =>
      have hranges : d'.ranges = d.ranges := h.right_eq.trans h.left_eq.symm
      by_cases hdenied : (range' lba n).any (fun s => !writable d.ranges s) = true
      · rw [write_of_denied hspan hdenied,write_of_denied (hsectors ▸ hspan) (hranges ▸ hdenied)]
        exact ⟨rfl,h⟩
      · rw [write_of_ok hspan hdenied,write_of_ok (hsectors ▸ hspan) (hranges ▸ hdenied)]
        obtain ⟨hresult,hsame⟩ := h.same.write fun s hs =>
          (h.left_eq ▸ writable_of_inSpan hspan hdenied hs).covered
        exact withInner_same h hresult hsame
  flush h := by
    obtain ⟨hresult,hsame⟩ := h.same.flush
    exact withInner_same h hresult hsame

/-- The sectors that are not writable hold `initial`. -/
structure Frozen (ranges : List Allow) (initial : ℕ → List UInt8) (d : DiskMap β) : Prop where
  ranges_eq : d.ranges = ranges
  content_eq : ∀ s, ¬ Writable ranges s → Disk.content d.inner s = initial s

lemma readLoop_content (b : β) (fuel cur : ℕ) (buf : List UInt8) :
    Disk.content (readLoop ranges stop fuel b cur buf).2 = Disk.content b := by
  induction fuel generalizing b cur buf with
  | zero => rfl
  | succ fuel ih =>
    rw [readLoop]
    by_cases hcur : cur < stop
    · rw [if_pos hcur]
      by_cases hreadable : readable ranges cur = true
      · simp only [if_pos hreadable]
        have hframe := Disk.read_frame b cur ((runEnd ranges cur stop-cur)*sectorSize)
        generalize BlockBackend.read b cur _ = r at hframe ⊢
        obtain ⟨result,b₁⟩ := r
        cases result with
        | error e => exact hframe
        | ok bytes => exact (ih _ _ _).trans hframe
      · simp only [if_neg hreadable]
        exact ih _ _ _
    · rw [if_neg hcur]

section Frozen
variable {ranges : List Allow} {initial : ℕ → List UInt8}
section
variable (h : Frozen ranges initial d)
include h

lemma Frozen.read (lba len : ℕ) :
    Frozen ranges initial (BlockBackend.read d lba len).2 := by
  cases hspan : checkSpan (BlockBackend.sectors d.inner) lba len with
  | error e => rwa [read_of_error hspan]
  | ok n =>
    rw [read_of_ok hspan]
    refine ⟨h.ranges_eq,fun s hs => ?_⟩
    rw [← h.content_eq s hs]
    exact congrFun (readLoop_content d.inner n lba []) s

lemma Frozen.write (lba : ℕ) (data : List UInt8) :
    Frozen ranges initial (BlockBackend.write d lba data).2 := by
  cases hspan : checkSpan (BlockBackend.sectors d.inner) lba data.length with
  | error e => rwa [write_of_error hspan]
  | ok n =>
    by_cases hdenied : (range' lba n).any (fun s => !writable d.ranges s) = true
    · rwa [write_of_denied hspan hdenied]
    · rw [write_of_ok hspan hdenied]
      refine ⟨h.ranges_eq,fun s hs => ?_⟩
      rw [← h.content_eq s hs]
      refine Disk.write_frame d.inner lba data s fun hin => hs ?_
      exact h.ranges_eq ▸ writable_of_inSpan hspan hdenied hin

lemma Frozen.flush :
    Frozen ranges initial (BlockBackend.flush d).2 := by
  refine ⟨h.ranges_eq,fun s hs => ?_⟩
  rw [← h.content_eq s hs]
  exact congrFun (Disk.flush_frame d.inner) s

end

lemma bisim_frozen (ranges : List Allow) (initial : ℕ → List UInt8) :
    Bisim fun d d' : DiskMap β => d = d' ∧ Frozen ranges initial d where
  sectors h := by rw [h.1]
  read lba len h := by
    obtain ⟨rfl,h⟩ := h
    exact ⟨rfl,rfl,h.read lba len⟩
  write lba data h := by
    obtain ⟨rfl,h⟩ := h
    exact ⟨rfl,rfl,h.write lba data⟩
  flush h := by
    obtain ⟨rfl,h⟩ := h
    exact ⟨rfl,rfl,h.flush⟩

end Frozen
end DiskMap
end Enlil.Boot
