import Enlil.Devices.Pcie.Config

/-! # What a guest cannot change in a configuration space -/

namespace Enlil.Devices.Pcie
open ByteRegs List Bool
namespace PciConfigSpace

/-- The capabilities that a guest finds on the list. -/
inductive Reaches (c : PciConfigSpace) : ℕ → Prop
  | head (hbit : c.readU16 statusOffset &&& 0x0010 ≠ 0)
      (hptr : 0x40 ≤ (c.readU8 capabilityPtr).toNat) : Reaches c (c.readU8 capabilityPtr).toNat
  | next {ptr : ℕ} (h : Reaches c ptr) (hptr : 0x40 ≤ (c.readU8 (ptr+1)).toNat) :
      Reaches c (c.readU8 (ptr+1)).toNat

/-- What the platform has put into `c₀` is still there in `c`. -/
structure Kept (c₀ c : PciConfigSpace) : Prop where
  identity : ∀ offset, byteIsReadOnly offset = true → c.readU8 offset = c₀.readU8 offset
  bars : ∀ i : Fin 6, c.readU32 (bar0+i*4) &&& ~~~c₀.barMasks i =
    c₀.readU32 (bar0+i*4) &&& ~~~c₀.barMasks i
  pointer : c.readU8 capabilityPtr = c₀.readU8 capabilityPtr
  chain : ∀ ptr, c.Reaches ptr ↔ c₀.Reaches ptr
  headers : ∀ ptr, c₀.Reaches ptr →
    c.readU8 ptr = c₀.readU8 ptr ∧ c.readU8 (ptr+1) = c₀.readU8 (ptr+1)
  msix : c₀.readU8 msixCapOffset = 0x11 → c.msixTableSize = c₀.msixTableSize ∧
    c.readU32 (msixCapOffset+4) = c₀.readU32 (msixCapOffset+4) ∧
    c.readU32 (msixCapOffset+8) = c₀.readU32 (msixCapOffset+8)
  msi : c₀.readU8 msiCapOffset = 0x05 → c.readU16 (msiCapOffset+2) &&& ~~~0x0071 =
    c₀.readU16 (msiCapOffset+2) &&& ~~~0x0071
  pm : c₀.readU8 pmCapOffset = 0x01 → c.readU16 (pmCapOffset+2) = c₀.readU16 (pmCapOffset+2)
  pcie : c₀.readU8 pcieCapOffset = 0x10 → c.readU16 (pcieCapOffset+2) = c₀.readU16 (pcieCapOffset+2)

def fixedCapabilities : List (ℕ × BitVec 8) :=
  [(pmCapOffset,0x01),(msiCapOffset,0x05),(msixCapOffset,0x11),(pcieCapOffset,0x10)]

/-- The walk finds the headers of all capabilities on the list, and every capability that is
installed at its own offset is among them. -/
structure Listed (c : PciConfigSpace) : Prop where
  reached : ∀ ptr, c.Reaches ptr → c.capabilityHeaderByteIsReadOnly ptr = true ∧
    c.capabilityHeaderByteIsReadOnly (ptr+1) = true
  installed : ∀ cap ∈ fixedCapabilities, c.readU8 cap.1 = cap.2 →
    c.capabilityHeaderByteIsReadOnly cap.1 = true

end PciConfigSpace

/-- The access does not touch the capabilities pointer, and no byte of a BAR unless it is the
aligned double word of one. -/
structure Proper (offset width : ℕ) : Prop where
  pointer : offset+width ≤ capabilityPtr ∨ capabilityPtr < offset
  bars : offset+width ≤ bar0 ∨ bar5+4 ≤ offset ∨ (width = 4 ∧ offset%4 = 0)

instance (offset width : ℕ) : Decidable (Proper offset width) :=
  decidable_of_iff ((offset+width ≤ capabilityPtr ∨ capabilityPtr < offset) ∧
    (offset+width ≤ bar0 ∨ bar5+4 ≤ offset ∨ (width = 4 ∧ offset%4 = 0)))
    ⟨fun h => ⟨h.1,h.2⟩,fun h => ⟨h.1,h.2⟩⟩

namespace PciConfigSpace
variable {c c₀ c₁ before : PciConfigSpace} {offset width i : ℕ}

/-! ## The walk -/

variable {n k lo hi : ℕ}

lemma le_of_walk {ptr : BitVec 8} (h : c.walk n ptr i = true) : 0x40 ≤ i := by
  induction n generalizing ptr with
  | zero => cases h
  | succ n ih =>
    rw [walk] at h
    split at h
    · cases h
    next hptr =>
      split at h
      next heq => omega
      next => exact ih h

lemma walk_congr {ptr : BitVec 8}
    (h : ∀ i, c₀.walk n ptr i = true → c.readU8 i = c₀.readU8 i) : c.walk n ptr = c₀.walk n ptr := by
  induction n generalizing ptr with
  | zero => rfl
  | succ n ih =>
    funext i
    rw [walk,walk]
    by_cases hptr : ptr.toNat < 0x40
    · rw [if_pos hptr,if_pos hptr]
    rw [if_neg hptr,if_neg hptr]
    have hnext : c.readU8 (ptr.toNat+1) = c₀.readU8 (ptr.toNat+1) := by
      refine h _ ?_
      rw [walk,if_neg hptr,if_pos (.inr rfl)]
    have htail : c.walk n (c₀.readU8 (ptr.toNat+1)) = c₀.walk n (c₀.readU8 (ptr.toNat+1)) := by
      refine ih fun j hj => h j ?_
      rw [walk,if_neg hptr]
      split
      · rfl
      · exact hj
    rw [hnext,htail]

lemma header_congr (hbit : c.readU16 statusOffset &&& 0x0010 = c₀.readU16 statusOffset &&& 0x0010)
    (hptr : c.readU8 capabilityPtr = c₀.readU8 capabilityPtr)
    (h : ∀ i, c₀.capabilityHeaderByteIsReadOnly i = true → c.readU8 i = c₀.readU8 i) :
    c.capabilityHeaderByteIsReadOnly = c₀.capabilityHeaderByteIsReadOnly := by
  funext i
  rw [capabilityHeaderByteIsReadOnly,capabilityHeaderByteIsReadOnly,hbit,hptr]
  by_cases hzero : c₀.readU16 statusOffset &&& 0x0010 = 0
  · rw [if_pos hzero,if_pos hzero]
  rw [if_neg hzero,if_neg hzero]
  refine congrFun (walk_congr fun j hj => h j ?_) i
  rw [capabilityHeaderByteIsReadOnly,if_neg hzero]
  exact hj

lemma le_of_header (h : c.capabilityHeaderByteIsReadOnly i = true) : 0x40 ≤ i := by
  rw [capabilityHeaderByteIsReadOnly] at h
  split at h
  · cases h
  · exact le_of_walk h

/-! ## The bytes that are written -/

def writeByte (c : PciConfigSpace) (offset : ℕ) (value : BitVec 32) (i : ℕ) : PciConfigSpace :=
  if !byteIsReadOnly (offset+i) && !c.capabilityHeaderByteIsReadOnly (offset+i) then
    c.writeU8 (offset+i) (value.extractLsb' (8*i) 8)
  else c

variable {value : BitVec 32}

lemma writeByte_data
    (h : i ≠ offset+k ∨ byteIsReadOnly i = true ∨ c.capabilityHeaderByteIsReadOnly i = true) :
    (c.writeByte offset value k).data i = c.data i := by
  rw [writeByte]
  split
  next hw =>
    refine write8_of_ne ?_
    rintro rfl
    simp_all
  next => rfl

lemma writeBytes_invariant {P : PciConfigSpace → Prop} (h : P c)
    (hstep : ∀ c k, k < min width 4 → P c → P (c.writeByte offset value k)) :
    P (c.writeBytes offset width value) := by
  have hrun : ∀ l : List ℕ, (∀ k ∈ l, k < min width 4) → ∀ c, P c →
      P (l.foldl (fun c k => c.writeByte offset value k) c) := by
    intro l
    induction l with
    | nil => exact fun _ _ hc => hc
    | cons k l ih =>
      intro hl c hc
      rw [foldl_cons]
      exact ih (fun j hj => hl j (mem_cons_of_mem _ hj)) _ (hstep c k (hl k mem_cons_self) hc)
  exact hrun _ (fun k hk => mem_range.mp hk) c h

lemma writeBytes_data (h : i < offset ∨ offset+width ≤ i ∨ byteIsReadOnly i = true) :
    (c.writeBytes offset width value).data i = c.data i := by
  refine writeBytes_invariant (P := fun c' => c'.data i = c.data i) rfl fun c' k hk hc' => ?_
  refine (writeByte_data ?_).trans hc'
  rcases h with h | h | h
  · exact .inl (by omega)
  · exact .inl (by omega)
  · exact .inr (.inl h)

/-- The headers of the list are passed over. A write that can meet one does not reach the pointer,
so the list stays what it was. -/
lemma writeBytes_header (hi : c.capabilityHeaderByteIsReadOnly i = true) :
    (c.writeBytes offset width value).data i = c.data i := by
  rcases Nat.lt_or_ge (offset+min width 4) 0x41 with hlow | hhigh
  · refine writeBytes_invariant (P := fun c' => c'.data i = c.data i) rfl fun c' k hk hc' => ?_
    have := le_of_header hi
    exact (writeByte_data (.inl (by omega))).trans hc'
  · refine writeBytes_invariant (P := fun c' => (∀ j < 0x3D, c'.data j = c.data j) ∧
      ∀ j, c.capabilityHeaderByteIsReadOnly j = true → c'.data j = c.data j)
      ⟨fun _ _ => rfl,fun _ _ => rfl⟩ (fun c' k hk hc' => ?_) |>.2 i hi
    obtain ⟨hlow,hheaders⟩ := hc'
    have hbit : c'.readU16 statusOffset = c.readU16 statusOffset :=
      read16_congr fun j _ hj => hlow j (by rw [statusOffset] at hj; omega)
    have hsame : c'.capabilityHeaderByteIsReadOnly = c.capabilityHeaderByteIsReadOnly :=
      header_congr (by rw [hbit]) (read8_congr (hlow _ (by decide)))
        fun j hj => read8_congr (hheaders j hj)
    refine ⟨fun j hj => ?_,fun j hj => ?_⟩
    · exact (writeByte_data (.inl (by omega))).trans (hlow j hj)
    · exact (writeByte_data (.inr (.inr (hsame ▸ hj)))).trans (hheaders j hj)

/-! ## What is put back -/

section
variable {b : Bool} {a : PciConfigSpace} {v : BitVec 8}

lemma ite_data (ha : b = true → a.data i = v) (hc : c.data i = v) :
    (if b then a else c).data i = v := by
  cases b with
  | true => exact ha rfl
  | false => exact hc

end
variable {o : ℕ}

lemma writeU16_data_of_lt {v : BitVec 16} (h : i < o ∨ o+2 ≤ i) :
    (c.writeU16 o v).data i = c.data i := write16_of_lt h

lemma writeU32_data_of_lt {v : BitVec 32} (h : i < o ∨ o+4 ≤ i) :
    (c.writeU32 o v).data i = c.data i := write32_of_lt h

lemma writeU32_readU32_data (h : c.data i = before.data i) :
    (c.writeU32 o (before.readU32 o)).data i = before.data i := write32_read32_apply h

lemma restored_data {m v : BitVec 16} (hv : v = keep m (before.readU16 o) (c.readU16 o))
    (h : c.data i = before.data i) : (c.writeU16 o v).data i = before.data i := by
  subst hv
  exact restore16_apply m h

lemma msix_ctrl_eq (old new : BitVec 16) :
    (new &&& ~~~0x07FF) ||| (old &&& 0x07FF) = keep (~~~0x07FF) old new := by
  rw [keep,BitVec.not_not]

lemma command_eq (m old new : BitVec 16) :
    (old &&& ~~~m) ||| (new &&& m) = keep m old new := by rw [keep,BitVec.or_comm]

section
variable (offset width : ℕ)
section
variable (h : c.data i = before.data i)
include h

lemma restoreMsix_data :
    (c.restoreMsix before offset width).data i = before.data i := by
  refine ite_data (fun _ => ?_) h
  exact writeU32_readU32_data (writeU32_readU32_data (restored_data (msix_ctrl_eq _ _) h))

lemma restoreMsi_data : (c.restoreMsi before offset width).data i = before.data i :=
  ite_data (fun _ => restored_data rfl h) h

lemma restorePm_data : (c.restorePm before offset width).data i = before.data i :=
  ite_data (fun _ => restored_data (keep_zero _ _).symm h) h

lemma restorePcie_data : (c.restorePcie before offset width).data i = before.data i :=
  ite_data (fun _ => restored_data (keep_zero _ _).symm h) h

lemma restoreCommand_data : (c.restoreCommand before offset width).data i = before.data i :=
  ite_data (fun _ => restored_data (command_eq _ _ _) h) h

end

lemma restoreMsi_of_lt (h : i < msiCapOffset+2 ∨ msiCapOffset+4 ≤ i) :
    (c.restoreMsi before offset width).data i = c.data i :=
  ite_data (fun _ => writeU16_data_of_lt h) rfl

lemma restorePm_of_lt (h : i < pmCapOffset+2 ∨ pmCapOffset+4 ≤ i) :
    (c.restorePm before offset width).data i = c.data i :=
  ite_data (fun _ => writeU16_data_of_lt h) rfl

lemma restorePcie_of_lt (h : i < pcieCapOffset+2 ∨ pcieCapOffset+4 ≤ i) :
    (c.restorePcie before offset width).data i = c.data i :=
  ite_data (fun _ => writeU16_data_of_lt h) rfl

lemma restoreStatus_of_lt (h : i < statusOffset ∨ statusOffset+2 ≤ i ∨
    overlaps offset width statusOffset (statusOffset+2) = false) :
    (c.restoreStatus before offset width).data i = c.data i := by
  refine ite_data (fun htouched => ?_) rfl
  rcases h with h | h | h
  · exact writeU16_data_of_lt (.inl h)
  · exact writeU16_data_of_lt (.inr h)
  · rw [h] at htouched
    cases htouched

lemma restoreCommand_of_lt (h : i < commandOffset ∨ commandOffset+2 ≤ i) :
    (c.restoreCommand before offset width).data i = c.data i :=
  ite_data (fun _ => writeU16_data_of_lt h) rfl

end
variable {value : BitVec 32}

lemma guestWrite_data_of_writeBytes (hbar : ¬ (bar0 ≤ offset ∧ offset ≤ bar5 ∧ width = 4))
    (h : (c.writeBytes offset width value).data i = c.data i)
    (hi : i < statusOffset ∨ statusOffset+2 ≤ i ∨
      overlaps offset width statusOffset (statusOffset+2) = false) :
    (c.guestWrite offset width value).data i = c.data i := by
  rw [guestWrite,dif_neg fun hb => hbar ⟨hb.1.1,hb.1.2,hb.2.1⟩]
  have hmsi := restoreMsi_data offset width (restoreMsix_data offset width h)
  have hpcie := restorePcie_data offset width (restorePm_data offset width hmsi)
  exact restoreCommand_data offset width ((restoreStatus_of_lt offset width hi).trans hpcie)

/-! ## The registers that are put back -/

lemma lt_or_le_of_overlaps_eq_false (h : overlaps offset width lo hi = false)
    (hlo : lo ≤ i) (hhi : i < hi) : i < offset ∨ offset+width ≤ i := by
  simp only [overlaps,and_eq_false_iff,decide_eq_false_iff_not,not_lt] at h
  omega

lemma readU16_congr (h : ∀ i, o ≤ i → i < o+2 → c.data i = c₁.data i) :
    c.readU16 o = c₁.readU16 o := read16_congr h

lemma readU32_congr (h : ∀ i, o ≤ i → i < o+4 → c.data i = c₁.data i) :
    c.readU32 o = c₁.readU32 o := read32_congr h

lemma readU8_congr (h : c.data o = c₁.data o) : c.readU8 o = c₁.readU8 o := read8_congr h

lemma readU16_writeU16 (h : o+1 < configSpaceSize) (v : BitVec 16) :
    (c.writeU16 o v).readU16 o = v := read16_write16 h v

lemma readU32_writeU32 (h : o+3 < configSpaceSize) (v : BitVec 32) :
    (c.writeU32 o v).readU32 o = v := read32_write32 h v

lemma restoreMsix_registers (htouched : overlaps offset width msixCapOffset (msixCapOffset+12) = true)
    (hid : before.readU8 msixCapOffset = 0x11) :
    (c.restoreMsix before offset width).readU16 (msixCapOffset+2) &&& 0x07FF =
        before.readU16 (msixCapOffset+2) &&& 0x07FF ∧
      (c.restoreMsix before offset width).readU32 (msixCapOffset+4) =
        before.readU32 (msixCapOffset+4) ∧
      (c.restoreMsix before offset width).readU32 (msixCapOffset+8) =
        before.readU32 (msixCapOffset+8) := by
  rw [restoreMsix,if_pos (by rw [htouched,hid]; rfl)]
  set ctrl := (c.readU16 (msixCapOffset+2) &&& ~~~0x07FF) |||
    (before.readU16 (msixCapOffset+2) &&& 0x07FF) with hctrl
  set w := c.writeU16 (msixCapOffset+2) ctrl with hw
  set x := w.writeU32 (msixCapOffset+4) (before.readU32 (msixCapOffset+4)) with hx
  refine ⟨?_,?_,readU32_writeU32 (by decide) _⟩
  · have hread : (x.writeU32 (msixCapOffset+8) (before.readU32 (msixCapOffset+8))).readU16
        (msixCapOffset+2) = w.readU16 (msixCapOffset+2) := readU16_congr fun i hlo hhi => by
      rw [writeU32_data_of_lt (by omega),hx,writeU32_data_of_lt (by omega)]
    rw [hread,hw,readU16_writeU16 (by decide),hctrl,msix_ctrl_eq]
    have hkept := keep_and_not (~~~0x07FF) (before.readU16 (msixCapOffset+2))
      (c.readU16 (msixCapOffset+2))
    rwa [BitVec.not_not] at hkept
  · have hread : (x.writeU32 (msixCapOffset+8) (before.readU32 (msixCapOffset+8))).readU32
        (msixCapOffset+4) = x.readU32 (msixCapOffset+4) := readU32_congr fun i hlo hhi => by
      rw [writeU32_data_of_lt (by omega)]
    rw [hread,hx,readU32_writeU32 (by decide)]

section
variable (hbar : ¬ (bar0 ≤ offset ∧ offset ≤ bar5 ∧ width = 4))
include hbar

lemma guestWrite_eq : c.guestWrite offset width value =
    (((((((c.writeBytes offset width value).restoreMsix c offset width).restoreMsi c offset
      width).restorePm c offset width).restorePcie c offset width).restoreStatus c offset
        width).restoreCommand c offset width) := by
  rw [guestWrite,dif_neg fun hb => hbar ⟨hb.1.1,hb.1.2,hb.2.1⟩]

lemma guestWrite_data_of_overlaps {lo hi : ℕ} (hlo : statusOffset+2 ≤ lo)
    (h : overlaps offset width lo hi = false) (hi₁ : lo ≤ i) (hi₂ : i < hi) :
    (c.guestWrite offset width value).data i = c.data i :=
  guestWrite_data_of_writeBytes hbar
    (writeBytes_data ((lt_or_le_of_overlaps_eq_false h hi₁ hi₂).imp_right .inl))
    (.inr (.inl (le_trans hlo hi₁)))

lemma guestWrite_msix (hid : c.readU8 msixCapOffset = 0x11) :
    (c.guestWrite offset width value).readU16 (msixCapOffset+2) &&& 0x07FF =
        c.readU16 (msixCapOffset+2) &&& 0x07FF ∧
      (c.guestWrite offset width value).readU32 (msixCapOffset+4) = c.readU32 (msixCapOffset+4) ∧
      (c.guestWrite offset width value).readU32 (msixCapOffset+8) =
        c.readU32 (msixCapOffset+8) := by
  cases htouched : overlaps offset width msixCapOffset (msixCapOffset+12) with
  | false =>
    have hsame : ∀ i, msixCapOffset ≤ i → i < msixCapOffset+12 →
        (c.guestWrite offset width value).data i = c.data i := fun i =>
      guestWrite_data_of_overlaps hbar (by decide) htouched
    refine ⟨?_,readU32_congr fun i hlo hhi => hsame i (by omega) (by omega),
      readU32_congr fun i hlo hhi => hsame i (by omega) (by omega)⟩
    rw [readU16_congr fun i hlo hhi => hsame i (by omega) (by omega)]
  | true =>
    -- None of the registers that are put back later has a byte here.
    have hlater : ∀ i, msixCapOffset+2 ≤ i → i < msixCapOffset+12 →
        (c.guestWrite offset width value).data i =
          ((c.writeBytes offset width value).restoreMsix c offset width).data i := by
      intro i hlo hhi
      rw [guestWrite_eq hbar,restoreCommand_of_lt,restoreStatus_of_lt,restorePcie_of_lt,
        restorePm_of_lt,restoreMsi_of_lt]
      · exact .inr (le_trans (by decide) hlo)
      · exact .inr (le_trans (by decide) hlo)
      · exact .inl (lt_of_lt_of_le hhi (by decide))
      · exact .inr (.inl (le_trans (by decide) hlo))
      · exact .inr (le_trans (by decide) hlo)
    rw [readU16_congr fun i hlo hhi => hlater i (by omega) (by omega),
      readU32_congr fun i hlo hhi => hlater i (by omega) (by omega),
      readU32_congr fun i hlo hhi => hlater i (by omega) (by omega)]
    exact restoreMsix_registers htouched hid

lemma guestWrite_readU16_of_overlaps {o : ℕ} (ho : statusOffset+2 ≤ o)
    (h : overlaps offset width o (o+2) = false) :
    (c.guestWrite offset width value).readU16 o = c.readU16 o :=
  readU16_congr fun _ => guestWrite_data_of_overlaps hbar ho h

lemma guestWrite_msi (hid : c.readU8 msiCapOffset = 0x05) :
    (c.guestWrite offset width value).readU16 (msiCapOffset+2) &&& ~~~0x0071 =
      c.readU16 (msiCapOffset+2) &&& ~~~0x0071 := by
  cases htouched : overlaps offset width (msiCapOffset+2) (msiCapOffset+4) with
  | false => rw [guestWrite_readU16_of_overlaps hbar (by decide) htouched]
  | true =>
    have hlater : (c.guestWrite offset width value).readU16 (msiCapOffset+2) =
        (((c.writeBytes offset width value).restoreMsix c offset width).restoreMsi c offset
          width).readU16 (msiCapOffset+2) := by
      refine readU16_congr fun i hlo hhi => ?_
      rw [guestWrite_eq hbar,restoreCommand_of_lt,restoreStatus_of_lt,restorePcie_of_lt,
        restorePm_of_lt]
      · exact .inr (le_trans (by decide) hlo)
      · exact .inl (lt_of_lt_of_le hhi (by decide))
      · exact .inr (.inl (le_trans (by decide) hlo))
      · exact .inr (le_trans (by decide) hlo)
    rw [hlater,restoreMsi,if_pos (by rw [htouched,hid]; rfl),readU16_writeU16 (by decide)]
    exact keep_and_not _ _ _

lemma guestWrite_pm (hid : c.readU8 pmCapOffset = 0x01) :
    (c.guestWrite offset width value).readU16 (pmCapOffset+2) = c.readU16 (pmCapOffset+2) := by
  cases htouched : overlaps offset width (pmCapOffset+2) (pmCapOffset+4) with
  | false => exact guestWrite_readU16_of_overlaps hbar (by decide) htouched
  | true =>
    have hlater : (c.guestWrite offset width value).readU16 (pmCapOffset+2) =
        ((((c.writeBytes offset width value).restoreMsix c offset width).restoreMsi c offset
          width).restorePm c offset width).readU16 (pmCapOffset+2) := by
      refine readU16_congr fun i hlo hhi => ?_
      rw [guestWrite_eq hbar,restoreCommand_of_lt,restoreStatus_of_lt,restorePcie_of_lt]
      · exact .inl (lt_of_lt_of_le hhi (by decide))
      · exact .inr (.inl (le_trans (by decide) hlo))
      · exact .inr (le_trans (by decide) hlo)
    rw [hlater,restorePm,if_pos (by rw [htouched,hid]; rfl),readU16_writeU16 (by decide)]

lemma guestWrite_pcie (hid : c.readU8 pcieCapOffset = 0x10) :
    (c.guestWrite offset width value).readU16 (pcieCapOffset+2) =
      c.readU16 (pcieCapOffset+2) := by
  cases htouched : overlaps offset width (pcieCapOffset+2) (pcieCapOffset+4) with
  | false => exact guestWrite_readU16_of_overlaps hbar (by decide) htouched
  | true =>
    have hlater : (c.guestWrite offset width value).readU16 (pcieCapOffset+2) =
        (((((c.writeBytes offset width value).restoreMsix c offset width).restoreMsi c offset
          width).restorePm c offset width).restorePcie c offset width).readU16
            (pcieCapOffset+2) := by
      refine readU16_congr fun i hlo hhi => ?_
      rw [guestWrite_eq hbar,restoreCommand_of_lt,restoreStatus_of_lt]
      · exact .inr (.inl (le_trans (by decide) hlo))
      · exact .inr (le_trans (by decide) hlo)
    rw [hlater,restorePcie,if_pos (by rw [htouched,hid]; rfl),readU16_writeU16 (by decide)]

lemma guestWrite_status : (c.guestWrite offset width value).readU16 statusOffset &&& 0x0010 =
      c.readU16 statusOffset &&& 0x0010 := by
  cases htouched : overlaps offset width statusOffset (statusOffset+2) with
  | false =>
    have hsame : (c.guestWrite offset width value).readU16 statusOffset = c.readU16 statusOffset :=
      readU16_congr fun i hlo hhi => guestWrite_data_of_writeBytes hbar
        (writeBytes_data ((lt_or_le_of_overlaps_eq_false htouched hlo hhi).imp_right .inl))
        (.inr (.inr htouched))
    rw [hsame]
  | true =>
    have hlater : (c.guestWrite offset width value).readU16 statusOffset =
        ((((((c.writeBytes offset width value).restoreMsix c offset width).restoreMsi c offset
          width).restorePm c offset width).restorePcie c offset width).restoreStatus c offset
            width).readU16 statusOffset := by
      refine readU16_congr fun i hlo hhi => ?_
      rw [guestWrite_eq hbar,restoreCommand_of_lt]
      exact .inr (le_trans (by decide) hlo)
    rw [hlater,restoreStatus,if_pos htouched]
    generalize ((((c.writeBytes offset width value).restoreMsix c offset width).restoreMsi c offset
          width).restorePm c offset width).restorePcie c offset width = w
    rw [readU16_writeU16 (by decide)]
    generalize c.readU16 statusOffset = old
    generalize w.readU16 statusOffset = new
    generalize covered offset width statusOffset = cov
    ext j hj
    have hbit : ((0xF900#16 : BitVec 16)[j] && (0x0010#16 : BitVec 16)[j]) = false := by
      rw [← BitVec.getElem_and]
      have hzero : (0xF900#16 : BitVec 16) &&& 0x0010#16 = 0#16 := by decide
      rw [hzero,BitVec.getElem_zero]
    simp only [BitVec.getElem_and,BitVec.getElem_not]
    revert hbit
    cases (0xF900#16 : BitVec 16)[j] <;> cases (0x0010#16 : BitVec 16)[j] <;> simp

end

/-! ## The invariant
-/

structure Intact (c₀ c : PciConfigSpace) : Prop where
  masks : c.barMasks = c₀.barMasks
  identity : ∀ i, byteIsReadOnly i = true → c.data i = c₀.data i
  bars : ∀ i : Fin 6, c.readU32 (bar0+i*4) &&& ~~~c₀.barMasks i =
    c₀.readU32 (bar0+i*4) &&& ~~~c₀.barMasks i
  bit : c.readU16 statusOffset &&& 0x0010 = c₀.readU16 statusOffset &&& 0x0010
  pointer : c.data capabilityPtr = c₀.data capabilityPtr
  headers : ∀ i, c₀.capabilityHeaderByteIsReadOnly i = true → c.data i = c₀.data i
  msix : c₀.readU8 msixCapOffset = 0x11 →
    c.readU16 (msixCapOffset+2) &&& 0x07FF = c₀.readU16 (msixCapOffset+2) &&& 0x07FF ∧
    c.readU32 (msixCapOffset+4) = c₀.readU32 (msixCapOffset+4) ∧
    c.readU32 (msixCapOffset+8) = c₀.readU32 (msixCapOffset+8)
  msi : c₀.readU8 msiCapOffset = 0x05 → c.readU16 (msiCapOffset+2) &&& ~~~0x0071 =
    c₀.readU16 (msiCapOffset+2) &&& ~~~0x0071
  pm : c₀.readU8 pmCapOffset = 0x01 → c.readU16 (pmCapOffset+2) = c₀.readU16 (pmCapOffset+2)
  pcie : c₀.readU8 pcieCapOffset = 0x10 → c.readU16 (pcieCapOffset+2) = c₀.readU16 (pcieCapOffset+2)

lemma Intact.refl (c : PciConfigSpace) : Intact c c :=
  ⟨rfl,fun _ _ => rfl,fun _ => rfl,rfl,rfl,fun _ _ => rfl,fun _ => ⟨rfl,rfl,rfl⟩,
    fun _ => rfl,fun _ => rfl,fun _ => rfl⟩

lemma Intact.header_eq (h : Intact c₀ c) :
    c.capabilityHeaderByteIsReadOnly = c₀.capabilityHeaderByteIsReadOnly :=
  header_congr h.bit (readU8_congr h.pointer) fun i hi => readU8_congr (h.headers i hi)

lemma Intact.id_eq (h : Intact c₀ c) (hlisted : Listed c₀) (cap : ℕ × BitVec 8)
    (hcap : cap ∈ fixedCapabilities) (hid : c₀.readU8 cap.1 = cap.2) : c.readU8 cap.1 = cap.2 :=
  (readU8_congr (h.headers _ (hlisted.installed cap hcap hid))).trans hid

lemma lt_or_le_of_byteIsReadOnly (h : byteIsReadOnly i = true) : i < bar0 ∨ bar5+4 ≤ i := by
  simp only [byteIsReadOnly,or_eq_true,and_eq_true,decide_eq_true_eq] at h
  rw [bar0,bar5]
  omega

lemma lt_or_le_of_header (h : c.capabilityHeaderByteIsReadOnly i = true) :
    i < bar0 ∨ bar5+4 ≤ i := .inr (le_trans (by decide) (le_of_header h))

lemma Intact.of_data (h : Intact c₀ c) (hmasks : c₁.barMasks = c.barMasks)
    (hdata : ∀ i, i < bar0 ∨ bar5+4 ≤ i → c₁.data i = c.data i)
    (hbars : ∀ i : Fin 6, c₁.readU32 (bar0+i*4) &&& ~~~c₀.barMasks i =
      c.readU32 (bar0+i*4) &&& ~~~c₀.barMasks i) : Intact c₀ c₁ := by
  have hword : ∀ o, bar5+4 ≤ o → c₁.readU16 o = c.readU16 o := fun o ho =>
    readU16_congr fun i hi _ => hdata i (.inr (le_trans ho hi))
  have hdword : ∀ o, bar5+4 ≤ o → c₁.readU32 o = c.readU32 o := fun o ho =>
    readU32_congr fun i hi _ => hdata i (.inr (le_trans ho hi))
  have hstatus : c₁.readU16 statusOffset = c.readU16 statusOffset :=
    readU16_congr fun i _ hi => hdata i (.inl (lt_of_lt_of_le hi (by decide)))
  refine ⟨hmasks.trans h.masks,fun i hi => ?_,fun i => (hbars i).trans (h.bars i),?_,
    (hdata _ (by decide)).trans h.pointer,fun i hi => ?_,?_,?_,?_,?_⟩
  · exact (hdata i (lt_or_le_of_byteIsReadOnly hi)).trans (h.identity i hi)
  · rw [hstatus,h.bit]
  · exact (hdata i (lt_or_le_of_header hi)).trans (h.headers i hi)
  · intro hid
    rw [hword _ (by decide),hdword _ (by decide),hdword _ (by decide)]
    exact h.msix hid
  · intro hid
    rw [hword _ (by decide)]
    exact h.msi hid
  · intro hid
    rw [hword _ (by decide)]
    exact h.pm hid
  · intro hid
    rw [hword _ (by decide)]
    exact h.pcie hid

lemma Intact.guestWrite_bar (h : Intact c₀ c) (hoffset : bar0 ≤ offset ∧ offset ≤ bar5)
    (haligned : offset%4 = 0) : Intact c₀ (c.guestWrite offset 4 value) := by
  have hlt : (offset-bar0)/4 < 6 := by
    rw [bar0,bar5] at *
    omega
  rw [guestWrite,dif_pos ⟨hoffset,rfl,hlt⟩]
  refine h.of_data rfl (fun i hi => ?_) fun i => ?_
  · refine writeU32_data_of_lt ?_
    rw [bar0,bar5] at *
    omega
  by_cases hi : (i : ℕ) = (offset-bar0)/4
  · have hsame : bar0+(i : ℕ)*4 = offset := by
      rw [bar0] at *
      omega
    have hmask : c.barMasks ⟨(offset-bar0)/4,hlt⟩ = c₀.barMasks i := by
      rw [h.masks]
      exact congrArg _ (Fin.ext hi.symm)
    rw [hsame,hmask]
    show PciConfigSpace.readU32 (c.writeU32 offset _) offset &&& _ = _
    rw [readU32_writeU32 (lt_of_le_of_lt (Nat.add_le_add_right hoffset.2 3) (by decide))]
    exact keep_and_not _ _ _
  · have hother : (c.writeU32 offset ((value &&& c.barMasks ⟨(offset-bar0)/4,hlt⟩) |||
        (c.readU32 offset &&& ~~~c.barMasks ⟨(offset-bar0)/4,hlt⟩))).readU32
          (bar0+(i : ℕ)*4) = c.readU32 (bar0+(i : ℕ)*4) := by
      refine readU32_congr fun j hlo hhi => writeU32_data_of_lt ?_
      rw [bar0] at *
      omega
    rw [hother]

lemma writeByte_barMasks (c : PciConfigSpace) (offset : ℕ) (value : BitVec 32) (k : ℕ) :
    (c.writeByte offset value k).barMasks = c.barMasks := by
  rw [writeByte]
  split <;> rfl

lemma guestWrite_barMasks (c : PciConfigSpace) (offset width : ℕ) (value : BitVec 32) :
    (c.guestWrite offset width value).barMasks = c.barMasks := by
  have hloop : (c.writeBytes offset width value).barMasks = c.barMasks :=
    writeBytes_invariant (P := fun c' => c'.barMasks = c.barMasks) rfl
      fun c' k _ hc' => (writeByte_barMasks c' offset value k).trans hc'
  rw [guestWrite]
  split
  · rfl
  · simp only [restoreCommand,restoreStatus,restorePcie,restorePm,restoreMsi,restoreMsix,
      apply_ite PciConfigSpace.barMasks,writeU16,writeU32,ite_self,hloop]

lemma Proper.bars_lt_or_le (hproper : Proper offset width)
    (hbar : ¬ (bar0 ≤ offset ∧ offset ≤ bar5 ∧ width = 4)) :
    offset+width ≤ bar0 ∨ bar5+4 ≤ offset := by
  have := hproper.bars
  rw [bar0,bar5] at *
  omega

section
variable (h : Intact c₀ c) (hlisted : Listed c₀)
include h hlisted

/-- **One guest write.** A proper write keeps what the platform has fixed. -/
lemma Intact.guestWrite (hproper : Proper offset width)
    (value : BitVec 32) : Intact c₀ (c.guestWrite offset width value) := by
  by_cases hbar : bar0 ≤ offset ∧ offset ≤ bar5 ∧ width = 4
  · obtain ⟨hlo,hhi,rfl⟩ := hbar
    refine h.guestWrite_bar ⟨hlo,hhi⟩ ?_
    have := hproper.bars
    rw [bar0,bar5] at *
    omega
  have hclear := Proper.bars_lt_or_le hproper hbar
  have hid : ∀ cap ∈ fixedCapabilities, c₀.readU8 cap.1 = cap.2 → c.readU8 cap.1 = cap.2 :=
    fun cap hcap => h.id_eq hlisted cap hcap
  refine ⟨(guestWrite_barMasks c offset width value).trans h.masks,fun i hi => ?_,fun i => ?_,
    (guestWrite_status hbar).trans h.bit,?_,fun i hi => ?_,fun hi => ?_,fun hi => ?_,
    fun hi => ?_,fun hi => ?_⟩
  · -- The identity has no byte in the status.
    refine (guestWrite_data_of_writeBytes hbar (writeBytes_data (.inr (.inr hi))) ?_).trans
      (h.identity i hi)
    simp only [byteIsReadOnly,or_eq_true,and_eq_true,decide_eq_true_eq] at hi
    rw [statusOffset]
    omega
  · have hsame : (c.guestWrite offset width value).readU32 (bar0+i*4) =
        c.readU32 (bar0+i*4) := by
      refine readU32_congr fun j hlo hhi => ?_
      have hi6 := i.isLt
      rw [bar0,bar5] at *
      refine guestWrite_data_of_writeBytes hbar (writeBytes_data (by omega)) (.inr (.inl ?_))
      rw [statusOffset]
      omega
    rw [hsame]
    exact h.bars i
  · have hwindow : capabilityPtr < offset ∨ offset+width ≤ capabilityPtr := hproper.pointer.symm
    exact (guestWrite_data_of_writeBytes hbar (writeBytes_data (hwindow.imp_right .inl))
      (.inr (.inl (by decide)))).trans h.pointer
  · have hheader : c.capabilityHeaderByteIsReadOnly i = true := h.header_eq ▸ hi
    exact (guestWrite_data_of_writeBytes hbar (writeBytes_header hheader)
      (.inr (.inl (le_trans (by decide) (le_of_header hheader))))).trans (h.headers i hi)
  · have hfound := hid (msixCapOffset,0x11) (by decide) hi
    obtain ⟨hsize,htable,hpba⟩ := h.msix hi
    exact ⟨(guestWrite_msix hbar hfound).1.trans hsize,
      (guestWrite_msix hbar hfound).2.1.trans htable,(guestWrite_msix hbar hfound).2.2.trans hpba⟩
  · exact (guestWrite_msi hbar (hid (msiCapOffset,0x05) (by decide) hi)).trans (h.msi hi)
  · exact (guestWrite_pm hbar (hid (pmCapOffset,0x01) (by decide) hi)).trans (h.pm hi)
  · exact (guestWrite_pcie hbar (hid (pcieCapOffset,0x10) (by decide) hi)).trans (h.pcie hi)

lemma Intact.reaches_iff (ptr : ℕ) :
    c.Reaches ptr ↔ c₀.Reaches ptr := by
  have hptr : c.readU8 capabilityPtr = c₀.readU8 capabilityPtr := readU8_congr h.pointer
  have hnext : ∀ ptr, c₀.Reaches ptr → c.readU8 (ptr+1) = c₀.readU8 (ptr+1) := fun ptr hr =>
    readU8_congr (h.headers _ (hlisted.reached ptr hr).2)
  constructor
  · intro hr
    induction hr with
    | head hbit hle =>
      rw [hptr] at hle ⊢
      exact .head (h.bit ▸ hbit) hle
    | next _ hle ih =>
      rw [hnext _ ih] at hle ⊢
      exact .next ih hle
  · intro hr
    induction hr with
    | head hbit hle =>
      rw [← hptr] at hle ⊢
      exact .head (h.bit.symm ▸ hbit) hle
    | next hr hle ih =>
      rw [← hnext _ hr] at hle ⊢
      exact .next ih hle

lemma Intact.kept : Kept c₀ c where
  identity offset hro := readU8_congr (h.identity offset hro)
  bars := h.bars
  pointer := readU8_congr h.pointer
  chain := h.reaches_iff hlisted
  headers ptr hr := ⟨readU8_congr (h.headers _ (hlisted.reached ptr hr).1),
    readU8_congr (h.headers _ (hlisted.reached ptr hr).2)⟩
  msix hid := by
    have hid' : c.readU8 msixCapOffset = 0x11 :=
      h.id_eq hlisted (msixCapOffset,0x11) (by decide) hid
    refine ⟨?_,(h.msix hid).2⟩
    rw [msixTableSize,msixTableSize,hid,hid',(h.msix hid).1]
  msi := h.msi
  pm := h.pm
  pcie := h.pcie

end
end PciConfigSpace
end Enlil.Devices.Pcie
