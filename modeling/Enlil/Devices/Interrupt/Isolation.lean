import Mathlib.Data.List.Basic
import Mathlib.Data.Option.Basic
import Enlil.Devices.Interrupt.Defs

/-! # Which local APIC an access reaches -/

namespace Enlil.Devices
open List Nat BitVec Option
open BitVec (ofNat)
open LapicReg (ofOffset)
namespace LocalApic
variable {l l' l'' : LocalApic} {offset : ℕ} {value x : BitVec 32}

/-! ### One local APIC -/

def Delivered (l l' : LocalApic) : Prop :=
  ∃ entries : List InterruptEntry, l' = entries.foldl (fun l e => (l.acceptInterrupt e).2) l

lemma Delivered.refl (l : LocalApic) : Delivered l l := ⟨[],rfl⟩

lemma Delivered.accept (l : LocalApic) (entry : InterruptEntry) :
    Delivered l (l.acceptInterrupt entry).2 := ⟨[entry],rfl⟩

section
variable (h : Delivered l l')
include h

lemma Delivered.trans (h' : Delivered l' l'') : Delivered l l'' := by
  obtain ⟨es,rfl⟩ := h
  obtain ⟨es',rfl⟩ := h'
  exact ⟨es ++ es',(foldl_append ..).symm⟩

omit h in
lemma acceptInterrupt_eq (l : LocalApic) (entry : InterruptEntry) :
    ∃ irr tmr, (l.acceptInterrupt entry).2 = { l with irr := irr, tmr := tmr } := by
  unfold acceptInterrupt
  split_ifs
  · exact ⟨l.irr,l.tmr,rfl⟩
  · exact ⟨l.irr,l.tmr,rfl⟩
  all_goals exact ⟨_,_,rfl⟩

lemma Delivered.eq :
    ∃ irr tmr, l' = { l with irr := irr, tmr := tmr } := by
  obtain ⟨es,rfl⟩ := h
  induction es generalizing l with
  | nil => exact ⟨l.irr,l.tmr,rfl⟩
  | cons e es ih =>
    obtain ⟨irr,tmr,he⟩ := acceptInterrupt_eq l e
    obtain ⟨irr',tmr',hes⟩ := @ih (l.acceptInterrupt e).2
    exact ⟨irr',tmr',by rw [foldl_cons,hes,he]⟩

lemma Delivered.id_eq : l'.id = l.id := by
  obtain ⟨irr,tmr,rfl⟩ := h.eq
  rfl

lemma Delivered.isr_eq : l'.isr = l.isr := by
  obtain ⟨irr,tmr,rfl⟩ := h.eq
  rfl

end

/-- What a register holds after a write: its writable bits. The initial count is not stored in TSC-
deadline mode. -/
def stored (l : LocalApic) (value : BitVec 32) : LapicReg → Option (BitVec 32)
  | .id => some ((value >>> 24) <<< 24)
  | .tpr => some (value &&& 0xFF)
  | .ldr => some (value &&& 0xFF000000)
  | .dfr => some (value ||| 0x0FFFFFFF)
  | .svr => some (value &&& svrWriteMask)
  | .icrLow => some (value &&& icrLowWriteMask)
  | .icrHigh => some (value &&& icrHighWriteMask)
  | .lvtTimer => some (value &&& lvtTimerWriteMask)
  | .lvtThermal | .lvtPerf | .lvtCmci => some (value &&& lvtDeliveryWriteMask)
  | .lvtLint0 | .lvtLint1 => some (value &&& lvtLintWriteMask)
  | .lvtError => some (value &&& lvtErrorWriteMask)
  | .timerInit => if l.timerMode = .tscDeadline then none else some value
  | .timerDivide => some (value &&& timerDcrWriteMask)
  | _ => none

lemma setWidth_top_byte (value : BitVec 32) :
    ((value >>> 24).setWidth 8).setWidth 32 = value >>> 24 := by
  have hlt := value.isLt
  apply eq_of_toNat_eq
  simp only [toNat_setWidth,toNat_ushiftRight,shiftRight_eq_div_pow]
  omega

lemma setWidth_icr_low (icr : BitVec 64) (low : BitVec 32) :
    ((icr &&& 0xFFFFFFFF00000000) ||| low.setWidth 64).setWidth 32 = low := by
  rw [setWidth_or,setWidth_and,setWidth_setWidth_of_le _ (by decide),setWidth_eq]
  exact (congrArg (· ||| low) and_zero).trans zero_or

lemma setWidth_icr_high (icr : BitVec 64) (high : BitVec 32) :
    (((icr &&& 0xFFFFFFFF) ||| (high.setWidth 64 <<< 32)) >>> 32).setWidth 32 = high := by
  have hhigh : ((high.setWidth 64 <<< 32) >>> 32).setWidth 32 = high := by
    apply eq_of_toNat_eq
    have hlt := high.isLt
    simp only [toNat_setWidth,toNat_ushiftRight,toNat_shiftLeft,
      shiftRight_eq_div_pow,Nat.shiftLeft_eq]
    omega
  rw [ushiftRight_or_distrib,ushiftRight_and_distrib,setWidth_or,setWidth_and,hhigh]
  exact (congrArg (· ||| high) and_zero).trans zero_or

lemma readReg_writeReg {reg : LapicReg} (h : stored l value reg = some x) :
    (l.writeReg value reg).readReg reg = x := by
  cases reg with
  | id =>
    obtain rfl := some.inj h
    simp only [writeReg,readReg,setWidth_top_byte]
  | icrLow =>
    obtain rfl := some.inj h
    simp only [writeReg,readReg,setWidth_icr_low]
  | icrHigh =>
    obtain rfl := some.inj h
    simp only [writeReg,readReg,setWidth_icr_high]
  | timerInit =>
    rw [stored] at h
    split_ifs at h with hmode
    obtain rfl := some.inj h
    simp only [writeReg,if_neg hmode,readReg,ofNat_toNat,setWidth_eq]
  | eoi | esr | version | apr | ppr | isr | tmr | irr | timerCurrent | selfIpi | other => cases h
  | _ => exact some.inj h

lemma readReg_delivered {reg : LapicReg} {l₀ : LocalApic} (h : stored l₀ value reg = some x)
    (hd : Delivered l l') : l'.readReg reg = l.readReg reg := by
  obtain ⟨irr,tmr,rfl⟩ := hd.eq
  cases reg with
  | irr | tmr => cases h
  | _ => rfl

end LocalApic
namespace InterruptController
open LocalApic
variable {c c' : InterruptController} {ls ls' ls'' : List LocalApic} {v : BitVec 8} {offset : ℕ}
  {value : BitVec 32}

/-! ### Delivery -/

def DeliveredAll (ls ls' : List LocalApic) : Prop := ∀ i : ℕ, Option.Rel Delivered ls[i]? ls'[i]?

lemma rel_refl (o : Option LocalApic) : Option.Rel Delivered o o := by
  cases o with
  | none => exact .none
  | some l => exact .some (.refl l)

lemma DeliveredAll.refl (ls : List LocalApic) : DeliveredAll ls ls := fun _ => rel_refl _

lemma DeliveredAll.trans (h : DeliveredAll ls ls') (h' : DeliveredAll ls' ls'') :
    DeliveredAll ls ls'' := by
  intro i
  have hi := h i
  have hi' := h' i
  revert hi hi'
  generalize ls[i]? = o, ls'[i]? = o', ls''[i]? = o''
  rintro (hd | _) (hd' | _)
  · exact .some (hd.trans hd')
  · exact .none

lemma DeliveredAll.length_eq (h : DeliveredAll ls ls') : ls'.length = ls.length := by
  rcases Nat.lt_trichotomy ls'.length ls.length with hlt | heq | hlt
  · have hrel := h ls'.length
    rw [List.getElem?_eq_getElem hlt,List.getElem?_eq_none (Nat.le_refl _)] at hrel
    cases hrel
  · exact heq
  · have hrel := h ls.length
    rw [List.getElem?_eq_getElem hlt,List.getElem?_eq_none (Nat.le_refl _)] at hrel
    cases hrel

lemma rel_map {o : Option LocalApic} {f : LocalApic → LocalApic} (hf : ∀ l, Delivered l (f l)) :
    Option.Rel Delivered o (o.map f) := by
  cases o with
  | none => exact .none
  | some l => exact .some (hf l)

section
variable (c : InterruptController)

lemma deliveredAll_deliverTo (sel : LocalApic → Bool)
    (entry : InterruptEntry) : DeliveredAll c.lapics (c.deliverTo sel entry).lapics := by
  unfold deliverTo
  split_ifs
  · split
    · exact .refl _
    · intro i
      rw [getElem?_modify]
      split_ifs
      · exact rel_map fun l => .accept l entry
      · rw [Option.map_eq_map,Option.map_id']
        exact rel_refl _
  · intro i
    rw [getElem?_map]
    refine rel_map fun l => ?_
    split_ifs
    · exact .accept l entry
    · exact .refl l

lemma deliveredAll_updateFirst (id : BitVec 8) (entry : InterruptEntry) (ls : List LocalApic) :
    DeliveredAll ls (updateFirst id (fun l => (l.acceptInterrupt entry).2) ls) := by
  induction ls with
  | nil => exact .refl _
  | cons l ls ih =>
    intro i
    rw [updateFirst]
    split_ifs <;> cases i with
    | zero => first | exact .some (.accept l entry) | exact .some (.refl l)
    | succ i => first | exact ih i | exact rel_refl _

lemma deliveredAll_sendIpi (sourceId : BitVec 8) (icr : BitVec 64) :
    DeliveredAll c.lapics (c.sendIpi sourceId icr).lapics := by
  unfold sendIpi
  dsimp only
  split
  · exact .refl _
  · split
    · exact deliveredAll_updateFirst _ _ _
    · exact deliveredAll_deliverTo _ _ _
    · exact deliveredAll_deliverTo _ _ _
    · split_ifs <;> exact deliveredAll_deliverTo _ _ _

lemma deliveredAll_deliverRoute (route : InterruptRoute) :
    DeliveredAll c.lapics (c.deliverRoute route).lapics := by
  unfold deliverRoute
  dsimp only
  split_ifs <;> exact deliveredAll_deliverTo _ _ _

end

lemma deliveredAll_deliverRoutes (routes : List InterruptRoute) (c : InterruptController) :
    DeliveredAll c.lapics (routes.foldl deliverRoute c).lapics := by
  induction routes generalizing c with
  | nil => exact .refl _
  | cons route routes ih => exact (deliveredAll_deliverRoute c route).trans (ih _)

/-! ### Lookup by ID -/

/-- Every APIC ID is the number of its vCPU. -/
structure Owned (c : InterruptController) : Prop where
  length_le : c.lapics.length ≤ 256
  id_eq : ∀ i l, c.lapics[i]? = some l → l.id = ofNat 8 i

lemma owned_new (n : ℕ) (h : n ≤ 256) : Owned (new n) where
  length_le := by rwa [new,length_map,length_range]
  id_eq i l hl := by
    simp only [new,getElem?_map,map_eq_some_iff] at hl
    obtain ⟨j,hj,rfl⟩ := hl
    obtain ⟨_,hget⟩ := List.getElem?_eq_some_iff.mp hj
    rw [← hget,getElem_range]
    rfl

lemma updateFirst_eq_modify (f : LocalApic → LocalApic) {i : ℕ}
    (hid : ∀ l, ls[i]? = some l → l.id = v)
    (hne : ∀ j l, j ≠ i → ls[j]? = some l → l.id ≠ v) : updateFirst v f ls = ls.modify i f := by
  induction ls generalizing i with
  | nil => rw [updateFirst,modify_nil]
  | cons l ls ih =>
    rw [updateFirst]
    cases i with
    | zero => rw [if_pos (hid l rfl),modify_zero_cons]
    | succ i =>
      rw [if_neg (hne 0 l (succ_ne_zero i).symm rfl),modify_succ_cons,
        ih (fun l' h => hid l' h) fun j l' hj h => hne (j+1) l' (by omega) h]

lemma Owned.ne_of_index_ne (h : Owned c) {j : ℕ} {l : LocalApic} (hj : j ≠ v.toNat)
    (hl : c.lapics[j]? = some l) : l.id ≠ v := by
  intro hid
  have hlt := (List.getElem?_eq_some_iff.mp hl).1
  have hle := h.length_le
  rw [h.id_eq j l hl] at hid
  refine hj ?_
  rw [← hid,toNat_ofNat,mod_eq_of_lt (by omega)]

lemma Owned.id_of_index (h : Owned c) {l : LocalApic} (hl : c.lapics[v.toNat]? = some l) :
    l.id = v := by
  rw [h.id_eq _ l hl,ofNat_toNat,setWidth_eq]

lemma Owned.lapicMut_eq (h : Owned c) (f : LocalApic → LocalApic) :
    c.lapicMut v f = { c with lapics := c.lapics.modify v.toNat f } := by
  rw [lapicMut,updateFirst_eq_modify f (fun _ => h.id_of_index) fun _ _ => h.ne_of_index_ne]

lemma Owned.lapic_eq (h : Owned c) (v : BitVec 8) : c.lapic v = c.lapics[v.toNat]? := by
  unfold lapic
  rcases hl : c.lapics[v.toNat]? with _ | l
  · rw [find?_eq_none]
    intro l hmem hid
    obtain ⟨j,hj⟩ := mem_iff_getElem?.mp hmem
    refine h.ne_of_index_ne (fun heq => ?_) hj (of_decide_eq_true hid)
    rw [heq,hl] at hj
    cases hj
  · obtain ⟨hlt,hget⟩ := List.getElem?_eq_some_iff.mp hl
    rw [find?_eq_some_iff_getElem]
    refine ⟨decide_eq_true (h.id_of_index hl),v.toNat,hlt,hget,fun j hj => ?_⟩
    have hne := h.ne_of_index_ne (v := v) (Nat.ne_of_lt hj)
      (List.getElem?_eq_getElem (Nat.lt_trans hj hlt))
    rw [decide_eq_false hne]
    rfl

/-! ### Accesses
-/

structure Access where
  vcpu : BitVec 8
  offset : ℕ
  value : BitVec 32

/-- The access does not write an APIC ID other than the number of its vCPU. -/
def Access.KeepsId (a : Access) : Prop :=
  ofOffset a.offset = .id → (a.value >>> 24).setWidth 8 = a.vcpu

def access (c : InterruptController) (a : Access) : InterruptController :=
  (c.setActiveLapic a.vcpu).mmioWrite a.offset a.value

def run (c : InterruptController) (accesses : List Access) : InterruptController :=
  accesses.foldl access c

/-- Accesses reach the local APIC of the vCPU that makes them. -/
structure Isolated (c : InterruptController) : Prop where
  /-- The local APIC that an access finds is the one that was created for the vCPU. -/
  reaches : ∀ v : BitVec 8, v.toNat < c.lapics.length → c.lapic v = c.lapics[v.toNat]?
  /-- A write with no side effect changes that local APIC only. -/
  store : ∀ (v : BitVec 8) (offset : ℕ) (value : BitVec 32), ofOffset offset ≠ .eoi →
    ofOffset offset ≠ .icrLow → c.writeLapic v offset value =
      { c with lapics := c.lapics.modify v.toNat fun l => l.writeRegister offset value }
  /-- A write of the command register sends the interrupt that it describes. -/
  ipi : ∀ (v : BitVec 8) (offset : ℕ) (value : BitVec 32) (l : LocalApic),
    ofOffset offset = .icrLow → c.lapics[v.toNat]? = some l → c.writeLapic v offset value =
        sendIpi { c with lapics := c.lapics.modify v.toNat fun l => l.writeRegister offset value }
          v (l.writeRegister offset value).icr
  /-- An end of interrupt retires the vCPU's own in-service interrupt; a level-triggered line that
  is still asserted is delivered again. -/
  eoi : ∀ (v : BitVec 8) (offset : ℕ) (value : BitVec 32) (l : LocalApic) (vector : ℕ),
    ofOffset offset = .eoi → c.lapics[v.toNat]? = some l →
      l.inServiceVector = some vector → c.writeLapic v offset value =
        (c.ioapic.eoi (ofNat 8 vector)).1.foldl deliverRoute
          { c with lapics := c.lapics.modify v.toNat handleEoi
                   ioapic := (c.ioapic.eoi (ofNat 8 vector)).2 }
  retires : ∀ (v : BitVec 8) (offset : ℕ) (value : BitVec 32) (l : LocalApic),
    ofOffset offset = .eoi → c.lapics[v.toNat]? = some l →
      (c.writeLapic v offset value).lapics[v.toNat]?.map isr = some l.handleEoi.isr
  /-- Another local APIC changes only by interrupts delivered to it. -/
  others : ∀ (v : BitVec 8) (offset : ℕ) (value : BitVec 32) (w : ℕ), w ≠ v.toNat →
    Option.Rel Delivered c.lapics[w]? (c.writeLapic v offset value).lapics[w]?
  /-- A register that stores what is written reads back, also after accesses of other vCPUs. -/
  readBack : ∀ (a : Access) (later : List Access) (l : LocalApic) (x : BitVec 32),
    c.lapics[a.vcpu.toNat]? = some l → l.stored a.value (.ofOffset a.offset) = some x →
      a.KeepsId → (∀ b ∈ later, b.vcpu ≠ a.vcpu ∧ b.KeepsId) →
        ((c.run (a :: later)).setActiveLapic a.vcpu).mmioRead a.offset = x

section
variable (h : Owned c)
include h

lemma Owned.writeLapic_store (heoi : ofOffset offset ≠ .eoi)
    (hicr : ofOffset offset ≠ .icrLow) : c.writeLapic v offset value =
      { c with lapics := c.lapics.modify v.toNat fun l => l.writeRegister offset value } := by
  rw [writeLapic,if_neg heoi,h.lapic_eq]
  rcases hl : c.lapics[v.toNat]? with _ | l
  · rw [modify_eq_self]
    exact List.getElem?_eq_none_iff.mp hl
  · simp only [if_neg hicr,h.lapicMut_eq]

variable {l : LocalApic}

lemma Owned.writeLapic_ipi (hicr : ofOffset offset = .icrLow) (hl : c.lapics[v.toNat]? = some l) :
    c.writeLapic v offset value =
      sendIpi { c with lapics := c.lapics.modify v.toNat fun l => l.writeRegister offset value }
        v (l.writeRegister offset value).icr := by
  have hid : (l.writeRegister offset value).id = v := by
    rw [← h.id_of_index hl,writeRegister,hicr,writeReg]
  rw [writeLapic,if_neg (by rw [hicr]; decide),h.lapic_eq,hl]
  simp only [if_pos hicr,h.lapicMut_eq,hid]

lemma Owned.writeLapic_eoi {vector : ℕ}
    (heoi : ofOffset offset = .eoi) (hl : c.lapics[v.toNat]? = some l)
    (hs : l.inServiceVector = some vector) : c.writeLapic v offset value =
      (c.ioapic.eoi (ofNat 8 vector)).1.foldl deliverRoute
        { c with lapics := c.lapics.modify v.toNat handleEoi
                 ioapic := (c.ioapic.eoi (ofNat 8 vector)).2 } := by
  rw [writeLapic,if_pos heoi,h.lapic_eq,hl,bind_some,hs]
  simp only [eoi,h.lapicMut_eq]

lemma Owned.writeLapic_eoi_idle (heoi : ofOffset offset = .eoi)
    (hs : c.lapics[v.toNat]?.bind inServiceVector = none) : c.writeLapic v offset value = c := by
  rw [writeLapic,if_pos heoi,h.lapic_eq,hs]

omit h in
lemma modify_handleEoi_idle {i : ℕ} (hs : ls[i]?.bind inServiceVector = none) :
    ls.modify i handleEoi = ls := by
  refine ext_getElem? fun j => ?_
  rw [getElem?_modify]
  split_ifs with hij
  · subst hij
    rcases hl : ls[i]? with _ | l
    · rfl
    · rw [hl,bind_some] at hs
      simp only [Option.map_eq_map,map_some,handleEoi,hs]
  · rw [Option.map_eq_map,Option.map_id']

lemma Owned.writeLapic_spec (v : BitVec 8) (offset : ℕ) (value : BitVec 32) :
    DeliveredAll (c.lapics.modify v.toNat fun l => l.writeRegister offset value)
      (c.writeLapic v offset value).lapics := by
  by_cases heoi : ofOffset offset = .eoi
  · have hwrite : (fun l : LocalApic => l.writeRegister offset value) = handleEoi := by
      funext l
      rw [writeRegister,heoi,writeReg]
    rw [hwrite]
    rcases hs : c.lapics[v.toNat]?.bind inServiceVector with _ | vector
    · rw [h.writeLapic_eoi_idle heoi hs,modify_handleEoi_idle hs]
      exact .refl _
    · obtain ⟨l,hl,hv⟩ := bind_eq_some_iff.mp hs
      rw [h.writeLapic_eoi heoi hl hv]
      exact deliveredAll_deliverRoutes _
        { c with lapics := c.lapics.modify v.toNat handleEoi
                 ioapic := (c.ioapic.eoi (ofNat 8 vector)).2 }
  · by_cases hicr : ofOffset offset = .icrLow
    · rcases hl : c.lapics[v.toNat]? with _ | l
      · rw [modify_eq_self (List.getElem?_eq_none_iff.mp hl),writeLapic,if_neg heoi,h.lapic_eq,hl]
        exact .refl _
      · rw [h.writeLapic_ipi hicr hl]
        exact deliveredAll_sendIpi
          { c with lapics := c.lapics.modify v.toNat fun l => l.writeRegister offset value } _ _
    · rw [h.writeLapic_store heoi hicr]
      exact .refl _

lemma Owned.length_writeLapic :
    (c.writeLapic v offset value).lapics.length = c.lapics.length := by
  rw [(h.writeLapic_spec v offset value).length_eq,length_modify]

lemma Owned.writeLapic_other (offset : ℕ) (value : BitVec 32) {w : ℕ} (hw : w ≠ v.toNat) :
    Option.Rel Delivered c.lapics[w]? (c.writeLapic v offset value).lapics[w]? := by
  have hspec := h.writeLapic_spec v offset value w
  rwa [getElem?_modify_ne _ _ hw.symm] at hspec

lemma Owned.writeLapic_own (offset : ℕ) (value : BitVec 32) (hl : c.lapics[v.toNat]? = some l) :
    ∃ l', (c.writeLapic v offset value).lapics[v.toNat]? = some l' ∧
      Delivered (l.writeRegister offset value) l' := by
  have hspec := h.writeLapic_spec v offset value v.toNat
  rw [getElem?_modify_eq,hl] at hspec
  rcases hl' : (c.writeLapic v offset value).lapics[v.toNat]? with _ | l'
  · rw [hl'] at hspec
    cases hspec
  · rw [hl'] at hspec
    cases hspec with
    | some hd => exact ⟨l',rfl,hd⟩

omit h in
lemma writeRegister_id (l : LocalApic) : (l.writeRegister offset value).id =
    if LapicReg.ofOffset offset = .id then (value >>> 24).setWidth 8 else l.id := by
  unfold writeRegister
  cases LapicReg.ofOffset offset with
  | selfIpi => exact (Delivered.accept l _).id_eq
  | timerInit =>
    rw [writeReg,if_neg (show LapicReg.timerInit ≠ .id by decide)]
    split_ifs <;> rfl
  | eoi =>
    rw [writeReg,handleEoi]
    split <;> rfl
  | _ => rfl

variable {a : Access}

lemma Owned.writeLapic (ha : a.KeepsId) : Owned (c.writeLapic a.vcpu a.offset a.value) where
  length_le := by
    rw [h.length_writeLapic]
    exact h.length_le
  id_eq i l' hl' := by
    have hspec := h.writeLapic_spec a.vcpu a.offset a.value i
    rw [hl'] at hspec
    rcases hl : c.lapics[i]? with _ | l
    · rw [getElem?_modify,hl] at hspec
      cases hspec
    · rw [getElem?_modify,hl] at hspec
      cases hspec with
      | some hd =>
        rw [hd.id_eq,← h.id_eq i l hl]
        split_ifs with hi
        · subst hi
          rw [writeRegister_id]
          split_ifs with hreg
          · rw [ha hreg,h.id_of_index hl]
          · rfl
        · rfl

lemma Owned.setActiveLapic (v : BitVec 8) : Owned (c.setActiveLapic v) :=
  ⟨h.length_le,h.id_eq⟩

lemma Owned.access (ha : a.KeepsId) : Owned (c.access a) :=
  (h.setActiveLapic a.vcpu).writeLapic ha

variable {accesses : List Access}

lemma Owned.run (hkeep : ∀ a ∈ accesses, a.KeepsId) :
    Owned (c.run accesses) := by
  induction accesses generalizing c with
  | nil => exact h
  | cons a accesses ih =>
    exact ih (h.access (hkeep a mem_cons_self)) fun b hb =>
      hkeep b (mem_cons_of_mem a hb)

lemma Owned.run_other
    (hl : c.lapics[v.toNat]? = some l) (hb : ∀ b ∈ accesses, b.vcpu ≠ v ∧ b.KeepsId) :
    ∃ l', (c.run accesses).lapics[v.toNat]? = some l' ∧ Delivered l l' := by
  induction accesses generalizing c l with
  | nil => exact ⟨l,hl,.refl l⟩
  | cons b accesses ih =>
    obtain ⟨hne,hkeep⟩ := hb b mem_cons_self
    have hspec := (h.setActiveLapic b.vcpu).writeLapic_other b.offset b.value
      (fun heq : v.toNat = b.vcpu.toNat => hne (eq_of_toNat_eq heq).symm)
    replace hspec : Option.Rel Delivered (some l) (c.access b).lapics[v.toNat]? := hl ▸ hspec
    generalize hl' : (c.access b).lapics[v.toNat]? = o at hspec
    cases hspec with
    | some hd =>
      obtain ⟨l'',hl'',hd'⟩ := ih (h.access hkeep) hl' fun b' hb' =>
        hb b' (mem_cons_of_mem b hb')
      exact ⟨l'',hl'',hd.trans hd'⟩

lemma Owned.isolated : Isolated c where
  reaches v _ := h.lapic_eq v
  store _ _ _ := h.writeLapic_store
  ipi _ _ _ _ := h.writeLapic_ipi
  eoi _ _ _ _ _ := h.writeLapic_eoi
  retires v offset value l heoi hl := by
    obtain ⟨l',hl',hd⟩ := h.writeLapic_own offset value hl
    rw [hl',map_some,hd.isr_eq,writeRegister,heoi,writeReg]
  others _ offset value _ := h.writeLapic_other offset value
  readBack a later l x hl hx hkeep hb := by
    obtain ⟨l₁,hl₁,hd₁⟩ := (h.setActiveLapic a.vcpu).writeLapic_own a.offset a.value hl
    have h₁ : Owned (c.access a) := h.access hkeep
    obtain ⟨l₂,hl₂,hd₂⟩ := h₁.run_other hl₁ hb
    have h₂ : Owned ((c.run (a :: later)).setActiveLapic a.vcpu) :=
      (h₁.run fun b hb' => (hb b hb').2).setActiveLapic a.vcpu
    have hfind : ((c.run (a :: later)).setActiveLapic a.vcpu).lapic a.vcpu = some l₂ :=
      (h₂.lapic_eq a.vcpu).trans hl₂
    have hread : ((c.run (a :: later)).setActiveLapic a.vcpu).mmioRead a.offset =
        l₂.readReg (.ofOffset a.offset) := by
      rw [mmioRead,readLapic]
      exact congrArg (Option.elim · 0 fun l => l.readRegister a.offset) hfind
    rw [hread,readReg_delivered hx (hd₁.trans hd₂)]
    exact readReg_writeReg hx

omit h in
lemma Isolated.owned (h : Isolated c) (hlen : c.lapics.length ≤ 256) : Owned c where
  length_le := hlen
  id_eq i l hl := by
    obtain ⟨hlt,-⟩ := List.getElem?_eq_some_iff.mp hl
    have hi : (BitVec.ofNat 8 i).toNat = i := by
      rw [toNat_ofNat,mod_eq_of_lt (by omega)]
    have hfind := h.reaches (BitVec.ofNat 8 i) (by rwa [hi])
    rw [hi,hl] at hfind
    have hid := find?_some (show c.lapics.find? _ = some l from hfind)
    exact of_decide_eq_true hid

lemma Owned.keepsId (ha : a.vcpu.toNat < c.lapics.length)
    (h' : Owned (c.access a)) : a.KeepsId := by
  intro hreg
  obtain ⟨l',hl',hd⟩ := (h.setActiveLapic a.vcpu).writeLapic_own a.offset a.value
    (List.getElem?_eq_getElem ha)
  rw [← h'.id_of_index hl',hd.id_eq,writeRegister_id,if_pos hreg]

end

/-- In a run from a controller whose local APICs have their own IDs, every state is isolated if
and only if no access writes an APIC ID other than the number of its vCPU. -/
theorem run_isolated_iff (c : InterruptController) (h : Owned c) (accesses : List Access)
    (hv : ∀ a ∈ accesses, a.vcpu.toNat < c.lapics.length) :
    (∀ k, Isolated (c.run (accesses.take k))) ↔ ∀ a ∈ accesses, a.KeepsId := by
  constructor
  · intro hiso
    induction accesses generalizing c with
    | nil => exact fun a ha => absurd ha not_mem_nil
    | cons a accesses ih =>
      -- The state after the first access is isolated, so its IDs are right.
      have hlen : (c.access a).lapics.length = c.lapics.length :=
        (h.setActiveLapic a.vcpu).length_writeLapic
      have hfirst : Owned (c.access a) := (hiso 1).owned (hlen ▸ h.length_le)
      intro b hb
      rcases mem_cons.mp hb with rfl | hb
      · exact h.keepsId (hv b mem_cons_self) hfirst
      · exact ih _ hfirst (fun b hb => hlen ▸ hv b (mem_cons_of_mem a hb))
          (fun k => hiso (k+1)) b hb
  · intro hkeep k
    exact (h.run fun a ha => hkeep a (mem_of_mem_take ha)).isolated

/-- Two vCPUs that write their task priorities. -/
theorem run_isolated_two :
    let accesses : List Access := [⟨0,0x080,0x20⟩,⟨1,0x080,0x30⟩]
    ∀ k, Isolated ((new 2).run (accesses.take k)) := by
  intro accesses
  refine (run_isolated_iff (new 2) (owned_new 2 (by decide)) accesses (by decide)).mpr ?_
  intro a ha hreg
  exact absurd hreg (by revert a; decide)

/-- After vCPU 0 wrote the ID 1, the task priority that vCPU 1 writes goes to the local APIC of
vCPU 0, and vCPU 0 reaches none. -/
theorem run_foreignId :
    let c := (new 2).run [⟨0,0x020,0x01000000⟩]
    (c.writeLapic 1 0x080 0x20).lapics.map LocalApic.tpr = [0x20,0] ∧
      c.lapic 0 = none ∧ ¬Isolated c := by
  intro c
  have hnone : c.lapic 0 = none := by decide +kernel
  refine ⟨by decide +kernel,hnone,fun h => ?_⟩
  have hreach := h.reaches 0 (by decide +kernel)
  rw [hnone] at hreach
  exact absurd hreach (by decide +kernel)

end InterruptController
end Enlil.Devices
