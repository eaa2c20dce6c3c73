import Enlil.Devices.Interrupt.Defs
import Enlil.Lib.Runs

/-! # Level-triggered interrupts of the I/O APIC -/

namespace Enlil.Devices.IoApic
open Function

inductive Event where
  | setIrq (irq : ℕ)
  | clearIrq (irq : ℕ)
  | mmioWrite (offset : ℕ) (value : BitVec 32)
  | eoi (vector : BitVec 8)

def Armed (e : RedirectionEntry) : Prop := e.masked = false ∧ e.levelTriggered = true

structure Wired where
  ioapic : IoApic
  line : ℕ → Bool

namespace Wired

def start (id : BitVec 8) : Wired := ⟨.new id,fun _ => false⟩

section
variable (t : Wired)

def step : Event → Wired
  | .setIrq irq => ⟨(t.ioapic.setIrq irq).2,update t.line irq true⟩
  | .clearIrq irq => ⟨t.ioapic.clearIrq irq,update t.line irq false⟩
  | .mmioWrite offset value => ⟨t.ioapic.mmioWrite offset value,t.line⟩
  | .eoi vector => ⟨(t.ioapic.eoi vector).2,t.line⟩

def run (events : List Event) : Wired := events.foldl step t

/-- Every pin whose line is asserted and whose entry is unmasked and level-triggered has Remote
IRR set. -/
def Served : Prop :=
  ∀ pin < numPins, t.line pin = true → Armed (t.ioapic.entries pin) →
    (t.ioapic.entries pin).remoteIrr = true

def Recorded : Prop :=
  ∀ pin < numPins, t.ioapic.irqLevel pin = true → t.line pin = true

/-- The event leaves no pin unserved: a write of an entry whose line is asserted with Remote IRR
clear leaves the pin masked or edge-triggered, and a retired, unmasked pin has its line recorded. -/
def Keeps : Event → Prop
  | .mmioWrite offset value => ∀ pin < numPins, offset = 0x10 →
      t.ioapic.regSelect.toNat = 0x10+2*pin → t.line pin = true →
      (t.ioapic.entries pin).remoteIrr = false → value.getLsbD 16 = true ∨ value.getLsbD 15 = false
  | .eoi vector => ∀ pin < numPins, retires (t.ioapic.entries pin) vector = true →
      t.line pin = true → (t.ioapic.entries pin).masked = false → t.ioapic.irqLevel pin = true
  | .setIrq _ | .clearIrq _ => True

end
variable {t : Wired} {irq pin : ℕ} {offset : ℕ} {value : BitVec 32} {vector : BitVec 8}

lemma served_setIrq (h : Served t) (hrec : Recorded t) (irq : ℕ) :
    Served (t.step (.setIrq irq)) := by
  intro pin hpin hline harmed
  by_cases hirq : pin = irq
  · subst hirq
    simp only [step,setIrq,if_neg (Nat.not_le.mpr hpin)] at harmed ⊢
    by_cases hmasked : (t.ioapic.entries pin).masked = true
    · rw [if_pos hmasked] at harmed
      rw [harmed.1] at hmasked
      cases hmasked
    · rw [if_neg hmasked] at harmed ⊢
      split_ifs at harmed ⊢ with hlevel hlvl
      -- A line that is recorded was asserted before.
      · exact h pin hpin (hrec pin hpin hlvl) harmed
      · simp only [update_self]
      · exact absurd harmed.2 hlevel
  · have hentry : ((t.step (.setIrq irq)).ioapic.entries pin) = t.ioapic.entries pin := by
      simp only [step,setIrq]
      split_ifs <;> simp only [update_of_ne hirq]
    rw [hentry] at harmed ⊢
    simp only [step,update_of_ne hirq] at hline
    exact h pin hpin hline harmed

lemma served_clearIrq (h : Served t) (irq : ℕ) : Served (t.step (.clearIrq irq)) := by
  intro pin hpin hline harmed
  have hentry : ((t.step (.clearIrq irq)).ioapic.entries pin) = t.ioapic.entries pin := by
    simp only [step,clearIrq]
    split_ifs <;> rfl
  by_cases hirq : pin = irq
  · subst hirq
    simp only [step,update_self,Bool.false_eq_true] at hline
  · rw [hentry] at harmed ⊢
    simp only [step,update_of_ne hirq] at hline
    exact h pin hpin hline harmed

lemma entries_writeRegister (io : IoApic) (reg : BitVec 8) (hpin : pin < numPins) :
    (io.writeRegister reg value).entries pin =
      if reg.toNat = 0x10+2*pin then (io.entries pin).setLow value
      else if reg.toNat = 0x11+2*pin then (io.entries pin).setHigh value
      else io.entries pin := by
  unfold writeRegister
  by_cases hid : reg = 0
  · have hzero : reg.toNat = 0 := by rw [hid]; rfl
    rw [if_pos hid,if_neg (by omega),if_neg (by omega)]
  rw [if_neg hid]
  by_cases htable : 0x10 ≤ reg.toNat
  · rw [if_pos htable]
    dsimp only
    by_cases hother : pin = (reg.toNat-0x10)/2
    · rw [if_neg (by omega)]
      -- The register addresses the low half of the entry if its index is even.
      by_cases heven : (reg.toNat-0x10)%2 = 0
      · simp only [← hother,if_pos heven,update_self]
        rw [if_pos (by omega)]
      · simp only [← hother,if_neg heven,update_self]
        rw [if_neg (by omega),if_pos (by omega)]
    · rw [if_neg (show ¬reg.toNat = 0x10+2*pin by omega),
        if_neg (show ¬reg.toNat = 0x11+2*pin by omega)]
      split_ifs <;> simp only [update_of_ne hother]
  · rw [if_neg htable,if_neg (by omega),if_neg (by omega)]

lemma entries_mmioWrite (io : IoApic) (hpin : pin < numPins) :
    (io.mmioWrite offset value).entries pin =
      if offset = 0x10 ∧ io.regSelect.toNat = 0x10+2*pin then (io.entries pin).setLow value
      else if offset = 0x10 ∧ io.regSelect.toNat = 0x11+2*pin then
        (io.entries pin).setHigh value
      else io.entries pin := by
  unfold mmioWrite
  by_cases hsel : offset = 0
  · rw [if_pos hsel,if_neg (by omega),if_neg (by omega)]
  by_cases hwin : offset = 0x10
  · rw [if_neg hsel,if_pos hwin,entries_writeRegister io io.regSelect hpin]
    simp only [hwin,true_and]
  · rw [if_neg hsel,if_neg hwin,if_neg (by omega),if_neg (by omega)]

lemma irqLevel_mmioWrite (io : IoApic) : (io.mmioWrite offset value).irqLevel = io.irqLevel := by
  unfold mmioWrite writeRegister
  dsimp only
  split_ifs <;> rfl

lemma served_mmioWrite_iff (h : Served t) :
    Served (t.step (.mmioWrite offset value)) ↔ Keeps t (.mmioWrite offset value) := by
  constructor
  · intro h' pin hpin hwin hreg hline hclear
    have hentry : (t.step (.mmioWrite offset value)).ioapic.entries pin =
        (t.ioapic.entries pin).setLow value := by
      rw [step,entries_mmioWrite _ hpin,if_pos ⟨hwin,hreg⟩]
    have hserved := h' pin hpin hline
    rw [hentry] at hserved
    by_contra hopen
    rw [not_or,Bool.not_eq_true,Bool.not_eq_false] at hopen
    exact absurd (hclear.symm.trans (hserved ⟨hopen.1,hopen.2⟩)) (by decide)
  · intro hkeep pin hpin hline harmed
    rw [step,entries_mmioWrite _ hpin] at harmed ⊢
    split_ifs at harmed ⊢ with hlow hhigh
    · by_contra hclear
      rcases hkeep pin hpin hlow.1 hlow.2 hline (Bool.not_eq_true _ ▸ hclear) with hm | hl
      · exact absurd (hm.symm.trans harmed.1) (by decide)
      · exact absurd (hl.symm.trans harmed.2) (by decide)
    · exact h pin hpin hline harmed
    · exact h pin hpin hline harmed

lemma served_eoi_iff (h : Served t) :
    Served (t.step (.eoi vector)) ↔ Keeps t (.eoi vector) := by
  constructor
  · intro h' pin hpin hret hline hopen
    have hserved := h' pin hpin hline
    simp only [step,IoApic.eoi,hpin,hret,and_self,if_true] at hserved
    have hlevel : (t.ioapic.entries pin).levelTriggered = true := by
      rw [retires,Bool.and_eq_true,Bool.and_eq_true] at hret
      exact hret.1.1
    have hagain := hserved ⟨hopen,hlevel⟩
    rw [Bool.and_eq_true,Bool.and_eq_true] at hagain
    exact hagain.1.2
  · intro hkeep pin hpin hline harmed
    simp only [step,IoApic.eoi] at harmed ⊢
    split_ifs at harmed ⊢ with hret
    · have hopen : (t.ioapic.entries pin).masked = false := harmed.1
      simp only [hret.2,hkeep pin hpin hret.2 hline hopen,hopen,Bool.not_false,Bool.and_self]
    · exact h pin hpin hline harmed

lemma served_step_iff (h : Served t) (hrec : Recorded t) (e : Event) :
    Served (t.step e) ↔ Keeps t e := by
  cases e with
  | setIrq irq => exact iff_of_true (served_setIrq h hrec irq) trivial
  | clearIrq irq => exact iff_of_true (served_clearIrq h irq) trivial
  | mmioWrite offset value => exact served_mmioWrite_iff h
  | eoi vector => exact served_eoi_iff h

lemma recorded_start (id : BitVec 8) : Recorded (start id) := fun _ _ h => h

lemma Recorded.step (h : Recorded t) (e : Event) : Recorded (t.step e) := by
  intro pin hpin hlvl
  cases e with
  | setIrq irq =>
    by_cases hirq : pin = irq
    · simp only [Wired.step,hirq,update_self]
    · simp only [Wired.step,update_of_ne hirq,setIrq] at hlvl ⊢
      refine h pin hpin ?_
      split_ifs at hlvl <;> simpa only [update_of_ne hirq] using hlvl
  | clearIrq irq =>
    by_cases hirq : pin = irq
    · subst hirq
      simp only [Wired.step,clearIrq,if_pos hpin,update_self,Bool.false_eq_true] at hlvl
    · simp only [Wired.step,update_of_ne hirq,clearIrq] at hlvl ⊢
      refine h pin hpin ?_
      split_ifs at hlvl <;> simpa only [update_of_ne hirq] using hlvl
  | mmioWrite offset value =>
    simp only [Wired.step,irqLevel_mmioWrite] at hlvl
    exact h pin hpin hlvl
  | eoi vector => exact h pin hpin hlvl

/-- Every state of a run is served if and only if every event of it leaves no pin unserved. -/
theorem run_served_iff (id : BitVec 8) (events : List Event) :
    (∀ k, Served ((start id).run (events.take k))) ↔
      ∀ k e, events[k]? = some e → Keeps ((start id).run (events.take k)) e := by
  have hstart : Served (start id) := fun _ _ hline => absurd hline Bool.false_ne_true
  exact Runs.forall_take_iff (I := fun t => Served t ∧ Recorded t) (fun _ => And.left)
    (fun t e hI hkeep => ⟨(served_step_iff hI.1 hI.2 e).mpr hkeep,hI.2.step e⟩)
    (fun t e hI hserved => (served_step_iff hI.1 hI.2 e).mp hserved)
    ⟨hstart,recorded_start id⟩ events

/-- A device asserts pin 16 while it is masked and level-triggered. When the guest unmasks it,
nothing is delivered. -/
theorem run_unmask_unserved :
    let t := (start 0).run [.mmioWrite 0x00 0x30,.mmioWrite 0x10 0x18041,.setIrq 16,
      .mmioWrite 0x10 0x08041]
    t.line 16 = true ∧ Armed (t.ioapic.entries 16) ∧ (t.ioapic.entries 16).remoteIrr = false ∧
      ¬Served t := by
  intro t
  have hline : t.line 16 = true := by decide +kernel
  have harmed : Armed (t.ioapic.entries 16) := ⟨by decide +kernel,by decide +kernel⟩
  have hclear : (t.ioapic.entries 16).remoteIrr = false := by decide +kernel
  refine ⟨hline,harmed,hclear,fun h => ?_⟩
  exact absurd (hclear.symm.trans (h 16 (by decide) hline harmed)) (by decide)

end Wired

/-- An I/O APIC and the messages that a level-triggered pin has sent since its Remote IRR was last
retired. -/
structure Counted where
  ioapic : IoApic
  sent : ℕ

namespace Counted
variable {pin : ℕ} {t : Counted}
section
variable (pin : ℕ) (t : Counted)

def step : Event → Counted
  | .setIrq irq =>
    let (route,ioapic) := t.ioapic.setIrq irq
    ⟨ioapic,if irq = pin ∧ route.any (·.levelTriggered) then t.sent+1 else t.sent⟩
  | .clearIrq irq => ⟨t.ioapic.clearIrq irq,t.sent⟩
  | .mmioWrite offset value =>
    let ioapic := t.ioapic.mmioWrite offset value
    ⟨ioapic,if (ioapic.entries pin).levelTriggered then t.sent else 0⟩
  | .eoi vector =>
    let ioapic := (t.ioapic.eoi vector).2
    ⟨ioapic,if retires (t.ioapic.entries pin) vector then
      -- The entry is armed again just when it sends again.
      if (ioapic.entries pin).remoteIrr then 1 else 0
    else t.sent⟩

def run (events : List Event) : Counted := events.foldl (step pin) t

/-- A line that is asserted anew finds the Remote IRR of its pin clear. -/
def Gated (e : Event) : Prop :=
  e = .setIrq pin → Armed (t.ioapic.entries pin) → t.ioapic.irqLevel pin = false →
    (t.ioapic.entries pin).remoteIrr = false

end

/-- A message that was sent and not retired shows in the Remote IRR. -/
structure Owed (pin : ℕ) (t : Counted) : Prop where
  le_one : t.sent ≤ 1
  remoteIrr : t.sent = 1 → (t.ioapic.entries pin).levelTriggered = true ∧
    (t.ioapic.entries pin).remoteIrr = true

lemma owed_setIrq (hpin : pin < numPins) (h : Owed pin t) (irq : ℕ)
    (hgate : Gated pin t (.setIrq irq)) : Owed pin (t.step pin (.setIrq irq)) := by
  by_cases hirq : irq = pin
  · subst hirq
    by_cases hmasked : (t.ioapic.entries irq).masked = true
    · simpa [step,setIrq,Nat.not_le.mpr hpin,hmasked] using h
    rw [Bool.not_eq_true] at hmasked
    by_cases hlevel : (t.ioapic.entries irq).levelTriggered = true
    · by_cases hline : t.ioapic.irqLevel irq = true
      · simpa [step,setIrq,Nat.not_le.mpr hpin,hmasked,hlevel,hline] using h
      -- Nothing is owed before, since the Remote IRR is clear.
      have hclear := hgate rfl ⟨hmasked,hlevel⟩ (Bool.not_eq_true _ ▸ hline)
      have hsent : t.sent = 0 := by
        have hle := h.le_one
        have hne : t.sent ≠ 1 := fun hone => by
          rw [(h.remoteIrr hone).2] at hclear
          cases hclear
        omega
      refine ⟨?_,fun _ => ?_⟩
      · simp [step,setIrq,routeOf,Nat.not_le.mpr hpin,hmasked,hlevel,hline,hsent]
      · simp [step,setIrq,Nat.not_le.mpr hpin,hmasked,hlevel,hline]
    · simpa [step,setIrq,routeOf,Nat.not_le.mpr hpin,hmasked,hlevel] using h
  · have hentry : (t.ioapic.setIrq irq).2.entries pin = t.ioapic.entries pin := by
      unfold setIrq
      dsimp only
      split_ifs <;> simp [update_of_ne (Ne.symm hirq)]
    refine ⟨?_,?_⟩
    · simpa [step,hirq] using h.le_one
    · simpa [step,hirq,hentry] using h.remoteIrr

lemma owed_mmioWrite (hpin : pin < numPins) (h : Owed pin t) (offset : ℕ) (value : BitVec 32) :
    Owed pin (t.step pin (.mmioWrite offset value)) := by
  have hirr : ((t.ioapic.mmioWrite offset value).entries pin).remoteIrr =
      (t.ioapic.entries pin).remoteIrr := by
    rw [Wired.entries_mmioWrite _ hpin]
    split_ifs <;> rfl
  by_cases hlevel : ((t.ioapic.mmioWrite offset value).entries pin).levelTriggered = true
  · refine ⟨?_,fun hsent => ?_⟩
    · simpa [step,hlevel] using h.le_one
    · simp only [step,hlevel,if_true] at hsent
      exact ⟨hlevel,hirr.trans (h.remoteIrr hsent).2⟩
  · refine ⟨?_,fun hsent => ?_⟩
    · simp [step,hlevel]
    · simp [step,hlevel] at hsent

lemma owed_eoi (h : Owed pin t) (vector : BitVec 8) :
    Owed pin (t.step pin (.eoi vector)) := by
  by_cases hret : retires (t.ioapic.entries pin) vector = true
  · have hlevel : ((t.ioapic.eoi vector).2.entries pin).levelTriggered = true := by
      rw [retires,Bool.and_eq_true,Bool.and_eq_true] at hret
      simp only [IoApic.eoi]
      split_ifs <;> exact hret.1.1
    refine ⟨?_,fun hsent => ⟨hlevel,?_⟩⟩
    · simp only [step,if_pos hret]
      split_ifs <;> decide
    · simp only [step,if_pos hret] at hsent ⊢
      by_contra hclear
      rw [if_neg hclear] at hsent
      cases hsent
  · have hentry : (t.ioapic.eoi vector).2.entries pin = t.ioapic.entries pin :=
      if_neg fun hc => hret hc.2
    refine ⟨?_,?_⟩
    · simpa only [step,if_neg hret] using h.le_one
    · simpa only [step,if_neg hret,hentry] using h.remoteIrr

lemma owed_step (hpin : pin < numPins) (h : Owed pin t) (e : Event) (hgate : Gated pin t e) :
    Owed pin (t.step pin e) := by
  cases e with
  | setIrq irq => exact owed_setIrq hpin h irq hgate
  | clearIrq irq =>
    have hentries : (t.ioapic.clearIrq irq).entries = t.ioapic.entries := by
      unfold clearIrq
      split_ifs <;> rfl
    exact ⟨h.le_one,by simpa only [step,hentries] using h.remoteIrr⟩
  | mmioWrite offset value => exact owed_mmioWrite hpin h offset value
  | eoi vector => exact owed_eoi h vector

/-- A pin whose line is asserted anew only after its Remote IRR was retired sends at most one
message between two retirements. -/
theorem run_sent_le_one (io : IoApic) (hpin : pin < numPins) (events : List Event)
    (hgate : ∀ k e, events[k]? = some e → Gated pin (run pin ⟨io,0⟩ (events.take k)) e) (k : ℕ) :
    (run pin ⟨io,0⟩ (events.take k)).sent ≤ 1 :=
  (Runs.forall_take (I := Owed pin) (fun _ e h hg => owed_step hpin h e hg)
    ⟨Nat.zero_le 1,fun h => absurd h Nat.zero_ne_one⟩ hgate k).le_one

theorem run_sent_le_one_retired :
    (run 3 ⟨.new 0,0⟩ ([.mmioWrite 0x00 0x16,.mmioWrite 0x10 0x8041,.setIrq 3,.clearIrq 3,
      .eoi 0x41,.setIrq 3].take 6)).sent ≤ 1 := by
  refine run_sent_le_one (.new 0) (by decide) _ (fun k e he => ?_) 6
  rcases k with _ | _ | _ | _ | _ | _ | k <;> cases he <;> intro h <;> cases h
  all_goals
    intro _ _
    decide +kernel

/-- The line of pin 3 drops and rises again before the end of interrupt. -/
theorem run_sent_reasserted :
    (run 3 ⟨.new 0,0⟩ [.mmioWrite 0x00 0x16,.mmioWrite 0x10 0x8041,.setIrq 3,.clearIrq 3,
      .setIrq 3]).sent = 2 := by
  decide +kernel

end Counted
end Enlil.Devices.IoApic
