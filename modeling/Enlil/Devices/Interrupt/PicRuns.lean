import Enlil.Devices.Interrupt.Pic
import Enlil.Lib.Runs

/-! # Runs of the 8259A -/

namespace Enlil.Devices
open BitReg
namespace Pic8259
variable {p : Pic8259} {i j : ℕ}

inductive Op where
  | setLine (irq : ℕ) (level : Bool)
  | setElcr (val writable : BitVec 8)
  | acknowledge
  | writeCommand (val : BitVec 8)
  | writeData (val : BitVec 8)
  | readCommand

def step (p : Pic8259) : Op → Pic8259
  | .setLine irq level => p.setLine irq level
  | .setElcr val writable => p.setElcr val writable
  | .acknowledge => p.acknowledge.2
  | .writeCommand val => p.writeCommand val
  | .writeData val => p.writeData val
  | .readCommand => p.readCommand.2

def run (p : Pic8259) (ops : List Op) : Pic8259 := ops.foldl step p

def Synced (p : Pic8259) : Prop :=
  ∀ i, p.elcr.getLsbD i = true → p.irr.getLsbD i = p.lineLevel.getLsbD i

/-- An input that becomes level-triggered has the request that its line asks for. -/
def Reconciled (p : Pic8259) : Op → Prop
  | .setElcr val writable => ∀ i, (val &&& writable).getLsbD i = true →
      p.elcr.getLsbD i = false → p.irr.getLsbD i = p.lineLevel.getLsbD i
  | _ => True

section
variable (h : Synced p)
include h

lemma Synced.of_eq {q : Pic8259} (helcr : q.elcr = p.elcr) (hirr : q.irr = p.irr)
    (hline : q.lineLevel = p.lineLevel) : Synced q := by
  rw [Synced,helcr,hirr,hline]
  exact h

lemma synced_setLine (irq : ℕ) (level : Bool) : Synced (p.setLine irq level) := by
  by_cases hrange : 8 ≤ irq
  · rw [setLine,if_pos hrange]
    exact h
  have hirq : irq < 8 := Nat.not_le.mp hrange
  rw [setLine,if_neg hrange]
  intro i hi
  dsimp only at hi ⊢
  have hsync := h i hi
  cases level with
  | true =>
    simp only [if_true,getLsbD_or_twoPow _ _ hirq,hsync]
  | false =>
    simp only [Bool.false_eq_true,if_false,and_twoPow_ne_zero _ hirq]
    by_cases heq : irq = i
    · subst heq
      rw [if_pos hi,getLsbD_clear_twoPow _ _ hirq,getLsbD_clear_twoPow _ _ hirq,hsync]
    · split_ifs
      · rw [getLsbD_clear_twoPow _ _ hirq,getLsbD_clear_twoPow _ _ hirq,hsync]
      · rw [getLsbD_clear_twoPow _ _ hirq,hsync,decide_eq_true heq,Bool.and_true]

lemma synced_service (hi : i < 8) : Synced (p.service i) := by
  intro j hj
  by_cases heq : j = i
  · subst heq
    have hlevel : p.elcr.getLsbD j = true := hj
    show (p.service j).irr.getLsbD j = p.lineLevel.getLsbD j
    simp only [service,and_twoPow_ne_zero _ hi,hlevel,true_and]
    cases hline : p.lineLevel.getLsbD j with
    | true => simp [getLsbD_or_twoPow _ _ hi]
    | false => simp [getLsbD_clear_twoPow _ _ hi]
  · rw [irr_service hi heq]
    exact h j hj

lemma synced_acknowledge : Synced p.acknowledge.2 := by
  unfold acknowledge
  cases hres : p.resolve p.irr with
  | none => exact h
  | some i => exact synced_service h (resolve_eq_some.mp hres).1.2.1

lemma synced_writeCommand (val : BitVec 8) : Synced (p.writeCommand val) := by
  unfold writeCommand writeOcw2 clearHighestInService
  split_ifs <;> exact h.of_eq rfl rfl rfl

lemma synced_writeData (val : BitVec 8) : Synced (p.writeData val) := by
  unfold writeData
  cases p.initStep <;> exact h.of_eq rfl rfl rfl

omit h in
lemma readCommand_snd (p : Pic8259) : p.readCommand.2 =
    if p.read.poll then { p with read.poll := false }.acknowledge.2 else p := by
  unfold readCommand
  split_ifs
  · split
    · next irq q heq => rw [heq]
    · next q heq => rw [heq]
  all_goals rfl

lemma synced_readCommand : Synced p.readCommand.2 := by
  rw [readCommand_snd]
  split_ifs
  · exact synced_acknowledge (h.of_eq rfl rfl rfl)
  · exact h

lemma synced_step_iff (op : Op) : Synced (p.step op) ↔ p.Reconciled op := by
  cases op with
  | setElcr val writable =>
    constructor
    · exact fun hs i hi _ => hs i hi
    · intro hr i hi
      by_cases hold : p.elcr.getLsbD i = true
      · exact h i hold
      · exact hr i hi (Bool.not_eq_true _ ▸ hold)
  | setLine irq level => exact iff_of_true (synced_setLine h irq level) trivial
  | acknowledge => exact iff_of_true (synced_acknowledge h) trivial
  | writeCommand val => exact iff_of_true (synced_writeCommand h val) trivial
  | writeData val => exact iff_of_true (synced_writeData h val) trivial
  | readCommand => exact iff_of_true (synced_readCommand h) trivial

end

/-- The requests of the level-triggered inputs follow their lines along a run just when every
input whose request does not follow its line stays edge-triggered. -/
theorem run_synced_iff (ops : List Op) :
    (∀ k, Synced (new.run (ops.take k))) ↔
      ∀ k op, ops[k]? = some op → Reconciled (new.run (ops.take k)) op :=
  Runs.forall_take_iff (I := Synced) (fun _ h => h) (fun _ op h hr => (synced_step_iff h op).mpr hr)
    (fun _ op h hs => (synced_step_iff h op).mp hs)
    (fun i hi => absurd hi (by simp [new])) ops

/-- Input 5 is asserted and released in edge mode, and becomes level-triggered. -/
theorem run_stale_request :
    let p := new.run [.setLine 5 true,.setLine 5 false,.setElcr 0x20 0xF8]
    p.elcr.getLsbD 5 = true ∧ p.irr.getLsbD 5 = true ∧ p.lineLevel.getLsbD 5 = false ∧
      ¬Synced p := by
  refine ⟨by decide,by decide,by decide,fun h => ?_⟩
  exact absurd (h 5 (by decide)) (by decide)

end Pic8259
end Enlil.Devices
