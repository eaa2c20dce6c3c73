import Enlil.Devices.Xhci.Mmio
import Enlil.Devices.Xhci.Models

/-! # Failed Configure Endpoint commands and the host controller reset -/

namespace Enlil.Devices.Xhci
open VirtualXhciController OperationalRegisters
variable {M : Type}
namespace VirtualXhciController

lemma configureEndpoint_cases (c : VirtualXhciController M) (slotId : BitVec 8) (ptr : ℕ)
    (deconfigure : Bool) (mem : DmaMemory) :
    (c.configureEndpoint slotId ptr deconfigure mem).1 = .success ∨
      (c.configureEndpoint slotId ptr deconfigure mem).2 = (c,mem) := by
  simp only [configureEndpoint]
  split
  · split
    · exact .inl rfl
    · -- the input context is read and checked as a whole before anything is dropped or added
      split
      · exact .inr rfl
      · split
        · exact .inr rfl
        · split
          · exact .inr rfl
          · exact .inl rfl
  · exact .inr rfl

/-- A Configure Endpoint command that does not succeed changes nothing but the event ring. -/
theorem executeCommand_configure_failed (c : VirtualXhciController M) (trb : Trb) (trbPointer : ℕ)
    (mem : DmaMemory) {slotId : BitVec 8} {ptr : ℕ} {deconfigure : Bool}
    (htrb : CommandTrb.fromTrb trb = some (.configureEndpoint slotId ptr deconfigure))
    (hcode : (c.runCommand trb mem).1.1 ≠ .success) :
    (c.executeCommand trb trbPointer mem).1.endpointConfigs = c.endpointConfigs ∧
      (c.executeCommand trb trbPointer mem).1.transferRings = c.transferRings ∧
      (c.executeCommand trb trbPointer mem).1.guestTransferRings = c.guestTransferRings ∧
      (c.executeCommand trb trbPointer mem).2 = mem := by
  have hrun : (c.runCommand trb mem).2 = (c,mem) := by
    simp only [runCommand,htrb] at hcode ⊢
    exact (c.configureEndpoint_cases ..).resolve_left hcode
  simp only [executeCommand,hrun,postEventTrb,and_true]
  split <;> exact ⟨rfl,rfl,rfl⟩

/-- An input context at `0x1000` that describes a bulk IN endpoint with index 3. -/
def configuring (drops adds : UInt8) : DmaMemory :=
  { Hub.addressing 1 with
    byte := fun a =>
      if a = 0x1000 then drops else if a = 0x1004 then adds else if a = 0x1084 then 0x30 else 0 }

/-- The endpoint is configured; a second command drops it, adds it and fails at the next one. -/
theorem executeCommand_configure_late :
    let c : VirtualXhciController Empty := (VirtualXhciController.executeCommand
      { new 4 with slots := [true] } ⟨0x1000,0,0x1003000⟩ 0 (configuring 0 8)).1
    let r := c.executeCommand ⟨0x1000,0,0x1003000⟩ 0 (configuring 8 0x28)
    (c.endpointConfigs (1,3)).isSome = true ∧ r.1.endpointConfigs = c.endpointConfigs ∧
      r.1.transferRings = c.transferRings ∧ r.2 = configuring 8 0x28 := by
  intro c r
  have h := executeCommand_configure_failed c ⟨0x1000,0,0x1003000⟩ 0 (configuring 8 0x28) rfl
    (by decide +kernel)
  exact ⟨by decide +kernel,h.1,h.2.1,h.2.2.2⟩

def isConnected (c : VirtualXhciController M) (port : ℕ) : Bool := c.ownership.isConnected port

/-- Nothing is left of what the driver had set up. -/
structure Cleared (c : VirtualXhciController M) : Prop where
  slots : ∀ slotId, c.slotEnabled slotId = false
  endpointConfigs : ∀ key, c.endpointConfigs key = none
  transferRings : ∀ key, c.transferRings key = none
  guestTransferRings : ∀ key, c.guestTransferRings key = none
  guestCommandRing : c.guestCommandRing = none
  commandRing : c.commandRing.ring.isEmpty = true
  control : ∀ slotId, c.controlState slotId = none ∧ c.deviceModels slotId = none
  doorbells : c.doorbells.drainPending.1 = []
  iman : c.interrupter.iman = 0
  imod : c.interrupter.imod = 0xFA0
  eventRing : c.interrupter.eventRing.pending = []
  segmentTable : c.interrupter.erstsz = 1 ∧ c.interrupter.erstba = 0
  erdp : c.interrupter.erdp = 0
  guestRing : c.interrupter.guestRing = none

lemma Cleared.withOp {c : VirtualXhciController M} (h : c.Cleared) (op : OperationalRegisters) :
    Cleared { c with op } :=
  { h with }

/-- A new controller with the same devices attached. -/
def Renews (c c' : VirtualXhciController M) : Prop :=
  c'.Cleared ∧ ∀ port, c.isConnected port = true → c'.isConnected port = true

end VirtualXhciController
namespace XhciFunction

lemma ctrl_writeRegister_hcrst (f : XhciFunction M) (value : BitVec 32) :
    (f.writeRegister 0x20 (value ||| 2)).ctrl =
      { f.ctrl with op := .new f.ctrl.op.ports.length } := by
  have hbit : (value ||| 2).getLsbD 1 = true := by simp
  show { f.ctrl with op := f.ctrl.op.writeUsbcmd (value ||| 2) } = _
  rw [writeUsbcmd,if_pos hbit,reset]

/-- A write with `HCRST` resets the operational registers and nothing else: it does what a reset is
for if there is nothing to clear and no port to keep connected. -/
theorem renews_writeRegister_iff (f : XhciFunction M) (value : BitVec 32) :
    f.ctrl.Renews (f.writeRegister 0x20 (value ||| 2)).ctrl ↔
      f.ctrl.Cleared ∧ ∀ port, f.ctrl.isConnected port = false := by
  rw [ctrl_writeRegister_hcrst]
  have hports : ∀ port, isConnected
      { f.ctrl with op := .new f.ctrl.op.ports.length } port = false := by
    intro port
    simp [isConnected,ownership,
      Ownership.isConnected,OperationalRegisters.new,PortRegisterSet.isConnected]
  constructor
  · rintro ⟨hcleared,hkept⟩
    refine ⟨hcleared.withOp f.ctrl.op,fun port => ?_⟩
    by_contra hcon
    exact absurd (hkept port (by simpa using hcon)) (by simp [hports])
  · rintro ⟨hcleared,hnone⟩
    exact ⟨hcleared.withOp _,fun port hcon => absurd hcon (by simp [hnone])⟩

/-- A device is attached and a slot enabled; after the reset the slot is still enabled, and the
port reports no device. -/
theorem not_renews_writeRegister :
    let c : VirtualXhciController ℕ := (VirtualXhciController.new 4).attachDeviceWithModel .high 1 |>.2
    let c := { c with op := { c.op with config := 32 } }
    let f : XhciFunction ℕ := ⟨(c.executeCommand ⟨0,0,0x2400⟩ 0 (Hub.addressing 1)).1,[3,0,0,0],
      .new 1⟩
    f.ctrl.isConnected 0 = true ∧ (f.writeRegister 0x20 2).ctrl.isConnected 0 = false ∧
      (f.writeRegister 0x20 2).ctrl.slotEnabled 1 = true ∧
      ¬f.ctrl.Renews (f.writeRegister 0x20 2).ctrl := by
  refine ⟨by decide +kernel,by decide +kernel,by decide +kernel,fun h => ?_⟩
  exact absurd (h.1.slots 1) (by decide +kernel)

end XhciFunction
end Enlil.Devices.Xhci
