import Enlil.Devices.Pcie.Protection
import Enlil.Lib.Runs

/-!
# Configuration accesses of a guest: model of `pcie.rs`, `PcieRootComplex`, `PciConfigIo`, `EcamSpace`
-/

namespace Enlil.Devices.Pcie
open List

structure ConfigBus where
  devices : List PciConfigSpace
  configAddress : BitVec 32
  resetControl : BitVec 8
  resetRequested : Bool

namespace ConfigBus
variable (s : ConfigBus)

def modifyDevice (bdf : PciBdf) (f : PciConfigSpace → PciConfigSpace) :
    List PciConfigSpace → List PciConfigSpace
  | [] => []
  | d :: rest => if d.bdf = bdf then f d :: rest else d :: modifyDevice bdf f rest

def ecamBdf (offset : ℕ) : PciBdf :=
  ⟨.ofNat 8 (offset/2^20),.ofNat 8 (offset/2^15%2^5),.ofNat 8 (offset/2^12%2^3)⟩

def ecamWrite (offset : ℕ) (value : BitVec 32) (size : ℕ) : ConfigBus :=
  if size = 1 ∨ size = 2 ∨ size = 4 then
    { s with devices :=
      modifyDevice (ecamBdf offset) (fun d => d.guestWrite (offset%2^12) size value) s.devices }
  else s

def mmioWrite (offset size : ℕ) (data : BitVec 64) : ConfigBus :=
  if size = 8 then
    (s.ecamWrite offset (data.setWidth 32) 4).ecamWrite (offset+4) ((data >>> 32).setWidth 32) 4
  else s.ecamWrite offset (data.setWidth 32) size

def sizeMask (size : ℕ) : BitVec 32 :=
  if size = 1 then 0xFF else if size = 2 then 0xFFFF else 0xFFFFFFFF

def enabled : Bool := s.configAddress &&& 0x80000000 ≠ 0

def targetOffset (dataOffset : ℕ) : ℕ :=
  let bus := (s.configAddress >>> 16 &&& 0xFF).toNat
  let device := (s.configAddress >>> 11 &&& 0x1F).toNat
  let function := (s.configAddress >>> 8 &&& 0x07).toNat
  let reg := (s.configAddress &&& 0xFC).toNat ||| dataOffset%4
  bus <<< 20 ||| device <<< 15 ||| function <<< 12 ||| reg

def writeAddress (byteOff size : ℕ) (data : BitVec 32) : ConfigBus :=
  if 32 ≤ byteOff*8 then s
  else
    let mask := sizeMask size <<< (byteOff*8)
    let value := (data &&& sizeMask size) <<< (byteOff*8)
    { s with configAddress := (s.configAddress &&& ~~~mask) ||| value }

def writeReset (value : BitVec 8) : ConfigBus :=
  { s with
    resetRequested := s.resetRequested || value.getLsbD 2
    resetControl := value &&& 0x0A }

def pioWrite (port size : ℕ) (data : BitVec 32) : ConfigBus :=
  if port = 0xCF9 ∧ size = 1 then s.writeReset (data.setWidth 8)
  else if port < 0xCFC then s.writeAddress (port-0xCF8) size data
  else if s.enabled then s.ecamWrite (s.targetOffset (port-0xCFC)) data size
  else s

/-- A guest write. Ports outside the range belong to other devices. -/
inductive Event where
  | mmioWrite (offset size : ℕ) (data : BitVec 64)
  | pioWrite (port size : ℕ) (data : BitVec 32)

def step : Event → ConfigBus
  | .mmioWrite offset size data => s.mmioWrite offset size data
  | .pioWrite port size data =>
    if 0xCF8 ≤ port ∧ port < 0xD00 then s.pioWrite port size data else s

def runAt (events : List Event) (k : ℕ) : ConfigBus := (events.take k).foldl step s

def accesses : Event → List (ℕ × ℕ)
  | .mmioWrite offset size _ =>
    if size = 8 then [(offset%2^12,4),((offset+4)%2^12,4)]
    else [(offset%2^12,size)]
  | .pioWrite port size _ =>
    if 0xCFC ≤ port ∧ port < 0xD00 then [(s.targetOffset (port-0xCFC)%2^12,size)] else []

variable {s} {root : List PciConfigSpace}

lemma forall₂_modifyDevice {R : PciConfigSpace → PciConfigSpace → Prop} {bdf : PciBdf}
    {f : PciConfigSpace → PciConfigSpace} {l₀ l : List PciConfigSpace} (h : List.Forall₂ R l₀ l)
    (hf : ∀ d₀ d, d₀ ∈ l₀ → R d₀ d → R d₀ (f d)) : List.Forall₂ R l₀ (modifyDevice bdf f l) := by
  induction h with
  | nil => exact .nil
  | cons hd hrest ih =>
    rw [modifyDevice]
    split
    · exact .cons (hf _ _ mem_cons_self hd) hrest
    · exact .cons hd (ih fun d₀ d hd₀ => hf d₀ d (mem_cons_of_mem _ hd₀))

abbrev Guarded (root : List PciConfigSpace) (s : ConfigBus) : Prop :=
  List.Forall₂ PciConfigSpace.Intact root s.devices

lemma Guarded.ecamWrite (h : Guarded root s) (hlisted : ∀ d ∈ root, d.Listed) {offset size : ℕ}
    (hproper : Proper (offset%2^12) size) (value : BitVec 32) :
    Guarded root (s.ecamWrite offset value size) := by
  rw [ConfigBus.ecamWrite]
  split
  · exact forall₂_modifyDevice h fun d₀ d hd₀ hd => hd.guestWrite (hlisted d₀ hd₀) hproper value
  · exact h

lemma Guarded.step (h : Guarded root s) (hlisted : ∀ d ∈ root, d.Listed) (e : Event)
    (hproper : ∀ a ∈ s.accesses e, Proper a.1 a.2) : Guarded root (s.step e) := by
  cases e with
  | mmioWrite offset size data =>
    rw [ConfigBus.step,ConfigBus.mmioWrite]
    rw [accesses] at hproper
    split
    next hsize =>
      rw [if_pos hsize] at hproper
      refine (h.ecamWrite hlisted ?_ _).ecamWrite hlisted ?_ _
      · exact hproper _ mem_cons_self
      · exact hproper _ (mem_cons_of_mem _ mem_cons_self)
    next hsize =>
      rw [if_neg hsize] at hproper
      exact h.ecamWrite hlisted (hproper _ mem_cons_self) _
  | pioWrite port size data =>
    rw [ConfigBus.step]
    rw [accesses] at hproper
    split
    swap
    · exact h
    next hrange =>
      rw [ConfigBus.pioWrite]
      split
      · exact h
      split
      · rw [writeAddress]
        split
        · exact h
        · exact h
      next hdata =>
        split
        · rw [if_pos ⟨Nat.not_lt.mp hdata,hrange.2⟩] at hproper
          exact h.ecamWrite hlisted (hproper _ mem_cons_self) _
        · exact h

/-- **Guest writes cannot forge a function.** If the walk of the code finds all capabilities that
the platform has built, and no access touches a capabilities pointer, or a BAR other than by its
aligned double word, everything that the platform has fixed stays in place. -/
theorem kept_of_proper (s : ConfigBus) (events : List Event) (hlisted : ∀ d ∈ s.devices, d.Listed)
    (hproper : ∀ k e, events[k]? = some e → ∀ a ∈ (s.runAt events k).accesses e, Proper a.1 a.2)
    (k : ℕ) : List.Forall₂ PciConfigSpace.Kept s.devices (s.runAt events k).devices := by
  have hguarded : Guarded s.devices (s.runAt events k) :=
    Runs.forall_take (I := Guarded s.devices)
      (K := fun (s : ConfigBus) e => ∀ a ∈ s.accesses e, Proper a.1 a.2)
      (fun s e h hproper => h.step hlisted e hproper)
      (forall₂_same.mpr fun d _ => .refl d) hproper k
  refine forall₂_iff_zip.mpr ⟨hguarded.length_eq,fun {d₀ d} hmem => ?_⟩
  exact ((forall₂_iff_zip.mp hguarded).2 hmem).kept (hlisted d₀ (of_mem_zip hmem).1)

end ConfigBus
namespace PciConfigSpace

lemma setHead_status (c : PciConfigSpace) (head : ℕ) :
    (c.setHead head).readU16 statusOffset &&& 0x0010 = 0x0010 := by
  rw [setHead,readU16_writeU16 (by decide)]
  generalize PciConfigSpace.readU16 _ _ = x
  ext i hi
  rw [BitVec.getElem_and,BitVec.getElem_or]
  cases (0x0010 : BitVec 16)[i] <;> simp

lemma createXhciController_listed (bdf : PciBdf) (mmioBase : BitVec 32) (line : BitVec 8) :
    (createXhciController bdf mmioBase line).Listed := by
  have hstatus : (createXhciController bdf mmioBase line).readU16 statusOffset &&& 0x0010 = 0x0010 :=
    setHead_status _ _
  have hhead : (createXhciController bdf mmioBase line).readU8 capabilityPtr = 0x90 := rfl
  have hpcie : (createXhciController bdf mmioBase line).readU8 0x91 = 0x70 := rfl
  have hmsix : (createXhciController bdf mmioBase line).readU8 0x71 = 0x60 := rfl
  have hmsi : (createXhciController bdf mmioBase line).readU8 0x61 = 0x50 := rfl
  have hpm : (createXhciController bdf mmioBase line).readU8 0x51 = 0x00 := rfl
  -- The rest is about any space with this list.
  generalize createXhciController bdf mmioBase line = c at *
  have hheader : ∀ i ∈ [0x90,0x91,0x70,0x71,0x60,0x61,0x50,0x51],
      c.capabilityHeaderByteIsReadOnly i = true := by
    intro i hi
    rw [capabilityHeaderByteIsReadOnly,hstatus,if_neg (by decide),hhead]
    simp only [mem_cons,not_mem_nil,or_false] at hi
    rcases hi with rfl | rfl | rfl | rfl | rfl | rfl | rfl | rfl <;>
      simp [walk,hpcie,hmsix,hmsi]
  have hreaches : ∀ ptr, c.Reaches ptr → ptr ∈ [0x90,0x70,0x60,0x50] := by
    intro ptr h
    induction h with
    | head =>
      rw [hhead]
      decide
    | next _ hle ih =>
      simp only [mem_cons,not_mem_nil,or_false] at ih
      rcases ih with rfl | rfl | rfl | rfl
      · rw [hpcie]
        decide
      · rw [hmsix]
        decide
      · rw [hmsi]
        decide
      · rw [hpm] at hle
        exact absurd hle (by decide)
  constructor
  · intro ptr h
    have hptr := hreaches ptr h
    simp only [mem_cons,not_mem_nil,or_false] at hptr
    rcases hptr with rfl | rfl | rfl | rfl <;>
      exact ⟨hheader _ (by decide),hheader _ (by decide)⟩
  · have hcaps : ∀ cap ∈ fixedCapabilities,
        cap.1 ∈ [0x90,0x91,0x70,0x71,0x60,0x61,0x50,0x51] := by decide
    exact fun cap hcap _ => hheader cap.1 (hcaps cap hcap)

end PciConfigSpace
namespace ConfigBus

/-- The root complex of the examples: one USB controller, which the address register selects at
the MSI-X control register. -/
def usbBus : ConfigBus :=
  ⟨[.createXhciController ⟨0,4,0⟩ 0xFEB00000 11],0x80002070,0,false⟩

/-- A guest sizes the BAR through the window and enables MSI-X through the ports. -/
theorem kept_after_enable : List.Forall₂ PciConfigSpace.Kept usbBus.devices
      (usbBus.runAt [.mmioWrite 0x20010 4 0xFFFFFFFF,.pioWrite 0xCFE 2 0x8000] 2).devices := by
  refine kept_of_proper _ _ (fun d hd => ?_) (fun k e he => ?_) 2
  · rw [mem_singleton.mp hd]
    exact PciConfigSpace.createXhciController_listed _ _ _
  · match k, he with
    | 0, he =>
      cases he
      decide
    | 1, he =>
      cases he
      decide +kernel
    | k+2, he => cases he

/-- A byte written to the capabilities pointer sticks, and so does one written to the type bits of a
BAR. A power management capability added after another one leaves that one out of the list. -/
theorem not_kept_after_byte_writes : ¬ List.Forall₂ PciConfigSpace.Kept usbBus.devices
      (usbBus.runAt [.mmioWrite 0x20034 1 0] 1).devices ∧
    ¬ List.Forall₂ PciConfigSpace.Kept usbBus.devices
      (usbBus.runAt [.mmioWrite 0x20010 1 0xFF] 1).devices ∧
    ¬ List.Forall₂ PciConfigSpace.Kept
      [((PciConfigSpace.new ⟨0,4,0⟩ 0x1912 0x0015).addMsiCapability).addPowerManagementCapability]
      (runAt ⟨[((PciConfigSpace.new ⟨0,4,0⟩ 0x1912 0x0015).addMsiCapability
        ).addPowerManagementCapability],0,0,false⟩
        [.mmioWrite 0x20060 1 0,.mmioWrite 0x20062 2 0] 2).devices := by
  refine ⟨fun h => ?_,fun h => ?_,fun h => ?_⟩
  · have hkept := (forall₂_cons.mp h).1
    have := hkept.pointer
    revert this
    decide +kernel
  · have hkept := (forall₂_cons.mp h).1
    have := hkept.bars 0
    revert this
    decide +kernel
  · have hkept := (forall₂_cons.mp h).1
    have := hkept.msi (by decide +kernel)
    revert this
    decide +kernel

end ConfigBus
end Enlil.Devices.Pcie
