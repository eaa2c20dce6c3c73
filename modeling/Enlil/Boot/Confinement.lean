import Enlil.Boot.Confinement.Nvme
import Enlil.Boot.Confinement.VirtioBlk

/-! # A guest is confined to the sectors it was given -/

namespace Enlil.Boot

inductive Controller (β : Type) where
  | nvme (d : NvmeDevice β)
  | virtio (d : VirtioBlk β)

namespace Controller

inductive Action where
  | read (offset size : ℕ)
  | write (offset size val : ℕ)
  | irq
  | setCommand (command : ℕ)
  | compute (f : GuestMemory → GuestMemory)

variable {β : Type}

def backend : Controller β → β
  | .nvme d => d.backend
  | .virtio d => d.backend

def attach (b : β) : Controller β → Controller β
  | .nvme d => .nvme (d.withBackend b)
  | .virtio d => .virtio (d.withBackend b)

def irqLine : Controller β → Bool
  | .nvme d => d.irqLine
  | .virtio d => d.irqLine

def setCommand (command : ℕ) : Controller β → Controller β
  | .nvme d => .nvme { d with pci := ⟨command⟩ }
  | .virtio d => .virtio { d with pci := ⟨command⟩ }

variable [BlockBackend β]

def mmioRead (offset size : ℕ) : Controller β → ℕ × Controller β
  | .nvme d => (d.mmioRead offset size,.nvme d)
  | .virtio d => ((d.mmioRead offset size).1,.virtio (d.mmioRead offset size).2)

def mmioWrite (offset size val : ℕ) (m : GuestMemory) : Controller β → Controller β × GuestMemory
  | .nvme d =>
    (.nvme (d.mmioWrite offset size val m).2.1,(d.mmioWrite offset size val m).2.2)
  | .virtio d =>
    (.virtio (d.mmioWrite offset size val m).2.1,(d.mmioWrite offset size val m).2.2)

def act (c : Controller β) (m : GuestMemory) : Action → List ℕ × Controller β × GuestMemory
  | .read offset size => ([(c.mmioRead offset size).1],(c.mmioRead offset size).2,m)
  | .write offset size val => ([],c.mmioWrite offset size val m)
  | .irq => ([c.irqLine.toNat],c,m)
  | .setCommand command => ([],c.setCommand command,m)
  | .compute f => ([],c,f m)

def run (c : Controller β) (m : GuestMemory) : List Action → List ℕ × Controller β × GuestMemory
  | [] => ([],c,m)
  | a :: actions =>
    let r := c.act m a
    let r' := run r.2.1 r.2.2 actions
    (r.1 ++ r'.1,r'.2)

inductive Rel (R : β → β → Prop) : Controller β → Controller β → Prop
  | nvme {d d' : NvmeDevice β} (h : NvmeDevice.Rel R d d') : Rel R (.nvme d) (.nvme d')
  | virtio {d d' : VirtioBlk β} (h : VirtioBlk.Rel R d d') : Rel R (.virtio d) (.virtio d')

variable {R : β → β → Prop} {c c' : Controller β} {m : GuestMemory}
omit [BlockBackend β] in
lemma Rel.attach {b b' : β} (c : Controller β) (h : R b b') :
    Rel R (c.attach b) (c.attach b') := by
  cases c with
  | nvme d => exact .nvme (.intro d h)
  | virtio d => exact .virtio (.intro d h)

omit [BlockBackend β] in
lemma Rel.backend (h : Rel R c c') : R c.backend c'.backend := by
  cases h with
  | nvme h =>
    obtain ⟨b',hb,rfl⟩ := h
    exact hb
  | virtio h =>
    obtain ⟨b',hb,rfl⟩ := h
    exact hb

/-- The guest sees the same, its memory is the same, and the devices stay related. -/
structure Agree (R : β → β → Prop) (r r' : List ℕ × Controller β × GuestMemory) : Prop where
  seen : r.1 = r'.1
  rel : Rel R r.2.1 r'.2.1
  mem : r.2.2 = r'.2.2

lemma act_agree (hR : Bisim R) (h : Rel R c c') (a : Action) :
    Agree R (c.act m a) (c'.act m a) := by
  cases a with
  | read offset size =>
    cases h with
    | nvme h => exact ⟨congrArg (fun v => [v]) (h.mmioRead offset size),.nvme h,rfl⟩
    | virtio h =>
      obtain ⟨hseen,hrel⟩ := h.mmioRead hR offset size
      exact ⟨congrArg (fun v => [v]) hseen,.virtio hrel,rfl⟩
  | write offset size val =>
    cases h with
    | nvme h =>
      obtain ⟨hrel,hmem⟩ := h.mmioWrite hR offset size val m
      exact ⟨rfl,.nvme hrel,hmem⟩
    | virtio h =>
      obtain ⟨-,hrel,hmem⟩ := h.mmioWrite hR offset size val m
      exact ⟨rfl,.virtio hrel,hmem⟩
  | irq =>
    refine ⟨?_,h,rfl⟩
    cases h with
    | nvme h =>
      obtain ⟨b',-,rfl⟩ := h
      rfl
    | virtio h =>
      obtain ⟨b',-,rfl⟩ := h
      rfl
  | setCommand command =>
    refine ⟨rfl,?_,rfl⟩
    cases h with
    | nvme h =>
      obtain ⟨b',hb,rfl⟩ := h
      exact .nvme ⟨b',hb,rfl⟩
    | virtio h =>
      obtain ⟨b',hb,rfl⟩ := h
      exact .virtio ⟨b',hb,rfl⟩
  | compute f => exact ⟨rfl,h,rfl⟩

lemma run_agree (hR : Bisim R) (h : Rel R c c') (actions : List Action) :
    Agree R (c.run m actions) (c'.run m actions) := by
  induction actions generalizing c c' m with
  | nil => exact ⟨rfl,h,rfl⟩
  | cons a actions ih =>
    obtain ⟨hseen,hrel,hmem⟩ := act_agree (m := m) hR h a
    obtain ⟨hseen',hrel',hmem'⟩ := ih hrel (m := (c.act m a).2.2)
    unfold run
    simp only
    rw [← hmem]
    exact ⟨congrArg₂ (· ++ ·) hseen hseen',hrel',hmem'⟩

end Controller
open Disk DiskMap

/-- Whatever a guest does through either device, the sectors that are not writable keep their
contents, and what it sees does not depend on the uncovered ones. -/
theorem Controller.run_confined {β : Type} [Disk β] (c : Controller (DiskMap β)) (b b' : β)
    (ranges : List Allow) (m : GuestMemory) (actions : List Controller.Action) :
    let r := (c.attach (.new b ranges)).run m actions
    let r' := (c.attach (.new b' ranges)).run m actions
    (∀ s, ¬ Writable ranges s → content r.2.1.backend.inner s = content b s) ∧
    (Same (Covered ranges) b b' → r.1 = r'.1 ∧ r.2.2 = r'.2.2 ∧ ∀ s, Covered ranges s →
          content r.2.1.backend.inner s = content r'.2.1.backend.inner s) := by
  intro r r'
  refine ⟨fun s hs => ?_,fun hsame => ?_⟩
  · have hfrozen : Frozen (new b ranges).ranges (content b) (new b ranges) :=
      ⟨rfl,fun _ _ => rfl⟩
    have hrun := run_agree (m := m) (bisim_frozen (new b ranges).ranges (content b))
      (.attach c ⟨rfl,hfrozen⟩) actions
    exact hrun.rel.backend.2.content_eq s fun h => hs ((writable_new b ranges s).mp h)
  · have hmap : SameMap (new b ranges).ranges (new b ranges) (new b' ranges) :=
      ⟨rfl,rfl,hsame.control_eq, fun s hs => hsame.content_eq s ((covered_new b ranges s).mp hs)⟩
    obtain ⟨hseen,hrel,hmem⟩ := run_agree (m := m) (bisim_same _) (.attach c hmap) actions
    exact ⟨hseen,hmem,fun s hs =>
      hrel.backend.same.content_eq s ((covered_new b ranges s).mpr hs)⟩

end Enlil.Boot
