import Enlil.Devices.Xhci.Controller
import Enlil.Lib.Runs

/-! # Where the device models are -/

namespace Enlil.Devices.Xhci
open List Function Option VirtualXhciController

/-! ### Ownership -/

structure Ownership (M : Type) where
  deviceModels : BitVec 8 → Option M
  slotPorts : BitVec 8 → Option ℕ
  portModels : List (Option M)
  ports : List PortRegisterSet

namespace Ownership
variable {M : Type} (o : Ownership M)

def parked (port : ℕ) : Option M := o.portModels.getD port none

def isConnected (port : ℕ) : Bool := (o.ports.getD port ⟨0⟩).isConnected

def disable (slotId : BitVec 8) : Ownership M :=
  { o with
    deviceModels := update o.deviceModels slotId none
    slotPorts := update o.slotPorts slotId none
    portModels :=
      match o.slotPorts slotId with
      | none => o.portModels
      | some port => o.portModels.set port (o.deviceModels slotId) }

def bind (slotId : BitVec 8) (port : ℕ) (model : M) : Ownership M :=
  { o with
    portModels := o.portModels.set port none
    deviceModels := update o.deviceModels slotId (some model)
    slotPorts := update o.slotPorts slotId (some port) }

def connect (port speed : ℕ) : Ownership M := { o with ports := o.ports.set port (.connected speed) }

def park (port : ℕ) (model : M) : Ownership M :=
  { o with portModels := o.portModels.set port (some model) }

def unbindPort (port : ℕ) : Ownership M :=
  match VirtualXhciController.allIds.find? fun slotId => o.slotPorts slotId == some port with
  | none => o
  | some slotId =>
    { o with
      slotPorts := update o.slotPorts slotId none
      deviceModels := update o.deviceModels slotId none }

def disconnect (port : ℕ) : Ownership M :=
  { o with ports := o.ports.set port .disconnected, portModels := o.portModels.set port none }

end Ownership

/-! ### What the controller's operations do to it -/

namespace VirtualXhciController
variable {M : Type} {c : VirtualXhciController M} {mem : DmaMemory} {slotId : BitVec 8}

def ownership (c : VirtualXhciController M) : Ownership M where
  deviceModels := c.deviceModels
  slotPorts := c.slotPorts
  portModels := c.portModels
  ports := c.op.ports

@[simp] lemma ownership_postEventTrb (trb : Trb) :
    (c.postEventTrb trb).2.ownership = c.ownership := by
  simp only [postEventTrb]
  split <;> rfl

lemma ownership_enableSlot : c.enableSlot.2.ownership = c.ownership := by
  simp only [enableSlot]
  split <;> rfl

lemma ownership_disableSlot (h : c.slotEnabled slotId = true) :
    (c.disableSlot slotId mem).2.1.ownership = c.ownership.disable slotId := by
  simp only [disableSlot]
  rw [if_pos h]
  rfl

variable {port ptr speed : ℕ}

lemma ownership_bindModel : (c.bindModel slotId port).ownership =
      match c.ownership.parked port with
      | none => c.ownership
      | some model => c.ownership.bind slotId port model := by
  have hparked : c.ownership.parked port = c.portModels.getD port none := rfl
  rw [hparked,bindModel]
  cases c.portModels.getD port none <;> rfl

variable {bsr deconfigure dcs : Bool} {ptr : ℕ}

lemma ownership_addressDevice (h : c.slotEnabled slotId = true)
    (hport : c.addressedPort ptr mem = .ok port) :
    (c.addressDevice slotId ptr bsr mem).2.1.ownership = (c.bindModel slotId port).ownership := by
  unfold addressDevice
  simp only [if_pos h,hport]
  split <;> rfl

lemma ownership_foldl_addEndpoint (added : List (BitVec 8 × EndpointContext)) :
    (added.foldl (fun c' => c'.addEndpoint slotId) c).ownership = c.ownership := by
  induction added generalizing c with
  | nil => rfl
  | cons a added ih =>
    rw [foldl_cons,ih]
    rfl

lemma ownership_configureEndpoint :
    (c.configureEndpoint slotId ptr deconfigure mem).2.1.ownership = c.ownership := by
  simp only [configureEndpoint]
  split
  · split
    · rfl
    · split
      · rfl
      · split
        · rfl
        · split
          · rfl
          · exact ownership_foldl_addEndpoint _
  · rfl

lemma ownership_evaluateContext :
    (c.evaluateContext slotId ptr mem).2.1.ownership = c.ownership := by
  simp only [evaluateContext]
  split
  · split
    · rfl
    · split
      · split
        · rfl
        · split <;> rfl
      · rfl
  · rfl

variable {dci : BitVec 8}

lemma ownership_stopEndpoint :
    (c.stopEndpoint slotId dci mem).2.1.ownership = c.ownership := by
  simp only [stopEndpoint]
  split <;> rfl

lemma ownership_resetEndpoint :
    (c.resetEndpoint slotId dci mem).2.1.ownership = c.ownership := by
  simp only [resetEndpoint]
  split
  · split <;> rfl
  · rfl

lemma ownership_setTrDequeuePointer :
    (c.setTrDequeuePointer slotId dci ptr dcs mem).2.1.ownership = c.ownership := by
  simp only [setTrDequeuePointer]
  split
  · split <;> rfl
  · rfl

lemma ownership_resetDevice : (c.resetDevice slotId mem).2.1.ownership = c.ownership := by
  simp only [resetDevice]
  split <;> rfl

/-- The command is an Address Device that is carried out for a port. -/
def Addresses (c : VirtualXhciController M) (trb : Trb) (mem : DmaMemory) (slotId : BitVec 8)
    (port : ℕ) : Prop :=
  ∃ ptr, CommandTrb.fromTrb trb = some (.addressDevice slotId ptr) ∧
    c.slotEnabled slotId = true ∧ c.addressedPort ptr mem = .ok port

lemma ownership_of_addresses {trb : Trb} (h : c.Addresses trb mem slotId port) :
    (c.executeCommand trb ptr mem).1.ownership = (c.bindModel slotId port).ownership := by
  obtain ⟨_,htrb,hslot,hport⟩ := h
  simp only [executeCommand,ownership_postEventTrb,runCommand,htrb]
  exact ownership_addressDevice hslot hport

lemma ownership_executeCommand (mem : DmaMemory) (trb : Trb) (trbPointer : ℕ) :
    (c.executeCommand trb trbPointer mem).1.ownership = c.ownership ∨ (∃ slotId,
        (c.executeCommand trb trbPointer mem).1.ownership = c.ownership.disable slotId) ∨
      ∃ slotId port, c.Addresses trb mem slotId port := by
  simp only [executeCommand,ownership_postEventTrb,runCommand]
  cases htrb : CommandTrb.fromTrb trb with
  | none => exact .inl rfl
  | some command =>
    cases command with
    | noOp => exact .inl rfl
    | enableSlot => exact .inl ownership_enableSlot
    | disableSlot slotId =>
      by_cases hslot : c.slotEnabled slotId = true
      · exact .inr (.inl ⟨slotId,ownership_disableSlot hslot⟩)
      · left
        simp only [disableSlot,if_neg hslot]
    | addressDevice slotId ptr =>
      by_cases hslot : c.slotEnabled slotId = true
      · cases hport : c.addressedPort ptr mem with
        | error code =>
          left
          simp only [addressDevice,if_pos hslot,hport]
        | ok port => exact .inr (.inr ⟨slotId,port,ptr,htrb,hslot,hport⟩)
      · left
        simp only [addressDevice,if_neg hslot]
    | configureEndpoint slotId ptr deconfigure => exact .inl ownership_configureEndpoint
    | evaluateContext slotId ptr => exact .inl ownership_evaluateContext
    | resetEndpoint slotId dci => exact .inl ownership_resetEndpoint
    | stopEndpoint slotId dci => exact .inl ownership_stopEndpoint
    | setTrDequeuePointer slotId dci ptr dcs => exact .inl ownership_setTrDequeuePointer
    | resetDevice slotId => exact .inl ownership_resetDevice

lemma ownership_signalPortChange (port : ℕ) :
    (c.signalPortChange port).2.ownership = c.ownership := by
  rw [signalPortChange,ownership_postEventTrb]
  rfl

lemma ownership_connectDevice (h : port < c.op.ports.length) :
    (c.connectDevice port speed).2.ownership = c.ownership.connect port speed := by
  rw [connectDevice,if_pos h,ownership_signalPortChange]
  rfl

lemma lt_length_of_mem_portRange {speed : DeviceSpeed} (h : port ∈ c.portRange speed) :
    port < c.op.ports.length := by
  simp only [portRange] at h
  split at h
  · have := (mem_range'_1.mp h).2
    omega
  · have := mem_range.mp h
    omega

lemma ownership_attachDeviceWithModel (speed : DeviceSpeed) (model : M) :
    (c.attachDeviceWithModel speed model).1 = none ∧
        ((c.attachDeviceWithModel speed model).2.ownership = c.ownership ∨
          ∃ port, (c.attachDeviceWithModel speed model).2.ownership =
            c.ownership.connect port speed.xhciSpeedId) ∨
      ∃ port, (c.attachDeviceWithModel speed model).1 = some port ∧
        port < c.op.ports.length ∧ c.ownership.isConnected port = false ∧
        (c.attachDeviceWithModel speed model).2.ownership =
          (c.ownership.connect port speed.xhciSpeedId).park port model := by
  simp only [attachDeviceWithModel,attachDevice]
  cases hfind : (c.portRange speed).find? fun i => !(c.op.ports.getD i ⟨0⟩).isConnected with
  | none => exact .inl ⟨rfl,.inl rfl⟩
  | some port =>
    have hlt := lt_length_of_mem_portRange (mem_of_find?_eq_some hfind)
    have hfree : c.ownership.isConnected port = false := by
      have := find?_some hfind
      rwa [Bool.not_eq_true'] at this
    have hconnect : (c.connectDevice port speed.xhciSpeedId).2.ownership =
        c.ownership.connect port speed.xhciSpeedId := ownership_connectDevice hlt
    cases hposted : (c.connectDevice port speed.xhciSpeedId).1 with
    | false =>
      left
      simp only [hposted,Bool.false_eq_true,if_false]
      exact ⟨trivial,.inr ⟨port,hconnect⟩⟩
    | true =>
      right
      simp only [hposted,if_true]
      refine ⟨port,rfl,hlt,hfree,?_⟩
      rw [← hconnect]
      rfl

lemma ownership_unbindPort (port : ℕ) :
    (c.unbindPort port).ownership = c.ownership.unbindPort port := by
  have hslots : c.ownership.slotPorts = c.slotPorts := rfl
  rw [unbindPort,Ownership.unbindPort,hslots]
  cases allIds.find? fun slotId => c.slotPorts slotId == some port <;> rfl

lemma ownership_disconnectDevice (port : ℕ) :
    (c.disconnectDevice port).2.ownership =
      if port < c.op.ports.length then (c.ownership.disconnect port).unbindPort port
      else c.ownership := by
  rw [disconnectDevice]
  split
  · rw [ownership_signalPortChange,ownership_unbindPort]
    rfl
  · rfl

end VirtualXhciController

/-! ### The invariant -/

namespace Ownership
variable {M : Type} {o : Ownership M} {attached : ℕ → Option M}

/-- Every attached model is in exactly one place: at its port, or at the one slot that has it from
that port. -/
def Conserved (o : Ownership M) (attached : ℕ → Option M) : Prop :=
  (∀ port model, attached port = some model →
    o.parked port = some model ∧ (∀ slotId, o.slotPorts slotId ≠ some port) ∨
    o.parked port = none ∧ ∃ slotId, o.slotPorts slotId = some port ∧
      o.deviceModels slotId = some model ∧
      ∀ slotId', o.slotPorts slotId' = some port → slotId' = slotId) ∧
  ∀ slotId model, o.deviceModels slotId = some model →
    ∃ port, o.slotPorts slotId = some port ∧ attached port = some model

structure Inv (o : Ownership M) (attached : ℕ → Option M) : Prop where
  length_eq : o.portModels.length = o.ports.length
  connected : ∀ port model, attached port = some model →
    port < o.ports.length ∧ o.isConnected port = true
  parked_eq : ∀ port model, o.parked port = some model → attached port = some model
  bound : ∀ slotId port, o.slotPorts slotId = some port →
    ∃ model, o.deviceModels slotId = some model ∧ attached port = some model ∧ o.parked port = none
  slotPort : ∀ slotId, o.deviceModels slotId ≠ none → o.slotPorts slotId ≠ none
  unique : ∀ slotId slotId' port, o.slotPorts slotId = some port → o.slotPorts slotId' = some port →
    slotId' = slotId
  placed : ∀ port model, attached port = some model →
    o.parked port = some model ∨ ∃ slotId, o.slotPorts slotId = some port

lemma Inv.conserved (h : o.Inv attached) : o.Conserved attached := by
  constructor
  · intro port model hport
    rcases h.placed port model hport with hparked | ⟨slotId,hslot⟩
    · refine .inl ⟨hparked,fun slotId hslot => ?_⟩
      obtain ⟨_,_,_,hnone⟩ := h.bound slotId port hslot
      rw [hparked] at hnone
      cases hnone
    · obtain ⟨model',hmodel,hatt,hnone⟩ := h.bound slotId port hslot
      rw [hport] at hatt
      cases hatt
      exact .inr ⟨hnone,slotId,hslot,hmodel,fun slotId' => h.unique slotId slotId' port hslot⟩
  · intro slotId model hmodel
    obtain ⟨port,hport⟩ := ne_none_iff_exists'.mp
      (h.slotPort slotId (by rw [hmodel]; exact some_ne_none _))
    obtain ⟨model',hmodel',hatt,_⟩ := h.bound slotId port hport
    rw [hmodel] at hmodel'
    cases hmodel'
    exact ⟨port,hport,hatt⟩

variable {o' : Ownership M} {model : M} {port port' : ℕ}

lemma parked_set {m : Option M}
    (h : o'.portModels = o.portModels.set port m) (hlt : port < o.portModels.length) :
    o'.parked port' = if port' = port then m else o.parked port' := by
  rw [parked,h,parked,getD_eq_getElem?_getD,getD_eq_getElem?_getD,getElem?_set]
  by_cases heq : port = port'
  · subst heq
    rw [if_pos rfl,if_pos hlt,if_pos rfl]
    rfl
  · rw [if_neg heq,if_neg (Ne.symm heq)]

lemma isConnected_set {p : PortRegisterSet}
    (h : o'.ports = o.ports.set port p) (hlt : port < o.ports.length) :
    o'.isConnected port' = if port' = port then p.isConnected else o.isConnected port' := by
  rw [isConnected,h,isConnected,getD_eq_getElem?_getD,getD_eq_getElem?_getD,getElem?_set]
  by_cases heq : port = port'
  · subst heq
    rw [if_pos rfl,if_pos hlt,if_pos rfl]
    rfl
  · rw [if_neg heq,if_neg (Ne.symm heq)]

lemma isConnected_connected (speed : ℕ) : (PortRegisterSet.connected speed).isConnected = true := by
  simp [PortRegisterSet.isConnected,PortRegisterSet.connected]

lemma Inv.deviceModels_none (h : o.Inv attached) {slotId : BitVec 8}
    (hslot : o.slotPorts slotId = none) : o.deviceModels slotId = none := by
  by_contra hne
  exact h.slotPort slotId hne hslot

variable {port : ℕ}

lemma Inv.free (h : o.Inv attached) (hport : attached port = none) :
    o.parked port = none ∧ ∀ slotId, o.slotPorts slotId ≠ some port := by
  constructor
  · cases hparked : o.parked port with
    | none => rfl
    | some model =>
      rw [h.parked_eq port model hparked] at hport
      cases hport
  · intro slotId hslot
    obtain ⟨model,_,hatt,_⟩ := h.bound slotId port hslot
    rw [hport] at hatt
    cases hatt

lemma Inv.lt_length (h : o.Inv attached) (hatt : attached port = some model) :
    port < o.portModels.length := by
  rw [h.length_eq]
  exact (h.connected port model hatt).1

structure At (o : Ownership M) (attached : ℕ → Option M) (port : ℕ) : Prop where
  connected : ∀ model, attached port = some model →
    port < o.ports.length ∧ o.isConnected port = true
  parked_eq : ∀ model, o.parked port = some model → attached port = some model
  bound : ∀ slotId, o.slotPorts slotId = some port →
    ∃ model, o.deviceModels slotId = some model ∧ attached port = some model ∧ o.parked port = none
  unique : ∀ slotId slotId', o.slotPorts slotId = some port → o.slotPorts slotId' = some port →
    slotId' = slotId
  placed : ∀ model, attached port = some model →
    o.parked port = some model ∨ ∃ slotId, o.slotPorts slotId = some port

lemma At.of_parked
    (hconn : ∀ model, attached port = some model → port < o.ports.length ∧ o.isConnected port = true)
    (hparked : o.parked port = attached port) (hunbound : ∀ slotId, o.slotPorts slotId ≠ some port) :
    o.At attached port where
  connected := hconn
  parked_eq _ hmodel := hparked.symm.trans hmodel
  bound slotId hs := absurd hs (hunbound slotId)
  unique slotId _ hs := absurd hs (hunbound slotId)
  placed _ hmodel := .inl (hparked.trans hmodel)

section
variable (h : o.Inv attached)
include h

lemma Inv.of_port {attached' : ℕ → Option M} (port : ℕ)
    (hlen : o'.portModels.length = o'.ports.length)
    (hslotPort : ∀ slotId, o'.deviceModels slotId ≠ none → o'.slotPorts slotId ≠ none)
    (hat : o'.At attached' port)
    (hports : ∀ port' ≠ port, attached' port' = attached port' ∧ o'.parked port' = o.parked port' ∧
      (port' < o.ports.length ∧ o.isConnected port' = true →
        port' < o'.ports.length ∧ o'.isConnected port' = true))
    (hslots : ∀ slotId, ∀ port' ≠ port,
      (o'.slotPorts slotId = some port' ↔ o.slotPorts slotId = some port') ∧
      (o.slotPorts slotId = some port' → o'.deviceModels slotId = o.deviceModels slotId)) :
    o'.Inv attached' := by
  have hall (port' : ℕ) : o'.At attached' port' := by
    by_cases heq : port' = port
    · exact heq ▸ hat
    obtain ⟨hatt,hparked,hconn⟩ := hports port' heq
    constructor
    · exact fun model hm => hconn (h.connected port' model (hatt ▸ hm))
    · exact fun model hm => hatt.trans (h.parked_eq port' model (hparked ▸ hm))
    · intro slotId hs
      obtain ⟨hiff,hmodels⟩ := hslots slotId port' heq
      rw [hmodels (hiff.mp hs),hatt,hparked]
      exact h.bound slotId port' (hiff.mp hs)
    · exact fun slotId slotId' hs hs' => h.unique slotId slotId' port'
        ((hslots slotId port' heq).1.mp hs) ((hslots slotId' port' heq).1.mp hs')
    · intro model hm
      rw [hparked]
      exact (h.placed port' model (hatt ▸ hm)).imp_right
        fun ⟨slotId,hs⟩ => ⟨slotId,(hslots slotId port' heq).1.mpr hs⟩
  exact ⟨hlen,fun port' => (hall port').connected,fun port' => (hall port').parked_eq,
    fun slotId port' => (hall port').bound slotId,hslotPort,
    fun slotId slotId' port' => (hall port').unique slotId slotId',fun port' => (hall port').placed⟩

lemma Inv.disable (slotId : BitVec 8) : (o.disable slotId).Inv attached := by
  cases hslot : o.slotPorts slotId with
  | none =>
    have hmodel := h.deviceModels_none hslot
    have heq : o.disable slotId = o := by
      rw [Ownership.disable,hslot,← hslot,update_eq_self,hslot,← hmodel,update_eq_self]
    rw [heq]
    exact h
  | some port =>
    obtain ⟨model,hmodel,hatt,hnone⟩ := h.bound slotId port hslot
    have hset : (o.disable slotId).portModels = o.portModels.set port (some model) := by
      simp only [Ownership.disable,hslot,hmodel]
    have hparked (port' : ℕ) : (o.disable slotId).parked port' =
        if port' = port then some model else o.parked port' := parked_set hset (h.lt_length hatt)
    have hports (slot' : BitVec 8) : (o.disable slotId).slotPorts slot' =
        if slot' = slotId then none else o.slotPorts slot' := update_apply _ _ _ _
    have hmodels (slot' : BitVec 8) : (o.disable slotId).deviceModels slot' =
        if slot' = slotId then none else o.deviceModels slot' := update_apply _ _ _ _
    refine h.of_port port ?_ (fun slot' hs => ?_)
      (.of_parked (h.connected port) ?_ fun slot' hs => ?_) (fun port' hne => ?_)
      fun slot' port' hne => ?_
    · rw [hset,length_set]
      exact h.length_eq
    · rw [hmodels] at hs
      rw [hports]
      split at hs
      case isTrue => exact absurd rfl hs
      case isFalse hne => exact if_neg hne ▸ h.slotPort slot' hs
    · rw [hparked,if_pos rfl,hatt]
    · rw [hports] at hs
      split at hs
      case isTrue => cases hs
      case isFalse hne => exact hne (h.unique slotId slot' port hslot hs)
    · exact ⟨rfl,by rw [hparked,if_neg hne],id⟩
    · rw [hports,hmodels]
      by_cases heq : slot' = slotId
      · rw [if_pos heq,heq,hslot]
        exact ⟨⟨nofun,fun hs => absurd (some.inj hs).symm hne⟩,
          fun hs => absurd (some.inj hs).symm hne⟩
      · rw [if_neg heq,if_neg heq]
        exact ⟨Iff.rfl,fun _ => rfl⟩

variable {port : ℕ} {slotId : BitVec 8}

lemma Inv.bind (hport : o.parked port = some model) (hslot : o.deviceModels slotId = none) :
    (o.bind slotId port model).Inv attached := by
  have hatt := h.parked_eq port model hport
  have hfree : o.slotPorts slotId = none := by
    by_contra hne
    obtain ⟨port',hport'⟩ := ne_none_iff_exists'.mp hne
    obtain ⟨model',hmodel',_⟩ := h.bound slotId port' hport'
    rw [hslot] at hmodel'
    cases hmodel'
  have hparked (port' : ℕ) : (o.bind slotId port model).parked port' =
      if port' = port then none else o.parked port' := parked_set rfl (h.lt_length hatt)
  have hports (slot' : BitVec 8) : (o.bind slotId port model).slotPorts slot' =
      if slot' = slotId then some port else o.slotPorts slot' := update_apply _ _ _ _
  have hmodels (slot' : BitVec 8) : (o.bind slotId port model).deviceModels slot' =
      if slot' = slotId then some model else o.deviceModels slot' := update_apply _ _ _ _
  -- no slot but the new one has its model from the port whose model is parked
  have honly (slot' : BitVec 8) (hs : (o.bind slotId port model).slotPorts slot' = some port) :
      slot' = slotId := by
    by_contra hne
    rw [hports,if_neg hne] at hs
    obtain ⟨_,_,_,hnone⟩ := h.bound slot' port hs
    rw [hport] at hnone
    cases hnone
  refine h.of_port port ?_ (fun slot' hs => ?_)
    ⟨h.connected port,fun model' hp => ?_,fun slot' hs => ?_,fun slot' slot'' hs hs' => ?_,
      fun _ _ => .inr ⟨slotId,by rw [hports,if_pos rfl]⟩⟩ (fun port' hne => ?_)
    fun slot' port' hne => ?_
  · show (o.portModels.set port none).length = _
    rw [length_set]
    exact h.length_eq
  · rw [hmodels] at hs
    rw [hports]
    split
    case isTrue => exact some_ne_none _
    case isFalse hne =>
      rw [if_neg hne] at hs
      exact h.slotPort slot' hs
  · rw [hparked,if_pos rfl] at hp
    cases hp
  · rw [hmodels,if_pos (honly slot' hs),hparked,if_pos rfl]
    exact ⟨model,rfl,hatt,rfl⟩
  · rw [honly slot' hs,honly slot'' hs']
  · exact ⟨rfl,by rw [hparked,if_neg hne],id⟩
  · rw [hports,hmodels]
    by_cases heq : slot' = slotId
    · rw [if_pos heq,heq,hfree]
      exact ⟨⟨fun hs => absurd (some.inj hs).symm hne,nofun⟩,nofun⟩
    · rw [if_neg heq,if_neg heq]
      exact ⟨Iff.rfl,fun _ => rfl⟩

lemma Inv.not_conserved_bind
    (hport : o.parked port = some model) (hslot : o.deviceModels slotId ≠ none) :
    ¬(o.bind slotId port model).Conserved attached := by
  obtain ⟨lostPort,hlost⟩ := ne_none_iff_exists'.mp (h.slotPort slotId hslot)
  obtain ⟨lost,_,hatt,hnone⟩ := h.bound slotId lostPort hlost
  have hne : lostPort ≠ port := by
    rintro rfl
    rw [hport] at hnone
    cases hnone
  have hlt := h.lt_length (h.parked_eq port model hport)
  intro hcons
  rcases hcons.1 lostPort lost hatt with ⟨hparked,_⟩ | ⟨_,slot',hs,_⟩
  · rw [parked_set rfl hlt,if_neg hne,hnone] at hparked
    cases hparked
  · have hports : (o.bind slotId port model).slotPorts slot' =
        if slot' = slotId then some port else o.slotPorts slot' := update_apply _ _ _ _
    rw [hports] at hs
    split at hs
    case isTrue => exact hne (some.inj hs).symm
    case isFalse hslot' => exact hslot' (h.unique slotId slot' lostPort hlost hs)

lemma Inv.connect (speed : ℕ) :
    (o.connect port speed).Inv attached := by
  refine { h with length_eq := ?_, connected := ?_ }
  · show _ = (o.ports.set port _).length
    rw [length_set]
    exact h.length_eq
  · intro port' model hp
    obtain ⟨hlt,hconn⟩ := h.connected port' model hp
    refine ⟨?_,?_⟩
    · show _ < (o.ports.set port _).length
      rw [length_set]
      exact hlt
    · by_cases hport : port < o.ports.length
      · rw [isConnected_set rfl hport]
        split
        · exact isConnected_connected speed
        · exact hconn
      · show (List.getD (o.ports.set port _) port' _).isConnected = true
        rw [set_eq_of_length_le (Nat.le_of_not_lt hport)]
        exact hconn

lemma Inv.park (hport : attached port = none)
    (hlt : port < o.ports.length) (hconn : o.isConnected port = true) (model : M) :
    (o.park port model).Inv (update attached port (some model)) := by
  have hparked (port' : ℕ) : (o.park port model).parked port' =
      if port' = port then some model else o.parked port' :=
    parked_set rfl (by rw [h.length_eq]; exact hlt)
  refine h.of_port port ?_ h.slotPort
    (.of_parked (fun _ _ => ⟨hlt,hconn⟩) ?_ (h.free hport).2) (fun port' hne => ?_)
    fun _ _ _ => ⟨Iff.rfl,fun _ => rfl⟩
  · show (o.portModels.set port _).length = _
    rw [length_set]
    exact h.length_eq
  · rw [hparked,if_pos rfl,update_self]
  · exact ⟨update_of_ne hne _ _,by rw [hparked,if_neg hne],id⟩

omit h in
lemma mem_allIds (x : BitVec 8) : x ∈ allIds :=
  List.mem_map.mpr ⟨x.toNat,mem_range.mpr x.isLt,BitVec.ofNat_toNat 8 x⟩

lemma Inv.unbindPort_slots (port : ℕ) (slotId : BitVec 8) :
    ((o.disconnect port).unbindPort port).slotPorts slotId =
      (if o.slotPorts slotId = some port then none else o.slotPorts slotId) ∧
    ((o.disconnect port).unbindPort port).deviceModels slotId =
      if o.slotPorts slotId = some port then none else o.deviceModels slotId := by
  have hports : (o.disconnect port).slotPorts = o.slotPorts := rfl
  rw [unbindPort,hports]
  cases hfind : allIds.find? fun slotId => o.slotPorts slotId == some port with
  | none =>
    have hnone : o.slotPorts slotId ≠ some port := by
      intro hs
      refine find?_eq_none.mp hfind slotId (mem_allIds slotId) ?_
      rw [hs]
      exact beq_self_eq_true _
    rw [if_neg hnone,if_neg hnone]
    exact ⟨rfl,rfl⟩
  | some found =>
    have hfound : o.slotPorts found = some port := by
      have := find?_some hfind
      exact eq_of_beq this
    have hiff : o.slotPorts slotId = some port ↔ slotId = found :=
      ⟨h.unique found slotId port hfound,fun heq => heq ▸ hfound⟩
    rw [if_congr hiff rfl rfl,if_congr hiff rfl rfl]
    exact ⟨update_apply _ _ _ _,update_apply _ _ _ _⟩

omit h in
lemma unbindPort_ports (o : Ownership M) (port : ℕ) :
    (o.unbindPort port).portModels = o.portModels ∧ (o.unbindPort port).ports = o.ports := by
  rw [unbindPort]
  split
  · exact ⟨rfl,rfl⟩
  · exact ⟨rfl,rfl⟩

lemma Inv.disconnect (hlt : port < o.ports.length) :
    ((o.disconnect port).unbindPort port).Inv (update attached port none) := by
  have hslots := h.unbindPort_slots port
  obtain ⟨hset,hset'⟩ := unbindPort_ports (o.disconnect port) port
  have hparked (port' : ℕ) : ((o.disconnect port).unbindPort port).parked port' =
      if port' = port then none else o.parked port' :=
    parked_set hset (by rw [h.length_eq]; exact hlt)
  have hlen : ((o.disconnect port).unbindPort port).ports.length = o.ports.length := by
    rw [hset']
    exact length_set
  refine h.of_port port ?_ (fun slotId hs => ?_)
    (.of_parked (fun model hm => ?_) ?_ fun slotId hs => ?_) (fun port' hne => ?_)
    fun slotId port' hne => ?_
  · rw [hlen,hset,← h.length_eq]
    exact length_set
  · rw [(hslots slotId).2] at hs
    rw [(hslots slotId).1]
    split at hs
    case isTrue => exact absurd rfl hs
    case isFalse hne => exact if_neg hne ▸ h.slotPort slotId hs
  · rw [update_self] at hm
    cases hm
  · rw [hparked,if_pos rfl,update_self]
  · rw [(hslots slotId).1] at hs
    split at hs
    case isTrue => cases hs
    case isFalse hne => exact hne hs
  · refine ⟨update_of_ne hne _ _,by rw [hparked,if_neg hne],fun hconn => ?_⟩
    rw [hlen,isConnected_set hset' hlt,if_neg hne]
    exact hconn
  · rw [(hslots slotId).1,(hslots slotId).2]
    by_cases heq : o.slotPorts slotId = some port
    · rw [if_pos heq,heq]
      exact ⟨⟨nofun,fun hs => absurd (some.inj hs).symm hne⟩,
        fun hs => absurd (some.inj hs).symm hne⟩
    · rw [if_neg heq,if_neg heq]
      exact ⟨Iff.rfl,fun _ => rfl⟩

end
end Ownership

/-! ### Runs
-/

/-- The controller with the model attached to each port: the one of the last attach that returned
the port, until the port is disconnected. -/
structure Hub (M : Type) where
  ctrl : VirtualXhciController M
  attached : ℕ → Option M

inductive HubEvent (M : Type) where
  | attach (speed : DeviceSpeed) (model : M)
  | disconnect (port : ℕ)
  | command (trb : Trb) (trbPointer : ℕ) (mem : DmaMemory)
  /-- What else happens in between: all but ports and models becomes that of a controller. -/
  | other (ctrl : VirtualXhciController M)

namespace Hub
variable {M : Type} {h : Hub M}

def start (numPorts : ℕ) : Hub M := ⟨.new numPorts,fun _ => none⟩

def step (h : Hub M) : HubEvent M → Hub M
  | .attach speed model =>
    let r := h.ctrl.attachDeviceWithModel speed model
    match r.1 with
    | none => ⟨r.2,h.attached⟩
    | some port => ⟨r.2,update h.attached port (some model)⟩
  | .disconnect port => ⟨(h.ctrl.disconnectDevice port).2,update h.attached port none⟩
  | .command trb trbPointer mem => ⟨(h.ctrl.executeCommand trb trbPointer mem).1,h.attached⟩
  | .other ctrl =>
    { h with
      ctrl := { ctrl with
        op := { ctrl.op with ports := h.ctrl.op.ports }
        deviceModels := h.ctrl.deviceModels
        slotPorts := h.ctrl.slotPorts
        portModels := h.ctrl.portModels } }

def run (h : Hub M) (events : List (HubEvent M)) : Hub M := events.foldl step h

def Conserved (h : Hub M) : Prop := h.ctrl.ownership.Conserved h.attached

/-- The event is not an Address Device that takes a parked model to a slot which holds one. -/
def Keeps (h : Hub M) : HubEvent M → Prop
  | .command trb _ mem => ∀ slotId port, h.ctrl.Addresses trb mem slotId port →
      h.ctrl.ownership.parked port ≠ none → h.ctrl.deviceModels slotId = none
  | _ => True

lemma inv_start (numPorts : ℕ) : (start numPorts : Hub M).ctrl.ownership.Inv fun _ => none := by
  have hparked (port : ℕ) : (start numPorts : Hub M).ctrl.ownership.parked port = none := by
    show (replicate numPorts none).getD port none = none
    rw [getD_eq_getElem?_getD,getElem?_replicate]
    split <;> rfl
  refine
    { length_eq := ?_
      connected := fun _ _ hp => nomatch hp
      parked_eq := ?_
      bound := fun _ _ hs => nomatch hs
      slotPort := fun _ hs => absurd rfl hs
      unique := fun _ _ _ hs => nomatch hs
      placed := fun _ _ hp => nomatch hp }
  · show (replicate numPorts none).length = (replicate numPorts _).length
    rw [length_replicate,length_replicate]
  · intro port model hp
    rw [hparked] at hp
    cases hp

section
variable (hinv : h.ctrl.ownership.Inv h.attached)
include hinv

lemma inv_attach (speed : DeviceSpeed) (model : M) :
    (h.step (.attach speed model)).ctrl.ownership.Inv (h.step (.attach speed model)).attached := by
  rcases ownership_attachDeviceWithModel (c := h.ctrl) speed model with
    ⟨hnone,hown⟩ | ⟨port,hsome,hlt,hfree,hown⟩
  · simp only [step,hnone]
    rcases hown with heq | ⟨port,heq⟩
    · rw [heq]
      exact hinv
    · rw [heq]
      exact hinv.connect _
  · simp only [step,hsome]
    rw [hown]
    have hport : h.attached port = none := by
      cases hatt : h.attached port with
      | none => rfl
      | some model' =>
        rw [(hinv.connected port model' hatt).2] at hfree
        cases hfree
    refine (hinv.connect _).park hport ?_ ?_ model
    · show _ < (List.set _ _ _).length
      rw [length_set]
      exact hlt
    · rw [Ownership.isConnected_set rfl hlt,if_pos rfl]
      exact Ownership.isConnected_connected _

lemma inv_disconnect (port : ℕ) :
    (h.step (.disconnect port)).ctrl.ownership.Inv (h.step (.disconnect port)).attached := by
  show (h.ctrl.disconnectDevice port).2.ownership.Inv (update h.attached port none)
  rw [ownership_disconnectDevice]
  split
  case isTrue hlt => exact hinv.disconnect hlt
  case isFalse hge =>
    -- nothing is attached to a port that does not exist
    have hport : h.attached port = none := by
      cases hatt : h.attached port with
      | none => rfl
      | some model => exact absurd (hinv.connected port model hatt).1 hge
    rw [← hport,update_eq_self]
    exact hinv

lemma inv_command {trb : Trb} {trbPointer : ℕ}
    {mem : DmaMemory} (hkeep : h.Keeps (.command trb trbPointer mem)) :
    (h.ctrl.executeCommand trb trbPointer mem).1.ownership.Inv h.attached := by
  rcases ownership_executeCommand (c := h.ctrl) mem trb trbPointer with
    heq | ⟨slotId,heq⟩ | ⟨slotId,port,haddr⟩
  · rw [heq]
    exact hinv
  · rw [heq]
    exact hinv.disable slotId
  · rw [ownership_of_addresses haddr,ownership_bindModel]
    cases hparked : h.ctrl.ownership.parked port with
    | none => exact hinv
    | some model =>
      refine hinv.bind hparked (hkeep slotId port haddr ?_)
      rw [hparked]
      exact some_ne_none _

lemma keeps_of_conserved {e : HubEvent M} (hcons : (h.step e).Conserved) : h.Keeps e := by
  cases e with
  | attach speed model => trivial
  | disconnect port => trivial
  | other ctrl => trivial
  | command trb trbPointer mem =>
    intro slotId port haddr hparked
    obtain ⟨model,hmodel⟩ := ne_none_iff_exists'.mp hparked
    by_contra hslot
    refine hinv.not_conserved_bind hmodel hslot ?_
    have heq : (h.ctrl.executeCommand trb trbPointer mem).1.ownership =
        h.ctrl.ownership.bind slotId port model := by
      rw [ownership_of_addresses haddr,ownership_bindModel,hmodel]
    rw [← heq]
    exact hcons

end

/-- Every attached model is in exactly one place in every state of a run if and only if no event
of it is an Address Device that takes a parked model to a slot which holds one. -/
theorem run_conserved_iff (numPorts : ℕ) (events : List (HubEvent M)) :
    (∀ k, Conserved ((start numPorts).run (events.take k))) ↔
      ∀ k e, events[k]? = some e → Keeps ((start numPorts).run (events.take k)) e := by
  refine Runs.forall_take_iff (I := fun h => h.ctrl.ownership.Inv h.attached)
    (fun _ hinv => hinv.conserved) ?_ (fun _ _ hinv => keeps_of_conserved hinv) (inv_start numPorts)
    events
  intro h e hinv hkeep
  cases e with
  | attach speed model => exact inv_attach hinv speed model
  | disconnect port => exact inv_disconnect hinv port
  | command trb trbPointer mem => exact inv_command hinv hkeep
  | other ctrl => exact hinv

lemma not_conserved_of_lost {port : ℕ} {model : M} (hattached : h.attached port = some model)
    (hparked : h.ctrl.ownership.parked port = none)
    (hunbound : ∀ slotId, h.ctrl.deviceModels slotId ≠ some model) : ¬h.Conserved := by
  intro hcons
  rcases hcons.1 port model hattached with ⟨hsome,_⟩ | ⟨_,slotId,_,hmodel,_⟩
  · rw [hparked] at hsome
    cases hsome
  · exact hunbound slotId hmodel

lemma end_le (gpa n : ℕ) (h : decide (gpa+n ≤ 0x10000) = true) : gpa+n ≤ 2^64 :=
  le_trans (of_decide_eq_true h) (by decide)

/-- Guest memory with an input context at `0x1000` that adds the slot and the control endpoint
and names a root-hub port. -/
def addressing (port : UInt8) : DmaMemory where
  ok := fun gpa n => gpa+n ≤ 0x10000
  byte := fun a => if a = 0x1004 then 3 else if a = 0x1026 then port else 0
  ok_le := end_le

/-- Slot 1 is addressed for the first device, then for the second. The first is still connected, and
its model is neither parked nor bound to a slot. -/
theorem run_readdress_lost :
    let enabled : VirtualXhciController ℕ :=
      { new 4 with op := { OperationalRegisters.new 4 with config := 32 } }
    let h := (start 4).run [.other enabled,.attach .high 1,.attach .high 2,
      .command ⟨0,0,0x2400⟩ 0 (addressing 1),.command ⟨0x1000,0,0x1002C00⟩ 0 (addressing 1),
      .command ⟨0x1000,0,0x1002C00⟩ 0 (addressing 2)]
    h.attached 0 = some 1 ∧ h.ctrl.ownership.isConnected 0 = true ∧
      h.ctrl.ownership.parked 0 = none ∧ (∀ slotId, h.ctrl.deviceModels slotId ≠ some 1) ∧
      ¬h.Conserved := by
  intro enabled h
  have hattached : h.attached 0 = some 1 := by decide +kernel
  have hparked : h.ctrl.ownership.parked 0 = none := by decide +kernel
  have hunbound : ∀ slotId, h.ctrl.deviceModels slotId ≠ some 1 := by decide +kernel
  exact ⟨hattached,by decide +kernel,hparked,hunbound,
    not_conserved_of_lost hattached hparked hunbound⟩

end Hub
end Enlil.Devices.Xhci
