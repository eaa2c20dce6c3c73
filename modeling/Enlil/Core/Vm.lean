import Enlil.Core.Memory

/-! # Virtual machines and their resources: model of `Hypervisor::add_vm` -/

namespace Enlil.Core
open Word List MemoryManager OrdMap MemoryRegion Bool

structure GuestMemoryConfig where
  sizeMb : ℕ
  deriving DecidableEq, Repr

inductive SchedulingPolicy where
  | dedicated
  | timeSlice (quantumMs : ℕ)
  | auto
  deriving DecidableEq, Repr

inductive SerialOutputMode where
  | stdout
  | file (path : String)
  | null
  | buffer
  | shared (handle : ℕ)
  deriving DecidableEq, Repr

structure SerialConfig where
  basePort : ℕ
  irq : ℕ
  mode : SerialOutputMode

def SerialConfig.default : SerialConfig := ⟨0x3F8,4,.stdout⟩

structure SerialOutput where
  linePrefix : String
  mode : SerialOutputMode
  lineBuf : List ℕ
  memBuf : List ℕ

def SerialOutput.new (guestName : String) (mode : SerialOutputMode) : SerialOutput :=
  ⟨s!"[{guestName}] ",mode,[],[]⟩

structure UartState where
  ier : ℕ
  lcr : ℕ
  mcr : ℕ
  lsrOverrides : ℕ
  msr : ℕ
  msrLoopDelta : ℕ
  scr : ℕ
  fifoEnabled : Bool
  divisor : ℕ
  rxFifo : List ℕ
  thrEmptyPending : Bool
  irqLevel : Bool
  output : SerialOutput

def UartState.new (output : SerialOutput) : UartState where
  ier := 0
  lcr := 0x03
  mcr := 0
  lsrOverrides := 0
  msr := 0
  msrLoopDelta := 0
  scr := 0
  fifoEnabled := false
  divisor := 0x000C
  rxFifo := []
  thrEmptyPending := false
  irqLevel := false
  output := output

structure SerialMultiplexer where
  guests : OrdMap String UartState

def SerialMultiplexer.addGuest (mux : SerialMultiplexer) (guestId : String)
    (config : SerialConfig) : SerialMultiplexer :=
  ⟨mux.guests.insert guestId (.new (.new guestId config.mode))⟩

/-- The part of a VM's configuration that creating it reads. -/
structure VmConfig where
  name : String
  cpus : List ℕ
  memory : GuestMemoryConfig
  scheduling : SchedulingPolicy
  serialOutput : SerialOutputMode
  deriving DecidableEq, Repr

inductive VmState where
  | created
  | booting
  | running
  | paused
  | stopped
  | failed
  deriving DecidableEq, Repr

structure VcpuConfig where
  id : ℕ
  pinnedCore : Option ℕ
  deriving DecidableEq, Repr

inductive VcpuState where
  | created
  | running
  | paused
  | stopped
  deriving DecidableEq, Repr

structure VcpuManager where
  guestId : String
  configs : List VcpuConfig
  states : List VcpuState
  policy : SchedulingPolicy
  deriving DecidableEq, Repr

def VcpuManager.new (guestId : String) (cores : List ℕ) (policy : SchedulingPolicy) :
    VcpuManager where
  guestId := guestId
  configs := cores.mapIdx fun i core => ⟨i%2^32,some core⟩
  states := List.replicate cores.length .created
  policy := policy

structure Vm where
  config : VmConfig
  state : VmState
  vcpuManager : VcpuManager
  deriving DecidableEq, Repr

def Vm.name (vm : Vm) : String := vm.config.name

def Vm.new (config : VmConfig) : Except Error Vm :=
  if config.cpus.isEmpty then .error (.vm "guest must have at least one CPU")
  else if config.memory.sizeMb = 0 then .error (.memory "guest memory must be > 0")
  else .ok ⟨config,.created,.new config.name config.cpus config.scheduling⟩

structure Hypervisor where
  vms : List Vm
  memoryManager : MemoryManager
  serialMux : SerialMultiplexer

namespace Hypervisor

def new (totalHostMemory reservedBytes : ℕ) : Hypervisor :=
  ⟨[],.new totalHostMemory reservedBytes,⟨.empty⟩⟩

def requested (config : VmConfig) : ℕ := mul64 (mul64 config.memory.sizeMb 1024) 1024

def addVm (h : Hypervisor) (config : VmConfig) : Except Error ℕ × Hypervisor :=
  match h.memoryManager.allocate config.name (requested config) with
  | (.error e,memoryManager) => (.error (.memory e.toString),{ h with memoryManager })
  | (.ok _,memoryManager) =>
    let serialMux := h.serialMux.addGuest config.name
      { SerialConfig.default with mode := config.serialOutput }
    match Vm.new config with
    | .error e => (.error e,{ h with memoryManager, serialMux })
    | .ok vm => (.ok h.vms.length,⟨h.vms ++ [vm],memoryManager,serialMux⟩)

/-! ## What is to be kept -/

def mebibytes (sizeMb : ℕ) : ℕ := (sizeMb*2^20+(2^21-1))/2^21*2^21

/-- The guests that own a region are the VMs, and each region has the configured size. -/
structure InStep (h : Hypervisor) : Prop where
  owns_iff : ∀ guestId, h.memoryManager.owns guestId = true ↔ ∃ vm ∈ h.vms, vm.name = guestId
  size_eq : ∀ r ∈ h.memoryManager.regions.values, ∀ vm ∈ h.vms, vm.name = r.guestId →
    r.size = mebibytes vm.config.memory.sizeMb

structure Turn where
  before : Hypervisor
  result : Except Error ℕ
  after : Hypervisor

def Turn.step (t : Turn) (config : VmConfig) : Turn :=
  ⟨t.after,(t.after.addVm config).1,(t.after.addVm config).2⟩

def turnAt (totalHostMemory reservedBytes : ℕ) (configs : List VmConfig) (k : ℕ) : Turn :=
  (configs.take k).foldl Turn.step
    ⟨new totalHostMemory reservedBytes,.ok 0,new totalHostMemory reservedBytes⟩

/-- VMs and memory are in step after the call, and if it returned an error then nothing changed. -/
structure Turn.Kept (t : Turn) : Prop where
  inStep : t.after.InStep
  unchanged : ∀ e, t.result = .error e → t.after.vms = t.before.vms ∧
    t.after.memoryManager = t.before.memoryManager ∧
      t.after.serialMux.guests = t.before.serialMux.guests

/-- The memory manager turns the range from `base` to `top` down: the name is taken, there is no
room, or (with a bump pointer that has wrapped around) an empty region would begin inside another.
-/
def RefusesAt (h : Hypervisor) (config : VmConfig) (base size top : ℕ) : Prop :=
  h.memoryManager.owns config.name = true ∨ h.memoryManager.totalBytes < top ∨
    (¬ h.memoryManager.checkOverlap base size config.name = .ok () ∧ top = h.memoryManager.nextBase)

/-- The one configured size that the 64-bit products do not change: the bytes are taken for
mebibytes, and the upper bits of the result are lost. -/
def unchangedSizeMb : ℕ := 15*2^40-2^24+15*2^20-1

/-- There are CPUs, the size is the one that is kept, and the range goes where no other region is.
-/
structure SuitsAt (h : Hypervisor) (config : VmConfig) (base size : ℕ) : Prop where
  cpus : config.cpus ≠ []
  sizeMb_eq : config.memory.sizeMb = unchangedSizeMb
  overlap : h.memoryManager.checkOverlap base size config.name = .ok ()
  fresh : ∀ e ∈ h.memoryManager.regions.entries, e.1 ≠ base

def nextRegion (h : Hypervisor) : ℕ := alignUp h.memoryManager.nextBase largePageSize

def regionSize (config : VmConfig) : ℕ := MemoryManager.sizeOfMb (requested config)

/-- The memory manager turns the call down and keeps its state. -/
def Refuses (h : Hypervisor) (config : VmConfig) : Prop :=
  h.RefusesAt config h.nextRegion (regionSize config) (add64 h.nextRegion (regionSize config))

def Suits (h : Hypervisor) (config : VmConfig) : Prop :=
  h.SuitsAt config h.nextRegion (regionSize config)

/-! ## What a call does -/

/-- What an allocation of the range from `base` to `top` can do while there are no free blocks. -/
inductive Allocates (m : MemoryManager) (guestId : String) (base size top : ℕ) :
    Except Error ℕ × MemoryManager → Prop
  | owned (e : Error) (h : m.owns guestId = true) : Allocates m guestId base size top (.error e,m)
  | full (e : Error) (h : m.totalBytes < top) : Allocates m guestId base size top (.error e,m)
  | overlap (e : Error) (hfree : m.owns guestId = false) (hroom : ¬ m.totalBytes < top)
      (h : ¬ m.checkOverlap base size guestId = .ok ()) :
      Allocates m guestId base size top (.error e,{ m with nextBase := top })
  | enter (hfree : m.owns guestId = false) (hroom : ¬ m.totalBytes < top)
      (h : m.checkOverlap base size guestId = .ok ()) :
      Allocates m guestId base size top
        (.ok base,{ m with nextBase := top }.register guestId base size)

lemma checkOverlap_nextBase (m : MemoryManager) (base size top : ℕ) (guestId : String) :
    checkOverlap { m with nextBase := top } base size guestId =
      m.checkOverlap base size guestId := rfl

lemma allocates (m : MemoryManager) (guestId : String) (sizeMb : ℕ) (hnil : m.freeList = []) :
    Allocates m guestId (alignUp m.nextBase largePageSize) (sizeOfMb sizeMb)
      (add64 (alignUp m.nextBase largePageSize) (sizeOfMb sizeMb))
      (m.allocate guestId sizeMb) := by
  simp only [allocate]
  generalize sizeOfMb sizeMb = size
  have hplace : m.place guestId size = m.bump guestId size := by
    rw [place,findFreeSlot,hnil,findIdx?_nil]
  rw [hplace,bump]
  generalize alignUp m.nextBase largePageSize = base
  generalize add64 base size = top
  cases hfree : m.owns guestId with
  | true =>
    rw [if_pos rfl]
    exact .owned _ hfree
  | false =>
    rw [if_neg Bool.false_ne_true]
    by_cases hroom : m.totalBytes < top
    · rw [if_pos hroom]
      exact .full _ hroom
    · rw [if_neg hroom]
      dsimp only
      rw [checkOverlap_nextBase]
      rcases hover : m.checkOverlap base size guestId with e | ⟨⟩
      · refine .overlap e hfree hroom fun hok => ?_
        rw [hover] at hok
        cases hok
      · exact .enter hfree hroom hover

def entered (m : MemoryManager) (guestId : String) (base size top : ℕ) : MemoryManager :=
  { m with nextBase := top }.register guestId base size

/-- A call is refused, fails on an overlap after the bump pointer moved, fails on the configuration
after the region was entered, or adds the VM. -/
inductive Adds (h : Hypervisor) (config : VmConfig) (base size top : ℕ) :
    Except Error ℕ × Hypervisor → Prop
  | refused (e : Error)
      (hr : h.memoryManager.owns config.name = true ∨ h.memoryManager.totalBytes < top) :
      Adds h config base size top (.error e,h)
  | overlap (e : Error) (hfree : h.memoryManager.owns config.name = false)
      (hroom : ¬ h.memoryManager.totalBytes < top)
      (hover : ¬ h.memoryManager.checkOverlap base size config.name = .ok ()) :
      Adds h config base size top
        (.error e,{ h with memoryManager := { h.memoryManager with nextBase := top } })
  | invalid (e : Error) (serialMux : SerialMultiplexer)
      (hfree : h.memoryManager.owns config.name = false)
      (hroom : ¬ h.memoryManager.totalBytes < top)
      (hok : h.memoryManager.checkOverlap base size config.name = .ok ())
      (hbad : config.cpus = [] ∨ config.memory.sizeMb = 0) :
      Adds h config base size top (.error e,
        { h with memoryManager := entered h.memoryManager config.name base size top, serialMux })
  | added (vm : Vm) (serialMux : SerialMultiplexer) (hvm : vm.config = config)
      (hfree : h.memoryManager.owns config.name = false)
      (hroom : ¬ h.memoryManager.totalBytes < top)
      (hok : h.memoryManager.checkOverlap base size config.name = .ok ())
      (hcpus : config.cpus ≠ []) (hmem : config.memory.sizeMb ≠ 0) :
      Adds h config base size top (.ok h.vms.length,
        ⟨h.vms ++ [vm],entered h.memoryManager config.name base size top,serialMux⟩)

lemma vm_new_cases (config : VmConfig) :
    (∃ e, Vm.new config = .error e ∧ (config.cpus = [] ∨ config.memory.sizeMb = 0)) ∨
      ∃ vm, Vm.new config = .ok vm ∧ vm.config = config ∧ config.cpus ≠ [] ∧
        config.memory.sizeMb ≠ 0 := by
  rw [Vm.new]
  split
  next hcpus => exact .inl ⟨_,rfl,.inl (isEmpty_iff.mp hcpus)⟩
  next hcpus =>
    split
    next hmem => exact .inl ⟨_,rfl,.inr hmem⟩
    next hmem => exact .inr ⟨_,rfl,rfl,fun hnil => hcpus (isEmpty_iff.mpr hnil),hmem⟩

variable {h : Hypervisor} {config : VmConfig}

lemma adds (hnil : h.memoryManager.freeList = []) :
    Adds h config h.nextRegion (regionSize config) (add64 h.nextRegion (regionSize config))
      (h.addVm config) := by
  have halloc := allocates h.memoryManager config.name (requested config) hnil
  rw [addVm]
  rw [← nextRegion,← regionSize] at halloc
  generalize h.memoryManager.allocate config.name (requested config) = result at halloc
  generalize h.nextRegion = base at halloc
  generalize regionSize config = size at halloc
  generalize add64 base size = top at halloc
  cases halloc with
  | owned e howns => exact .refused _ (.inl howns)
  | full e hfull => exact .refused _ (.inr hfull)
  | overlap e hfree hroom hover => exact .overlap _ hfree hroom hover
  | enter hfree hroom hok =>
    rcases vm_new_cases config with ⟨e,he,hbad⟩ | ⟨vm,hvm,hconfig,hcpus,hmem⟩
    · dsimp only
      rw [he]
      exact .invalid e _ hfree hroom hok hbad
    · dsimp only
      rw [hvm]
      exact .added vm _ hconfig hfree hroom hok hcpus hmem

/-! ## Runs
-/

/-- The run so far kept everything, no region was given back and no guest has two. -/
structure Turn.Sound (t : Turn) : Prop where
  kept : t.Kept
  freeList : t.after.memoryManager.freeList = []
  unique : (t.after.memoryManager.regions.values.map MemoryRegion.guestId).Nodup

lemma sound_new (totalHostMemory reservedBytes : ℕ) : Turn.Sound
      ⟨new totalHostMemory reservedBytes,.ok 0,new totalHostMemory reservedBytes⟩ where
  kept :=
    { inStep := ⟨fun guestId => iff_of_false (by simp [new,MemoryManager.owns,MemoryManager.new])
        (by simp [new]),by simp [new]⟩
      unchanged := nofun }
  freeList := rfl
  unique := .nil

variable {m : MemoryManager} {serialMux : SerialMultiplexer}

lemma inStep_enter {vm : Vm} {r : MemoryRegion}
    (hin : h.InStep) (hfree : h.memoryManager.owns vm.name = false) (hr : r.guestId = vm.name)
    (hperm : m.regions.values.Perm (r :: h.memoryManager.regions.values))
    (hsize : r.size = mebibytes vm.config.memory.sizeMb) :
    InStep ⟨h.vms ++ [vm],m,serialMux⟩ := by
  have howns : ∀ g, m.owns g = true ↔ g = vm.name ∨ h.memoryManager.owns g = true := by
    intro g
    rw [owns_iff_mem,(hperm.map _).mem_iff,map_cons,mem_cons,hr,owns_iff_mem]
  constructor
  · intro g
    rw [howns,hin.owns_iff]
    simp only [mem_append,mem_singleton]
    constructor
    · rintro (rfl | ⟨v,hv,hg⟩)
      · exact ⟨vm,.inr rfl,rfl⟩
      · exact ⟨v,.inl hv,hg⟩
    · rintro ⟨v,hv | rfl,hg⟩
      · exact .inr ⟨v,hv,hg⟩
      · exact .inl hg.symm
  · intro x hx v hv hname
    -- The name of the new VM is new, so a region and a VM of one name are both old or both new.
    have hold : ∀ v ∈ h.vms, v.name ≠ vm.name := fun v hv heq =>
      eq_false_iff.mp hfree ((hin.owns_iff vm.name).mpr ⟨v,hv,heq⟩)
    have holdr : ∀ x ∈ h.memoryManager.regions.values, x.guestId ≠ vm.name := fun x hx heq =>
      eq_false_iff.mp hfree (owns_iff_mem.mpr (heq ▸ mem_map_of_mem hx))
    rcases mem_cons.mp (hperm.mem_iff.mp hx) with rfl | hx
    · rcases mem_append.mp hv with hv | hv
      · exact absurd (hname.trans hr) (hold v hv)
      · rw [mem_singleton.mp hv]
        exact hsize
    · rcases mem_append.mp hv with hv | hv
      · exact hin.size_eq x hx v hv hname
      · rw [mem_singleton.mp hv] at hname
        exact absurd hname.symm (holdr x hx)

lemma mem_values_entered (m : MemoryManager) (guestId : String) (base size top : ℕ) :
    ⟨base,size,guestId⟩ ∈ (entered m guestId base size top).regions.values :=
  mem_map_of_mem mem_entries_insert

lemma fresh_of_inStep {base size top : ℕ} {vm : Vm}
    (hin : h.InStep) (hunique : (h.memoryManager.regions.values.map guestId).Nodup)
    (hfree : h.memoryManager.owns config.name = false)
    (hafter : InStep ⟨h.vms ++ [vm],entered h.memoryManager config.name base size top,serialMux⟩) :
    ∀ e ∈ h.memoryManager.regions.entries, e.1 ≠ base := by
  intro e he hbase
  have howned : h.memoryManager.owns e.2.guestId = true :=
    owns_iff_mem.mpr (mem_map_of_mem (mem_map_of_mem he))
  have hne : e.2.guestId ≠ config.name := fun heq =>
    eq_false_iff.mp hfree (heq ▸ howned)
  obtain ⟨v,hv,hname⟩ := (hin.owns_iff _).mp howned
  have hstill := (hafter.owns_iff _).mpr ⟨v,mem_append_left _ hv,hname⟩
  obtain ⟨r,hr,hguest⟩ := mem_map.mp (owns_iff_mem.mp hstill)
  obtain ⟨x,hx,rfl⟩ := mem_map.mp hr
  -- The region found now is not the new one, so it is the old one, which has the base of the new.
  rcases mem_entries_insert_imp hx with rfl | hold
  · exact hne hguest.symm
  · have hxe : x = e := by
      rw [OrdMap.values,map_map] at hunique
      exact inj_on_of_nodup_map hunique hold he hguest
    subst hxe
    have hnew := eq_of_mem_entries hx mem_entries_insert hbase
    rw [hnew] at hne
    exact hne rfl

lemma nextBase_eq_self {top : ℕ} (htop : top = m.nextBase) :
    { m with nextBase := top } = m := by
  subst htop
  rfl

variable {base size top : ℕ}

lemma not_refusesAt (hfree : h.memoryManager.owns config.name = false)
    (hroom : ¬ h.memoryManager.totalBytes < top)
    (hok : h.memoryManager.checkOverlap base size config.name = .ok ()) :
    ¬ h.RefusesAt config base size top := by
  rintro (howns | hfull | ⟨hover,-⟩)
  · exact eq_false_iff.mp hfree howns
  · exact hroom hfull
  · exact hover hok

lemma entered_values_perm (guestId : String) (hfresh : ∀ e ∈ m.regions.entries, e.1 ≠ base) :
    (entered m guestId base size top).regions.values.Perm
      (⟨base,size,guestId⟩ :: m.regions.values) :=
  values_insert_perm _ hfresh

lemma SuitsAt.memory (hsuits : h.SuitsAt config base size) : config.memory.sizeMb ≠ 0 := by
  rw [hsuits.sizeMb_eq]
  decide

variable {outcome : Except Error ℕ × Hypervisor}

lemma regionSize_eq (config : VmConfig) : regionSize config = config.memory.sizeMb%2^24*2^40 := by
  have hbytes : mul64 (mul64 (requested config) 1024) 1024 = config.memory.sizeMb%2^24*2^40 := by
    simp only [requested,mul64]
    omega
  rw [regionSize,sizeOfMb,hbytes]
  refine alignUp_of_dvd ?_ (.trans (by decide : _ ∣ 2^40) (Nat.dvd_mul_left _ _))
  rw [largePageSize]
  omega

lemma regionSize_eq_iff (hmem : config.memory.sizeMb ≠ 0) :
    regionSize config = mebibytes config.memory.sizeMb ↔
      config.memory.sizeMb = unchangedSizeMb := by
  rw [regionSize_eq,mebibytes,unchangedSizeMb]
  -- the size is `2 ^ 20` times its remainder, or one less; modulo `2 ^ 24` each has one solution
  rcases Nat.mod_two_eq_zero_or_one config.memory.sizeMb with heven | hodd
  · omega
  · omega

lemma Adds.kept_iff (hadds : Adds h config base size top outcome) (hin : h.InStep)
    (hunique : (h.memoryManager.regions.values.map guestId).Nodup)
    (hsize : config.memory.sizeMb ≠ 0 →
      (size = mebibytes config.memory.sizeMb ↔ config.memory.sizeMb = unchangedSizeMb)) :
    Turn.Kept ⟨h,outcome.1,outcome.2⟩ ↔
      h.RefusesAt config base size top ∨ h.SuitsAt config base size := by
  cases hadds with
  | refused e hr =>
    refine iff_of_true ⟨hin,fun e he => ⟨rfl,rfl,rfl⟩⟩ (.inl ?_)
    exact hr.imp_right .inl
  | overlap e hfree hroom hover =>
    constructor
    · intro hk
      have hmem := (hk.unchanged e rfl).2.1
      exact .inl (.inr (.inr ⟨hover,congrArg nextBase hmem⟩))
    · rintro ((howns | hfull | ⟨-,htop⟩) | hsuits)
      · exact absurd howns (eq_false_iff.mp hfree)
      · exact absurd hfull hroom
      · rw [nextBase_eq_self htop]
        exact ⟨hin,fun e he => ⟨rfl,rfl,rfl⟩⟩
      · exact absurd hsuits.overlap hover
  | invalid e serialMux hfree hroom hok hbad =>
    refine iff_of_false (fun hk => ?_) ?_
    · have hmem : entered h.memoryManager config.name base size top = h.memoryManager :=
        (hk.unchanged e rfl).2.1
      have hr := mem_values_entered h.memoryManager config.name base size top
      rw [hmem] at hr
      exact eq_false_iff.mp hfree (owns_iff_mem.mpr (mem_map_of_mem hr))
    · rintro (hr | hsuits)
      · exact not_refusesAt hfree hroom hok hr
      · exact hbad.elim hsuits.cpus hsuits.memory
  | added vm serialMux hvm hfree hroom hok hcpus hmem =>
    have hname : vm.name = config.name := congrArg VmConfig.name hvm
    constructor
    · intro hk
      refine .inr ⟨hcpus,(hsize hmem).mp ?_,hok,fresh_of_inStep hin hunique hfree hk.inStep⟩
      have hregion := hk.inStep.size_eq _ (mem_values_entered h.memoryManager config.name _ _ _) vm
        (mem_append_right _ (mem_singleton_self vm)) hname
      rwa [hvm] at hregion
    · rintro (hr | hsuits)
      · exact absurd hr (not_refusesAt hfree hroom hok)
      · refine ⟨inStep_enter hin (hname ▸ hfree) hname.symm
          (entered_values_perm config.name hsuits.fresh) ?_,nofun⟩
        rw [hvm]
        exact (hsize hmem).mpr hsuits.sizeMb_eq

lemma Adds.unique
    (hadds : Adds h config base size top outcome) (hnil : h.memoryManager.freeList = [])
    (hunique : (h.memoryManager.regions.values.map guestId).Nodup)
    (hk : h.RefusesAt config base size top ∨ h.SuitsAt config base size) :
    outcome.2.memoryManager.freeList = [] ∧
      (outcome.2.memoryManager.regions.values.map guestId).Nodup := by
  cases hadds with
  | refused => exact ⟨hnil,hunique⟩
  | overlap => exact ⟨hnil,hunique⟩
  | invalid e serialMux hfree hroom hok hbad =>
    rcases hk with hr | hsuits
    · exact absurd hr (not_refusesAt hfree hroom hok)
    · exact absurd hbad (not_or.mpr ⟨hsuits.cpus,hsuits.memory⟩)
  | added vm serialMux hvm hfree hroom hok =>
    rcases hk with hr | hsuits
    · exact absurd hr (not_refusesAt hfree hroom hok)
    · have hperm : (entered h.memoryManager config.name base size top).regions.values.Perm _ :=
        entered_values_perm config.name hsuits.fresh
      refine ⟨hnil,(hperm.map _).nodup_iff.mpr (nodup_cons.mpr ⟨fun hmem => ?_,hunique⟩)⟩
      exact eq_false_iff.mp hfree (owns_iff_mem.mpr hmem)

variable {t : Turn}

lemma kept_step_iff (hs : t.Sound) (config : VmConfig) :
    (t.step config).Kept ↔ t.after.Refuses config ∨ t.after.Suits config :=
  (adds hs.freeList).kept_iff hs.kept.inStep hs.unique regionSize_eq_iff

lemma sound_step (hs : t.Sound) {config : VmConfig}
    (hk : t.after.Refuses config ∨ t.after.Suits config) : (t.step config).Sound :=
  have hrest := (adds hs.freeList).unique hs.freeList hs.unique hk
  ⟨(kept_step_iff hs config).mpr hk,hrest.1,hrest.2⟩

/-- **VMs and memory in step.** Along a run the regions belong to the VMs and have their configured
sizes, and failed calls change nothing, iff every call is refused by the memory manager or asks for
the one size that is kept, with CPUs and where no other region is. -/
theorem addVm_kept_iff (totalHostMemory reservedBytes : ℕ) (configs : List VmConfig) :
    (∀ k, (turnAt totalHostMemory reservedBytes configs k).Kept) ↔
      ∀ k config, configs[k]? = some config →
        (turnAt totalHostMemory reservedBytes configs k).after.Refuses config ∨
          (turnAt totalHostMemory reservedBytes configs k).after.Suits config :=
  Runs.forall_take_iff (I := Turn.Sound) (fun _ hs => hs.kept) (fun _ _ hs => sound_step hs)
    (fun _ config hs => (kept_step_iff hs config).mp) (sound_new totalHostMemory reservedBytes)
    configs

/-- A guest without CPUs is turned down but keeps its region and its serial output. A valid guest
of 4096 MiB on the same host is given `2 ^ 52` bytes. -/
theorem not_kept_after_addVm :
    ¬ (turnAt (16*2^30) (512*2^20) [⟨"bad",[],⟨4096⟩,.dedicated,.null⟩] 1).Kept ∧
    ¬ (turnAt (16*2^30) (512*2^20) [⟨"vm1",[0,1],⟨4096⟩,.dedicated,.null⟩] 1).Kept := by
  constructor
  · intro hk
    have howns : (turnAt (16*2^30) (512*2^20)
        [⟨"bad",[],⟨4096⟩,.dedicated,.null⟩] 1).after.memoryManager.owns "bad" = true := by
      decide +kernel
    have hvms : (turnAt (16*2^30) (512*2^20)
        [⟨"bad",[],⟨4096⟩,.dedicated,.null⟩] 1).after.vms = [] := by
      decide +kernel
    obtain ⟨vm,hvm,-⟩ := (hk.inStep.owns_iff "bad").mp howns
    rw [hvms] at hvm
    cases hvm
  · intro hk
    have hregion : (turnAt (16*2^30) (512*2^20)
        [⟨"vm1",[0,1],⟨4096⟩,.dedicated,.null⟩] 1).after.memoryManager.regions.values =
        [⟨2^49,2^52, "vm1"⟩] := by
      decide +kernel
    have hvms : (turnAt (16*2^30) (512*2^20)
        [⟨"vm1",[0,1],⟨4096⟩,.dedicated,.null⟩] 1).after.vms =
        [⟨⟨"vm1",[0,1],⟨4096⟩,.dedicated,.null⟩,.created,
          .new "vm1" [0,1] .dedicated⟩] := by
      decide +kernel
    have hsize := hk.inStep.size_eq
    rw [hregion,hvms] at hsize
    have := hsize _ (mem_singleton_self _) _ (mem_singleton_self _) rfl
    revert this
    decide +kernel

end Hypervisor
end Enlil.Core
