import Enlil.Devices.Xhci.Service

/-! # What servicing can change -/

namespace Enlil.Devices.Xhci
open List Function Option Loop TransferRing VirtualXhciController

def InterrupterRegisterSet.post (i : InterrupterRegisterSet) (trb : Trb) : InterrupterRegisterSet :=
  let posted := i.eventRing.postEvent trb
  if posted.1 then { i with eventRing := posted.2 }.setPending else i

/-! ### Commands -/

namespace VirtualXhciController
variable {M : Type} {c c' c'' : VirtualXhciController M}

/-- No event is posted and no ring gets longer. -/
structure Keeps (c c' : VirtualXhciController M) : Prop where
  interrupter : c'.interrupter = c.interrupter
  commandRing : c'.commandRing = c.commandRing
  ringLen_le : ∀ key, c'.ringLen key ≤ c.ringLen key

lemma Keeps.refl (c : VirtualXhciController M) : Keeps c c :=
  ⟨rfl,rfl,fun _ => Nat.le_refl _⟩

lemma Keeps.trans (h : Keeps c c') (h' : Keeps c' c'') : Keeps c c'' :=
  ⟨h'.interrupter.trans h.interrupter,h'.commandRing.trans h.commandRing,
    fun key => Nat.le_trans (h'.ringLen_le key) (h.ringLen_le key)⟩

lemma Keeps.of_eq (hi : c'.interrupter = c.interrupter)
    (hc : c'.commandRing = c.commandRing) (hr : c'.transferRings = c.transferRings) : Keeps c c' :=
  ⟨hi,hc,fun key => by rw [ringLen,hr,ringLen]⟩

lemma ringLen_le_of (h : ∀ key ring', c'.transferRings key = some ring' →
    ring'.len = 0 ∨ c.ringLen key = ring'.len) (key : EndpointKey) :
    c'.ringLen key ≤ c.ringLen key := by
  rw [ringLen]
  cases hring : c'.transferRings key with
  | none => exact Nat.zero_le _
  | some ring' =>
    rcases h key ring' hring with hzero | hlen
    · exact Nat.le_trans (Nat.le_of_eq hzero) (Nat.zero_le _)
    · exact Nat.le_of_eq hlen.symm

lemma ringLen_of_some {key : EndpointKey} {ring : TransferRing}
    (h : c.transferRings key = some ring) : c.ringLen key = ring.len := by
  rw [ringLen,h]
  rfl

lemma Keeps.of_drop (slotId : BitVec 8) (p : BitVec 8 → Bool) (hi : c'.interrupter = c.interrupter)
    (hc : c'.commandRing = c.commandRing)
    (hr : c'.transferRings = dropEndpoints slotId p c.transferRings) : Keeps c c' := by
  refine ⟨hi,hc,ringLen_le_of fun key ring' h => ?_⟩
  rw [hr,dropEndpoints] at h
  split at h
  · cases h
  · exact .inr (ringLen_of_some h)

lemma Keeps.of_update (key : EndpointKey) (f : TransferRing → TransferRing)
    (hi : c'.interrupter = c.interrupter)
    (hc : c'.commandRing = c.commandRing)
    (hr : c'.transferRings = update c.transferRings key ((c.transferRings key).map f))
    (hf : ∀ ring, (f ring).len = 0 ∨ (f ring).len = ring.len) : Keeps c c' := by
  refine ⟨hi,hc,ringLen_le_of fun key' ring' h => ?_⟩
  rw [hr,update_apply] at h
  split at h
  · rename_i heq
    obtain ⟨ring,hring,rfl⟩ := map_eq_some_iff.mp h
    rw [heq,ringLen_of_some hring]
    exact (hf ring).imp id Eq.symm
  · exact .inr (ringLen_of_some h)

lemma keeps_addEndpoint (slotId : BitVec 8) (added : BitVec 8 × EndpointContext) :
    Keeps c (c.addEndpoint slotId added) := by
  refine ⟨rfl,rfl,ringLen_le_of fun key ring' h => ?_⟩
  simp only [addEndpoint,update_apply] at h
  split at h
  · cases h
    exact .inl rfl
  · exact .inr (ringLen_of_some h)

lemma keeps_addEndpoints (slotId : BitVec 8) (added : List (BitVec 8 × EndpointContext)) :
    Keeps c (added.foldl (fun c' => c'.addEndpoint slotId) c) := by
  induction added generalizing c with
  | nil => exact .refl c
  | cons a rest ih => exact (keeps_addEndpoint slotId a).trans ih

lemma keeps_enableSlot : Keeps c c.enableSlot.2 := by
  simp only [enableSlot]
  split
  · exact .of_eq rfl rfl rfl
  · exact .refl c

variable {mem : DmaMemory} {ptr : ℕ} {bsr deconfigure dcs : Bool} {slotId : BitVec 8}

lemma keeps_disableSlot :
    Keeps c (c.disableSlot slotId mem).2.1 := by
  unfold disableSlot
  split
  · exact .of_drop slotId (fun _ => true) rfl rfl rfl
  · exact .refl c

lemma keeps_bindModel {port : ℕ} : Keeps c (c.bindModel slotId port) := by
  unfold bindModel
  split
  · exact .refl c
  · exact .of_eq rfl rfl rfl

lemma keeps_addressDevice :
    Keeps c (c.addressDevice slotId ptr bsr mem).2.1 := by
  simp only [addressDevice]
  split
  · split
    · exact .refl c
    · rename_i port _
      have hbind : Keeps c (c.bindModel slotId port) := keeps_bindModel
      split
      · exact hbind
      · exact hbind.trans (.of_eq rfl rfl rfl)
  · exact .refl c

lemma keeps_configureEndpoint : Keeps c (c.configureEndpoint slotId ptr deconfigure mem).2.1 := by
  simp only [configureEndpoint]
  split
  · split
    · exact .of_drop slotId (fun dci => controlDci < dci) rfl rfl rfl
    · split
      · exact .refl c
      · split
        · exact .refl c
        · split
          · exact .refl c
          · refine Keeps.trans ?_ (keeps_addEndpoints slotId _)
            exact .of_drop slotId _ rfl rfl rfl
  · exact .refl c

lemma keeps_evaluateContext :
    Keeps c (c.evaluateContext slotId ptr mem).2.1 := by
  simp only [evaluateContext]
  split
  · split
    · exact .refl c
    · split
      · split
        · exact .refl c
        · split
          · exact .refl c
          · exact .of_eq rfl rfl rfl
      · exact .refl c
  · exact .refl c

variable {slotId endpointId : BitVec 8}

lemma keeps_stopEndpoint :
    Keeps c (c.stopEndpoint slotId endpointId mem).2.1 := by
  unfold stopEndpoint
  split
  · exact .of_update (slotId,endpointId) _ rfl rfl rfl fun _ => .inr rfl
  · exact .refl c

lemma keeps_resetEndpoint :
    Keeps c (c.resetEndpoint slotId endpointId mem).2.1 := by
  unfold resetEndpoint
  split
  · split
    · exact .refl c
    · rename_i ring hring
      refine .of_update (slotId,endpointId) clearHalt rfl rfl ?_ fun _ => .inr rfl
      rw [hring]
      rfl
  · exact .refl c

lemma keeps_setTrDequeuePointer
    : Keeps c (c.setTrDequeuePointer slotId endpointId ptr dcs mem).2.1 := by
  simp only [setTrDequeuePointer]
  split
  · split
    · exact .refl c
    · exact .of_update (slotId,endpointId) _ rfl rfl rfl fun _ => .inl rfl
  · exact .refl c

lemma keeps_resetDevice :
    Keeps c (c.resetDevice slotId mem).2.1 := by
  unfold resetDevice
  split
  · exact .of_drop slotId (fun dci => controlDci < dci) rfl rfl rfl
  · exact .refl c

lemma keeps_runCommand {trb : Trb} : Keeps c (c.runCommand trb mem).2.1 := by
  simp only [runCommand]
  split
  case h_2 => exact keeps_enableSlot
  case h_3 => exact keeps_disableSlot
  case h_4 => exact keeps_addressDevice
  case h_5 => exact keeps_configureEndpoint
  case h_6 => exact keeps_evaluateContext
  case h_7 => exact keeps_stopEndpoint
  case h_8 => exact keeps_resetEndpoint
  case h_9 => exact keeps_setTrDequeuePointer
  case h_10 => exact keeps_resetDevice
  all_goals exact .refl c

end VirtualXhciController
namespace Service
variable {M : Type} {s s' s'' : Service M}

/-! ### At most one event -/

/-- A step that fetches nothing and posts no event. -/
structure Silent (s s' : Service M) : Prop where
  fetched : s'.fetched = s.fetched
  keeps : s.ctrl.Keeps s'.ctrl

/-- A step that fetches nothing and posts at most one event, as its last action. -/
inductive Completes (s : Service M) : Service M → Prop where
  | silent {t : Service M} : Silent s t → Completes s t
  | event {t : Service M} (trb : Trb) : Silent s t → Completes s (t.postEvent trb)

lemma Silent.refl (s : Service M) : Silent s s := ⟨rfl,.refl _⟩

lemma Silent.trans (h : Silent s s') (h' : Silent s' s'') : Silent s s'' :=
  ⟨h'.fetched.trans h.fetched,h.keeps.trans h'.keeps⟩

lemma Silent.completes (h : Silent s s') (h' : Completes s' s'') : Completes s s'' := by
  cases h' with
  | silent h' => exact .silent (h.trans h')
  | event trb h' => exact .event trb (h.trans h')

lemma silent_mem (mem : DmaMemory) : Silent s { s with mem := mem } := ⟨rfl,.refl _⟩

lemma silent_setControl (slotId : BitVec 8) (stage : Option ControlStage) :
    Silent s (s.setControl slotId stage) :=
  ⟨rfl,.of_eq rfl rfl rfl⟩

variable {slotId : BitVec 8}

lemma silent_askModel {ask : M → UsbTransferResult × M}
    {result : UsbTransferResult} (h : s.askModel slotId ask = (result,s')) : Silent s s' := by
  unfold askModel at h
  split at h
  · cases h
    exact .refl s
  · cases h
    exact ⟨rfl,.of_eq rfl rfl rfl⟩

lemma completes_postTransferEvent (trbPointer residual : ℕ) (code : TrbCompletionCode)
    (slotId dci : BitVec 8) :
    Completes s (s.postTransferEvent trbPointer residual code slotId dci) :=
  .event _ (.refl s)

lemma completes_completeTd (trbPointer requested transferred : ℕ) (ioc : Bool)
    (slotId dci : BitVec 8) :
    Completes s (s.completeTd trbPointer requested transferred ioc slotId dci) := by
  simp only [completeTd]
  split
  · exact completes_postTransferEvent _ _ _ _ _
  · exact .silent (.refl s)

lemma completes_stallEndpoint (slotId dci : BitVec 8) (trbPointer residual : ℕ) :
    Completes s (s.stallEndpoint slotId dci trbPointer residual) := by
  have hhalt : Silent s { s with
      ctrl := { s.ctrl with
        transferRings := update s.ctrl.transferRings (slotId,dci)
          ((s.ctrl.transferRings (slotId,dci)).map (·.halt)) } } :=
    ⟨rfl,.of_update (slotId,dci) (·.halt) rfl rfl rfl fun _ => .inr rfl⟩
  refine hhalt.completes ?_
  simp only [stallEndpoint]
  split
  · exact ((silent_setControl slotId none).trans (silent_mem _)).completes
      (completes_postTransferEvent _ _ _ _ _)
  · exact (silent_mem _).completes (completes_postTransferEvent _ _ _ _ _)

/-! ### TDs -/

lemma completes_executeControlOut {td : Td} {setup : SetupPacket} {buffers : List (ℕ × ℕ)} :
    Completes s (s.executeControlOut slotId td setup buffers) := by
  simp only [executeControlOut]
  split
  · exact completes_postTransferEvent _ _ _ _ _
  · split
    · exact (silent_setControl _ _).completes (completes_postTransferEvent _ _ _ _ _)
    · exact .silent (silent_setControl _ _)

section Execute
variable [UsbDeviceModel M] {slotId dci : BitVec 8} {td : Td}
variable {buffers : List (ℕ × ℕ)} {setup : SetupPacket}

lemma completes_executeControlIn :
    Completes s (s.executeControlIn slotId td setup buffers) := by
  simp only [executeControlIn]
  split
  · rename_i hask
    have h := silent_askModel hask
    split
    · exact (h.trans (silent_mem _)).completes (completes_postTransferEvent _ _ _ _ _)
    · exact (h.trans ((silent_mem _).trans (silent_setControl _ _))).completes
        (completes_completeTd _ _ _ _ _ _)
  · rename_i hask
    exact (silent_askModel hask).completes (completes_stallEndpoint _ _ _ _)
  · rename_i hask
    exact (silent_askModel hask).completes (completes_postTransferEvent _ _ _ _ _)

lemma completes_executeControlData {dirIn : Bool} :
    Completes s (s.executeControlData slotId td dirIn) := by
  simp only [executeControlData]
  split
  · exact completes_postTransferEvent _ _ _ _ _
  · refine (silent_setControl slotId none).completes ?_
    split
    · split
      · split
        · exact completes_executeControlIn
        · exact completes_executeControlOut
      · exact completes_postTransferEvent _ _ _ _ _
    · exact completes_postTransferEvent _ _ _ _ _

lemma silent_runControlRequest {outData : List UInt8} :
    Silent s (s.runControlRequest slotId setup outData).2 := by
  unfold runControlRequest
  split <;> exact silent_askModel (by assumption)

lemma silent_finishControl : Silent s (s.finishControl slotId).2 := by
  refine (silent_setControl slotId none).trans ?_
  simp only [finishControl]
  split
  · exact .refl _
  · exact silent_runControlRequest
  · exact silent_runControlRequest
  · exact .refl _

lemma completes_executeControlStatus {trbPointer : ℕ} {ioc : Bool} :
    Completes s (s.executeControlStatus slotId trbPointer ioc) := by
  have h : Silent s (s.finishControl slotId).2 := silent_finishControl
  refine h.completes ?_
  simp only [executeControlStatus]
  split
  · exact completes_stallEndpoint _ _ _ _
  · split
    · exact completes_postTransferEvent _ _ _ _ _
    · exact .silent (.refl _)

lemma completes_executeControlTd : Completes s (s.executeControlTd slotId td) := by
  simp only [executeControlTd]
  split
  · exact .silent (.refl s)
  · split
    · exact (silent_setControl _ _).completes (completes_postTransferEvent _ _ _ _ _)
    · exact .silent (silent_setControl _ _)
  · exact completes_executeControlData
  · exact completes_executeControlStatus
  · split
    · exact completes_postTransferEvent _ _ _ _ _
    · exact .silent (.refl s)
  · exact completes_postTransferEvent _ _ _ _ _

lemma silent_transferNormal {result : UsbTransferResult}
    (h : s.transferNormal slotId dci buffers = (result,s')) : Silent s s' := by
  simp only [transferNormal] at h
  split at h
  · exact silent_askModel h
  · split at h
    · cases h
      exact .refl s
    · exact silent_askModel h

lemma completes_executeNormalData :
    Completes s (s.executeNormalData slotId dci td buffers) := by
  simp only [executeNormalData]
  split
  · rename_i hask
    have h := silent_transferNormal hask
    split
    · exact (h.trans (silent_mem _)).completes (completes_postTransferEvent _ _ _ _ _)
    · exact (h.trans (silent_mem _)).completes (completes_completeTd _ _ _ _ _ _)
  · rename_i hask
    exact (silent_transferNormal hask).completes (completes_completeTd _ _ _ _ _ _)
  · rename_i hask
    exact (silent_transferNormal hask).completes (completes_stallEndpoint _ _ _ _)
  · rename_i hask
    exact (silent_transferNormal hask).completes (completes_postTransferEvent _ _ _ _ _)

lemma completes_executeNormalTd : Completes s (s.executeNormalTd slotId dci td) := by
  unfold executeNormalTd
  split
  · exact .silent (.refl s)
  · split
    · exact completes_postTransferEvent _ _ _ _ _
    · exact .silent (.refl s)
  · split
    · exact completes_postTransferEvent _ _ _ _ _
    · exact completes_executeNormalData

lemma completes_executeTd : Completes s (s.executeTd slotId dci td) := by
  unfold executeTd
  split
  · exact completes_executeControlTd
  · exact completes_executeNormalTd

end Execute

lemma completes_executeCommand (trb : Trb) (trbPointer : ℕ) :
    Completes s (s.executeCommand trb trbPointer) :=
  .event _ ⟨rfl,keeps_runCommand⟩

/-! ### Parts of a service call -/

/-- TRBs were fetched, events were posted one by one, and no ring got longer. -/
structure Serves (s s' : Service M) : Prop where
  fetched_le : s.fetched ≤ s'.fetched
  events : ∃ evs : List Trb,
    s'.ctrl.interrupter = evs.foldl InterrupterRegisterSet.post s.ctrl.interrupter
  commandRing_le : s'.ctrl.commandRing.ring.len ≤ s.ctrl.commandRing.ring.len
  ringLen_le : ∀ key, s'.ctrl.ringLen key ≤ s.ctrl.ringLen key

lemma Serves.refl (s : Service M) : Serves s s :=
  ⟨Nat.le_refl _,⟨[],rfl⟩,Nat.le_refl _,fun _ => Nat.le_refl _⟩

lemma Serves.trans (h : Serves s s') (h' : Serves s' s'') : Serves s s'' := by
  obtain ⟨evs,hint⟩ := h.events
  obtain ⟨evs',hint'⟩ := h'.events
  refine ⟨Nat.le_trans h.fetched_le h'.fetched_le,⟨evs ++ evs',?_⟩,
    Nat.le_trans h'.commandRing_le h.commandRing_le,
    fun key => Nat.le_trans (h'.ringLen_le key) (h.ringLen_le key)⟩
  rw [hint',hint,foldl_append]

lemma ctrl_postEvent (s : Service M) (trb : Trb) :
    ∃ usbsts, (s.postEvent trb).ctrl = { s.ctrl with
      op := { s.ctrl.op with usbsts := usbsts }
      interrupter := s.ctrl.interrupter.post trb } := by
  simp only [postEvent,postEventTrb,InterrupterRegisterSet.post]
  split
  · exact ⟨_,rfl⟩
  · exact ⟨s.ctrl.op.usbsts,rfl⟩

lemma serves_postEvent (trb : Trb) : Serves s (s.postEvent trb) := by
  obtain ⟨usbsts,h⟩ := ctrl_postEvent s trb
  refine ⟨Nat.le_refl _,⟨[trb],by rw [h]; rfl⟩,Nat.le_of_eq (by rw [h]),fun key => Nat.le_of_eq ?_⟩
  rw [ringLen,h]
  rfl

lemma Serves.of_keeps (hf : s.fetched ≤ s'.fetched) (h : s.ctrl.Keeps s'.ctrl) : Serves s s' :=
  ⟨hf,⟨[],h.interrupter⟩,Nat.le_of_eq (by rw [h.commandRing]),h.ringLen_le⟩

lemma Silent.serves (h : Silent s s') : Serves s s' :=
  .of_keeps (Nat.le_of_eq h.fetched.symm) h.keeps

lemma Completes.serves (h : Completes s s') : Serves s s' := by
  cases h with
  | silent h => exact h.serves
  | event trb h => exact h.serves.trans (serves_postEvent trb)

lemma Completes.fetched (h : Completes s s') : s'.fetched = s.fetched := by
  cases h with
  | silent h => exact h.fetched
  | event trb h => exact h.fetched

/-! ### The command ring -/

lemma commandRing_executeCommand (trb : Trb) (trbPointer : ℕ) :
    (s.executeCommand trb trbPointer).ctrl.commandRing = s.ctrl.commandRing := by
  have hkeeps : s.ctrl.Keeps (s.ctrl.runCommand trb s.mem).2.1 :=
    keeps_runCommand
  obtain ⟨usbsts,h⟩ := ctrl_postEvent
    { s with ctrl := (s.ctrl.runCommand trb s.mem).2.1, mem := (s.ctrl.runCommand trb s.mem).2.2 }
    (EventRing.commandCompletion trbPointer (s.ctrl.runCommand trb s.mem).1.1
      (s.ctrl.runCommand trb s.mem).1.2)
  rw [← hkeeps.commandRing,executeCommand,h]

lemma serves_drainCommand : Serves s s.drainCommand.2 := by
  unfold drainCommand
  split
  · exact .refl s
  · rename_i trb ring' hdeq
    have htake : Serves s { s with
        ctrl := { s.ctrl with commandRing := ring' }, fetched := s.fetched+1 } :=
      ⟨Nat.le_succ _,⟨[],rfl⟩,
        Nat.le_trans (Nat.le_succ _) (Nat.le_of_eq (TrbRing.len_dequeue hdeq)),
        fun _ => Nat.le_refl _⟩
    exact htake.trans (completes_executeCommand _ _).serves

lemma drainCommand_stop (h : s.ctrl.commandRing.ring.len = 0) : s.drainCommand = (false,s) := by
  rw [drainCommand,TrbRing.dequeue_eq_none h]

lemma drainCommand_lt (h : s.drainCommand.1 = true) :
    s.drainCommand.2.ctrl.commandRing.ring.len < s.ctrl.commandRing.ring.len := by
  unfold drainCommand at h ⊢
  split at h
  · cases h
  · rename_i trb ring' hdeq
    simp only [commandRing_executeCommand]
    exact Nat.lt_of_lt_of_le (Nat.lt_succ_self _) (Nat.le_of_eq (TrbRing.len_dequeue hdeq))

/-- The loop over the controller's own ring runs until the ring is empty. -/
lemma drainCommands_eq (s : Service M) : s.drainCommands =
    if s.drainCommand.1 then s.drainCommand.2.drainCommands else s.drainCommand.2 :=
  rounds_eq (fun s : Service M => s.ctrl.commandRing.ring.len) (fun _ => drainCommand_lt)
    (fun _ => drainCommand_stop) s

/-- `trb` is taken off the ring and executed. -/
def takeCommand (s : Service M) (trb : Trb) : Service M :=
  let ring' := { s.ctrl.commandRing with ring := s.ctrl.commandRing.ring.pop }
  let s' := { s with ctrl := { s.ctrl with commandRing := ring' }, fetched := s.fetched+1 }
  s'.executeCommand trb trb.parameter.toNat

/-- The commands on the controller's own ring are executed oldest first, each once, and none of them
puts a command back. -/
theorem drainCommands_in_order (s : Service M) :
    s.drainCommands = s.ctrl.commandRing.ring.contents.foldl takeCommand s ∧
      s.drainCommands.ctrl.commandRing.ring.contents = [] := by
  generalize hcontents : s.ctrl.commandRing.ring.contents = commands
  induction commands generalizing s with
  | nil =>
    have hdrained : s.drainCommand = (false,s) :=
      drainCommand_stop (by rw [← RingBuffer.length_contents,hcontents,length_nil])
    rw [drainCommands_eq,hdrained]
    exact ⟨rfl,hcontents⟩
  | cons trb rest ih =>
    have hempty : s.ctrl.commandRing.ring.isEmpty = false := by
      rw [← Bool.not_eq_true,RingBuffer.isEmpty_iff,hcontents]
      exact cons_ne_nil trb rest
    obtain ⟨hfront,hrest⟩ := cons_eq_cons.mp ((RingBuffer.contents_pop hempty).symm.trans hcontents)
    have htaken : s.drainCommand = (true,s.takeCommand trb) := by
      rw [drainCommand,TrbRing.dequeue,hempty,← hfront]
      rfl
    rw [drainCommands_eq,htaken]
    exact ih _ (by rw [takeCommand,commandRing_executeCommand,hrest])

lemma serves_guestCommand (r : GuestRingCursor × Service M) :
    Serves r.2 (guestCommand r).2.2 := by
  have hfetched : Serves r.2 { r.2 with fetched := r.2.fetched+r.1.trbsRead r.2.mem } :=
    .of_keeps (Nat.le_add_right _ _) (.refl _)
  simp only [guestCommand]
  split
  · exact hfetched
  · exact hfetched.trans (completes_executeCommand _ _).serves

lemma serves_commandBurst (r : GuestRingCursor × Service M) : Serves r.2 (commandBurst r).2 :=
  rounds_invariant (P := fun r' => Serves r.2 r'.2)
    (fun r' h => h.trans (serves_guestCommand r')) (.refl r.2)

lemma serves_processCommandRing : Serves s s.processCommandRing := by
  simp only [processCommandRing]
  split
  · split
    · exact rounds_invariant (fun _ h => h.trans serves_drainCommand) (Serves.refl s)
    · -- the cursor is taken out, moved along and put back
      have htake : Serves s { s with ctrl := { s.ctrl with guestCommandRing := none } } :=
        .of_keeps (Nat.le_refl _) (.of_eq rfl rfl rfl)
      have hburst := fun cur : GuestRingCursor => serves_commandBurst
        (cur,{ s with ctrl := { s.ctrl with guestCommandRing := none } })
      exact (htake.trans (hburst _)).trans
        (.of_keeps (Nat.le_refl _) (.of_eq rfl rfl rfl))
  · exact .refl s

/-! ### Transfer rings -/

section Transfers
variable [UsbDeviceModel M] {slotId dci : BitVec 8}
omit [UsbDeviceModel M] in
lemma serves_setRing {ring ring' : TransferRing} {n : ℕ}
    (h : s.ctrl.transferRings (slotId,dci) = some ring) (hlen : ring'.len ≤ ring.len) :
    Serves s ({ s with fetched := s.fetched+n }.setRing (slotId,dci) ring') := by
  refine ⟨Nat.le_add_right _ _,⟨[],rfl⟩,Nat.le_refl _,fun key => ?_⟩
  by_cases hkey : key = (slotId,dci)
  · rw [hkey,VirtualXhciController.ringLen_of_some h,
      VirtualXhciController.ringLen_of_some (update_self _ _ _)]
    exact hlen
  · simp only [VirtualXhciController.ringLen,setRing,update_of_ne hkey]
    exact Nat.le_refl _

lemma serves_drainTransfer : Serves s (s.drainTransfer slotId dci).2 := by
  simp only [drainTransfer]
  split
  · exact .refl s
  · rename_i ring hring
    split
    · exact .refl s
    · rename_i hbusy
      have hempty : ring.ring.ring.isEmpty = false := by
        rw [Bool.or_eq_true,not_or] at hbusy
        exact Bool.eq_false_iff.mpr hbusy.2
      have hset := fun n => serves_setRing (n := n) hring (Nat.le_of_lt (len_gatherTd_lt hempty))
      split
      · exact (hset _).trans (completes_postTransferEvent _ _ _ _ _).serves
      · exact hset _
      · exact (hset _).trans completes_executeTd.serves

lemma drainTransfer_stop (h : s.ctrl.ringLen (slotId,dci) = 0) :
    s.drainTransfer slotId dci = (false,s) := by
  unfold drainTransfer
  split
  · rfl
  · rename_i ring hring
    rw [ringLen_of_some hring] at h
    have hempty : ring.ring.ring.isEmpty = true := by
      rw [RingBuffer.isEmpty_iff]
      exact eq_nil_of_length_eq_zero (by rw [RingBuffer.length_contents]; exact h)
    rw [hempty,Bool.or_true,if_pos rfl]

lemma drainTransfer_lt (h : (s.drainTransfer slotId dci).1 = true) :
    (s.drainTransfer slotId dci).2.ctrl.ringLen (slotId,dci) < s.ctrl.ringLen (slotId,dci) := by
  simp only [drainTransfer] at h ⊢
  cases hring : s.ctrl.transferRings (slotId,dci) with
  | none => simp [hring] at h
  | some ring =>
    cases hbusy : (ring.halted || ring.ring.ring.isEmpty) with
    | true => simp [hring,hbusy] at h
    | false =>
      have hempty : ring.ring.ring.isEmpty = false := (Bool.or_eq_false_iff.mp hbusy).2
      have hafter : ∀ {n : ℕ} {t : Service M},
          Serves ({ s with fetched := n }.setRing (slotId,dci) ring.gatherTd.2) t →
          t.ctrl.ringLen (slotId,dci) < ring.len := by
        intro n t hserves
        refine Nat.lt_of_le_of_lt (hserves.ringLen_le _) ?_
        rw [ringLen_of_some (update_self _ _ _)]
        exact len_gatherTd_lt hempty
      rw [ringLen_of_some hring]
      simp only [hbusy,Bool.false_eq_true,if_false]
      split
      · exact hafter (completes_postTransferEvent _ _ _ _ _).serves
      · exact hafter (.refl _)
      · exact hafter completes_executeTd.serves

/-- The loop over the controller's own ring of an endpoint runs until the ring is empty, the
endpoint is halted or nothing is gathered. -/
lemma drainInternalTransferRing_eq (s : Service M) (slotId dci : BitVec 8) :
    s.drainInternalTransferRing slotId dci =
      if (s.drainTransfer slotId dci).1 then
        (s.drainTransfer slotId dci).2.drainInternalTransferRing slotId dci
      else (s.drainTransfer slotId dci).2 :=
  rounds_eq (fun s : Service M => s.ctrl.ringLen (slotId,dci)) (fun _ => drainTransfer_lt)
    (fun _ => drainTransfer_stop) s

lemma serves_drainInternalTransferRing : Serves s (s.drainInternalTransferRing slotId dci) :=
  rounds_invariant (fun _ h => h.trans serves_drainTransfer) (Serves.refl s)

variable {fuel : ℕ} {cur cur' : GuestRingCursor}

lemma serves_transferRound {go : Bool}
    (h : transferRound slotId dci cur s fuel = some (go,cur',s')) : Serves s s' := by
  obtain ⟨r,_,hr⟩ := map_eq_some_iff.mp h
  have hfetched : Serves s { s with fetched := s.fetched+gatherReads s.mem fuel cur } :=
    .of_keeps (Nat.le_add_right _ _) (.refl _)
  simp only at hr
  split at hr
  · cases hr
    exact hfetched
  · cases hr
    exact hfetched.trans completes_executeTd.serves
  · cases hr
    exact hfetched.trans (completes_postTransferEvent _ _ _ _ _).serves

lemma serves_transferBurst {n fuel : ℕ}
    (h : transferBurst slotId dci n cur s fuel = some (cur',s')) : Serves s s' := by
  induction n generalizing cur s with
  | zero =>
    cases h
    exact .refl _
  | succ n ih =>
    obtain ⟨⟨go,cur₁,s₁⟩,hround,hrest⟩ := bind_eq_some_iff.mp h
    have hone := serves_transferRound hround
    cases go with
    | false =>
      cases hrest
      exact hone
    | true => exact hone.trans (ih hrest)

omit [UsbDeviceModel M] in
lemma serves_setGuestRing (key : EndpointKey) (cur : Option GuestRingCursor) :
    Serves s (s.setGuestRing key cur) :=
  .of_keeps (Nat.le_refl _) (.of_eq rfl rfl rfl)

lemma serves_processGuestTransferRing
    (h : s.processGuestTransferRing slotId dci fuel = some s') : Serves s s' := by
  unfold processGuestTransferRing at h
  split at h
  · cases h
    exact .refl s
  · obtain ⟨⟨cur',s₁⟩,hburst,rfl⟩ := map_eq_some_iff.mp h
    exact (serves_setGuestRing _ _).trans
      ((serves_transferBurst hburst).trans (serves_setGuestRing _ _))

lemma serves_processTransferRing
    (h : s.processTransferRing slotId dci fuel = some s') : Serves s s' := by
  simp only [processTransferRing] at h
  split at h
  · cases h
    exact .refl s
  · have hdrain : Serves s (s.drainInternalTransferRing slotId dci) :=
      serves_drainInternalTransferRing
    split at h
    · exact hdrain.trans (serves_processGuestTransferRing h)
    · cases h
      exact hdrain

/-! ### Doorbells
-/

lemma serves_serviceTarget {target : DoorbellTarget}
    (h : s.serviceTarget target fuel = some s') : Serves s s' := by
  cases target with
  | hostCommand =>
    cases h
    exact serves_processCommandRing
  | controlEndpoint slotId => exact serves_processTransferRing h
  | endpoint slotId dci => exact serves_processTransferRing h
  | stream slotId dci streamId => exact serves_processTransferRing h

lemma serves_serviceTargets {targets : List DoorbellTarget}
    (h : serviceTargets targets s fuel = some s') : Serves s s' := by
  induction targets generalizing s with
  | nil =>
    cases h
    exact .refl _
  | cons target rest ih =>
    obtain ⟨s₁,hone,hrest⟩ := bind_eq_some_iff.mp h
    exact (serves_serviceTarget hone).trans (ih hrest)

end Transfers
end Service
end Enlil.Devices.Xhci
