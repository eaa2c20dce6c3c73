import Enlil.Devices.Xhci.Execution
import Enlil.Lib.Fuel

/-! # Termination of a service call -/

namespace Enlil.Devices.Xhci
open Option Fuel VirtualXhciController
namespace Service
variable {M : Type} [UsbDeviceModel M]
section Gathered
variable (Q : DmaMemory → GuestRingCursor → Prop)

def BurstMeets (slotId dci : BitVec 8) : ℕ → GuestRingCursor → Service M → Prop
  | 0, _, _ => True
  | n+1, cur, s => Q s.mem cur ∧
    ∀ cur' s', Fuel.Returns (transferRound slotId dci cur s) (true,cur',s') →
      BurstMeets slotId dci n cur' s'

def GuestRingMeets (s : Service M) (slotId dci : BitVec 8) : Prop :=
  ∀ cur, s.guestCursor slotId dci = some cur →
    BurstMeets Q slotId dci transferBurstLimit cur (s.setGuestRing (slotId,dci) none)

def TransferRingMeets (s : Service M) (slotId dci : BitVec 8) : Prop :=
  (!s.ctrl.slotEnabled slotId || s.isHalted slotId dci) = false →
    (s.drainInternalTransferRing slotId dci).ctrl.guestResidentTransfers = true →
      GuestRingMeets Q (s.drainInternalTransferRing slotId dci) slotId dci

def TargetMeets (s : Service M) : DoorbellTarget → Prop
  | .hostCommand => True
  | .controlEndpoint slotId => TransferRingMeets Q s slotId controlDci
  | .endpoint slotId dci => TransferRingMeets Q s slotId dci
  | .stream slotId dci _ => TransferRingMeets Q s slotId dci

def TargetsMeet : List DoorbellTarget → Service M → Prop
  | [], _ => True
  | target :: rest, s => TargetMeets Q s target ∧
    ∀ s', Fuel.Returns (s.serviceTarget target) s' → TargetsMeet rest s'

/-- `Q` holds wherever a call gathers a TD from guest memory. -/
def EachGathered (s : Service M) : Prop :=
  s.ctrl.op.isRunning = true → TargetsMeet Q s.targets s.drained

variable {Q} {Q' : DmaMemory → GuestRingCursor → Prop} {s : Service M} {slotId dci : BitVec 8}
  {cur : GuestRingCursor} {n : ℕ} {target : DoorbellTarget} {targets : List DoorbellTarget}
section
variable (hQ : ∀ mem cur, Q mem cur → Q' mem cur)
include hQ

lemma BurstMeets.mono (h : BurstMeets Q slotId dci n cur s) : BurstMeets Q' slotId dci n cur s := by
  induction n generalizing cur s with
  | zero => trivial
  | succ n ih => exact ⟨hQ _ _ h.1,fun cur' s' hr => ih (h.2 cur' s' hr)⟩

lemma TransferRingMeets.mono
    (h : TransferRingMeets Q s slotId dci) : TransferRingMeets Q' s slotId dci :=
  fun henabled hguest cur hcur => (h henabled hguest cur hcur).mono hQ

lemma TargetMeets.mono (h : TargetMeets Q s target) :
    TargetMeets Q' s target := by
  cases target with
  | hostCommand => trivial
  | controlEndpoint slotId => exact TransferRingMeets.mono hQ h
  | endpoint slotId dci => exact TransferRingMeets.mono hQ h
  | stream slotId dci streamId => exact TransferRingMeets.mono hQ h

lemma TargetsMeet.mono (h : TargetsMeet Q targets s) :
    TargetsMeet Q' targets s := by
  induction targets generalizing s with
  | nil => trivial
  | cons target rest ih => exact ⟨h.1.mono hQ,fun s' hs' => ih (h.2 s' hs')⟩

end
end Gathered

def HasEnd (mem : DmaMemory) (cur : GuestRingCursor) : Prop := ∃ n, ChainEnds mem n cur

variable {s : Service M} {slotId dci : BitVec 8} {cur : GuestRingCursor} {n : ℕ}

lemma chainEnds_of_transferRound {a : Bool × GuestRingCursor × Service M}
    (h : transferRound slotId dci cur s n = some a) : ChainEnds s.mem n cur := by
  obtain ⟨r,hgather,_⟩ := map_eq_some_iff.mp h
  exact gatherTransferTd_isSome_iff.mp (by rw [hgather]; rfl)

lemma mono_transferRound : Fuel.Mono (transferRound slotId dci cur s) := by
  intro n m a hle h
  obtain ⟨r,hgather,hr⟩ := map_eq_some_iff.mp h
  rw [transferRound,gatherTransferTd_mono hle hgather,
    (chainEnds_of_transferRound h).gatherReads_eq hle]
  exact congrArg some hr

lemma halts_transferRound_iff :
    Fuel.Halts (transferRound slotId dci cur s) ↔ HasEnd s.mem cur := by
  constructor
  · rintro ⟨_,n,h⟩
    exact ⟨n,chainEnds_of_transferRound h⟩
  · rintro ⟨n,hends⟩
    have hsome : (gatherTransferTd s.mem n cur []).isSome := gatherTransferTd_isSome_iff.mpr hends
    obtain ⟨r,hgather⟩ := isSome_iff_exists.mp hsome
    exact ⟨_,n,by rw [transferRound,hgather,map_some]⟩

private def nextRound (slotId dci : BitVec 8) (n : ℕ) (r : Bool × GuestRingCursor × Service M)
    (fuel : ℕ) : Option (GuestRingCursor × Service M) :=
  if r.1 then transferBurst slotId dci n r.2.1 r.2.2 fuel else some r.2

lemma mono_transferBurst : Fuel.Mono (transferBurst slotId dci n cur s) := by
  induction n generalizing cur s with
  | zero => exact mono_const _
  | succ n ih =>
    refine Fuel.Mono.bind (g := nextRound slotId dci n) mono_transferRound fun r => ?_
    unfold nextRound
    cases r.1 with
    | true => exact ih
    | false => exact mono_const _

lemma halts_transferBurst_iff :
    Fuel.Halts (transferBurst slotId dci n cur s) ↔ BurstMeets HasEnd slotId dci n cur s := by
  induction n generalizing cur s with
  | zero => exact iff_of_true (halts_some _) trivial
  | succ n ih =>
    have hnext : ∀ r, Fuel.Mono (nextRound (M := M) slotId dci n r) := by
      intro r
      unfold nextRound
      cases r.1 with
      | true => exact mono_transferBurst
      | false => exact mono_const _
    refine (halts_bind_iff (g := nextRound slotId dci n) mono_transferRound hnext).trans ?_
    refine and_congr halts_transferRound_iff ⟨fun h cur' s' hr => ?_,fun h r hr => ?_⟩
    · exact ih.mp (h _ hr)
    · obtain ⟨go,cur',s'⟩ := r
      cases go with
      | true => exact ih.mpr (h cur' s' hr)
      | false => exact halts_some _

lemma mono_processGuestTransferRing :
    Fuel.Mono (s.processGuestTransferRing slotId dci) := by
  unfold processGuestTransferRing
  cases s.guestCursor slotId dci with
  | none => exact mono_const _
  | some cur => exact mono_transferBurst.map _

lemma halts_processGuestTransferRing_iff :
    Fuel.Halts (s.processGuestTransferRing slotId dci) ↔ GuestRingMeets HasEnd s slotId dci := by
  unfold processGuestTransferRing GuestRingMeets
  cases s.guestCursor slotId dci with
  | none => exact iff_of_true (halts_some _) fun _ h => nomatch h
  | some cur =>
    refine (halts_map_iff.trans halts_transferBurst_iff).trans ⟨fun h cur' heq => ?_,fun h => ?_⟩
    · cases heq
      exact h
    · exact h cur rfl

lemma mono_processTransferRing : Fuel.Mono (s.processTransferRing slotId dci) := by
  unfold processTransferRing
  cases (!s.ctrl.slotEnabled slotId || s.isHalted slotId dci) with
  | true => exact mono_const _
  | false =>
    dsimp only
    cases (s.drainInternalTransferRing slotId dci).ctrl.guestResidentTransfers with
    | true => exact mono_processGuestTransferRing
    | false => exact mono_const _

lemma halts_processTransferRing_iff :
    Fuel.Halts (s.processTransferRing slotId dci) ↔ TransferRingMeets HasEnd s slotId dci := by
  unfold processTransferRing TransferRingMeets
  cases (!s.ctrl.slotEnabled slotId || s.isHalted slotId dci) with
  | true => exact iff_of_true (halts_some _) fun h => by cases h
  | false =>
    dsimp only
    cases (s.drainInternalTransferRing slotId dci).ctrl.guestResidentTransfers with
    | true => exact halts_processGuestTransferRing_iff.trans ⟨fun h _ _ => h,fun h => h rfl rfl⟩
    | false => exact iff_of_true (halts_some _) fun _ h => by cases h

variable {target : DoorbellTarget}

lemma mono_serviceTarget : Fuel.Mono (s.serviceTarget target) := by
  cases target with
  | hostCommand => exact mono_const _
  | controlEndpoint slotId => exact mono_processTransferRing
  | endpoint slotId dci => exact mono_processTransferRing
  | stream slotId dci streamId => exact mono_processTransferRing

lemma halts_serviceTarget_iff :
    Fuel.Halts (s.serviceTarget target) ↔ TargetMeets HasEnd s target := by
  cases target with
  | hostCommand => exact iff_of_true (halts_some _) trivial
  | controlEndpoint slotId => exact halts_processTransferRing_iff
  | endpoint slotId dci => exact halts_processTransferRing_iff
  | stream slotId dci streamId => exact halts_processTransferRing_iff

variable {targets : List DoorbellTarget}

lemma mono_serviceTargets :
    Fuel.Mono (serviceTargets targets s) := by
  induction targets generalizing s with
  | nil => exact mono_const _
  | cons target rest ih =>
    exact Fuel.Mono.bind (g := fun s' => serviceTargets rest s') mono_serviceTarget fun _ => ih

lemma halts_serviceTargets_iff :
    Fuel.Halts (serviceTargets targets s) ↔ TargetsMeet HasEnd targets s := by
  induction targets generalizing s with
  | nil => exact iff_of_true (halts_some _) trivial
  | cons target rest ih =>
    refine (halts_bind_iff (g := fun s' => serviceTargets rest s') mono_serviceTarget
      fun _ => mono_serviceTargets).trans ?_
    exact and_congr halts_serviceTarget_iff
      ⟨fun h s' hs' => ih.mp (h s' hs'),fun h s' hs' => ih.mpr (h s' hs')⟩

lemma halts_serviceDoorbells_iff :
    Fuel.Halts s.serviceDoorbells ↔ EachGathered HasEnd s := by
  unfold serviceDoorbells EachGathered
  cases s.ctrl.op.isRunning with
  | false => exact iff_of_true (halts_some _) fun h => by cases h
  | true =>
    refine (halts_map_iff.trans halts_serviceTargets_iff).trans ⟨fun h _ => h,fun h => h rfl⟩

section Fetched
variable {s' : Service M} {cur' : GuestRingCursor} {fuel L R : ℕ}

lemma fetched_transferRound {go : Bool}
    (h : transferRound slotId dci cur s fuel = some (go,cur',s')) :
    s'.fetched = s.fetched+gatherReads s.mem fuel cur := by
  obtain ⟨r,_,hr⟩ := map_eq_some_iff.mp h
  simp only at hr
  split at hr
  · cases hr
    rfl
  · cases hr
    exact completes_executeTd.fetched
  · cases hr
    rfl

lemma fetched_transferBurst_le
    (hmeets : BurstMeets (fun mem cur => ChainEnds mem L cur) slotId dci n cur s)
    (h : transferBurst slotId dci n cur s fuel = some (cur',s')) :
    s'.fetched ≤ s.fetched+n*(linkHopLimit*L) := by
  induction n generalizing cur s with
  | zero =>
    cases h
    exact Nat.le_add_right _ _
  | succ n ih =>
    obtain ⟨⟨go,cur₁,s₁⟩,hround,hrest⟩ := bind_eq_some_iff.mp h
    have hone := fetched_transferRound hround
    have hreads := hmeets.1.gatherReads_le fuel
    rw [Nat.succ_mul]
    cases go with
    | false =>
      cases hrest
      omega
    | true =>
      have := ih (hmeets.2 cur₁ s₁ ⟨fuel,hround⟩) hrest
      omega

lemma fetched_processGuestTransferRing_le
    (hmeets : GuestRingMeets (fun mem cur => ChainEnds mem L cur) s slotId dci)
    (h : s.processGuestTransferRing slotId dci fuel = some s') :
    s'.fetched ≤ s.fetched+transferBurstLimit*(linkHopLimit*L) := by
  unfold processGuestTransferRing at h
  split at h
  · cases h
    exact Nat.le_add_right _ _
  · rename_i cur hcur
    obtain ⟨⟨cur',s₁⟩,hburst,rfl⟩ := map_eq_some_iff.mp h
    have hfetched := fetched_transferBurst_le (hmeets cur hcur) hburst
    exact hfetched

lemma fetched_drainTransfer_le :
    (s.drainTransfer slotId dci).2.fetched+(s.drainTransfer slotId dci).2.ctrl.ringLen (slotId,dci)
      ≤ s.fetched+s.ctrl.ringLen (slotId,dci) := by
  simp only [drainTransfer]
  cases hring : s.ctrl.transferRings (slotId,dci) with
  | none => exact le_refl _
  | some ring =>
    cases hbusy : (ring.halted || ring.ring.ring.isEmpty) with
    | true => simp only [hbusy,if_true,le_refl]
    | false =>
      have hlt := TransferRing.len_gatherTd_lt (Bool.or_eq_false_iff.mp hbusy).2
      have hafter : ∀ {t : Service M}, Completes ({ s with
            fetched := s.fetched+(ring.len-ring.gatherTd.2.len) }.setRing (slotId,dci)
              ring.gatherTd.2) t →
          t.fetched+t.ctrl.ringLen (slotId,dci) ≤ s.fetched+ring.len := by
        intro t hdone
        have hlen : t.ctrl.ringLen (slotId,dci) ≤ ring.gatherTd.2.len :=
          le_trans (hdone.serves.ringLen_le _) (Nat.le_of_eq
            (ringLen_of_some (Function.update_self _ _ _)))
        have hfetched : t.fetched = s.fetched+(ring.len-ring.gatherTd.2.len) := hdone.fetched
        omega
      rw [ringLen_of_some hring]
      simp only [hbusy,Bool.false_eq_true,if_false]
      split
      · exact hafter (completes_postTransferEvent _ _ _ _ _)
      · exact hafter (.silent (.refl _))
      · exact hafter completes_executeTd

lemma fetched_drainInternalTransferRing_le : (s.drainInternalTransferRing slotId dci).fetched ≤
      s.fetched+s.ctrl.ringLen (slotId,dci) := by
  have h : (s.drainInternalTransferRing slotId dci).fetched +
      (s.drainInternalTransferRing slotId dci).ctrl.ringLen (slotId,dci) ≤
      s.fetched+s.ctrl.ringLen (slotId,dci)+s.ctrl.ringLen (slotId,dci)*0 :=
    Loop.rounds_le (fun s : Service M => s.fetched+s.ctrl.ringLen (slotId,dci))
      (fun _ => fetched_drainTransfer_le) s
  omega

omit [UsbDeviceModel M] in
lemma fetched_drainCommand_le :
    s.drainCommand.2.fetched+s.drainCommand.2.ctrl.commandRing.ring.len ≤
      s.fetched+s.ctrl.commandRing.ring.len := by
  unfold drainCommand
  split
  · exact le_refl _
  · rename_i trb ring' hdeq
    have hlen := TrbRing.len_dequeue hdeq
    rw [commandRing_executeCommand,(completes_executeCommand _ _).fetched]
    dsimp only
    omega

omit [UsbDeviceModel M] in
lemma fetched_drainCommands_le :
    s.drainCommands.fetched ≤ s.fetched+s.ctrl.commandRing.ring.len := by
  have h : s.drainCommands.fetched+s.drainCommands.ctrl.commandRing.ring.len ≤
      s.fetched+s.ctrl.commandRing.ring.len+s.ctrl.commandRing.ring.len*0 :=
    Loop.rounds_le (fun s : Service M => s.fetched+s.ctrl.commandRing.ring.len)
      (fun _ => fetched_drainCommand_le) s
  omega

omit [UsbDeviceModel M] in
lemma fetched_guestCommand_le (r : GuestRingCursor × Service M) :
    (guestCommand r).2.2.fetched ≤ r.2.fetched+linkHopLimit := by
  have hread : r.1.trbsRead r.2.mem ≤ linkHopLimit := GuestRingCursor.trbsReadWithin_le _ _ _
  simp only [guestCommand]
  split
  · exact Nat.add_le_add_left hread _
  · rw [(completes_executeCommand _ _).fetched]
    exact Nat.add_le_add_left hread _

omit [UsbDeviceModel M] in
lemma fetched_processCommandRing_le : s.processCommandRing.fetched ≤
    s.fetched+(s.ctrl.commandRing.ring.len+commandBurstLimit*linkHopLimit) := by
  simp only [processCommandRing]
  split
  · split
    · exact le_trans fetched_drainCommands_le (Nat.add_le_add_left (Nat.le_add_right _ _) _)
    · have hburst : ∀ r : GuestRingCursor × Service M,
          (commandBurst r).2.fetched ≤ r.2.fetched+commandBurstLimit*linkHopLimit :=
        Loop.rounds_le (fun r : GuestRingCursor × Service M => r.2.fetched) fetched_guestCommand_le
      exact le_trans (hburst _) (Nat.add_le_add_left (Nat.le_add_left _ _) _)
  · exact Nat.le_add_right _ _

def RingsWithin (R : ℕ) (s : Service M) : Prop :=
  s.ctrl.commandRing.ring.len ≤ R ∧ ∀ key, s.ctrl.ringLen key ≤ R

omit [UsbDeviceModel M] in
lemma Serves.ringsWithin (h : Serves s s') (hR : RingsWithin R s) : RingsWithin R s' :=
  ⟨le_trans h.commandRing_le hR.1,fun key => le_trans (h.ringLen_le key) (hR.2 key)⟩

/-- The TRBs fetched for one doorbell: bursts of commands or of TDs of up to `L` TRBs with the Link
TRBs before each. -/
def fetchBound (R L : ℕ) : ℕ :=
  R+(commandBurstLimit*linkHopLimit+transferBurstLimit*(linkHopLimit*L))

lemma fetched_processTransferRing_le (hR : RingsWithin R s)
    (hmeets : TransferRingMeets (fun mem cur => ChainEnds mem L cur) s slotId dci)
    (h : s.processTransferRing slotId dci fuel = some s') :
    s'.fetched ≤ s.fetched+fetchBound R L := by
  have hdrain : (s.drainInternalTransferRing slotId dci).fetched ≤
      s.fetched+s.ctrl.ringLen (slotId,dci) := fetched_drainInternalTransferRing_le
  have hlen := hR.2 (slotId,dci)
  simp only [processTransferRing] at h
  unfold fetchBound
  split at h
  · cases h
    exact Nat.le_add_right _ _
  · rename_i henabled
    split at h
    · rename_i hguest
      have := fetched_processGuestTransferRing_le (hmeets (Bool.eq_false_iff.mpr henabled) hguest) h
      omega
    · cases h
      omega

lemma fetched_serviceTarget_le {target : DoorbellTarget} (hR : RingsWithin R s)
    (hmeets : TargetMeets (fun mem cur => ChainEnds mem L cur) s target)
    (h : s.serviceTarget target fuel = some s') : s'.fetched ≤ s.fetched+fetchBound R L := by
  cases target with
  | hostCommand =>
    cases h
    have hcommands := fetched_processCommandRing_le (s := s)
    have hlen := hR.1
    unfold fetchBound
    omega
  | controlEndpoint slotId => exact fetched_processTransferRing_le hR hmeets h
  | endpoint slotId dci => exact fetched_processTransferRing_le hR hmeets h
  | stream slotId dci streamId => exact fetched_processTransferRing_le hR hmeets h

lemma fetched_serviceTargets_le {targets : List DoorbellTarget} (hR : RingsWithin R s)
    (hmeets : TargetsMeet (fun mem cur => ChainEnds mem L cur) targets s)
    (h : serviceTargets targets s fuel = some s') :
    s'.fetched ≤ s.fetched+targets.length*fetchBound R L := by
  induction targets generalizing s with
  | nil =>
    cases h
    exact Nat.le_add_right _ _
  | cons target rest ih =>
    obtain ⟨s₁,hone,hrest⟩ := bind_eq_some_iff.mp h
    have hfirst := fetched_serviceTarget_le hR hmeets.1 hone
    have hlater := ih ((serves_serviceTarget hone).ringsWithin hR) (hmeets.2 s₁ ⟨fuel,hone⟩) hrest
    rw [List.length_cons,Nat.succ_mul]
    omega

omit [UsbDeviceModel M] in
lemma length_targets_le : s.targets.length ≤ s.ctrl.doorbells.bells.length := by
  refine le_trans (List.length_filterMap_le _ _) ?_
  rw [List.length_zipIdx]

lemma fetched_serviceDoorbells_le (hR : RingsWithin R s)
    (hmeets : EachGathered (fun mem cur => ChainEnds mem L cur) s)
    (h : s.serviceDoorbells fuel = some s') :
    s'.fetched ≤ s.fetched+s.ctrl.doorbells.bells.length*fetchBound R L := by
  unfold serviceDoorbells at h
  split at h
  · rename_i hrunning
    obtain ⟨s₁,htargets,rfl⟩ := map_eq_some_iff.mp h
    have hfetched := fetched_serviceTargets_le (s := s.drained) hR (hmeets hrunning) htargets
    exact le_trans hfetched (Nat.add_le_add_left (Nat.mul_le_mul_right _ length_targets_le) _)
  · cases h
    exact Nat.le_add_right _ _

/-! ### A call that fetches few TRBs gathers short TDs only -/

variable {base B : ℕ}

lemma burstMeets_of_fetched (hbase : base ≤ s.fetched)
    (h : transferBurst slotId dci n cur s fuel = some (cur',s')) (hle : s'.fetched ≤ base+B) :
    BurstMeets (fun mem cur => ChainEnds mem B cur) slotId dci n cur s := by
  induction n generalizing cur s with
  | zero => trivial
  | succ n ih =>
    obtain ⟨⟨go,cur₁,s₁⟩,hround,hrest⟩ := bind_eq_some_iff.mp h
    have hone := fetched_transferRound hround
    have hlater : s₁.fetched ≤ s'.fetched := by
      cases go with
      | false =>
        cases hrest
        exact le_refl _
      | true => exact (serves_transferBurst hrest).fetched_le
    refine ⟨(chainEnds_of_transferRound hround).of_gatherReads (by omega),fun cur₂ s₂ hr => ?_⟩
    cases mono_transferRound.unique hr ⟨fuel,hround⟩
    exact ih (by omega) hrest

lemma transferRingMeets_of_fetched (hbase : base ≤ s.fetched)
    (h : s.processTransferRing slotId dci fuel = some s') (hle : s'.fetched ≤ base+B) :
    TransferRingMeets (fun mem cur => ChainEnds mem B cur) s slotId dci := by
  intro henabled hguest cur hcur
  simp only [processTransferRing,henabled,hguest,Bool.false_eq_true,if_false,if_true,
    processGuestTransferRing,hcur] at h
  obtain ⟨⟨cur',s₁⟩,hburst,rfl⟩ := map_eq_some_iff.mp h
  have hdrain : s.fetched ≤ (s.drainInternalTransferRing slotId dci).fetched :=
    serves_drainInternalTransferRing.fetched_le
  exact burstMeets_of_fetched (le_trans hbase hdrain) hburst hle

lemma targetMeets_of_fetched {target : DoorbellTarget} (hbase : base ≤ s.fetched)
    (h : s.serviceTarget target fuel = some s') (hle : s'.fetched ≤ base+B) :
    TargetMeets (fun mem cur => ChainEnds mem B cur) s target := by
  cases target with
  | hostCommand => trivial
  | controlEndpoint slotId => exact transferRingMeets_of_fetched hbase h hle
  | endpoint slotId dci => exact transferRingMeets_of_fetched hbase h hle
  | stream slotId dci streamId => exact transferRingMeets_of_fetched hbase h hle

lemma targetsMeet_of_fetched {targets : List DoorbellTarget} (hbase : base ≤ s.fetched)
    (h : serviceTargets targets s fuel = some s') (hle : s'.fetched ≤ base+B) :
    TargetsMeet (fun mem cur => ChainEnds mem B cur) targets s := by
  induction targets generalizing s with
  | nil => trivial
  | cons target rest ih =>
    obtain ⟨s₁,hone,hrest⟩ := bind_eq_some_iff.mp h
    have hlater := (serves_serviceTargets hrest).fetched_le
    refine ⟨targetMeets_of_fetched hbase hone (le_trans hlater hle),fun s₂ hr => ?_⟩
    cases mono_serviceTarget.unique hr ⟨fuel,hone⟩
    exact ih (le_trans hbase (serves_serviceTarget hone).fetched_le) hrest

lemma eachGathered_of_fetched (h : s.serviceDoorbells fuel = some s')
    (hle : s'.fetched ≤ s.fetched+B) :
    EachGathered (fun mem cur => ChainEnds mem B cur) s := by
  intro hrunning
  rw [serviceDoorbells,if_pos hrunning] at h
  obtain ⟨s₁,htargets,rfl⟩ := map_eq_some_iff.mp h
  exact targetsMeet_of_fetched (s := s.drained) (le_refl s.fetched) htargets hle

end Fetched

/-- A service call returns just when every TD it gathers from guest memory has an end. If they end
within `L` TRBs, what it fetches is bounded by its limits and `L`; and if it fetches no more than
`B` TRBs, they end within `B` TRBs. -/
theorem serviceDoorbells_returns_iff (s : Service M) :
    ((∃ fuel s', s.serviceDoorbells fuel = some s') ↔
      EachGathered (fun mem cur => ∃ n, ChainEnds mem n cur) s) ∧
    (∀ L R, RingsWithin R s → EachGathered (fun mem cur => ChainEnds mem L cur) s →
      ∃ fuel s', s.serviceDoorbells fuel = some s' ∧
        s'.fetched ≤ s.fetched+s.ctrl.doorbells.bells.length*fetchBound R L) ∧
    ∀ B fuel s', s.serviceDoorbells fuel = some s' → s'.fetched ≤ s.fetched+B →
      EachGathered (fun mem cur => ChainEnds mem B cur) s := by
  have hreturns : (∃ fuel s', s.serviceDoorbells fuel = some s') ↔ EachGathered HasEnd s :=
    exists_comm.trans halts_serviceDoorbells_iff
  refine ⟨hreturns,fun L R hR hmeets => ?_,fun B fuel s' h hle => eachGathered_of_fetched h hle⟩
  have hends : EachGathered HasEnd s := fun hrunning =>
    (hmeets hrunning).mono fun _ _ h => ⟨L,h⟩
  obtain ⟨fuel,s',h⟩ := hreturns.mpr hends
  exact ⟨fuel,s',h,fetched_serviceDoorbells_le hR hmeets h⟩

end Service
namespace Wedge

def ring : List UInt8 :=
  (⟨0,0,0x411⟩ : Trb).toBytes ++ (⟨0x1000,0,0x1801⟩ : Trb).toBytes

def memory : DmaMemory where
  ok gpa n := decide (0x1000 ≤ gpa ∧ gpa+n ≤ 0x2000)
  byte a := ring.getD (a-0x1000) 0
  ok_le gpa n h := by
    have := of_decide_eq_true h
    omega

def endpoint : EndpointContext where
  endpointType := .bulkOut
  maxPacketSize := 512
  maxBurstSize := 0
  errorCount := 3
  interval := 0
  trDequeuePointer := 0x1000
  dequeueCycleState := true
  averageTrbLength := 0

def controller : VirtualXhciController Empty :=
  let c : VirtualXhciController Empty := .new 4
  let c := { c with
    op := { c.op with usbcmd := 1, config := 32 }
    doorbells := c.doorbells.write 1 2
    guestResidentTransfers := true }
  c.enableSlot.2.addEndpoint 1 (2,endpoint)

def service (mem : DmaMemory) : Service Empty := ⟨controller,mem,0⟩

variable {mem : DmaMemory} {last k d : ℕ} {Q : DmaMemory → GuestRingCursor → Prop}

lemma targets_eq : (service mem).targets = [.endpoint 1 2] := by
  show controller.doorbells.drainPending.1 = _
  decide +kernel

lemma drained_idle :
    (service mem).drained.drainInternalTransferRing 1 2 = (service mem).drained := by
  have hempty : controller.ringLen (1,2) = 0 := by decide +kernel
  exact congrArg (fun n => Loop.rounds (Service.drainTransfer 1 2) n (service mem).drained) hempty

lemma guestCursor_eq : (service mem).drained.guestCursor 1 2 = some ⟨0x1000,true⟩ := by
  show (service memory).drained.guestCursor 1 2 = _
  decide +kernel

lemma eachGathered_iff : Service.EachGathered Q (service mem) ↔
    Service.BurstMeets Q 1 2 transferBurstLimit ⟨0x1000,true⟩
      ((service mem).drained.setGuestRing (1,2) none) := by
  constructor
  · intro h
    have hrunning : controller.op.isRunning = true := by decide +kernel
    have hmeets := h hrunning
    rw [targets_eq] at hmeets
    have hserved : (!(service mem).drained.ctrl.slotEnabled 1 ||
        (service mem).drained.isHalted 1 2) = false := by
      show (!(service memory).drained.ctrl.slotEnabled 1 ||
        (service memory).drained.isHalted 1 2) = false
      decide +kernel
    have hburst := hmeets.1 hserved
    rw [drained_idle] at hburst
    exact hburst rfl _ guestCursor_eq
  · intro h _
    rw [targets_eq]
    refine ⟨fun _ _ cur hcur => ?_,fun _ _ => trivial⟩
    rw [drained_idle] at hcur ⊢
    cases guestCursor_eq.symm.trans hcur
    exact h

lemma not_hasEnd : ¬ Service.HasEnd memory ⟨0x1000,true⟩ := by
  have hfirst : GuestRingCursor.chained ⟨0x1000,true⟩ memory = some ⟨0x1010,true⟩ := by
    decide +kernel
  have hagain : GuestRingCursor.chained ⟨0x1010,true⟩ memory = some ⟨0x1010,true⟩ := by
    decide +kernel
  rintro ⟨n,hends⟩
  cases hends with
  | last hlast =>
    rw [hfirst] at hlast
    cases hlast
  | chain hnext hrest =>
    rw [hfirst] at hnext
    cases hnext
    exact not_chainEnds_of_chained hagain hrest

/-- The TRB in 16-byte slot `slot`: Normal with the chain bit, and past `last` of no known type. -/
def entry (last slot : ℕ) : Trb := if slot ≤ last then ⟨0,0,0x411⟩ else ⟨0,0,1⟩

def chain (last : ℕ) : DmaMemory where
  ok gpa n := decide (gpa+n ≤ 2^64)
  byte a := (entry last (a/16)).toBytes.getD (a%16) 0
  ok_le _ _ h := of_decide_eq_true h

lemma fetch_chain (hk : k < 2^60-1) : GuestRingCursor.fetch ⟨16*k,true⟩ (chain last) =
    (some (16*k,entry last k),⟨16*(k+1),true⟩) := by
  have hok : (chain last).ok (16*k) 16 = true := decide_eq_true (by omega)
  have hbytes : (List.range 16).map (fun i => (chain last).byte (16*k+i)) =
      (List.range 16).map fun i => (entry last k).toBytes.getD i 0 := by
    refine List.map_congr_left fun i hi => ?_
    have hlt := List.mem_range.mp hi
    have hdiv : (16*k+i)/16 = k := by omega
    have hmod : (16*k+i)%16 = i := by omega
    show (entry last ((16*k+i)/16)).toBytes.getD ((16*k+i)%16) 0 = _
    rw [hdiv,hmod]
  have hread : (chain last).read (16*k) 16 = some (entry last k).toBytes := by
    rw [Boot.GuestMemory.read,if_pos hok,hbytes,entry]
    split
    · decide +kernel
    · decide +kernel
  have hlook : GuestRingCursor.look ⟨16*k,true⟩ (chain last) = .trb (entry last k) := by
    rw [GuestRingCursor.look,hread]
    simp only [Trb.fromBytes_toBytes,entry]
    split
    · rfl
    · rfl
  have hnext : Word.add64 (16*k) 16 = 16*(k+1) := Nat.mod_eq_of_lt (by omega)
  rw [GuestRingCursor.fetch,linkHopLimit,GuestRingCursor.fetchWithin,hlook]
  simp only [hnext]

lemma gatherTransferTd_chain (hlast : last < 2^60-2) (hd : k+d = last+1) (td : Td) :
    ∃ address cur, gatherTransferTd (chain last) (d+1) ⟨16*k,true⟩ td =
      some (.error address,cur) := by
  induction d generalizing k td with
  | zero =>
    rw [gatherTransferTd,fetch_chain (by omega),entry,if_neg (by omega)]
    exact ⟨_,_,rfl⟩
  | succ d ih =>
    rw [gatherTransferTd,fetch_chain (by omega),entry,if_pos (by omega)]
    exact ih (by omega) _

lemma lt_of_chainEnds (hlast : last < 2^60-2) (h : ChainEnds (chain last) d ⟨16*k,true⟩) :
    last+1 < k+d := by
  induction d generalizing k with
  | zero => cases h
  | succ d ih =>
    rcases Nat.lt_or_ge last k with hend | hle
    · omega
    · have hnext : GuestRingCursor.chained ⟨16*k,true⟩ (chain last) = some ⟨16*(k+1),true⟩ := by
        rw [GuestRingCursor.chained,fetch_chain (by omega),entry,if_pos hle]
        rfl
      cases h with
      | last hnone => cases hnext.symm.trans hnone
      | chain hsome hrest =>
        cases hnext.symm.trans hsome
        have := ih hrest
        omega

end Wedge

/-- However long it runs, the service call does not return. And where it returns, the guest's chain
decides how many TRBs it fetches. -/
theorem Service.serviceDoorbells_wedged :
    (¬ ∃ fuel s', (Wedge.service Wedge.memory).serviceDoorbells fuel = some s') ∧
    ∀ n < 2^59, ∃ fuel s', (Wedge.service (Wedge.chain (255+n))).serviceDoorbells fuel = some s' ∧
      n < s'.fetched := by
  refine ⟨?_,fun n hn => ?_⟩
  · rintro ⟨fuel,s',h⟩
    have hburst := Wedge.eachGathered_iff.mp (halts_serviceDoorbells_iff.mp ⟨s',fuel,h⟩)
    exact absurd hburst.1 Wedge.not_hasEnd
  · have hlast : 255+n < 2^60-2 := by omega
    obtain ⟨address,cur,hgather⟩ :=
      Wedge.gatherTransferTd_chain (k := 256) (d := n) hlast (by omega) []
    have hends : ChainEnds (Wedge.chain (255+n)) (n+1) ⟨16*256,true⟩ :=
      gatherTransferTd_isSome_iff.mp (by rw [hgather]; rfl)
    have hmeets : EachGathered HasEnd (Wedge.service (Wedge.chain (255+n))) := by
      refine Wedge.eachGathered_iff.mpr ⟨⟨n+1,hends⟩,fun cur' s' hr => ?_⟩
      -- the TD is answered with a TRB error, and the burst ends
      have hround : transferRound 1 2 ⟨16*256,true⟩ ((Wedge.service (Wedge.chain (255+n))).drained
          |>.setGuestRing (1,2) none) (n+1) = some (false,_) :=
        congrArg (Option.map _) hgather
      cases mono_transferRound.unique hr ⟨n+1,hround⟩
    obtain ⟨s',fuel,h⟩ := halts_serviceDoorbells_iff.mpr hmeets
    refine ⟨fuel,s',h,Nat.lt_of_not_le fun hle => ?_⟩
    -- fetching no more than `n` TRBs, the call would have come to the end of the chain
    have hburst := Wedge.eachGathered_iff.mp
      (eachGathered_of_fetched h (le_trans hle (Nat.le_add_left n _)))
    have := Wedge.lt_of_chainEnds (k := 256) hlast hburst.1
    omega

end Enlil.Devices.Xhci
