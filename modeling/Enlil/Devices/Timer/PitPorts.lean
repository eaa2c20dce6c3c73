import Enlil.Devices.Timer.Pit

/-! # The data ports of the PIT: model of `pit.rs`, `read_data`, `write_data`, `write_command` -/

namespace Enlil.Devices

inductive AccessMode where
  | latch | loByte | hiByte | loHiByte
deriving DecidableEq

namespace AccessMode

def ofBits (bits : BitVec 8) : AccessMode :=
  match bits &&& 3 with
  | 1 => loByte | 2 => hiByte | 3 => loHiByte | _ => latch

def bits : AccessMode → BitVec 8
  | latch => 0 | loByte => 1 | hiByte => 2 | loHiByte => 3

def bytes (value : BitVec 16) : AccessMode → List (BitVec 8)
  | loByte | latch => [value.setWidth 8]
  | hiByte => [(value >>> 8).setWidth 8]
  | loHiByte => [value.setWidth 8,(value >>> 8).setWidth 8]

end AccessMode
namespace ChannelMode

def ofBits (bits : BitVec 8) : ChannelMode :=
  match bits &&& 7 with
  | 1 => hardwareRetriggerable | 2 => rateGenerator | 3 => squareWave
  | 4 => softwareStrobe | 5 => hardwareStrobe | _ => interruptOnTerminalCount

def bits : ChannelMode → BitVec 8
  | interruptOnTerminalCount => 0 | hardwareRetriggerable => 1 | rateGenerator => 2
  | squareWave => 3 | softwareStrobe => 4 | hardwareStrobe => 5

end ChannelMode

structure PortChannel extends PitChannel where
  access : AccessMode := .loHiByte
  latchedCount : Option (BitVec 16) := none
  latchedStatus : Option (BitVec 8) := none
  readHi : Bool := false
  writeHi : Bool := false
  nullCount : Bool := false

inductive PortOp where
  | command (val : BitVec 8) | write (val : BitVec 8) | read | tick

namespace PortChannel
variable {idx : Fin 3} {ch : PortChannel} {owed : List (BitVec 8)}
section
variable (ch : PortChannel)

def statusByte : BitVec 8 :=
  .ofNat 8 (ch.output.toNat <<< 7) ||| .ofNat 8 (ch.nullCount.toNat <<< 6) |||
    ch.access.bits <<< 4 ||| ch.mode.bits <<< 1

def readData : BitVec 8 × PortChannel :=
  match ch.latchedStatus with
  | some status => (status,{ ch with latchedStatus := none })
  | none =>
    let value := ch.latchedCount.getD ch.count
    match ch.access with
    | .loByte | .latch => (value.setWidth 8,ch)
    | .hiByte => ((value >>> 8).setWidth 8,ch)
    | .loHiByte =>
      if ch.readHi then
        ((value >>> 8).setWidth 8,{ ch with readHi := false, latchedCount := none })
      else (value.setWidth 8,{ ch with readHi := true })

def loadCount : PortChannel :=
  { ch with toPitChannel := ch.toPitChannel.loadCount, nullCount := false }

def writeData (val : BitVec 8) : PortChannel :=
  let low := (ch.reload &&& 0xFF00#16) ||| val.setWidth 16
  let high := (ch.reload &&& 0x00FF#16) ||| val.setWidth 16 <<< 8
  match ch.access with
  | .loByte => { ch with reload := low }.loadCount
  | .hiByte => { ch with reload := high }.loadCount
  | .loHiByte =>
    if ch.writeHi then { ch with reload := high, writeHi := false }.loadCount
    else { ch with reload := low, writeHi := true }
  | .latch => ch

/-- The part of `read_back` for one channel. -/
def readBack (idx : Fin 3) (val : BitVec 8) (ch : PortChannel) : PortChannel :=
  if val.getLsbD (idx.val+1) then { ch with
    latchedStatus :=
      if val.getLsbD 4 then ch.latchedStatus else ch.latchedStatus.or (some ch.statusByte)
    latchedCount := if val.getLsbD 5 then ch.latchedCount else ch.latchedCount.or (some ch.count) }
  else ch

/-- The part of `write_command` for one channel. -/
def writeCommand (idx : Fin 3) (val : BitVec 8) (ch : PortChannel) : PortChannel :=
  if 3 ≤ (val >>> 6).toNat then ch.readBack idx val
  else if (val >>> 6).toNat ≠ idx then ch
  else if AccessMode.ofBits (val >>> 4) = .latch then { ch with latchedCount := some ch.count }
  else { ch with
    access := .ofBits (val >>> 4), mode := .ofBits (val >>> 1), readHi := false, writeHi := false,
    output := false, enabled := false, nullCount := true }

/-- `program` is a control word for lo/hi access and two data bytes. -/
lemma toPitChannel_program (count : BitVec 16) {val : BitVec 8}
    (hidx : (val >>> 6).toNat = idx) (haccess : AccessMode.ofBits (val >>> 4) = .loHiByte) :
    (((ch.writeCommand idx val).writeData (count.setWidth 8)).writeData
      ((count >>> 8).setWidth 8)).toPitChannel = ch.program (.ofBits (val >>> 1)) count := by
  rw [writeCommand,if_neg (by omega),if_neg (not_not.mpr hidx),haccess]
  rfl

end

def act (idx : Fin 3) (ch : PortChannel) : PortOp → PortChannel
  | .command val => ch.writeCommand idx val
  | .write val => ch.writeData val
  | .read => ch.readData.2
  | .tick => { ch with toPitChannel := ch.tick.2 }

/-- A command that latches the count. -/
def Latches (idx : Fin 3) (val : BitVec 8) : Prop :=
  if 3 ≤ (val >>> 6).toNat then val.getLsbD (idx.val+1) = true ∧ val.getLsbD 5 = false
  else (val >>> 6).toNat = idx ∧ AccessMode.ofBits (val >>> 4) = .latch

instance (val : BitVec 8) : Decidable (Latches idx val) := by
  unfold Latches
  infer_instance

/-- The bytes of the count at the last latch that have not been read. -/
def owes (idx : Fin 3) (ch : PortChannel) (owed : List (BitVec 8)) : PortOp → List (BitVec 8)
  | .command val => if Latches idx val then ch.access.bytes ch.count else owed
  | .read => if ch.latchedStatus = none then owed.tail else owed
  | _ => owed

/-- Every read of a count gives what is owed, and the live count when nothing is. -/
def Latching (idx : Fin 3) : PortChannel → List (BitVec 8) → List PortOp → Prop
  | _, _, [] => True
  | ch, owed, op :: ops =>
    (op = .read → ch.latchedStatus = none →
      ch.readData.1 = owed.headD { ch with latchedCount := none }.readData.1) ∧
    Latching idx (ch.act idx op) (ch.owes idx owed op) ops

/-- A count is latched in lo/hi mode and before a low byte; until it is read there is no other command
to the channel, and no read-back of its count. -/
def Meets (idx : Fin 3) (ch : PortChannel) : PortOp → Prop
  | .command val => (Latches idx val → ch.access = .loHiByte ∧ ch.readHi = false) ∧
      (ch.latchedCount = none ∨ ((val >>> 6).toNat = idx ↔ Latches idx val))
  | _ => True

def Orderly (idx : Fin 3) : PortChannel → List PortOp → Prop
  | _, [] => True
  | ch, op :: ops => ch.Meets idx op ∧ Orderly idx (ch.act idx op) ops

/-- What is owed, in terms of the latch and the flip-flop. -/
def Owed (ch : PortChannel) (owed : List (BitVec 8)) : Prop :=
  match ch.latchedCount with
  | none => owed = []
  | some v => ch.access = .loHiByte ∧
      owed = if ch.readHi then [(v >>> 8).setWidth 8] else ch.access.bytes v

lemma Owed.read (h : ch.Owed owed) : (ch.latchedStatus = none →
    ch.readData.1 = owed.headD { ch with latchedCount := none }.readData.1) ∧
    ch.readData.2.Owed (ch.owes idx owed .read) := by
  obtain ⟨p,access,count,status,hi,_,_⟩ := ch
  cases status with
  | some status => exact ⟨nofun,h⟩
  | none =>
    cases count with
    | none =>
      -- nothing is owed, and both sides read the live count
      cases (h : owed = [])
      refine ⟨fun _ => rfl,?_⟩
      cases access <;> cases hi <;> rfl
    | some v =>
      obtain ⟨rfl,rfl⟩ : access = .loHiByte ∧ _ := h
      cases hi
      · exact ⟨fun _ => rfl,rfl,rfl⟩
      · exact ⟨fun _ => rfl,rfl⟩

lemma Owed.write (h : ch.Owed owed) (val : BitVec 8) : (ch.writeData val).Owed owed := by
  rw [writeData]
  split
  case h_3 => split <;> exact h
  all_goals exact h

lemma Owed.command {val : BitVec 8} (h : ch.Owed owed) (hmeets : ch.Meets idx (.command val)) :
    (ch.writeCommand idx val).Owed (ch.owes idx owed (.command val)) := by
  obtain ⟨p,access,count,status,hi,_,_⟩ := ch
  obtain ⟨hmode,hfree⟩ := hmeets
  by_cases hlatch : Latches idx val
  · obtain ⟨rfl,rfl⟩ : access = _ ∧ hi = _ := hmode hlatch
    rw [owes,if_pos hlatch,writeCommand]
    have hcommand := hlatch
    unfold Latches at hcommand
    split_ifs at hcommand with hback
    · -- a read-back keeps an older count, so there must be none
      cases (hfree.resolve_right fun hiff => by have := hiff.mpr hlatch; omega : count = none)
      rw [if_pos hback,readBack,if_pos hcommand.1,hcommand.2]
      exact ⟨rfl,rfl⟩
    · rw [if_neg hback,if_neg (not_not.mpr hcommand.1),if_pos hcommand.2]
      exact ⟨rfl,rfl⟩
  · rw [owes,if_neg hlatch,writeCommand]
    have hcommand := hlatch
    unfold Latches at hcommand
    split_ifs at hcommand ⊢ with hback hother hmode
    · rw [readBack]
      split
      case isTrue hsel => rw [if_pos (by simpa [hsel] using hcommand)]; exact h
      case isFalse => exact h
    · exact h
    · exact absurd ⟨not_not.mp hother,hmode⟩ hcommand
    · -- a control word changes the access mode and the flip-flop under a latched count
      cases (hfree.resolve_right fun hiff => hlatch (hiff.mp (not_not.mp hother)) : count = none)
      exact h

/-- A latched count is read once and the reads after it are live, along every orderly run. -/
theorem latching_of_orderly (idx : Fin 3) (ops : List PortOp) (ch : PortChannel)
    (hnone : ch.latchedCount = none) (h : Orderly idx ch ops) : Latching idx ch [] ops := by
  -- the induction is over all that can be owed on the way
  suffices ∀ owed, ch.Owed owed → Latching idx ch owed ops from this [] (by rw [Owed,hnone])
  clear hnone
  induction ops generalizing ch with
  | nil => exact fun _ _ => trivial
  | cons op ops ih =>
    intro owed howed
    refine ⟨?_,ih _ h.2 _ ?_⟩
    · rintro rfl
      exact (@Owed.read idx _ _ howed).1
    · cases op with
      | command val => exact howed.command h.1
      | write val => exact howed.write val
      | read => exact howed.read.2
      | tick => exact howed

theorem latching_new : Latching 0 { PitChannel.new with } [] [.command 0,.read,.tick,.read,.read] :=
  latching_of_orderly 0 _ _ rfl ⟨⟨fun _ => ⟨rfl,rfl⟩,.inl rfl⟩,trivial,trivial,trivial,trivial,trivial⟩

/-- In low-byte mode the channel stays at the latched count. -/
theorem not_latching : ¬Latching 0 { PitChannel.new with } []
    [.command 0x14,.write 100,.command 0,.read,.tick,.read] := by
  rintro ⟨-,-,-,-,-,h,-⟩
  exact absurd (h rfl rfl) (by decide)

end PortChannel
end Enlil.Devices
