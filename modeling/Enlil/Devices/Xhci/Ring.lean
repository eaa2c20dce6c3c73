import Enlil.Devices.Xhci.Trb
import Enlil.Lib.RingBuffer
import Enlil.Lib.Word

/-! # Command and transfer rings: model of `usb/xhci/ring.rs` and `gather_transfer_td` -/

namespace Enlil.Devices.Xhci
open Nat RingBuffer TransferTrb

structure GuestRingCursor where
  dequeue : ℕ
  cycle : Bool
deriving DecidableEq

def linkHopLimit : ℕ := 8

inductive RingEntry where
  | exhausted
  | link (next : GuestRingCursor)
  | trb (raw : Trb)

namespace GuestRingCursor

def look (cur : GuestRingCursor) (mem : DmaMemory) : RingEntry :=
  match mem.read cur.dequeue 16 with
  | none => .exhausted
  | some bytes =>
    let trb := Trb.fromBytes bytes
    if trb.cycleBit ≠ cur.cycle then .exhausted
    else if trb.decodedType = .link then
      -- bit 1 is Toggle Cycle
      .link ⟨(trb.parameter &&& ~~~0xF).toNat,xor (trb.control.getLsbD 1) cur.cycle⟩
    else .trb trb

/-- Fetch the next TRB past fewer than `hops` Link TRBs, with the address it was fetched from. -/
def fetchWithin (mem : DmaMemory) : ℕ → GuestRingCursor → Option (ℕ × Trb) × GuestRingCursor
  | 0, cur => (none,cur)
  | hops+1, cur =>
    match cur.look mem with
    | .exhausted => (none,cur)
    | .link next => fetchWithin mem hops next
    | .trb raw => (some (cur.dequeue,raw),{ cur with dequeue := Word.add64 cur.dequeue 16 })

def fetch (cur : GuestRingCursor) (mem : DmaMemory) : Option (ℕ × Trb) × GuestRingCursor :=
  fetchWithin mem linkHopLimit cur

def trbsReadWithin (mem : DmaMemory) : ℕ → GuestRingCursor → ℕ
  | 0, _ => 0
  | hops+1, cur =>
    match cur.look mem with
    | .link next => trbsReadWithin mem hops next+1
    | _ => 1

def trbsRead (cur : GuestRingCursor) (mem : DmaMemory) : ℕ := trbsReadWithin mem linkHopLimit cur

lemma trbsReadWithin_le (mem : DmaMemory) (hops : ℕ) (cur : GuestRingCursor) :
    trbsReadWithin mem hops cur ≤ hops := by
  induction hops generalizing cur with
  | zero => exact le_refl 0
  | succ hops ih =>
    rw [trbsReadWithin]
    split
    · exact succ_le_succ (ih _)
    · exact succ_le_succ (zero_le _)

end GuestRingCursor

abbrev Td := List (ℕ × TransferTrb)

def gatherTransferTd (mem : DmaMemory) :
    ℕ → GuestRingCursor → Td → Option (Except ℕ Td × GuestRingCursor)
  | 0, _, _ => none
  | fuel+1, cur, td =>
    match cur.fetch mem with
    | (none,cur') => some (.ok td,cur')
    | (some (address,raw),cur') =>
      match fromTrb raw with
      | none => some (.error address,cur')
      | some trb =>
        if trb.chains then gatherTransferTd mem fuel cur' (td ++ [(address,trb)])
        else some (.ok (td ++ [(address,trb)]),cur')

def GuestRingCursor.chained (cur : GuestRingCursor) (mem : DmaMemory) : Option GuestRingCursor :=
  match cur.fetch mem with
  | (none,_) => none
  | (some (_,raw),cur') =>
    if ((fromTrb raw).map chains).getD false then some cur' else none

def gatherReads (mem : DmaMemory) : ℕ → GuestRingCursor → ℕ
  | 0, _ => 0
  | fuel+1, cur =>
    match cur.chained mem with
    | none => cur.trbsRead mem
    | some cur' => gatherReads mem fuel cur'+cur.trbsRead mem

/-- The chain of TRBs at a cursor ends within `n` TRBs. -/
inductive ChainEnds (mem : DmaMemory) : ℕ → GuestRingCursor → Prop where
  | last {n cur} : cur.chained mem = none → ChainEnds mem (n+1) cur
  | chain {n cur cur'} : cur.chained mem = some cur' → ChainEnds mem n cur' →
    ChainEnds mem (n+1) cur

section Gather
variable {mem : DmaMemory} {cur : GuestRingCursor} {n : ℕ}

lemma gatherTransferTd_isSome_iff {td : Td} :
    (gatherTransferTd mem n cur td).isSome ↔ ChainEnds mem n cur := by
  induction n generalizing cur td with
  | zero => exact ⟨fun h => (nomatch h),fun h => (nomatch h)⟩
  | succ n ih =>
    rw [gatherTransferTd]
    rcases hfetch : cur.fetch mem with ⟨_ | ⟨address,raw⟩,cur'⟩
    · have hlast : cur.chained mem = none := by rw [GuestRingCursor.chained,hfetch]
      exact ⟨fun _ => .last hlast,fun _ => rfl⟩
    · cases hraw : fromTrb raw with
      | none =>
        have hlast : cur.chained mem = none := by
          simp only [GuestRingCursor.chained,hfetch,hraw]
          rfl
        exact ⟨fun _ => .last hlast,fun _ => by simp only [hraw,Option.isSome_some]⟩
      | some trb =>
        have hchained : cur.chained mem = if trb.chains then some cur' else none := by
          simp only [GuestRingCursor.chained,hfetch,hraw]
          rfl
        cases hc : trb.chains with
        | false =>
          rw [hc] at hchained
          exact ⟨fun _ => .last hchained,fun _ => by simp [hraw,hc]⟩
        | true =>
          rw [hc,if_pos rfl] at hchained
          simp only [hraw,hc,if_true,ih]
          refine ⟨.chain hchained,fun h => ?_⟩
          cases h with
          | last hnone => rw [hchained] at hnone; cases hnone
          | chain hsome hrest => rw [hchained] at hsome; cases hsome; exact hrest

lemma gatherReads_le : gatherReads mem n cur ≤ linkHopLimit*n := by
  induction n generalizing cur with
  | zero => exact le_refl 0
  | succ n ih =>
    have hread : cur.trbsRead mem ≤ linkHopLimit := GuestRingCursor.trbsReadWithin_le _ _ _
    rw [gatherReads,Nat.mul_succ]
    split
    · exact le_trans hread (Nat.le_add_left _ _)
    · exact Nat.add_le_add ih hread

lemma gatherTransferTd_mono {m : ℕ} {td : Td} {r : Except ℕ Td × GuestRingCursor} (hle : n ≤ m)
    (h : gatherTransferTd mem n cur td = some r) : gatherTransferTd mem m cur td = some r := by
  induction n generalizing cur td m with
  | zero => cases h
  | succ n ih =>
    obtain ⟨m,rfl⟩ := Nat.exists_eq_add_of_le' (lt_of_lt_of_le (succ_pos n) hle)
    rw [gatherTransferTd] at h ⊢
    split at h
    · exact h
    · split at h
      · exact h
      · split at h
        · rename_i hchain
          rw [if_pos hchain]
          exact ih (le_of_succ_le_succ hle) h
        · rename_i hlast
          rw [if_neg hlast]
          exact h

lemma ChainEnds.gatherReads_eq {m : ℕ} (h : ChainEnds mem n cur) (hle : n ≤ m) :
    gatherReads mem m cur = gatherReads mem n cur := by
  induction h generalizing m with
  | last hlast =>
    obtain ⟨m,rfl⟩ := Nat.exists_eq_add_of_le' (lt_of_lt_of_le (succ_pos _) hle)
    simp only [gatherReads,hlast]
  | chain hnext _ ih =>
    obtain ⟨m,rfl⟩ := Nat.exists_eq_add_of_le' (lt_of_lt_of_le (succ_pos _) hle)
    simp only [gatherReads,hnext,ih (le_of_succ_le_succ hle)]

lemma ChainEnds.gatherReads_le (h : ChainEnds mem n cur) (fuel : ℕ) :
    gatherReads mem fuel cur ≤ linkHopLimit*n := by
  rcases Nat.le_total n fuel with hle | hle
  · rw [h.gatherReads_eq hle]
    exact Xhci.gatherReads_le
  · exact le_trans Xhci.gatherReads_le (Nat.mul_le_mul_left _ hle)

lemma trbsRead_pos (cur : GuestRingCursor) (mem : DmaMemory) : 0 < cur.trbsRead mem := by
  rw [GuestRingCursor.trbsRead,linkHopLimit,GuestRingCursor.trbsReadWithin]
  split
  · exact succ_pos _
  · exact zero_lt_one

/-- A TD for which few TRBs were read ends soon: each of its TRBs was read. -/
lemma ChainEnds.of_gatherReads {L : ℕ} (h : ChainEnds mem n cur)
    (hle : gatherReads mem n cur ≤ L) : ChainEnds mem L cur := by
  induction h generalizing L with
  | last hlast =>
    simp only [gatherReads,hlast] at hle
    obtain ⟨L,rfl⟩ := Nat.exists_eq_add_of_le' (lt_of_lt_of_le (trbsRead_pos _ mem) hle)
    exact .last hlast
  | @chain n cur cur' hnext _ ih =>
    simp only [gatherReads,hnext] at hle
    have hpos := trbsRead_pos cur mem
    obtain ⟨L,rfl⟩ := Nat.exists_eq_add_of_le' (lt_of_lt_of_le hpos (Nat.le_of_add_left_le hle))
    exact .chain hnext (ih (by omega))

lemma not_chainEnds_of_chained (h : cur.chained mem = some cur) : ¬ ChainEnds mem n cur := by
  intro hends
  induction n with
  | zero => cases hends
  | succ n ih =>
    cases hends with
    | last hlast => rw [h] at hlast; cases hlast
    | chain hnext hrest =>
      rw [h] at hnext
      cases hnext
      exact ih hrest

end Gather

structure TrbRing where
  ring : RingBuffer Trb
  cycleState : Bool
  running : Bool
  guestBaseAddr : ℕ

namespace TrbRing

def new : TrbRing := ⟨.new 256 .zeroed (Nat.two_pow_pos 8),true,false,0⟩

def enqueue (r : TrbRing) (trb : Trb) : Bool × TrbRing :=
  if r.ring.isFull then (false,r)
  else
    let wraps := decide (r.ring.cap ≤ r.ring.enqueueIdx+1)
    (true,{ r with
      ring := r.ring.push (trb.setCycleBit r.cycleState)
      cycleState := xor wraps r.cycleState })

def dequeue (r : TrbRing) : Option (Trb × TrbRing) :=
  if r.ring.isEmpty then none else some (r.ring.front,{ r with ring := r.ring.pop })

def reset (r : TrbRing) : TrbRing :=
  { r with
    ring := .new r.ring.cap .zeroed (zero_lt_of_lt r.ring.enqueue_lt)
    cycleState := true
    running := false }

lemma len_dequeue {r r' : TrbRing} {trb : Trb} (h : r.dequeue = some (trb,r')) :
    r'.ring.len+1 = r.ring.len := by
  unfold dequeue at h
  split at h
  · cases h
  · rename_i hempty
    cases h
    exact len_pop (Bool.eq_false_iff.mpr hempty)

lemma dequeue_eq_none {r : TrbRing} (h : r.ring.len = 0) : r.dequeue = none := by
  have hempty : r.ring.isEmpty = true := by
    rw [RingBuffer.isEmpty_iff]
    exact List.eq_nil_of_length_eq_zero (by rw [length_contents,h])
  rw [dequeue,if_pos hempty]

end TrbRing

structure TransferRing where
  ring : TrbRing
  halted : Bool

namespace TransferRing

def new : TransferRing := ⟨.new,false⟩

section
variable (r : TransferRing)

def enqueue (trb : Trb) : Bool × TransferRing :=
  if r.halted then (false,r)
  else
    let e := r.ring.enqueue trb
    (e.1,{ r with ring := e.2 })

def halt : TransferRing :=
  { r with halted := true, ring := { r.ring with running := false } }

def clearHalt : TransferRing :=
  { r with halted := false, ring := { r.ring with running := true } }

def reset : TransferRing := { r with ring := r.ring.reset, halted := false }

def len : ℕ := r.ring.ring.len

end

def gatherTdWithin : ℕ → TransferRing → Td → Except ℕ Td × TransferRing
  | 0, r, td => (.ok td,r)
  | n+1, r, td =>
    match r.ring.dequeue with
    | none => (.ok td,r)
    | some (raw,ring') =>
      let trbPointer := Word.add64 r.ring.guestBaseAddr (r.ring.ring.dequeueIdx*16)
      let r' := { r with ring := ring' }
      match fromTrb raw with
      | none => (.error trbPointer,r')
      | some trb =>
        if trb.chains then gatherTdWithin n r' (td ++ [(trbPointer,trb)])
        else (.ok (td ++ [(trbPointer,trb)]),r')

def gatherTd (r : TransferRing) : Except ℕ Td × TransferRing := gatherTdWithin r.len r []

lemma len_gatherTdWithin_le (n : ℕ) (r : TransferRing) (td : Td) :
    (gatherTdWithin n r td).2.len ≤ r.len := by
  induction n generalizing r td with
  | zero => exact le_refl _
  | succ n ih =>
    rw [gatherTdWithin,TrbRing.dequeue]
    cases hempty : r.ring.ring.isEmpty with
    | true => exact le_refl _
    | false =>
      have hpop : r.ring.ring.pop.len ≤ r.len :=
        le_of_lt (lt_of_lt_of_le (lt_succ_self _) (Nat.le_of_eq (len_pop hempty)))
      simp only [Bool.false_eq_true,if_false]
      split
      · exact hpop
      · split
        · exact le_trans (ih _ _) hpop
        · exact hpop

lemma len_gatherTd_lt {r : TransferRing} (h : r.ring.ring.isEmpty = false) :
    r.gatherTd.2.len < r.len := by
  have hpop := len_pop h
  have hlen : r.len = r.ring.ring.pop.len+1 := hpop.symm
  rw [gatherTd,hlen,gatherTdWithin,TrbRing.dequeue,h]
  simp only [Bool.false_eq_true,if_false]
  split
  · exact lt_succ_self _
  · split
    · exact lt_succ_of_le (len_gatherTdWithin_le _ _ _)
    · exact lt_succ_self _

end TransferRing
end Enlil.Devices.Xhci
