import Enlil.Devices.Xhci.Trb
import Enlil.Lib.RingBuffer
import Enlil.Lib.Word

/-! # Event rings: model of `usb/xhci/event.rs` -/

namespace Enlil.Devices.Xhci
open List Nat RingBuffer
open BitVec (ofNat)

structure EventRing where
  ring : RingBuffer Trb
  cycleState : Bool

namespace EventRing

def new (segmentSize : ℕ) (h : 0 < segmentSize) : EventRing := ⟨.new segmentSize .zeroed h,true⟩

def postEvent (r : EventRing) (trb : Trb) : Bool × EventRing :=
  if r.ring.isFull then (false,r)
  else
    let wraps := decide (r.ring.cap ≤ r.ring.enqueueIdx+1)
    (true,⟨r.ring.push (trb.setCycleBit r.cycleState),xor wraps r.cycleState⟩)

def transferEvent (trbPointer transferLength : ℕ) (code : TrbCompletionCode)
    (slotId endpointId : BitVec 8) : Trb where
  parameter := .ofNat 64 trbPointer
  status := ofNat 32 transferLength &&& 0xFFFFFF ||| ofNat 32 code.raw <<< 24
  control := slotId.setWidth 32 <<< 24 ||| endpointId.setWidth 32 <<< 16 ||| ofNat 32 32 <<< 10

def commandCompletion (trbPointer : ℕ) (code : TrbCompletionCode) (slotId : BitVec 8) : Trb where
  parameter := .ofNat 64 trbPointer
  status := ofNat 32 code.raw <<< 24
  control := slotId.setWidth 32 <<< 24 ||| ofNat 32 33 <<< 10

def portStatusChange (portId : ℕ) (code : TrbCompletionCode) : Trb where
  parameter := ofNat 64 portId <<< 24
  status := ofNat 32 code.raw <<< 24
  control := ofNat 32 34 <<< 10

def pending (r : EventRing) : List Trb := r.ring.contents

end EventRing

structure EventRingSegment where
  base : ℕ
  size : ℕ
  base_lt : base < 2^64
  base_aligned : 16 ∣ base
  size_ge : 16 ≤ size
  size_le : size ≤ 4096

abbrev SegmentTable := List EventRingSegment

namespace SegmentTable
variable (t : SegmentTable)

def sizeAt (segment : ℕ) : ℕ := (t[segment]?.map (·.size)).getD 0

section
variable (p : ℕ × ℕ)

def addressOf : ℕ := Word.add64 ((t[p.1]?.map (·.base)).getD 0) (p.2*16)

def positionAfter : ℕ × ℕ :=
  if p.2+1 < t.sizeAt p.1 then (p.1,p.2+1)
  else if p.1+1 < t.length then (p.1+1,0)
  else (0,0)

def InRange : Prop := p.2 < t.sizeAt p.1

def capacity : ℕ := (t.map (·.size)).sum

def linear : ℕ := ((t.take p.1).map (·.size)).sum+p.2

end
end SegmentTable

def EventRingSegment.read (mem : DmaMemory) (addr : ℕ) : Option EventRingSegment :=
  match mem.read addr 16 with
  | none => none
  | some entry =>
    let raw := Le.toNat (entry.take 8)%2^64
    let size := Le.toNat ((entry.drop 8).take 2)
    if h : 16 ≤ size ∧ size ≤ 4096 then
      some {
        base := raw &&& Word.not64 0x3F
        size := size
        base_lt := lt_of_le_of_lt Nat.and_le_left (mod_lt _ (by decide))
        base_aligned := by
          rw [show 0x3F = 2^6-1 by decide,
            Word.and_not64_low (mod_lt _ (by decide)) (by decide)]
          exact Dvd.dvd.mul_left (by decide) _
        size_ge := h.1
        size_le := h.2 }
    else none

/-- The writer of an event ring in guest memory; its position is one of the table. -/
structure GuestEventRing where
  erstba : ℕ
  erstsz : ℕ
  segments : SegmentTable
  position : ℕ × ℕ
  cycle : Bool
  inRange : segments.InRange position

namespace SegmentTable
variable {t : SegmentTable} {p : ℕ × ℕ}

lemma sizeAt_pos {i : ℕ} (h : i < t.length) : 0 < t.sizeAt i := by
  rw [sizeAt,List.getElem?_eq_getElem h]
  exact lt_of_lt_of_le (by decide) (t[i]).size_ge

lemma InRange.lt_length (h : t.InRange p) : p.1 < t.length := by
  refine Nat.lt_of_not_le fun hge => ?_
  rw [InRange,sizeAt,List.getElem?_eq_none hge] at h
  exact absurd h (Nat.not_lt_zero _)

lemma InRange.positionAfter (h : t.InRange p) : t.InRange (t.positionAfter p) := by
  unfold SegmentTable.positionAfter
  split
  · assumption
  · split
    · exact sizeAt_pos (by assumption)
    · exact sizeAt_pos (zero_lt_of_lt h.lt_length)

end SegmentTable
namespace GuestEventRing

/-- Decode the segment table. `none` for an empty or unreadable one, or one with a segment size
that is out of range. -/
def load (mem : DmaMemory) (erstba erstsz : ℕ) : Option GuestEventRing :=
  match (List.range erstsz).mapM fun i => EventRingSegment.read mem (Word.add64 erstba (i*16)) with
  | some (s :: rest) =>
    some {
      erstba := erstba
      erstsz := erstsz
      segments := s :: rest
      position := (0,0)
      cycle := true
      inRange := SegmentTable.sizeAt_pos (zero_lt_succ _) }
  | _ => none

def matchesErst (r : GuestEventRing) (erstba erstsz : ℕ) : Bool :=
  r.erstba == erstba && r.erstsz == erstsz

/-- Write one event and advance. `none`, and no write, if the next position is the one the driver
has not consumed, or the segment is not backed. -/
def writeEvent (r : GuestEventRing) (mem : DmaMemory) (trb : Trb) (erdp : ℕ) :
    Option (GuestEventRing × DmaMemory) :=
  let next := r.segments.positionAfter r.position
  if r.segments.addressOf next = erdp &&& Word.not64 0xF then none
  else
    (mem.write (r.segments.addressOf r.position) (trb.setCycleBit r.cycle).toBytes).map fun mem' =>
      ({ r with
          position := next
          cycle := if next = (0,0) then !r.cycle else r.cycle
          inRange := r.inRange.positionAfter },mem')

end GuestEventRing

structure InterrupterRegisterSet where
  iman : BitVec 32
  imod : BitVec 32
  erstsz : ℕ
  erstba : ℕ
  erdp : ℕ
  eventRing : EventRing
  guestRing : Option GuestEventRing

namespace InterrupterRegisterSet

def new : InterrupterRegisterSet where
  iman := 0
  imod := 0xFA0
  erstsz := 1
  erstba := 0
  erdp := 0
  eventRing := .new 256 (by decide)
  guestRing := none

def setPending (s : InterrupterRegisterSet) : InterrupterRegisterSet :=
  { s with iman := s.iman ||| 1 }

def writeErdp (s : InterrupterRegisterSet) (value : ℕ) : InterrupterRegisterSet :=
  { s with erdp := value &&& Word.not64 0xF }

structure Delivery where
  queue : RingBuffer Trb
  ring : GuestEventRing
  mem : DmaMemory
  delivered : List Trb

/-- With `n` the number of events in the queue this is the loop of `flush_to_guest`: each round
takes one event off the queue. -/
def deliver (erdp : ℕ) : ℕ → Delivery → Delivery
  | 0, d => d
  | n+1, d =>
    if d.queue.isEmpty then d
    else
      match d.ring.writeEvent d.mem d.queue.front erdp with
      | none => d
      | some (ring',mem') =>
        deliver erdp n ⟨d.queue.pop,ring',mem',d.delivered ++ [d.queue.front]⟩

section
variable (s : InterrupterRegisterSet) (mem : DmaMemory)

def currentRing : Option GuestEventRing :=
  match s.guestRing with
  | some ring =>
    if ring.matchesErst s.erstba s.erstsz then some ring
    else GuestEventRing.load mem s.erstba s.erstsz
  | none => GuestEventRing.load mem s.erstba s.erstsz

def flushToGuest : List Trb × InterrupterRegisterSet × DmaMemory :=
  if s.erstba = 0 then ([],s,mem)
  else
    match s.currentRing mem with
    | none => ([],{ s with guestRing := none },mem)
    | some ring =>
      let d := deliver s.erdp s.eventRing.ring.len ⟨s.eventRing.ring,ring,mem,[]⟩
      (d.delivered,
        { s with eventRing := { s.eventRing with ring := d.queue }, guestRing := some d.ring },d.mem)

end
end InterrupterRegisterSet
namespace EventRing
variable {r : EventRing} {trb : Trb}

lemma pending_postEvent (h : r.ring.isFull = false) :
    (r.postEvent trb).2.pending = r.pending ++ [trb.setCycleBit r.cycleState] := by
  rw [postEvent,h]
  exact contents_push _ h

end EventRing
namespace SegmentTable
variable {t : SegmentTable} {p q : ℕ × ℕ} {i j m n : ℕ}

lemma sum_take_succ (h : i < t.length) :
    ((t.take (i+1)).map (·.size)).sum = ((t.take i).map (·.size)).sum+t.sizeAt i := by
  rw [take_add_one,List.getElem?_eq_getElem h,map_append,List.sum_append,sizeAt,
    List.getElem?_eq_getElem h]
  rfl

lemma sum_take_mono (h : i ≤ j) :
    ((t.take i).map (·.size)).sum ≤ ((t.take j).map (·.size)).sum := by
  induction j, h using le_induction with
  | base => exact le_refl _
  | succ j _ ih =>
    rcases Nat.lt_or_ge j t.length with hlt | hge
    · rw [sum_take_succ hlt]
      exact le_trans ih (Nat.le_add_right _ _)
    · rw [take_of_length_le (le_succ_of_le hge)]
      rwa [take_of_length_le hge] at ih

lemma InRange.linear_lt_take_succ (h : t.InRange p) :
    t.linear p < ((t.take (p.1+1)).map (·.size)).sum := by
  rw [linear,sum_take_succ h.lt_length]
  exact Nat.add_lt_add_left h _

lemma InRange.linear_lt (h : t.InRange p) : t.linear p < t.capacity := by
  refine lt_of_lt_of_le h.linear_lt_take_succ ?_
  have hle : p.1+1 ≤ t.length := h.lt_length
  have := sum_take_mono (t := t) hle
  rwa [take_length] at this

lemma linear_positionAfter (h : t.InRange p) :
    t.linear (t.positionAfter p) = (t.linear p+1)%t.capacity := by
  have hlt := h.linear_lt
  have hlen := h.lt_length
  have hp : p.2 < t.sizeAt p.1 := h
  unfold positionAfter
  split
  case isTrue hin =>
    have hnext : t.InRange (p.1,p.2+1) := hin
    have heq : t.linear (p.1,p.2+1) = t.linear p+1 := rfl
    rw [← heq,mod_eq_of_lt hnext.linear_lt]
  case isFalse hlast =>
    -- the last TRB of its segment
    have hend : t.linear p+1 = ((t.take (p.1+1)).map (·.size)).sum := by
      rw [linear,sum_take_succ hlen]
      omega
    split
    case isTrue hmore =>
      have hnext : t.InRange (p.1+1,0) := sizeAt_pos hmore
      have heq : t.linear (p.1+1,0) = t.linear p+1 := by
        rw [hend]
        rfl
      rw [← heq,mod_eq_of_lt hnext.linear_lt]
    case isFalse hdone =>
      have hcap : t.linear p+1 = t.capacity := by
        rw [hend,take_of_length_le (by omega)]
        rfl
      rw [hcap,mod_self]
      rfl

lemma InRange.eq_of_linear_eq (hp : t.InRange p) (hq : t.InRange q)
    (h : t.linear p = t.linear q) : p = q := by
  -- a position of an earlier segment has a smaller index
  have hseg : ∀ {a b : ℕ × ℕ}, t.InRange a → t.linear a = t.linear b → b.1 ≤ a.1 := by
    intro a b ha hab
    refine Nat.le_of_not_lt fun hlt => ?_
    have h1 := ha.linear_lt_take_succ
    have h2 := sum_take_mono (t := t) (succ_le_of_lt hlt)
    rw [hab,linear] at h1
    exact absurd (lt_of_lt_of_le h1 h2) (Nat.not_lt.mpr (Nat.le_add_right _ _))
  have h1 : p.1 = q.1 := le_antisymm (hseg hq h.symm) (hseg hp h)
  rw [linear,linear,h1] at h
  exact Prod.ext h1 (Nat.add_left_cancel h)

def positionAt (t : SegmentTable) (n : ℕ) : ℕ × ℕ := t.positionAfter^[n] (0,0)

lemma positionAt_succ (n : ℕ) : t.positionAt (n+1) = t.positionAfter (t.positionAt n) :=
  Function.iterate_succ_apply' _ _ _

lemma positionAt_add (m n : ℕ) : t.positionAt (m+n) = t.positionAfter^[m] (t.positionAt n) :=
  Function.iterate_add_apply _ _ _ _

lemma inRange_positionAt (h : 0 < t.length) (n : ℕ) : t.InRange (t.positionAt n) := by
  induction n with
  | zero => exact sizeAt_pos h
  | succ n ih =>
    rw [positionAt_succ]
    exact ih.positionAfter

lemma linear_positionAt (h : 0 < t.length) (n : ℕ) :
    t.linear (t.positionAt n) = n%t.capacity := by
  induction n with
  | zero => exact (zero_mod _).symm
  | succ n ih => rw [positionAt_succ,linear_positionAfter (inRange_positionAt h n),ih,mod_add_mod]

lemma positionAt_eq_iff (h : 0 < t.length) :
    t.positionAt m = t.positionAt n ↔ m%t.capacity = n%t.capacity := by
  rw [← linear_positionAt h,← linear_positionAt h]
  exact ⟨congrArg _,(inRange_positionAt h m).eq_of_linear_eq (inRange_positionAt h n)⟩

lemma positionAt_mod (h : 0 < t.length) (n : ℕ) : t.positionAt (n%t.capacity) = t.positionAt n :=
  (positionAt_eq_iff h).mpr (mod_mod _ _)

end SegmentTable
namespace InterrupterRegisterSet
variable {erdp n : ℕ} {d : Delivery}

lemma deliver_invariant {P : Delivery → Prop} (h : P d)
    (hstep : ∀ d ring' mem', P d → d.queue.isEmpty = false →
      d.ring.writeEvent d.mem d.queue.front erdp = some (ring',mem') →
      P ⟨d.queue.pop,ring',mem',d.delivered ++ [d.queue.front]⟩) :
    P (deliver erdp n d) := by
  induction n generalizing d with
  | zero => exact h
  | succ n ih =>
    rw [deliver]
    split
    · exact h
    · rename_i hempty
      split
      · exact h
      · rename_i ring' mem' hwrite
        exact ih (hstep d ring' mem' h (Bool.eq_false_iff.mpr hempty) hwrite)

lemma deliver_queue : (deliver erdp n d).delivered ++ (deliver erdp n d).queue.contents =
    d.delivered ++ d.queue.contents := by
  refine deliver_invariant
    (P := fun d' => d'.delivered ++ d'.queue.contents = d.delivered ++ d.queue.contents) rfl ?_
  intro d' ring' mem' h hne _
  rw [← h,contents_pop hne,List.append_assoc]
  rfl

/-- The loop of `flush_to_guest`, unrolled once: it goes on until the queue is empty or an event
cannot be written. -/
lemma deliver_eq : deliver erdp d.queue.len d =
    if d.queue.isEmpty then d
    else
      match d.ring.writeEvent d.mem d.queue.front erdp with
      | none => d
      | some (ring',mem') =>
        deliver erdp d.queue.pop.len ⟨d.queue.pop,ring',mem',d.delivered ++ [d.queue.front]⟩ := by
  cases hempty : d.queue.isEmpty with
  | true =>
    have hlen : d.queue.len = 0 := by
      rw [← d.queue.length_contents,d.queue.isEmpty_iff.mp hempty,length_nil]
    rw [hlen,deliver,if_pos rfl]
  | false => rw [← len_pop hempty,deliver,hempty]

end InterrupterRegisterSet
end Enlil.Devices.Xhci
