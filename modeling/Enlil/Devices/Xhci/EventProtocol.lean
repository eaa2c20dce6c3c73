import Enlil.Devices.Xhci.Event
import Enlil.Lib.CycleRing

/-! # The protocol of the guest event ring -/

namespace Enlil.Devices.Xhci
open List Nat Option Word CycleRing SegmentTable Trb GuestEventRing InterrupterRegisterSet

def Trb.body (t : Trb) : Trb := t.setCycleBit false

/-! ### The two parties -/

structure EventDriver where
  segments : SegmentTable
  position : ℕ × ℕ
  cycle : Bool
  dequeue : ℕ × ℕ
  /-- Number of entries consumed since. -/
  held : ℕ
  consumed : List Trb

namespace EventDriver

def new (segments : SegmentTable) : EventDriver := ⟨segments,(0,0),true,(0,0),0,[]⟩

def consume (d : EventDriver) (mem : DmaMemory) : EventDriver :=
  match mem.read (d.segments.addressOf d.position) 16 with
  | none => d
  | some bytes =>
    let trb := Trb.fromBytes bytes
    if trb.cycleBit = d.cycle then
      let next := d.segments.positionAfter d.position
      { d with
        position := next
        cycle := if next = (0,0) then !d.cycle else d.cycle
        held := d.held+1
        consumed := d.consumed ++ [trb] }
    else d

def advance (d : EventDriver) (n : ℕ) : EventDriver :=
  { d with dequeue := d.segments.positionAfter^[n] d.dequeue, held := d.held-n }

def released (d : EventDriver) : ℕ := d.consumed.length-d.held

end EventDriver

inductive EventOp where
  | post (trb : Trb)
  | flush
  | consume
  /-- Set `ERDP` past `n` more entries, with the flags of its low bits. -/
  | advance (n : ℕ) (flags : BitVec 4)

structure EventSystem where
  interrupter : InterrupterRegisterSet
  mem : DmaMemory
  driver : EventDriver
  flushed : List Trb

namespace EventSystem

def flush (s : EventSystem) : EventSystem :=
  let r := s.interrupter.flushToGuest s.mem
  { s with interrupter := r.2.1, mem := r.2.2, flushed := s.flushed ++ r.1 }

def step (s : EventSystem) : EventOp → EventSystem
  | .post trb =>
    { s with
      interrupter := { s.interrupter with eventRing := (s.interrupter.eventRing.postEvent trb).2 } }
  | .flush => s.flush
  | .consume => { s with driver := s.driver.consume s.mem }
  | .advance n flags =>
    -- a conforming driver does not pass entries it has not consumed
    if n ≤ s.driver.held then
      let driver := s.driver.advance n
      let erdp := driver.segments.addressOf driver.dequeue ||| flags.toNat
      { s with driver := driver, interrupter := s.interrupter.writeErdp erdp }
    else s

def run (s : EventSystem) (ops : List EventOp) : EventSystem := ops.foldl step s

def accepts (s : EventSystem) : EventOp → List Trb
  | .post trb => if (s.interrupter.eventRing.postEvent trb).1 then [trb] else []
  | _ => []

/-- The events of a run that the queue had room for. -/
def accepted (s : EventSystem) : List EventOp → List Trb
  | [] => []
  | op :: ops => s.accepts op ++ (s.step op).accepted ops

/-- Everything that has entered the queue: what was flushed, then what waits. -/
def entered (s : EventSystem) : List Trb :=
  (s.flushed ++ s.interrupter.eventRing.pending).map Trb.body

end EventSystem
namespace SegmentTable

def Disjoint (t : SegmentTable) : Prop :=
  t.Pairwise fun a b => ∀ i < a.size*16, ∀ j < b.size*16, Word.add64 a.base i ≠ Word.add64 b.base j

end SegmentTable

structure EventSystem.Start (s : EventSystem) : Prop where
  driver : s.driver = .new s.driver.segments
  disjoint : s.driver.segments.Disjoint
  table : ∃ ring, GuestEventRing.load s.mem s.interrupter.erstba s.interrupter.erstsz = some ring ∧
    ring.segments = s.driver.segments
  clear : ∀ p, s.driver.segments.InRange p → ∀ bytes,
    s.mem.read (s.driver.segments.addressOf p) 16 = some bytes →
    (Trb.fromBytes bytes).cycleBit = false
  erdp : s.interrupter.erdp &&& Word.not64 0xF = s.driver.segments.addressOf (0,0)
  guestRing : s.interrupter.guestRing = none
  flushed : s.flushed = []

/-! ### Addresses of positions -/

namespace SegmentTable
variable {t : SegmentTable} {p q : ℕ × ℕ}

lemma InRange.exists_segment (h : t.InRange p) :
    ∃ s, t[p.1]? = some s ∧ p.2 < s.size ∧ t.addressOf p = add64 s.base (p.2*16) := by
  have hget := getElem?_eq_getElem h.lt_length
  refine ⟨_,hget,?_,?_⟩
  · rwa [InRange,sizeAt,hget] at h
  · rw [addressOf,hget]
    rfl

lemma InRange.dvd_addressOf (h : t.InRange p) : 16 ∣ t.addressOf p := by
  obtain ⟨s,_,_,haddr⟩ := h.exists_segment
  rw [haddr,add64]
  exact (dvd_mod_iff (by decide)).mpr (Nat.dvd_add s.base_aligned (Nat.dvd_mul_left _ _))

lemma addressOf_lt (t : SegmentTable) (p : ℕ × ℕ) : t.addressOf p < 2^64 := add64_lt _ _

lemma Disjoint.addressOf_inj (hd : t.Disjoint) (hp : t.InRange p) (hq : t.InRange q)
    (h : t.addressOf p = t.addressOf q) : p = q := by
  obtain ⟨a,ha,hpa,haddr⟩ := hp.exists_segment
  obtain ⟨b,hb,hqb,hbddr⟩ := hq.exists_segment
  rw [haddr,hbddr] at h
  have hij : p.1 = q.1 := by
    obtain ⟨hlp,hga⟩ := List.getElem?_eq_some_iff.mp ha
    obtain ⟨hlq,hgb⟩ := List.getElem?_eq_some_iff.mp hb
    rcases Nat.lt_trichotomy p.1 q.1 with hlt | heq | hgt
    · have := pairwise_iff_getElem.mp hd _ _ hlp hlq hlt
      rw [hga,hgb] at this
      exact absurd h (this _ (by omega) _ (by omega))
    · exact heq
    · have := pairwise_iff_getElem.mp hd _ _ hlq hlp hgt
      rw [hga,hgb] at this
      exact absurd h.symm (this _ (by omega) _ (by omega))
  have hab : a = b := by
    rw [hij,hb] at ha
    exact (Option.some.inj ha).symm
  subst hab
  -- a segment is shorter than the address space
  have hsize := a.size_le
  have hmod : p.2*16 ≡ q.2*16 [MOD 2^64] := Nat.ModEq.add_left_cancel' a.base h
  rw [Nat.ModEq,mod_eq_of_lt (by omega),mod_eq_of_lt (by omega)] at hmod
  exact Prod.ext hij (by omega)

end SegmentTable

/-! ### The invariant -/

def SegmentTable.view (t : SegmentTable) (mem : DmaMemory) (i : ℕ) : Option (Trb × Bool) :=
  (mem.read (t.addressOf (t.positionAt i)) 16).map fun bytes =>
    ((Trb.fromBytes bytes).body,(Trb.fromBytes bytes).cycleBit)

structure GuestEventRing.Stands (ring : GuestEventRing) (t : SegmentTable) (n : ℕ) : Prop where
  segments : ring.segments = t
  position : ring.position = t.positionAt n
  cycle : ring.cycle = CycleRing.lap t.capacity n

namespace EventSystem

/-- What holds between the two parties: each stands where its count of events says, and the ring
in memory is one with cycle bits. -/
structure Synced (t : SegmentTable) (s : EventSystem) : Prop where
  length_pos : 0 < t.length
  disjoint : t.Disjoint
  segments : s.driver.segments = t
  writer : ∃ ring, s.interrupter.currentRing s.mem = some ring ∧ ring.Stands t s.flushed.length
  erdp : s.interrupter.erdp &&& Word.not64 0xF = t.addressOf (t.positionAt s.driver.released)
  position : s.driver.position = t.positionAt s.driver.consumed.length
  cycle : s.driver.cycle = CycleRing.lap t.capacity s.driver.consumed.length
  held_le : s.driver.held ≤ s.driver.consumed.length
  dequeue : s.driver.dequeue = t.positionAt s.driver.released
  ring : CycleRing.Inv t.capacity (t.view s.mem) (s.flushed.map Trb.body)
    s.driver.consumed.length s.driver.released
  consumed_eq : s.driver.consumed.map Trb.body =
    (s.flushed.map Trb.body).take s.driver.consumed.length

variable {t : SegmentTable} {s : EventSystem}

lemma Start.synced (h : s.Start) : s.Synced s.driver.segments := by
  obtain ⟨ring,hload,hsegs⟩ := h.table
  have hcur : s.interrupter.currentRing s.mem = some ring := by
    rw [currentRing,h.guestRing]
    exact hload
  have hring : ring.position = (0,0) ∧ ring.cycle = true := by
    unfold load at hload
    split at hload
    · cases hload
      exact ⟨rfl,rfl⟩
    · cases hload
  have hlen : 0 < s.driver.segments.length := by
    rw [← hsegs]
    exact zero_lt_of_lt ring.inRange.lt_length
  have hcap : 0 < s.driver.segments.capacity :=
    zero_lt_of_lt (inRange_positionAt hlen 0).linear_lt
  have hconsumed : s.driver.consumed = [] := by rw [h.driver]; rfl
  have hreleased : s.driver.released = 0 := by
    rw [EventDriver.released,hconsumed]
    exact Nat.zero_sub _
  refine
    { length_pos := hlen
      disjoint := h.disjoint
      segments := rfl
      writer := ⟨ring,hcur,hsegs,?_,?_⟩
      erdp := by rw [hreleased]; exact h.erdp
      position := by rw [hconsumed,h.driver]; rfl
      cycle := by rw [hconsumed,length_nil,lap_of_lt hcap,h.driver]; rfl
      held_le := by rw [hconsumed,h.driver]; exact le_refl 0
      dequeue := by rw [hreleased,h.driver]; rfl
      ring := ?_
      consumed_eq := by rw [hconsumed,length_nil,take_zero]; rfl }
  · rw [h.flushed]
    exact hring.1
  · rw [h.flushed,length_nil,lap_of_lt hcap]
    exact hring.2
  · rw [h.flushed,hconsumed,hreleased]
    refine CycleRing.Inv.init hcap fun i _ a b hview => ?_
    obtain ⟨bytes,hread,heq⟩ := map_eq_some_iff.mp hview
    rw [← (Prod.mk.inj heq).2]
    exact h.clear _ (inRange_positionAt hlen i) bytes hread

end EventSystem

/-! ### Writing an event -/

@[simp] lemma Trb.body_setCycleBit (trb : Trb) (c : Bool) : (trb.setCycleBit c).body = trb.body :=
  setCycleBit_setCycleBit _ _ _

namespace SegmentTable
variable {t : SegmentTable} {mem mem' : DmaMemory} {n : ℕ}

lemma lap_positionAfter (h : 0 < t.length) (n : ℕ) :
    (if t.positionAfter (t.positionAt n) = (0,0) then !lap t.capacity n
      else lap t.capacity n) = lap t.capacity (n+1) := by
  have hiff : t.positionAfter (t.positionAt n) = (0,0) ↔ (n+1)%t.capacity = 0 := by
    rw [← positionAt_succ,← zero_mod t.capacity]
    exact positionAt_eq_iff (n := 0) h
  rw [lap_succ]
  exact if_congr hiff rfl rfl

lemma view_mod (h : 0 < t.length) (n : ℕ) : t.view mem (n%t.capacity) = t.view mem n := by
  rw [view,positionAt_mod h,view]

lemma view_write (hd : t.Disjoint) (h : 0 < t.length) {trb : Trb}
    (hw : mem.write (t.addressOf (t.positionAt n)) trb.toBytes = some mem') :
    t.view mem' (n%t.capacity) = some (trb.body,trb.cycleBit) ∧
      ∀ i < t.capacity, i ≠ n%t.capacity → t.view mem' i = t.view mem i := by
  constructor
  · have hread := Boot.GuestMemory.read_write hw
    rw [length_toBytes] at hread
    rw [view_mod h,view,hread,map_some,fromBytes_toBytes]
  · intro i hi hne
    have hpn := inRange_positionAt h n
    have hpi := inRange_positionAt h i
    have haddr : t.addressOf (t.positionAt i) ≠ t.addressOf (t.positionAt n) := by
      intro heq
      have := (positionAt_eq_iff h).mp (hd.addressOf_inj hpi hpn heq)
      rw [mod_eq_of_lt hi] at this
      exact hne this
    have hdn := hpn.dvd_addressOf
    have hdi := hpi.dvd_addressOf
    rw [view,view,(Boot.GuestMemory.write_changedOnly hw).read_eq]
    intro a ha ha'
    rw [length_toBytes]
    omega

end SegmentTable
namespace GuestEventRing
variable {t : SegmentTable} {ring ring' : GuestEventRing} {mem mem' : DmaMemory} {trb : Trb}
  {n erdp : ℕ}

lemma Stands.writeEvent (h : ring.Stands t n) (hlen : 0 < t.length)
    (hw : ring.writeEvent mem trb erdp = some (ring',mem')) :
    ring'.Stands t (n+1) ∧ (ring'.erstba = ring.erstba ∧ ring'.erstsz = ring.erstsz) ∧
      t.addressOf (t.positionAt (n+1)) ≠ erdp &&& not64 0xF ∧
      mem.write (t.addressOf (t.positionAt n))
        (trb.setCycleBit (lap t.capacity n)).toBytes = some mem' := by
  obtain ⟨rfl,hposition,hcycle⟩ := h
  simp only [writeEvent] at hw
  split at hw
  · cases hw
  · rename_i hne
    obtain ⟨m,hm,heq⟩ := map_eq_some_iff.mp hw
    obtain ⟨hring,hmem⟩ := Prod.mk.inj heq
    subst hring hmem
    rw [hposition,← positionAt_succ] at hne
    rw [hposition,hcycle] at hm
    refine ⟨⟨rfl,?_,?_⟩,⟨rfl,rfl⟩,hne,hm⟩
    · show ring.segments.positionAfter ring.position = _
      rw [hposition,positionAt_succ]
    · show (if ring.segments.positionAfter ring.position = (0,0) then !ring.cycle
        else ring.cycle) = _
      rw [hposition,hcycle,lap_positionAfter hlen n]

lemma matchesErst_of_currentRing {s : InterrupterRegisterSet}
    (h : s.currentRing mem = some ring) : ring.matchesErst s.erstba s.erstsz = true := by
  have hload : load mem s.erstba s.erstsz = some ring →
      ring.matchesErst s.erstba s.erstsz = true := by
    intro hl
    unfold load at hl
    split at hl
    · cases hl
      rw [matchesErst,beq_self_eq_true,beq_self_eq_true,Bool.true_and]
    · cases hl
  unfold currentRing at h
  split at h
  · split at h
    · cases h
      assumption
    · exact hload h
  · exact hload h

end GuestEventRing

/-! ### The steps keep the invariant -/

namespace EventSystem
open InterrupterRegisterSet
variable {t : SegmentTable} {s : EventSystem}

/-- The parties agree in the middle of a delivery: the events written so far count as flushed. -/
structure Delivering (t : SegmentTable) (s : EventSystem) (ring : GuestEventRing) (d : Delivery) :
    Prop where
  stands : d.ring.Stands t (s.flushed ++ d.delivered).length
  erst : d.ring.erstba = ring.erstba ∧ d.ring.erstsz = ring.erstsz
  inv : CycleRing.Inv t.capacity (t.view d.mem) ((s.flushed ++ d.delivered).map Trb.body)
    s.driver.consumed.length s.driver.released

section
variable (h : s.Synced t)
include h

lemma Synced.delivering {ring : GuestEventRing}
    (hstands : ring.Stands t s.flushed.length) (n : ℕ) (queue : RingBuffer Trb) :
    Delivering t s ring (deliver s.interrupter.erdp n ⟨queue,ring,s.mem,[]⟩) := by
  refine deliver_invariant ?_ ?_
  · refine ⟨?_,⟨rfl,rfl⟩,?_⟩
    · rw [append_nil]
      exact hstands
    · rw [append_nil]
      exact h.ring
  · intro d ring' mem' hd _ hw
    obtain ⟨hstands',herst,hne,hmem⟩ := hd.stands.writeEvent h.length_pos hw
    -- the writer's test against `ERDP` is the test that a slot is left
    have hroom : ((s.flushed ++ d.delivered).map body).length+1 ≠
        s.driver.released+t.capacity := by
      intro hfull
      refine hne ?_
      rw [h.erdp]
      congr 1
      rw [positionAt_eq_iff h.length_pos]
      rw [← length_map (f := body)]
      exact hd.inv.next_eq_iff.mpr hfull
    obtain ⟨hview,hother⟩ := view_write h.disjoint h.length_pos hmem
    rw [body_setCycleBit,cycleBit_setCycleBit] at hview
    refine ⟨?_,⟨herst.1.trans hd.erst.1,herst.2.trans hd.erst.2⟩,?_⟩
    · rw [← append_assoc,length_append]
      exact hstands'
    · rw [← append_assoc,map_append]
      refine hd.inv.produce hroom ?_ ?_
      · rw [length_map]
        exact hview
      · rw [length_map]
        exact hother

lemma Synced.flush : s.flush.Synced t := by
  obtain ⟨ring,hring,hstands⟩ := h.writer
  by_cases hba : s.interrupter.erstba = 0
  · have heq : s.flush = s := by
      simp only [EventSystem.flush,flushToGuest,if_pos hba,append_nil]
    rw [heq]
    exact h
  · have hd := h.delivering hstands s.interrupter.eventRing.ring.len s.interrupter.eventRing.ring
    have hmatch := matchesErst_of_currentRing hring
    refine
      { h with
        writer := ?_
        erdp := ?_
        ring := ?_
        consumed_eq := ?_ }
    all_goals simp only [EventSystem.flush,flushToGuest,if_neg hba,hring]
    · refine ⟨_,?_,hd.stands⟩
      -- the table stays loaded
      unfold currentRing
      refine if_pos ?_
      rw [matchesErst,hd.erst.1,hd.erst.2]
      exact hmatch
    · exact h.erdp
    · exact hd.inv
    · rw [map_append,take_append_of_le_length h.ring.consumed_le]
      exact h.consumed_eq

/-- The entry at the driver's position carries its cycle bit exactly when an event was flushed
that the driver has not consumed, and it is that event. -/
lemma Synced.next_iff {event : Trb} : (s.flushed.map body)[s.driver.consumed.length]? = some event ↔
      ∃ bytes, s.mem.read (s.driver.segments.addressOf s.driver.position) 16 = some bytes ∧
        (fromBytes bytes).body = event ∧ (fromBytes bytes).cycleBit = s.driver.cycle := by
  rw [← h.ring.mark_iff,view_mod h.length_pos,view,← h.position,h.cycle,h.segments,map_eq_some_iff]
  simp only [Prod.mk.injEq]

lemma Synced.consume : (s.step .consume).Synced t ∧ (s.step .consume).driver.consumed.map body =
      (s.flushed.map body).take (s.driver.consumed.length+1) := by
  have hstep : s.step .consume = { s with driver := s.driver.consume s.mem } := rfl
  -- nothing to take: the driver has consumed all
  have hidle : s.driver.consume s.mem = s.driver →
      (s.flushed.map body)[s.driver.consumed.length]? = none →
      (s.step .consume).Synced t ∧ (s.step .consume).driver.consumed.map body =
        (s.flushed.map body).take (s.driver.consumed.length+1) := by
    intro hsame hnone
    rw [hstep,hsame]
    refine ⟨h,?_⟩
    have hle := getElem?_eq_none_iff.mp hnone
    rw [take_of_length_le (le_succ_of_le hle),h.consumed_eq,take_of_length_le hle]
  cases hread : s.mem.read (s.driver.segments.addressOf s.driver.position) 16 with
  | none =>
    refine hidle ?_ ?_
    · rw [EventDriver.consume,hread]
    · refine eq_none_iff_forall_not_mem.mpr fun event hevent => ?_
      obtain ⟨_,hsome,_⟩ := h.next_iff.mp hevent
      rw [hread] at hsome
      cases hsome
  | some bytes =>
    by_cases hcyc : (fromBytes bytes).cycleBit = s.driver.cycle
    · have hget := h.next_iff.mpr ⟨bytes,hread,rfl,hcyc⟩
      have htake : (s.driver.consumed ++ [fromBytes bytes]).map body =
          (s.flushed.map body).take (s.driver.consumed.length+1) := by
        rw [map_append,h.consumed_eq,take_add_one,hget]
        rfl
      have hconsume : s.driver.consume s.mem =
          { s.driver with
            position := s.driver.segments.positionAfter s.driver.position
            cycle := if s.driver.segments.positionAfter s.driver.position = (0,0) then
              !s.driver.cycle else s.driver.cycle
            held := s.driver.held+1
            consumed := s.driver.consumed ++ [fromBytes bytes] } := by
        simp only [EventDriver.consume,hread,if_pos hcyc]
      have hlength : (s.driver.consumed ++ [fromBytes bytes]).length =
          s.driver.consumed.length+1 := length_append
      have hreleased : (s.driver.consume s.mem).released = s.driver.released := by
        rw [hconsume,EventDriver.released,EventDriver.released,hlength]
        exact Nat.add_sub_add_right _ _ _
      rw [hstep]
      refine ⟨?_,?_⟩
      · refine
          { length_pos := h.length_pos
            disjoint := h.disjoint
            segments := ?_
            writer := h.writer
            erdp := ?_
            position := ?_
            cycle := ?_
            held_le := ?_
            dequeue := ?_
            ring := ?_
            consumed_eq := ?_ }
        · rw [hconsume]
          exact h.segments
        · rw [hreleased]
          exact h.erdp
        · rw [hconsume,hlength,positionAt_succ,← h.position,← h.segments]
        · rw [hconsume,hlength,← lap_positionAfter h.length_pos,← h.position,
            ← h.segments,h.cycle,h.segments]
        · rw [hconsume,hlength]
          exact succ_le_succ h.held_le
        · rw [hreleased,hconsume]
          exact h.dequeue
        · rw [hreleased,hconsume,hlength]
          exact h.ring.consume hget
        · rw [hconsume,hlength]
          exact htake
      · rw [hconsume]
        exact htake
    · refine hidle ?_ ?_
      · simp only [EventDriver.consume,hread,if_neg hcyc]
      · refine eq_none_iff_forall_not_mem.mpr fun event hevent => ?_
        obtain ⟨bytes',hsome,_,hcyc'⟩ := h.next_iff.mp hevent
        rw [hread] at hsome
        cases hsome
        exact hcyc hcyc'

omit h in
lemma and_not64_flags {a : ℕ} (ha : a < 2^64) (hdvd : 16 ∣ a) (flags : BitVec 4) :
    ((a ||| flags.toNat) &&& not64 0xF) &&& not64 0xF = a := by
  have hflags := flags.isLt
  have hf : flags.toNat &&& not64 0xF = 0 := by
    rw [show 0xF = 2^4-1 by decide,and_not64_low (by omega) (by decide),
      div_eq_of_lt hflags,zero_mul]
  have ha' : a &&& not64 0xF = a := by
    rw [show 0xF = 2^4-1 by decide,and_not64_low ha (by decide)]
    exact Nat.div_mul_cancel hdvd
  rw [Nat.and_or_distrib_right,hf,ha',Nat.or_zero,ha']

lemma Synced.advance (n : ℕ) (flags : BitVec 4) :
    (s.step (.advance n flags)).Synced t := by
  by_cases hn : n ≤ s.driver.held
  case neg =>
    rw [EventSystem.step,if_neg hn]
    exact h
  case pos =>
    rw [EventSystem.step,if_pos hn]
    have hreleased : (s.driver.advance n).released = s.driver.released+n := by
      have := h.held_le
      unfold EventDriver.released EventDriver.advance
      show s.driver.consumed.length-(s.driver.held-n) = _
      omega
    have hdequeue : (s.driver.advance n).dequeue = t.positionAt (s.driver.released+n) := by
      show s.driver.segments.positionAfter^[n] s.driver.dequeue = _
      rw [h.segments,h.dequeue,← positionAt_add,add_comm]
    have hrange := inRange_positionAt h.length_pos (s.driver.released+n)
    exact
      { length_pos := h.length_pos
        disjoint := h.disjoint
        segments := h.segments
        writer := h.writer
        erdp := by
          show ((s.driver.segments.addressOf (s.driver.advance n).dequeue ||| flags.toNat) &&&
            not64 0xF) &&& not64 0xF = _
          rw [hreleased,hdequeue,h.segments]
          exact and_not64_flags (addressOf_lt _ _) hrange.dvd_addressOf flags
        position := h.position
        cycle := h.cycle
        held_le := le_trans (sub_le _ _) h.held_le
        dequeue := by rw [hreleased]; exact hdequeue
        ring := by
          rw [hreleased]
          refine h.ring.release (Nat.le_add_right _ _) ?_
          have := h.held_le
          unfold EventDriver.released
          show _ ≤ s.driver.consumed.length
          omega
        consumed_eq := h.consumed_eq }

lemma Synced.step (op : EventOp) : (s.step op).Synced t := by
  cases op with
  | post trb => exact { h with }
  | flush => exact h.flush
  | consume => exact h.consume.1
  | advance n flags => exact h.advance n flags

lemma Synced.run (ops : List EventOp) : (s.run ops).Synced t := by
  induction ops generalizing s with
  | nil => exact h
  | cons op ops ih => exact ih (h.step op)

lemma Synced.read_on (n : ℕ) : (s.run (replicate n .consume)).driver.consumed.map body =
      (s.flushed.map body).take (s.driver.consumed.length+n) := by
  induction n generalizing s with
  | zero => exact h.consumed_eq
  | succ n ih =>
    obtain ⟨hsync,hconsumed⟩ := h.consume
    have hlength := congrArg length hconsumed
    rw [length_map,length_take] at hlength
    have hrun : s.run (replicate (n+1) .consume) =
        (s.step .consume).run (replicate n .consume) := rfl
    rw [hrun,ih hsync]
    show take _ (s.flushed.map body) = _
    rcases Nat.le_total (s.driver.consumed.length+1) (s.flushed.map body).length with hle | hge
    · rw [hlength,Nat.min_eq_left hle]
      congr 1
      omega
    · rw [Nat.min_eq_right hge] at hlength
      rw [take_of_length_le (by omega),take_of_length_le (by omega)]

end

/-! ### No event is dropped -/

lemma entered_flush : s.flush.entered = s.entered := by
  simp only [entered,EventSystem.flush,flushToGuest]
  split
  · rw [append_nil]
  · split
    · rw [append_nil]
    · rw [append_assoc]
      exact congrArg (fun l => (s.flushed ++ l).map Trb.body) deliver_queue

lemma entered_step (op : EventOp) :
    (s.step op).entered = s.entered ++ (s.accepts op).map Trb.body := by
  cases op with
  | post trb =>
    cases hfull : s.interrupter.eventRing.ring.isFull with
    | true => simp [entered,EventSystem.step,accepts,EventRing.postEvent,hfull]
    | false =>
      have htrue : (s.interrupter.eventRing.postEvent trb).1 = true := by
        rw [EventRing.postEvent,hfull]
        rfl
      simp [entered,EventSystem.step,accepts,EventRing.pending_postEvent hfull,htrue]
  | flush => exact entered_flush.trans (append_nil _).symm
  | consume => exact (append_nil _).symm
  | advance n flags =>
    simp only [EventSystem.step,accepts,map_nil,append_nil]
    split <;> rfl

lemma entered_run (ops : List EventOp) :
    (s.run ops).entered = s.entered ++ (s.accepted ops).map Trb.body := by
  induction ops generalizing s with
  | nil => exact (append_nil _).symm
  | cons op ops ih =>
    rw [accepted,map_append,← append_assoc,← entered_step]
    exact ih

/-! ### Whole runs
-/

/-- After any interleaving, what the driver has consumed is an initial part of what was flushed, and
reading `n` more entries yields the next `n` events flushed, or all that are left. What was flushed
and what waits are, in order, what waited at the start and the accepted posts. -/
theorem run_consumed (h : s.Start) (ops : List EventOp) :
    ((s.run ops).driver.consumed.map Trb.body <+: (s.run ops).flushed.map Trb.body ∧
      ∀ n, ((s.run ops).run (replicate n .consume)).driver.consumed.map Trb.body =
        ((s.run ops).flushed.map Trb.body).take ((s.run ops).driver.consumed.length+n)) ∧
      (s.run ops).entered = (s.interrupter.eventRing.pending ++ s.accepted ops).map Trb.body := by
  have hsync := h.synced.run ops
  refine ⟨⟨?_,hsync.read_on⟩,?_⟩
  · rw [hsync.consumed_eq]
    exact take_prefix _ _
  · rw [entered_run,entered,h.flushed,nil_append,map_append]

/-- A ring of two segments at `0x2000` and `0x3000`, described at `0x1000`. -/
def twoSegments : EventSystem where
  interrupter := { InterrupterRegisterSet.new with erstba := 0x1000, erstsz := 2, erdp := 0x2000 }
  mem :=
    { ok := fun gpa n => gpa+n ≤ 0x10000
      byte := fun a =>
        if a = 0x1001 then 0x20 else if a = 0x1011 then 0x30
        else if a = 0x1008 ∨ a = 0x1018 then 16 else 0
      ok_le := by
        intro gpa n h
        exact le_trans (of_decide_eq_true h) (by decide) }
  driver := .new [⟨0x2000,16,by decide,by decide,by decide,by decide⟩,
    ⟨0x3000,16,by decide,by decide,by decide,by decide⟩]
  flushed := []

private lemma clear_twoSegments {addr : ℕ} (h : 0x2000 ≤ addr) {bytes : List UInt8}
    (hread : twoSegments.mem.read addr 16 = some bytes) :
    (fromBytes bytes).cycleBit = false := by
  unfold Boot.GuestMemory.read at hread
  split at hread
  · cases hread
    have hzero : ((range 16).map fun i => twoSegments.mem.byte (addr+i)) =
        (range 16).map fun _ => 0 := by
      refine map_congr_left fun i _ => ?_
      show (if addr+i = 0x1001 then 0x20 else if addr+i = 0x1011 then 0x30
        else if addr+i = 0x1008 ∨ addr+i = 0x1018 then 16 else 0 : UInt8) = 0
      rw [if_neg (by omega),if_neg (by omega),if_neg (by omega)]
    rw [hzero]
    decide
  · cases hread

lemma start_twoSegments : twoSegments.Start where
  driver := rfl
  disjoint := by
    refine .cons ?_ (.cons ?_ .nil)
    · intro b hb i hi j hj
      cases mem_singleton.mp hb
      have hi' : i < 256 := hi
      have hj' : j < 256 := hj
      show add64 0x2000 i ≠ add64 0x3000 j
      rw [add64_of_lt (by omega),add64_of_lt (by omega)]
      omega
    · intro b hb
      cases hb
  table := ⟨_,rfl,rfl⟩
  clear := by
    rintro ⟨segment,index⟩ hp bytes hread
    refine clear_twoSegments ?_ hread
    match segment, hp with
    | 0, hp =>
      have hlt : index < 16 := hp
      show 0x2000 ≤ add64 0x2000 (index*16)
      rw [add64_of_lt (by omega)]
      omega
    | 1, hp =>
      have hlt : index < 16 := hp
      show 0x2000 ≤ add64 0x3000 (index*16)
      rw [add64_of_lt (by omega)]
      omega
    | n+2, hp => exact absurd hp (Nat.not_lt_zero _)
  erdp := by decide
  guestRing := rfl
  flushed := rfl

/-- Two events pass through the ring of two segments, with `ERDP` moved over the first. -/
theorem run_consumed_twoSegments :
    let s := twoSegments.run [.post ⟨1,0,0⟩,.post ⟨2,0,0⟩,.flush,.consume,.advance 1 8]
    (s.driver.consumed.length = 1 ∧ s.flushed.length = 2) ∧
      (s.driver.consumed.map Trb.body <+: s.flushed.map Trb.body ∧
        ∀ n, (s.run (replicate n .consume)).driver.consumed.map Trb.body =
          (s.flushed.map Trb.body).take (s.driver.consumed.length+n)) ∧
      s.entered = [⟨1,0,0⟩,⟨2,0,0⟩] :=
  have h := run_consumed start_twoSegments
    [.post ⟨1,0,0⟩,.post ⟨2,0,0⟩,.flush,.consume,.advance 1 8]
  ⟨by decide +kernel,h.1,h.2.trans (by decide +kernel)⟩

end EventSystem
end Enlil.Devices.Xhci
