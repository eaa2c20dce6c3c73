import Mathlib.Data.List.Range
import Mathlib.Data.Nat.ModEq

/-!
# Ring buffers that keep one slot free

A ring has `cap` slots and two indices. It is empty when the indices agree and full when one more
element would make them agree, so it holds at most `cap - 1` elements.
-/

structure RingBuffer (α : Type) where
  cap : ℕ
  entries : ℕ → α
  enqueueIdx : ℕ
  dequeueIdx : ℕ
  enqueue_lt : enqueueIdx < cap
  dequeue_lt : dequeueIdx < cap

namespace RingBuffer
open Nat Function
variable {α : Type}

def new (cap : ℕ) (a : α) (h : 0 < cap) : RingBuffer α where
  cap := cap
  entries := fun _ => a
  enqueueIdx := 0
  dequeueIdx := 0
  enqueue_lt := h
  dequeue_lt := h

section
variable (r : RingBuffer α)

def next (i : ℕ) : ℕ := if r.cap ≤ i+1 then 0 else i+1

def isEmpty : Bool := r.enqueueIdx == r.dequeueIdx

def isFull : Bool := r.next r.enqueueIdx == r.dequeueIdx

def len : ℕ :=
  if r.dequeueIdx ≤ r.enqueueIdx then r.enqueueIdx-r.dequeueIdx
  else r.cap-r.dequeueIdx+r.enqueueIdx

lemma next_lt (i : ℕ) : r.next i < r.cap := by
  have := r.enqueue_lt
  unfold next
  split <;> omega

/-- Write at the enqueue index and advance it. Only meant for a ring that is not full. -/
def push (a : α) : RingBuffer α where
  cap := r.cap
  entries := update r.entries r.enqueueIdx a
  enqueueIdx := r.next r.enqueueIdx
  dequeueIdx := r.dequeueIdx
  enqueue_lt := r.next_lt _
  dequeue_lt := r.dequeue_lt

def front : α := r.entries r.dequeueIdx

def pop : RingBuffer α where
  cap := r.cap
  entries := r.entries
  enqueueIdx := r.enqueueIdx
  dequeueIdx := r.next r.dequeueIdx
  enqueue_lt := r.enqueue_lt
  dequeue_lt := r.next_lt _

/-- The elements of the ring, oldest first. -/
def contents : List α :=
  (List.range r.len).map fun i => r.entries ((r.dequeueIdx+i)%r.cap)

end
variable (r : RingBuffer α)

@[simp] lemma length_contents : r.contents.length = r.len := by
  rw [contents,List.length_map,List.length_range]

lemma next_eq_mod {i : ℕ} (h : i < r.cap) : r.next i = (i+1)%r.cap := by
  unfold next
  split
  · rw [show i+1 = r.cap by omega,mod_self]
  · rw [mod_eq_of_lt (by omega)]

lemma len_lt : r.len < r.cap := by
  have := r.enqueue_lt
  have := r.dequeue_lt
  unfold len
  split <;> omega

lemma enqueueIdx_eq : r.enqueueIdx = (r.dequeueIdx+r.len)%r.cap := by
  have := r.enqueue_lt
  have := r.dequeue_lt
  unfold len
  split
  · rw [mod_eq_of_lt (by omega)]
    omega
  · rw [show r.dequeueIdx+(r.cap-r.dequeueIdx+r.enqueueIdx) = r.enqueueIdx+r.cap by omega,
      add_mod_right,mod_eq_of_lt r.enqueue_lt]

lemma isEmpty_iff : r.isEmpty = true ↔ r.contents = [] := by
  have := r.enqueue_lt
  have := r.dequeue_lt
  rw [isEmpty,beq_iff_eq,← List.length_eq_zero_iff,length_contents,len]
  split <;> omega

variable {r}

lemma len_push (a : α) (h : r.isFull = false) : (r.push a).len = r.len+1 := by
  have := r.enqueue_lt
  have := r.dequeue_lt
  rw [isFull,beq_eq_false_iff_ne,next] at h
  simp only [len,push,next]
  grind

lemma len_pop (h : r.isEmpty = false) : r.pop.len+1 = r.len := by
  have := r.enqueue_lt
  have := r.dequeue_lt
  rw [isEmpty,beq_eq_false_iff_ne] at h
  simp only [len,pop,next]
  grind

lemma slot_ne {d i j n : ℕ} (hi : i < n) (hj : j < n) (hij : i ≠ j) :
    (d+i)%n ≠ (d+j)%n := by
  intro h
  have hmod : i ≡ j [MOD n] := Nat.ModEq.add_left_cancel' d h
  rw [Nat.ModEq,mod_eq_of_lt hi,mod_eq_of_lt hj] at hmod
  exact hij hmod

lemma contents_push (a : α) (h : r.isFull = false) :
    (r.push a).contents = r.contents ++ [a] := by
  rw [contents,len_push a h,List.range_succ,List.map_append,List.map_singleton]
  have hlast : (r.push a).entries (((r.push a).dequeueIdx+r.len)%(r.push a).cap) = a := by
    show update r.entries r.enqueueIdx a ((r.dequeueIdx+r.len)%r.cap) = a
    rw [← r.enqueueIdx_eq,Function.update_self]
  rw [hlast]
  congr 1
  refine List.map_congr_left fun i hi => ?_
  have hlt := List.mem_range.mp hi
  -- an occupied slot is not the one written
  show update r.entries r.enqueueIdx a _ = _
  rw [Function.update_of_ne]
  · rfl
  · have hlen := r.len_lt
    rw [r.enqueueIdx_eq]
    exact slot_ne (lt_trans hlt hlen) hlen (Nat.ne_of_lt hlt)

lemma contents_pop (h : r.isEmpty = false) : r.contents = r.front :: r.pop.contents := by
  rw [contents,← len_pop h,List.range_succ_eq_map,List.map_cons,List.map_map,contents]
  congr 1
  · rw [front,add_zero,mod_eq_of_lt r.dequeue_lt]
  · refine List.map_congr_left fun i _ => ?_
    show r.entries ((r.dequeueIdx+(i+1))%r.cap) = r.entries ((r.next r.dequeueIdx+i)%r.cap)
    rw [r.next_eq_mod r.dequeue_lt,mod_add_mod]
    congr 2
    omega

end RingBuffer
