import Mathlib.Logic.Function.Basic
import Mathlib.Tactic.Common

/-! # The bridge transport between guests -/

namespace Enlil.Devices
open List

inductive BridgeChannel where
  | clipboard | dragDrop | notify | sharedFs | fastNet | urlRoute | controlTx | controlRx
  deriving DecidableEq, Repr

namespace BridgeChannel

def all : List BridgeChannel :=
  [clipboard,dragDrop,notify,sharedFs,fastNet,urlRoute,controlTx,controlRx]

def earlier (c : BridgeChannel) : List BridgeChannel := all.takeWhile (· ≠ c)

lemma mem_all (c : BridgeChannel) : c ∈ all := by
  cases c <;> decide

lemma mem_earlier {c d : BridgeChannel} (h : c ≠ d) : c ∈ d.earlier ∨ d ∈ c.earlier := by
  revert h
  cases c <;> cases d <;> decide

end BridgeChannel

/-- A message: the transport reads no other field of it than the channel. -/
structure BridgeMessage (α : Type) where
  channel : BridgeChannel
  body : α
  deriving DecidableEq, Repr

structure LocalVirtioTransport (α : Type) where
  queues : BridgeChannel → List (BridgeMessage α)
  maxQueueDepth : ℕ

namespace LocalVirtioTransport
variable {α : Type} {t : LocalVirtioTransport α} {m : BridgeMessage α} {c : BridgeChannel}

def new (maxQueueDepth : ℕ) : LocalVirtioTransport α := ⟨fun _ => [],maxQueueDepth⟩

def setQueue (t : LocalVirtioTransport α) (c : BridgeChannel) (q : List (BridgeMessage α)) :
    LocalVirtioTransport α :=
  { t with queues := Function.update t.queues c q }

def send (t : LocalVirtioTransport α) (m : BridgeMessage α) :
    Except String Unit × LocalVirtioTransport α :=
  if t.maxQueueDepth ≤ (t.queues m.channel).length then (.error "Queue full",t)
  else (.ok (),t.setQueue m.channel (t.queues m.channel ++ [m]))

def recvFrom (t : LocalVirtioTransport α) :
    List BridgeChannel → Option (BridgeMessage α) × LocalVirtioTransport α
  | [] => (none,t)
  | c :: channels =>
    match t.queues c with
    | [] => t.recvFrom channels
    | m :: q => (some m,t.setQueue c q)

def recv (t : LocalVirtioTransport α) : Option (BridgeMessage α) × LocalVirtioTransport α :=
  t.recvFrom BridgeChannel.all

inductive Call (α : Type) where
  | send (m : BridgeMessage α)
  | recv
  deriving DecidableEq

section
variable (t : LocalVirtioTransport α)

def step : Call α → LocalVirtioTransport α
  | .send m => (t.send m).2
  | .recv => t.recv.2

def run (calls : List (Call α)) : LocalVirtioTransport α :=
  calls.foldl step t

def accepted : Call α → List (BridgeMessage α)
  | .send m => if (t.send m).1 = .ok () then [m] else []
  | .recv => []

def received : Call α → List (BridgeMessage α)
  | .send _ => []
  | .recv => t.recv.1.toList

def log (f : LocalVirtioTransport α → Call α → List (BridgeMessage α))
    (t : LocalVirtioTransport α) : List (Call α) → List (BridgeMessage α)
  | [] => []
  | call :: calls => f t call ++ log f (t.step call) calls

def Sorted : Prop := ∀ c, ∀ m ∈ t.queues c, m.channel = c

def Served (c : BridgeChannel) : Prop :=
  ∀ d ∈ c.earlier, t.queues d = []

lemma recvFrom_cases (channels : List BridgeChannel) :
    ((∀ c ∈ channels, t.queues c = []) ∧ t.recvFrom channels = (none,t)) ∨
      ∃ c m q, (∀ d ∈ channels.takeWhile (· ≠ c), t.queues d = []) ∧ t.queues c = m :: q ∧
        t.recvFrom channels = (some m,t.setQueue c q) := by
  induction channels with
  | nil => exact .inl ⟨by simp,rfl⟩
  | cons d channels ih =>
    rw [recvFrom]
    cases hq : t.queues d with
    | cons m q => exact .inr ⟨d,m,q,by simp,hq,rfl⟩
    | nil =>
      rcases ih with ⟨hnone,heq⟩ | ⟨c,m,q,hbefore,hc,heq⟩
      · exact .inl ⟨forall_mem_cons.mpr ⟨hq,hnone⟩,heq⟩
      · have hne : d ≠ c := by
          rintro rfl
          cases hq.symm.trans hc
        refine .inr ⟨c,m,q,?_,hc,heq⟩
        rw [takeWhile_cons_of_pos (by simpa using hne)]
        exact forall_mem_cons.mpr ⟨hq,hbefore⟩

end

lemma recv_cases (h : t.Sorted) : ((∀ c, t.queues c = []) ∧ t.recv = (none,t)) ∨
      ∃ m q, t.Served m.channel ∧ t.queues m.channel = m :: q ∧
        t.recv = (some m,t.setQueue m.channel q) := by
  rcases t.recvFrom_cases BridgeChannel.all with ⟨hnone,heq⟩ | ⟨c,m,q,hbefore,hc,heq⟩
  · exact .inl ⟨fun c => hnone c c.mem_all,heq⟩
  · obtain rfl := h c m (hc ▸ mem_cons_self)
    exact .inr ⟨m,q,hbefore,hc,heq⟩

/-- The queue a call leaves to a channel, with what it put there and took from it. -/
lemma step_queue (h : t.Sorted) (call : Call α) (c : BridgeChannel) :
    t.queues c ++ (t.accepted call).filter (·.channel = c) =
      (t.received call).filter (·.channel = c) ++ (t.step call).queues c := by
  cases call with
  | send m =>
    rw [accepted,received,step,send]
    split_ifs with hfull hok
    · cases hok
    · simp
    · by_cases hc : m.channel = c
      · subst hc
        simp [setQueue]
      · simp [setQueue,hc,Function.update_of_ne (Ne.symm hc)]
    · contradiction
  | recv =>
    rw [accepted,received,step]
    rcases recv_cases h with ⟨-,heq⟩ | ⟨m,q,-,hm,heq⟩
    · simp [heq]
    · rw [heq]
      by_cases hc : m.channel = c
      · subst hc
        simp [setQueue,hm]
      · simp [setQueue,hc,Function.update_of_ne (Ne.symm hc)]

lemma step_sorted (h : t.Sorted) (call : Call α) : (t.step call).Sorted := by
  intro c m hm
  have hmem := mem_append_right ((t.received call).filter (·.channel = c)) hm
  rw [← step_queue h call c] at hmem
  rcases mem_append.mp hmem with hold | hnew
  · exact h c m hold
  · exact of_decide_eq_true (mem_filter.mp hnew).2

lemma run_sorted (h : t.Sorted) (calls : List (Call α)) : (t.run calls).Sorted := by
  induction calls generalizing t with
  | nil => exact h
  | cons call calls ih => exact ih (step_sorted h call)

lemma run_queue (h : t.Sorted) (calls : List (Call α)) (c : BridgeChannel) :
    t.queues c ++ (log accepted t calls).filter (·.channel = c) =
      (log received t calls).filter (·.channel = c) ++ (t.run calls).queues c := by
  induction calls generalizing t with
  | nil => simp [log,run]
  | cons call calls ih =>
    rw [log,log,filter_append,filter_append,← List.append_assoc,step_queue h call c,
      List.append_assoc,ih (step_sorted h call),List.append_assoc]
    rfl

def ServedIn (c : BridgeChannel) (t : LocalVirtioTransport α) : List (Call α) → Prop
  | [] => False
  | call :: calls => (call = .recv ∧ t.Served c) ∨ ServedIn c (t.step call) calls

variable {q : List (BridgeMessage α)}

lemma received_of_served (h : t.Sorted) (hc : t.Served c)
    (hq : t.queues c = m :: q) : m ∈ t.received .recv := by
  rcases recv_cases h with ⟨hnone,-⟩ | ⟨m',q',hserved,hm',heq⟩
  · cases (hnone c).symm.trans hq
  · by_cases hne : c = m'.channel
    · subst hne
      rw [received,heq,(List.cons.inj (hm'.symm.trans hq)).1]
      exact mem_singleton_self m
    · -- Of two channels with a message, one comes before the other.
      rcases BridgeChannel.mem_earlier hne with hmem | hmem
      · cases (hserved c hmem).symm.trans hq
      · cases (hc _ hmem).symm.trans hm'

lemma received_of_not_served {call : Call α} (h : t.Sorted) (hc : ¬(call = .recv ∧ t.Served c)) :
    (t.received call).filter (·.channel = c) = [] := by
  cases call with
  | send m => rfl
  | recv =>
    rcases recv_cases h with ⟨-,heq⟩ | ⟨m,q,hserved,-,heq⟩
    · rw [received,heq]
      rfl
    · have hne : m.channel ≠ c := by
        rintro rfl
        exact hc ⟨rfl,hserved⟩
      simp [received,heq,hne]

lemma mem_received_iff (h : t.Sorted) (hq : t.queues c = m :: q)
    (calls : List (Call α)) : m ∈ log received t calls ↔ ServedIn c t calls := by
  induction calls generalizing t q with
  | nil => simp [log,ServedIn]
  | cons call calls ih =>
    rw [log,mem_append,ServedIn]
    by_cases hserved : call = .recv ∧ t.Served c
    · obtain ⟨rfl,hc⟩ := hserved
      exact ⟨fun _ => .inl ⟨rfl,hc⟩,fun _ => .inl (received_of_served h hc hq)⟩
    · -- A call that does not look at the queue leaves the message at its head.
      have hnone := received_of_not_served h hserved
      have hnot : m ∉ t.received call := fun hmem => not_mem_nil
        (hnone ▸ mem_filter.mpr ⟨hmem,decide_eq_true (h c m (hq ▸ mem_cons_self))⟩)
      have hnext := step_queue h call c
      rw [hnone,hq] at hnext
      rw [or_iff_right hnot,or_iff_right hserved]
      exact ih (step_sorted h call) hnext.symm

/-- The message at the head of a queue is among those the next eight `recv` calls return iff one of
these calls finds the earlier channels empty; each channel is first in, first out. -/
theorem recv_within_eight_iff (depth : ℕ) (before calls : List (Call α)) (c : BridgeChannel)
    (m : BridgeMessage α) (hhead : (((new depth).run before).queues c).head? = some m)
    (_ : (calls.filter fun call => call matches .recv).length = 8) :
    (m ∈ log received ((new depth).run before) calls ∧
      ∀ d, (log accepted (new depth) (before ++ calls)).filter (·.channel = d) =
        (log received (new depth) (before ++ calls)).filter (·.channel = d) ++
          ((new depth).run (before ++ calls)).queues d) ↔
    ServedIn c ((new depth).run before) calls := by
  have hnew : (new depth : LocalVirtioTransport α).Sorted := fun _ _ hm => absurd hm (by simp [new])
  obtain ⟨q,hq⟩ := head?_eq_some_iff.mp hhead
  rw [mem_received_iff (run_sorted hnew before) hq,and_iff_left_iff_imp]
  intro _ d
  exact run_queue hnew (before ++ calls) d

theorem recv_within_eight_behind_two : (⟨.controlRx,1⟩ : BridgeMessage ℕ) ∈ log received
      ((new 4).run [.send ⟨.controlRx,1⟩,.send ⟨.clipboard,0⟩,.send ⟨.clipboard,2⟩])
      (replicate 8 .recv) :=
  ((recv_within_eight_iff 4 [.send ⟨.controlRx,1⟩,.send ⟨.clipboard,0⟩,.send ⟨.clipboard,2⟩]
    (replicate 8 .recv) .controlRx ⟨.controlRx,1⟩ (by decide) (by decide)).mpr
    (.inr (.inr (.inl ⟨rfl,by unfold Served; decide⟩)))).1

theorem recv_starves :
    let t : LocalVirtioTransport ℕ := (new 8).run
      (replicate 8 (.send ⟨.clipboard,0⟩) ++ [.send ⟨.controlRx,1⟩])
    (t.queues .controlRx).head? = some ⟨.controlRx,1⟩ ∧
      ⟨.controlRx,1⟩ ∉ log received t (replicate 8 .recv) := by
  decide

end LocalVirtioTransport
end Enlil.Devices
