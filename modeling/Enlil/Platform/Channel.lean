import Enlil.Lib.Condvar
import Enlil.Lib.Pool
import Enlil.Lib.Runs
import Mathlib.Data.List.Count

/-!
# The bounded channel: model of the channel in `sync/mod.rs`

The model is that of the hosted backend: what a call does while it holds the lock is one step, and
so is a notification that it gives after it has released the lock. Any number of calls may use a
sender or the receiver at once; it can be dropped when no call uses it.
-/

namespace Enlil.Platform
open List Bool Condvar Option

/-- What a call of the channel has returned. Values are kept with the sender they came from. -/
inductive Outcome (T : Type) where
  | sent (sender : ℕ) (value : T)
  /-- `SendError` -/
  | sendError (sender : ℕ) (value : T)
  /-- `TrySendError::Full` -/
  | full (sender : ℕ) (value : T)
  /-- `TrySendError::Closed` -/
  | closed (sender : ℕ) (value : T)
  | received (sender : ℕ) (value : T)
  /-- `RecvError` -/
  | recvError
  /-- `TryRecvError::Empty` -/
  | empty
  /-- `TryRecvError::Disconnected` -/
  | disconnected

namespace Outcome
variable {T : Type}

def sent? : Outcome T → Option (ℕ × T)
  | .sent sender value => some (sender,value)
  | _ => none

def received? : Outcome T → Option (ℕ × T)
  | .received sender value => some (sender,value)
  | _ => none

def reportsDisconnection : Outcome T → Bool
  | .recvError => true
  | .disconnected => true
  | _ => false

end Outcome

/-- The shared state, the handles that exist and are not being dropped, numbered in the order in
which they are made, and what calls have returned. -/
structure Channel (T : Type) where
  buffer : List (ℕ × T)
  capacity : ℕ
  closed : Bool
  senderCount : ℕ
  notEmpty : Condvar
  notFull : Condvar
  senders : List ℕ
  nextSender : ℕ
  receiver : Bool
  log : List (Outcome T)

namespace Channel

inductive Op (T : Type) where
  | send (sender : ℕ) (value : T)
  /-- `send`, waiting on `not_full` or notified -/
  | sendWait (sender : ℕ) (value : T) (ticket : ℕ)
  | trySend (sender : ℕ) (value : T)
  /-- `try_send`, before its notification -/
  | notifyNotEmpty (sender : ℕ)
  | recv
  /-- `recv`, waiting on `not_empty` or notified -/
  | recvWait (ticket : ℕ)
  | tryRecv
  | clone (sender : ℕ)
  | dropSender
  /-- `Sender::drop`, before its notification -/
  | notifyAllNotEmpty
  | dropReceiver
  /-- `Receiver::drop`, before its notification -/
  | notifyAllNotFull

variable {T : Type}
section
variable (s : Channel T)

def record (outcome : Outcome T) : Channel T := { s with log := s.log ++ [outcome] }

def push (sender : ℕ) (value : T) : Channel T :=
  { s with buffer := s.buffer ++ [(sender,value)], log := s.log ++ [.sent sender value] }

def sendTurn (choice sender : ℕ) (value : T) : Channel T × List (Op T) :=
  if s.closed then (s.record (.sendError sender value),[])
  else if s.buffer.length < s.capacity then
    ({ s.push sender value with notEmpty := s.notEmpty.notifyOne choice },[])
  else ({ s with notFull := s.notFull.wait },[.sendWait sender value s.notFull.tickets])

def take (choice : ℕ) (x : ℕ × T) (rest : List (ℕ × T)) : Channel T :=
  { s with
    buffer := rest, notFull := s.notFull.notifyOne choice, log := s.log ++ [.received x.1 x.2] }

def recvTurn (choice : ℕ) : Channel T × List (Op T) :=
  match s.buffer with
  | x :: rest => (s.take choice x rest,[])
  | [] =>
    if s.closed then (s.record .recvError,[])
    else ({ s with notEmpty := s.notEmpty.wait },[.recvWait s.notEmpty.tickets])

end

/-- The next step of a call. `choice` selects whom a notification wakes. -/
def act (choice : ℕ) (s : Channel T) : Op T → Option (Channel T × List (Op T))
  | .send sender value => some (s.sendTurn choice sender value)
  | .sendWait sender value ticket =>
    if ticket ∈ s.notFull.waiting then none else some (s.sendTurn choice sender value)
  | .trySend sender value =>
    if s.closed then some (s.record (.closed sender value),[])
    else if s.capacity ≤ s.buffer.length then some (s.record (.full sender value),[])
    else some (s.push sender value,[.notifyNotEmpty sender])
  | .notifyNotEmpty _ => some ({ s with notEmpty := s.notEmpty.notifyOne choice },[])
  | .recv => some (s.recvTurn choice)
  | .recvWait ticket =>
    if ticket ∈ s.notEmpty.waiting then none else some (s.recvTurn choice)
  | .tryRecv =>
    match s.buffer with
    | x :: rest => some (s.take choice x rest,[])
    | [] => if s.closed then some (s.record .disconnected,[]) else some (s.record .empty,[])
  | .clone _ =>
    some ({ s with
      senderCount := s.senderCount+1
      senders := s.nextSender :: s.senders
      nextSender := s.nextSender+1 },[])
  | .dropSender =>
    if s.senderCount-1 = 0 then
      some ({ s with senderCount := s.senderCount-1, closed := true },[.notifyAllNotEmpty])
    else some ({ s with senderCount := s.senderCount-1 },[])
  | .notifyAllNotEmpty => some ({ s with notEmpty := s.notEmpty.notifyAll },[])
  | .dropReceiver => some ({ s with closed := true },[.notifyAllNotFull])
  | .notifyAllNotFull => some ({ s with notFull := s.notFull.notifyAll },[])

def Op.sender? : Op T → Option ℕ
  | .send sender _ => some sender
  | .sendWait sender _ _ => some sender
  | .trySend sender _ => some sender
  | .notifyNotEmpty sender => some sender
  | .clone sender => some sender
  | _ => none

def Op.usesReceiver : Op T → Bool
  | .recv => true
  | .recvWait _ => true
  | .tryRecv => true
  | _ => false

/-- A new call, a step of one under way, or a wake-up without a notification. -/
inductive Event (T : Type) where
  | send (sender : ℕ) (value : T)
  | trySend (sender : ℕ) (value : T)
  | recv
  | tryRecv
  | clone (sender : ℕ)
  | dropSender (sender : ℕ)
  | dropReceiver
  | advance (i choice : ℕ)
  | spuriousNotFull (ticket : ℕ)
  | spuriousNotEmpty (ticket : ℕ)

section
variable (p : Pool (Channel T) (Op T))

def enter (there : Bool) (op : Op T) : Pool (Channel T) (Op T) :=
  if there then ⟨p.shared,op :: p.active⟩ else p

def step : Event T → Pool (Channel T) (Op T)
  | .send sender value => enter p (p.shared.senders.contains sender) (.send sender value)
  | .trySend sender value => enter p (p.shared.senders.contains sender) (.trySend sender value)
  | .recv => enter p p.shared.receiver .recv
  | .tryRecv => enter p p.shared.receiver .tryRecv
  | .clone sender => enter p (p.shared.senders.contains sender) (.clone sender)
  | .dropSender sender =>
    -- A handle is dropped by its owner, once nobody borrows it.
    if sender ∈ p.shared.senders ∧ ∀ op ∈ p.active, op.sender? ≠ some sender then
      ⟨{ p.shared with senders := p.shared.senders.erase sender },.dropSender :: p.active⟩
    else p
  | .dropReceiver =>
    if p.shared.receiver ∧ ∀ op ∈ p.active, op.usesReceiver = false then
      ⟨{ p.shared with receiver := false },.dropReceiver :: p.active⟩
    else p
  | .advance i choice => p.advance (act choice) i
  | .spuriousNotFull ticket =>
    ⟨{ p.shared with notFull := p.shared.notFull.spurious ticket },p.active⟩
  | .spuriousNotEmpty ticket =>
    ⟨{ p.shared with notEmpty := p.shared.notEmpty.spurious ticket },p.active⟩

/-- The state that `channel` makes, with its first sender and its receiver. A capacity of zero,
which its assertion refuses, is not excluded here. -/
def new (capacity : ℕ) : Channel T := ⟨[],capacity,false,1,.new,.new,[0],1,true,[]⟩

def runAt (capacity : ℕ) (events : List (Event T)) (k : ℕ) : Pool (Channel T) (Op T) :=
  (events.take k).foldl step ⟨new capacity,[]⟩

def sent (s : Channel T) : List (ℕ × T) := s.log.filterMap Outcome.sent?

def received (s : Channel T) : List (ℕ × T) := s.log.filterMap Outcome.received?

def ofSender (sender : ℕ) (values : List (ℕ × T)) : List T :=
  (values.filter fun x => x.1 = sender).map Prod.snd

def Disconnected (s : Channel T) : Prop := ∃ outcome ∈ s.log, outcome.reportsDisconnection = true

/-- No sender exists any more, not even one whose `drop` has not run yet. -/
def AllDropped : Prop :=
  p.shared.senders = [] ∧ ∀ op ∈ p.active, op.sender? = none ∧ op ≠ .dropSender

end

/-- The values received are those sent, each once and in order, but for those still in the buffer,
and a disconnection is only reported when there are no more. -/
structure Delivers (capacity : ℕ) (p : Pool (Channel T) (Op T)) : Prop where
  in_order : ∀ sender, ofSender sender p.shared.received <+: ofSender sender p.shared.sent
  once : p.shared.received ++ p.shared.buffer = p.shared.sent
  bounded : p.shared.buffer.length ≤ capacity
  disconnected : p.shared.Disconnected → AllDropped p ∧ p.shared.received = p.shared.sent

/-- The call waits for room, has been notified and is to go on, or it is to notify all who wait. -/
def Op.WakesSender (s : Channel T) : Op T → Prop
  | .sendWait _ _ ticket => ticket ∉ s.notFull.waiting
  | .notifyAllNotFull => True
  | _ => False

/-- The call waits for a value, has been notified and is to go on, or it is to notify. -/
def Op.WakesReceiver (s : Channel T) : Op T → Prop
  | .recvWait ticket => ticket ∉ s.notEmpty.waiting
  | .notifyNotEmpty _ => True
  | .notifyAllNotEmpty => True
  | _ => False

/-- Who waits has a reason to, or there is somebody left to run who sees to it. -/
structure NoLostWakeup (capacity : ℕ) (p : Pool (Channel T) (Op T)) : Prop where
  not_full : ∀ ticket ∈ p.shared.notFull.waiting,
    (p.shared.buffer.length = capacity ∧ p.shared.closed = false) ∨
      ∃ op ∈ p.active, op.WakesSender p.shared
  not_empty : ∀ ticket ∈ p.shared.notEmpty.waiting,
    (p.shared.buffer = [] ∧ p.shared.closed = false) ∨ ∃ op ∈ p.active, op.WakesReceiver p.shared

/-! ## The invariant -/

def Op.sendTicket? : Op T → Option ℕ
  | .sendWait _ _ ticket => some ticket
  | _ => none

def Op.recvTicket? : Op T → Option ℕ
  | .recvWait ticket => some ticket
  | _ => none

def Op.notifies : Op T → Bool
  | .notifyNotEmpty _ => true
  | _ => false

def Op.dropsSender : Op T → Bool
  | .dropSender => true
  | _ => false

/-- The call has not yet done or promised anything that the others rely on. -/
def Op.plain : Op T → Bool
  | .send _ _ => true
  | .trySend _ _ => true
  | .recv => true
  | .tryRecv => true
  | .clone _ => true
  | _ => false

/-- The shared state and the calls under way, when `room` of the free places and `values` of the
values in the buffer are already spoken for. -/
structure SoundBut (room values : ℕ) (s : Channel T) (active : List (Op T)) : Prop where
  accounted : s.received ++ s.buffer = s.sent
  bounded : s.buffer.length ≤ s.capacity
  borrowed : ∀ op ∈ active, ∀ sender ∈ op.sender?, sender ∈ s.senders
  receiving : ∀ op ∈ active, op.usesReceiver = true → s.receiver = true
  releasing : .dropReceiver ∈ active → s.receiver = false
  counted : s.senderCount = s.senders.length+active.countP Op.dropsSender
  full_tracks : s.notFull.Tracks (active.filterMap Op.sendTicket?)
  empty_tracks : s.notEmpty.Tracks (active.filterMap Op.recvTicket?)
  full_covers : s.closed = false →
    s.notFull.Covers (active.filterMap Op.sendTicket?) (s.capacity-s.buffer.length-room) 0
  empty_covers : s.closed = false →
    s.notEmpty.Covers (active.filterMap Op.recvTicket?) (s.buffer.length-values)
      (active.countP Op.notifies)
  full_closed : s.closed = true → s.notFull.waiting ≠ [] → .notifyAllNotFull ∈ active
  empty_closed : s.closed = true → s.notEmpty.waiting ≠ [] → .notifyAllNotEmpty ∈ active
  closed_by : s.closed = true → s.receiver = true → s.senderCount = 0
  disconnected : s.Disconnected → s.senderCount = 0 ∧ s.buffer = []

abbrev Sound (s : Channel T) (active : List (Op T)) : Prop := SoundBut 0 0 s active

variable {s : Channel T} {op : Op T} {active active' rest : List (Op T)} {room values : ℕ}

lemma SoundBut.perm (h : SoundBut room values s active) (hperm : active.Perm active') :
    SoundBut room values s active' where
  accounted := h.accounted
  bounded := h.bounded
  borrowed op hop := h.borrowed op (hperm.mem_iff.mpr hop)
  receiving op hop := h.receiving op (hperm.mem_iff.mpr hop)
  releasing hop := h.releasing (hperm.mem_iff.mpr hop)
  counted := hperm.countP_eq _ ▸ h.counted
  full_tracks := h.full_tracks.perm (hperm.filterMap _)
  empty_tracks := h.empty_tracks.perm (hperm.filterMap _)
  full_covers hopen hne := by
    have := h.full_covers hopen hne
    rwa [(hperm.filterMap Op.sendTicket?).length_eq] at this
  empty_covers hopen hne := by
    have := h.empty_covers hopen hne
    rwa [(hperm.filterMap Op.recvTicket?).length_eq,hperm.countP_eq] at this
  full_closed hclosed hne := hperm.mem_iff.mp (h.full_closed hclosed hne)
  empty_closed hclosed hne := hperm.mem_iff.mp (h.empty_closed hclosed hne)
  closed_by := h.closed_by
  disconnected := h.disconnected

lemma soundBut_cons_iff (hop : op.plain = true) :
    SoundBut room values s (op :: active) ↔ SoundBut room values s active ∧
      (∀ sender ∈ op.sender?, sender ∈ s.senders) ∧ (op.usesReceiver = true → s.receiver = true) := by
  have hsend : (op :: active).filterMap Op.sendTicket? = active.filterMap Op.sendTicket? := by
    cases op <;> first | rfl | cases hop
  have hrecv : (op :: active).filterMap Op.recvTicket? = active.filterMap Op.recvTicket? := by
    cases op <;> first | rfl | cases hop
  have hdrops : (op :: active).countP Op.dropsSender = active.countP Op.dropsSender := by
    cases op <;> first | rfl | cases hop
  have hnotifies : (op :: active).countP Op.notifies = active.countP Op.notifies := by
    cases op <;> first | rfl | cases hop
  have hmem : ∀ op' : Op T, op'.plain = false → (op' ∈ op :: active ↔ op' ∈ active) := by
    intro op' hop'
    refine mem_cons.trans (or_iff_right ?_)
    rintro rfl
    exact Bool.false_ne_true (hop'.symm.trans hop)
  constructor
  · intro h
    exact ⟨{ h with
      borrowed := fun op' hop' => h.borrowed op' (mem_cons_of_mem _ hop')
      receiving := fun op' hop' => h.receiving op' (mem_cons_of_mem _ hop')
      releasing := fun hop' => h.releasing (mem_cons_of_mem _ hop')
      counted := hdrops ▸ h.counted
      full_tracks := hsend ▸ h.full_tracks
      empty_tracks := hrecv ▸ h.empty_tracks
      full_covers := hsend ▸ h.full_covers
      empty_covers := hrecv ▸ hnotifies ▸ h.empty_covers
      full_closed := fun hclosed hne => (hmem _ rfl).mp (h.full_closed hclosed hne)
      empty_closed := fun hclosed hne => (hmem _ rfl).mp (h.empty_closed hclosed hne) },
      h.borrowed op mem_cons_self,h.receiving op mem_cons_self⟩
  · rintro ⟨h,hsender,hreceiver⟩
    exact { h with
      borrowed := forall_mem_cons.mpr ⟨hsender,h.borrowed⟩
      receiving := forall_mem_cons.mpr ⟨hreceiver,h.receiving⟩
      releasing := fun hop' => h.releasing ((hmem _ rfl).mp hop')
      counted := hdrops.symm ▸ h.counted
      full_tracks := hsend.symm ▸ h.full_tracks
      empty_tracks := hrecv.symm ▸ h.empty_tracks
      full_covers := hsend.symm ▸ h.full_covers
      empty_covers := by
        rw [hrecv,hnotifies]
        exact h.empty_covers
      full_closed := fun hclosed hne => (hmem _ rfl).mpr (h.full_closed hclosed hne)
      empty_closed := fun hclosed hne => (hmem _ rfl).mpr (h.empty_closed hclosed hne) }

variable {room' values' sender ticket choice : ℕ} {value : T} {s' : Channel T}

lemma SoundBut.mono (h : SoundBut room values s active) (hroom : room ≤ room')
    (hvalues : values ≤ values') : SoundBut room' values' s active :=
  { h with
    full_covers := fun hopen => (h.full_covers hopen).mono (by omega)
    empty_covers := fun hopen => (h.empty_covers hopen).mono (by omega) }

lemma SoundBut.resume_send
    (h : Sound s (.sendWait sender value ticket :: rest)) (hout : ticket ∉ s.notFull.waiting) :
    SoundBut 1 0 s rest :=
  { h with
    borrowed := (forall_mem_cons.mp h.borrowed).2
    receiving := (forall_mem_cons.mp h.receiving).2
    releasing := fun hop => h.releasing (mem_cons_of_mem _ hop)
    full_tracks := h.full_tracks.resume hout
    full_covers := fun hopen => (h.full_tracks.resume hout).covers_resume (h.full_covers hopen)
    full_closed := fun hclosed hne => by simpa using h.full_closed hclosed hne
    empty_closed := fun hclosed hne => by simpa using h.empty_closed hclosed hne }

lemma SoundBut.resume_recv (h : Sound s (.recvWait ticket :: rest))
    (hout : ticket ∉ s.notEmpty.waiting) : SoundBut 0 1 s rest :=
  { h with
    borrowed := (forall_mem_cons.mp h.borrowed).2
    receiving := (forall_mem_cons.mp h.receiving).2
    releasing := fun hop => h.releasing (mem_cons_of_mem _ hop)
    empty_tracks := h.empty_tracks.resume hout
    empty_covers := fun hopen => (h.empty_tracks.resume hout).covers_resume (h.empty_covers hopen)
    full_closed := fun hclosed hne => by simpa using h.full_closed hclosed hne
    empty_closed := fun hclosed hne => by simpa using h.empty_closed hclosed hne }

lemma SoundBut.promise (h : SoundBut 0 1 s rest) (hsender : sender ∈ s.senders) :
    Sound s (.notifyNotEmpty sender :: rest) :=
  { h with
    borrowed := forall_mem_cons.mpr ⟨fun _ hmem => some.inj hmem ▸ hsender,h.borrowed⟩
    receiving := forall_mem_cons.mpr ⟨nofun,h.receiving⟩
    releasing := fun hop => h.releasing (by simpa using hop)
    empty_covers := fun hopen hne => by
      have hwas := h.empty_covers hopen hne
      rw [countP_cons_of_pos rfl]
      show s.buffer.length-0+_ ≤ (rest.filterMap Op.recvTicket?).length+_
      omega
    full_closed := fun hclosed hne => mem_cons_of_mem _ (h.full_closed hclosed hne)
    empty_closed := fun hclosed hne => mem_cons_of_mem _ (h.empty_closed hclosed hne) }

lemma SoundBut.fulfil (h : Sound s (.notifyNotEmpty sender :: rest)) :
    SoundBut 0 1 s rest :=
  { h with
    borrowed := (forall_mem_cons.mp h.borrowed).2
    receiving := (forall_mem_cons.mp h.receiving).2
    releasing := fun hop => h.releasing (mem_cons_of_mem _ hop)
    empty_covers := fun hopen => by
      have hwas := h.empty_covers hopen
      rw [countP_cons_of_pos rfl] at hwas
      exact h.empty_tracks.covers_leave hwas
    full_closed := fun hclosed hne => by simpa using h.full_closed hclosed hne
    empty_closed := fun hclosed hne => by simpa using h.empty_closed hclosed hne }

/-! ## The steps keep it -/

section
variable (s : Channel T) (sender : ℕ) (value : T)

lemma push_buffer : (s.push sender value).buffer = s.buffer ++ [(sender,value)] := rfl

lemma push_capacity : (s.push sender value).capacity = s.capacity := rfl

end
section
variable (s : Channel T) (choice : ℕ) (x : ℕ × T) (buffer : List (ℕ × T))

lemma take_buffer : (s.take choice x buffer).buffer = buffer := rfl

lemma take_capacity : (s.take choice x buffer).capacity = s.capacity := rfl

end
section
variable (log : List (Outcome T)) (outcome : Outcome T)

lemma sent_append : (log ++ [outcome]).filterMap Outcome.sent? =
      log.filterMap Outcome.sent? ++ outcome.sent?.toList := by
  rw [filterMap_append]
  cases outcome <;> rfl

lemma received_append : (log ++ [outcome]).filterMap Outcome.received? =
      log.filterMap Outcome.received? ++ outcome.received?.toList := by
  rw [filterMap_append]
  cases outcome <;> rfl

end
variable {outcome : Outcome T}

lemma disconnected_append {log : List (Outcome T)}
    (h : ∃ o ∈ log ++ [outcome], o.reportsDisconnection = true) :
    (∃ o ∈ log, o.reportsDisconnection = true) ∨ outcome.reportsDisconnection = true := by
  obtain ⟨o,ho,hreports⟩ := h
  rcases mem_append.mp ho with ho | ho
  · exact .inl ⟨o,ho,hreports⟩
  · exact .inr (mem_singleton.mp ho ▸ hreports)

lemma SoundBut.not_disconnected (h : SoundBut room values s active)
    (hsender : sender ∈ s.senders) : ¬ s.Disconnected := by
  intro hd
  have hzero := (h.disconnected hd).1
  have hpos := length_pos_of_mem hsender
  rw [h.counted] at hzero
  omega

/-- A call that only returns. What counts as waiting must be covered without it. -/
lemma SoundBut.record (h : SoundBut room values s active)
    (hroom : s.closed = false → s.capacity-s.buffer.length-room = s.capacity-s.buffer.length)
    (hvalues : s.closed = false → s.buffer.length-values = s.buffer.length)
    (hsent : outcome.sent? = none) (hreceived : outcome.received? = none)
    (hdisconnected : outcome.reportsDisconnection = true → s.senderCount = 0 ∧ s.buffer = []) :
    Sound (s.record outcome) active :=
  { h with
    accounted := by
      rw [received,sent,Channel.record,sent_append,received_append,hsent,hreceived,
        toList_none,append_nil,append_nil]
      exact h.accounted
    full_covers := fun hopen => hroom hopen ▸ h.full_covers hopen
    empty_covers := fun hopen => hvalues hopen ▸ h.empty_covers hopen
    disconnected := fun hd => (disconnected_append hd).elim h.disconnected hdisconnected }

lemma SoundBut.push (h : SoundBut 1 0 s active) (hsender : sender ∈ s.senders)
    (hroom : s.buffer.length < s.capacity) (value : T) :
    SoundBut 0 1 (s.push sender value) active :=
  { h with
    accounted := by
      have haccounted := h.accounted
      rw [received,sent] at haccounted
      rw [received,sent,Channel.push,sent_append,received_append]
      simp [← haccounted,Outcome.sent?,Outcome.received?]
    bounded := by
      rw [push_buffer,length_append,length_singleton]
      exact hroom
    full_covers := fun hopen => by
      refine (h.full_covers hopen).mono ?_
      rw [push_buffer,length_append,length_singleton,push_capacity]
      omega
    empty_covers := fun hopen => by
      refine (h.empty_covers hopen).mono ?_
      rw [push_buffer,length_append,length_singleton]
      omega
    disconnected := fun hd => by
      rcases disconnected_append hd with hd | hd
      · exact absurd hd (h.not_disconnected hsender)
      · cases hd }

lemma SoundBut.take {x : ℕ × T} {buffer : List (ℕ × T)} (h : SoundBut 0 1 s active)
    (hbuffer : s.buffer = x :: buffer) (choice : ℕ) : Sound (s.take choice x buffer) active :=
  { h with
    accounted := by
      have haccounted := h.accounted
      rw [received,sent,hbuffer] at haccounted
      rw [received,sent,Channel.take,sent_append,received_append]
      simp [← haccounted,Outcome.sent?,Outcome.received?]
    bounded := by
      have hbounded := h.bounded
      rw [hbuffer,length_cons] at hbounded
      exact Nat.le_of_succ_le hbounded
    full_tracks := h.full_tracks.notifyOne choice
    full_covers := fun hopen => by
      refine ((h.full_covers hopen).notifyOne choice).mono ?_
      rw [take_buffer,take_capacity,hbuffer,length_cons]
      omega
    empty_covers := fun hopen => by
      refine (h.empty_covers hopen).mono ?_
      rw [take_buffer,hbuffer,length_cons]
      omega
    full_closed := fun hclosed hne => h.full_closed hclosed (notifyOne_waiting_ne hne)
    disconnected := fun hd => by
      rcases disconnected_append hd with hd | hd
      · exact absurd (h.disconnected hd).2 (hbuffer ▸ cons_ne_nil _ _)
      · cases hd }

lemma SoundBut.notifyOne (h : SoundBut room 1 s active) (choice : ℕ) :
    SoundBut room 0 { s with notEmpty := s.notEmpty.notifyOne choice } active :=
  { h with
    empty_tracks := h.empty_tracks.notifyOne choice
    empty_covers := fun hopen => ((h.empty_covers hopen).notifyOne choice).mono (by
      show s.buffer.length-0 ≤ _
      omega)
    empty_closed := fun hclosed hne => h.empty_closed hclosed (notifyOne_waiting_ne hne) }

variable {next : List (Op T)}

lemma SoundBut.sendTurn (h : SoundBut 1 0 s rest) (hsender : sender ∈ s.senders)
    (hturn : s.sendTurn choice sender value = (s',next)) : Sound s' (next ++ rest) := by
  obtain ⟨rfl,rfl⟩ := Prod.ext_iff.mp hturn
  rw [Channel.sendTurn]
  split
  next hclosed =>
    exact h.record (fun hopen => absurd hclosed (eq_false_iff.mp hopen)) (fun _ => rfl) rfl rfl
      nofun
  next hopen =>
    split
    next hroom => exact (h.push hsender hroom value).notifyOne choice
    next hfull =>
      exact { h with
        borrowed := forall_mem_cons.mpr ⟨fun _ hmem => some.inj hmem ▸ hsender,h.borrowed⟩
        receiving := forall_mem_cons.mpr ⟨nofun,h.receiving⟩
        releasing := fun hop => h.releasing (by simpa using hop)
        full_tracks := h.full_tracks.wait
        full_covers := fun _ => (h.full_tracks.covers_wait 0).mono (by
          show s.capacity-s.buffer.length-0 ≤ 0
          omega)
        full_closed := fun hclosed => absurd hclosed hopen
        empty_closed := fun hclosed => absurd hclosed hopen }

lemma SoundBut.recvTurn (h : SoundBut 0 1 s rest) (hreceiver : s.receiver = true)
    (hturn : s.recvTurn choice = (s',next)) : Sound s' (next ++ rest) := by
  obtain ⟨rfl,rfl⟩ := Prod.ext_iff.mp hturn
  rw [Channel.recvTurn]
  split
  next x buffer hbuffer => exact h.take hbuffer choice
  next hbuffer =>
    split
    next hclosed =>
      exact h.record (fun _ => rfl) (fun _ => by rw [hbuffer]; rfl) rfl rfl
        fun _ => ⟨h.closed_by hclosed hreceiver,hbuffer⟩
    next hopen =>
      exact { h with
        borrowed := forall_mem_cons.mpr ⟨nofun,h.borrowed⟩
        receiving := forall_mem_cons.mpr ⟨fun _ => hreceiver,h.receiving⟩
        releasing := fun hop => h.releasing (by simpa using hop)
        empty_tracks := h.empty_tracks.wait
        empty_covers := fun _ => (h.empty_tracks.covers_wait _).mono (by
          show s.buffer.length-0 ≤ 0
          rw [hbuffer]
          exact Nat.le_refl 0)
        full_closed := fun hclosed => absurd hclosed hopen
        empty_closed := fun hclosed => absurd hclosed hopen }

lemma SoundBut.trySend (h : Sound s (.trySend sender value :: rest))
    (hact : act choice s (.trySend sender value) = some (s',next)) : Sound s' (next ++ rest) := by
  obtain ⟨hrest,hsender,-⟩ := (soundBut_cons_iff rfl).mp h
  rw [act] at hact
  split at hact
  · cases hact
    exact hrest.record (fun _ => rfl) (fun _ => rfl) rfl rfl nofun
  split at hact
  · cases hact
    exact hrest.record (fun _ => rfl) (fun _ => rfl) rfl rfl nofun
  · cases hact
    have hpushed := (hrest.mono (Nat.zero_le 1) (Nat.le_refl 0)).push (hsender _ rfl)
      (Nat.lt_of_not_le ‹_›) value
    exact hpushed.promise (hsender _ rfl)

lemma SoundBut.tryRecv
    (h : Sound s (.tryRecv :: rest)) (hact : act choice s .tryRecv = some (s',next)) :
    Sound s' (next ++ rest) := by
  obtain ⟨hrest,-,hreceiver⟩ := (soundBut_cons_iff rfl).mp h
  rw [act] at hact
  split at hact
  next x buffer hbuffer =>
    cases hact
    exact (hrest.mono (Nat.le_refl 0) (Nat.zero_le 1)).take hbuffer choice
  next hbuffer =>
    split at hact
    next hclosed =>
      cases hact
      exact hrest.record (fun _ => rfl) (fun _ => rfl) rfl rfl
        fun _ => ⟨hrest.closed_by hclosed (hreceiver rfl),hbuffer⟩
    next =>
      cases hact
      exact hrest.record (fun _ => rfl) (fun _ => rfl) rfl rfl nofun

lemma SoundBut.clone (h : Sound s (.clone sender :: rest)) :
    Sound { s with
      senderCount := s.senderCount+1
      senders := s.nextSender :: s.senders
      nextSender := s.nextSender+1 } rest := by
  obtain ⟨hrest,hsender,-⟩ := (soundBut_cons_iff rfl).mp h
  exact { hrest with
    borrowed := fun op hop sender hmem => mem_cons_of_mem _ (hrest.borrowed op hop sender hmem)
    counted := by
      show s.senderCount+1 = (s.nextSender :: s.senders).length+_
      rw [hrest.counted,length_cons]
      omega
    closed_by := fun hclosed hreceiver => by
      have hzero := hrest.closed_by hclosed hreceiver
      have hpos := length_pos_of_mem (hsender _ rfl)
      rw [hrest.counted] at hzero
      omega
    disconnected := fun hd => absurd hd (hrest.not_disconnected (hsender _ rfl)) }

lemma waiting_eq_nil {cv : Condvar} {ticket? : Op T → Option ℕ}
    (h : cv.Tracks (active.filterMap ticket?)) (hnone : ∀ op ∈ active, ticket? op = none) :
    cv.waiting = [] := by
  refine eq_nil_iff_forall_not_mem.mpr fun t ht => ?_
  obtain ⟨op,hop,hticket⟩ := mem_filterMap.mp (h.subset ht)
  rw [hnone op hop] at hticket
  cases hticket

lemma SoundBut.dropSender
    (h : Sound s (.dropSender :: rest)) (hact : act choice s .dropSender = some (s',next)) :
    Sound s' (next ++ rest) := by
  have hborrowed := (forall_mem_cons.mp h.borrowed).2
  have hreceiving := (forall_mem_cons.mp h.receiving).2
  have hcounted : s.senderCount-1 = s.senders.length+rest.countP Op.dropsSender := by
    rw [h.counted,countP_cons_of_pos rfl]
    omega
  have hdisconnected : ¬ s.Disconnected := fun hd => by
    have hzero := (h.disconnected hd).1
    rw [h.counted,countP_cons_of_pos rfl] at hzero
    omega
  rw [act] at hact
  split at hact
  next hlast =>
    cases hact
    -- The last sender is gone, so no call is left that could wait for room.
    have hsenders : s.senders = [] := length_eq_zero_iff.mp (by omega)
    have hnone : ∀ op ∈ rest, op.sendTicket? = none := by
      intro op hop
      cases op with
      | sendWait sender value ticket =>
        have := hborrowed _ hop sender rfl
        rw [hsenders] at this
        cases this
      | _ => rfl
    exact { h with
      borrowed := forall_mem_cons.mpr ⟨nofun,hborrowed⟩
      receiving := forall_mem_cons.mpr ⟨nofun,hreceiving⟩
      releasing := fun hop => h.releasing (by simpa using hop)
      counted := hcounted
      full_covers := nofun
      empty_covers := nofun
      full_closed := fun _ hne => absurd (waiting_eq_nil h.full_tracks (forall_mem_cons.mpr
        ⟨rfl,hnone⟩)) hne
      empty_closed := fun _ _ => mem_cons_self
      closed_by := fun _ _ => hlast
      disconnected := fun hd => absurd hd hdisconnected }
  next hmore =>
    cases hact
    exact { h with
      borrowed := hborrowed
      receiving := hreceiving
      releasing := fun hop => h.releasing (mem_cons_of_mem _ hop)
      counted := hcounted
      full_closed := fun hclosed hne => by simpa using h.full_closed hclosed hne
      empty_closed := fun hclosed hne => by simpa using h.empty_closed hclosed hne
      closed_by := fun hclosed hreceiver => by
        have hzero := h.closed_by hclosed hreceiver
        show s.senderCount-1 = 0
        omega
      disconnected := fun hd => absurd hd hdisconnected }

lemma SoundBut.dropReceiver (h : Sound s (.dropReceiver :: rest)) :
    Sound { s with closed := true } (.notifyAllNotFull :: rest) := by
  have hborrowed := (forall_mem_cons.mp h.borrowed).2
  have hreceiving := (forall_mem_cons.mp h.receiving).2
  have hgone : s.receiver = false := h.releasing mem_cons_self
  have hnone : ∀ op ∈ rest, op.recvTicket? = none := by
    intro op hop
    cases op with
    | recvWait ticket => exact absurd (hreceiving _ hop rfl) (eq_false_iff.mp hgone)
    | _ => rfl
  exact { h with
    borrowed := forall_mem_cons.mpr ⟨nofun,hborrowed⟩
    receiving := forall_mem_cons.mpr ⟨nofun,hreceiving⟩
    releasing := fun _ => hgone
    full_covers := nofun
    empty_covers := nofun
    full_closed := fun _ _ => mem_cons_self
    empty_closed := fun _ hne => absurd (waiting_eq_nil h.empty_tracks (forall_mem_cons.mpr
      ⟨rfl,hnone⟩)) hne
    closed_by := fun _ hreceiver => absurd hreceiver (eq_false_iff.mp hgone) }

lemma SoundBut.notifyAllNotEmpty (h : Sound s (.notifyAllNotEmpty :: rest)) :
    Sound { s with notEmpty := s.notEmpty.notifyAll } rest :=
  { h with
    borrowed := (forall_mem_cons.mp h.borrowed).2
    receiving := (forall_mem_cons.mp h.receiving).2
    releasing := fun hop => h.releasing (mem_cons_of_mem _ hop)
    empty_tracks := h.empty_tracks.notifyAll
    empty_covers := fun _ => covers_notifyAll
    full_closed := fun hclosed hne => by simpa using h.full_closed hclosed hne
    empty_closed := fun _ hne => absurd rfl hne }

lemma SoundBut.notifyAllNotFull (h : Sound s (.notifyAllNotFull :: rest)) :
    Sound { s with notFull := s.notFull.notifyAll } rest :=
  { h with
    borrowed := (forall_mem_cons.mp h.borrowed).2
    receiving := (forall_mem_cons.mp h.receiving).2
    releasing := fun hop => h.releasing (mem_cons_of_mem _ hop)
    full_tracks := h.full_tracks.notifyAll
    full_covers := fun _ => covers_notifyAll
    full_closed := fun _ hne => absurd rfl hne
    empty_closed := fun hclosed hne => by simpa using h.empty_closed hclosed hne }

lemma Sound.act (h : Sound s (op :: rest))
    (hact : act choice s op = some (s',next)) : Sound s' (next ++ rest) := by
  cases op with
  | send sender value =>
    obtain ⟨hrest,hsender,-⟩ := (soundBut_cons_iff rfl).mp h
    have hfree := hrest.mono (Nat.zero_le 1) (Nat.le_refl 0)
    exact hfree.sendTurn (hsender _ rfl) (some.inj hact)
  | sendWait sender value ticket =>
    rw [Channel.act] at hact
    split at hact
    · cases hact
    next hout =>
      exact (SoundBut.resume_send h hout).sendTurn (h.borrowed _ mem_cons_self _ rfl)
        (some.inj hact)
  | trySend sender value => exact SoundBut.trySend h hact
  | notifyNotEmpty sender =>
    cases hact
    exact (SoundBut.fulfil h).notifyOne choice
  | recv =>
    obtain ⟨hrest,-,hreceiver⟩ := (soundBut_cons_iff rfl).mp h
    have hfree := hrest.mono (Nat.le_refl 0) (Nat.zero_le 1)
    exact hfree.recvTurn (hreceiver rfl) (some.inj hact)
  | recvWait ticket =>
    rw [Channel.act] at hact
    split at hact
    · cases hact
    next hout =>
      exact (SoundBut.resume_recv h hout).recvTurn (h.receiving _ mem_cons_self rfl) (some.inj hact)
  | tryRecv => exact SoundBut.tryRecv h hact
  | clone sender =>
    cases hact
    exact SoundBut.clone h
  | dropSender => exact SoundBut.dropSender h hact
  | notifyAllNotEmpty =>
    cases hact
    exact SoundBut.notifyAllNotEmpty h
  | dropReceiver =>
    cases hact
    exact SoundBut.dropReceiver h
  | notifyAllNotFull =>
    cases hact
    exact SoundBut.notifyAllNotFull h

/-! ## The runs
-/

variable {p : Pool (Channel T) (Op T)}
section
variable (h : Sound p.shared p.active)
include h

lemma Sound.enter {there : Bool} (hop : op.plain = true)
    (hsender : there = true → ∀ sender ∈ op.sender?, sender ∈ p.shared.senders)
    (hreceiver : there = true → op.usesReceiver = true → p.shared.receiver = true) :
    Sound (enter p there op).shared (enter p there op).active := by
  rw [Channel.enter]
  split
  next hthere => exact (soundBut_cons_iff hop).mpr ⟨h,hsender hthere,hreceiver hthere⟩
  next => exact h

omit h in
lemma Sound.release_sender (h : Sound s active) (hsender : sender ∈ s.senders)
    (hfree : ∀ op ∈ active, op.sender? ≠ some sender) :
    Sound { s with senders := s.senders.erase sender } (.dropSender :: active) :=
  { h with
    borrowed := forall_mem_cons.mpr ⟨nofun,fun op hop other hother =>
      (mem_erase_of_ne fun heq : other = sender => hfree op hop (heq ▸ hother)).mpr
        (h.borrowed op hop other hother)⟩
    receiving := forall_mem_cons.mpr ⟨nofun,h.receiving⟩
    releasing := fun hop => h.releasing (by simpa using hop)
    counted := by
      have hpos := length_pos_of_mem hsender
      show s.senderCount = (s.senders.erase sender).length+_
      rw [h.counted,countP_cons_of_pos rfl,length_erase_of_mem hsender]
      omega
    full_closed := fun hclosed hne => mem_cons_of_mem _ (h.full_closed hclosed hne)
    empty_closed := fun hclosed hne => mem_cons_of_mem _ (h.empty_closed hclosed hne) }

omit h in
lemma Sound.release_receiver (h : Sound s active) (hfree : ∀ op ∈ active, op.usesReceiver = false) :
    Sound { s with receiver := false } (.dropReceiver :: active) :=
  { h with
    borrowed := forall_mem_cons.mpr ⟨nofun,h.borrowed⟩
    receiving := forall_mem_cons.mpr
      ⟨nofun,fun op hop huses => absurd huses (eq_false_iff.mp (hfree op hop))⟩
    releasing := fun _ => rfl
    full_closed := fun hclosed hne => mem_cons_of_mem _ (h.full_closed hclosed hne)
    empty_closed := fun hclosed hne => mem_cons_of_mem _ (h.empty_closed hclosed hne)
    closed_by := nofun }

lemma sound_step (e : Event T) :
    Sound (step p e).shared (step p e).active := by
  cases e with
  | send sender value =>
    refine h.enter rfl (fun hthere _ hmem => ?_) nofun
    exact some.inj hmem ▸ contains_iff_mem.mp hthere
  | trySend sender value =>
    refine h.enter rfl (fun hthere _ hmem => ?_) nofun
    exact some.inj hmem ▸ contains_iff_mem.mp hthere
  | recv => exact h.enter rfl nofun fun hthere _ => hthere
  | tryRecv => exact h.enter rfl nofun fun hthere _ => hthere
  | clone sender =>
    refine h.enter rfl (fun hthere _ hmem => ?_) nofun
    exact some.inj hmem ▸ contains_iff_mem.mp hthere
  | dropSender sender =>
    rw [step]
    split
    next hfree => exact h.release_sender hfree.1 hfree.2
    next => exact h
  | dropReceiver =>
    rw [step]
    split
    next hfree => exact h.release_receiver hfree.2
    next => exact h
  | advance i choice =>
    exact Pool.advance_invariant (I := Sound) (G := fun _ _ => True)
      (fun _ _ _ hperm h => h.perm hperm) (fun _ _ _ _ _ h _ hact => h.act hact) h
      fun _ _ => trivial
  | spuriousNotFull ticket =>
    exact { h with
      full_tracks := h.full_tracks.spurious ticket
      full_covers := fun hopen => (h.full_covers hopen).spurious ticket
      full_closed := fun hclosed hne => h.full_closed hclosed (spurious_waiting_ne hne) }
  | spuriousNotEmpty ticket =>
    exact { h with
      empty_tracks := h.empty_tracks.spurious ticket
      empty_covers := fun hopen => (h.empty_covers hopen).spurious ticket
      empty_closed := fun hclosed hne => h.empty_closed hclosed (spurious_waiting_ne hne) }

omit h in
lemma sound_new (capacity : ℕ) : Sound (new capacity : Channel T) [] where
  accounted := rfl
  bounded := Nat.zero_le _
  borrowed := nofun
  receiving := nofun
  releasing := nofun
  counted := rfl
  full_tracks := tracks_new
  empty_tracks := tracks_new
  full_covers _ hne := absurd rfl hne
  empty_covers _ hne := absurd rfl hne
  full_closed := nofun
  empty_closed := nofun
  closed_by := nofun
  disconnected := by
    rintro ⟨_,hmem,-⟩
    cases hmem

omit h in
lemma sound_runAt (capacity : ℕ) (events : List (Event T)) (k : ℕ) :
    Sound (runAt capacity events k).shared (runAt capacity events k).active :=
  Runs.forall_take (I := fun p : Pool (Channel T) (Op T) => Sound p.shared p.active)
    (K := fun _ _ => True) (fun _ e h _ => sound_step h e) (sound_new capacity)
    (fun _ _ _ => trivial) k

lemma Sound.allDropped (hzero : p.shared.senderCount = 0) :
    AllDropped p := by
  rw [h.counted] at hzero
  have hsenders : p.shared.senders = [] := length_eq_zero_iff.mp (by omega)
  refine ⟨hsenders,fun op hop => ⟨?_,?_⟩⟩
  · refine eq_none_iff_forall_not_mem.mpr fun sender hmem => ?_
    have := h.borrowed op hop sender hmem
    rw [hsenders] at this
    cases this
  · rintro rfl
    have := countP_pos_iff.mpr ⟨_,hop,(rfl : Op.dropsSender (.dropSender : Op T) = true)⟩
    omega

lemma Sound.delivers : Delivers p.shared.capacity p where
  in_order sender := by
    rw [← h.accounted,ofSender,ofSender,filter_append,map_append]
    exact prefix_append _ _
  once := h.accounted
  bounded := h.bounded
  disconnected hd := by
    obtain ⟨hzero,hbuffer⟩ := h.disconnected hd
    refine ⟨h.allDropped hzero,?_⟩
    rw [← h.accounted,hbuffer,append_nil]

lemma Sound.noLostWakeup : NoLostWakeup p.shared.capacity p where
  not_full ticket hwaits := by
    have hne := ne_nil_of_mem hwaits
    cases hclosed : p.shared.closed with
    | true => exact .inr ⟨_,h.full_closed hclosed hne,trivial⟩
    | false =>
      have hcovers := h.full_covers hclosed hne
      rcases Nat.lt_or_ge p.shared.buffer.length p.shared.capacity with hroom | hfull
      · obtain ⟨t,ht,hout⟩ := h.full_tracks.exists_notified (by omega)
        obtain ⟨op,hop,hticket⟩ := mem_filterMap.mp ht
        refine .inr ⟨op,hop,?_⟩
        cases op <;> cases hticket
        exact hout
      · exact .inl ⟨Nat.le_antisymm h.bounded hfull,rfl⟩
  not_empty ticket hwaits := by
    have hne := ne_nil_of_mem hwaits
    cases hclosed : p.shared.closed with
    | true => exact .inr ⟨_,h.empty_closed hclosed hne,trivial⟩
    | false =>
      have hcovers := h.empty_covers hclosed hne
      rcases Nat.eq_zero_or_pos p.shared.buffer.length with hempty | hvalue
      · exact .inl ⟨length_eq_zero_iff.mp hempty,rfl⟩
      rcases Nat.eq_zero_or_pos (p.active.countP Op.notifies) with hno | hnotifies
      · obtain ⟨t,ht,hout⟩ := h.empty_tracks.exists_notified (by omega)
        obtain ⟨op,hop,hticket⟩ := mem_filterMap.mp ht
        refine .inr ⟨op,hop,?_⟩
        cases op <;> cases hticket
        exact hout
      · obtain ⟨op,hop,hnotify⟩ := countP_pos_iff.mp hnotifies
        refine .inr ⟨op,hop,?_⟩
        cases op <;> cases hnotify
        trivial

end

lemma act_capacity (h : act choice s op = some (s',next)) : s'.capacity = s.capacity := by
  have hsend : ∀ sender value, s.sendTurn choice sender value = (s',next) →
      s'.capacity = s.capacity := by
    intro sender value hturn
    obtain ⟨rfl,-⟩ := Prod.ext_iff.mp hturn
    rw [sendTurn]
    split_ifs <;> rfl
  have hrecv : s.recvTurn choice = (s',next) → s'.capacity = s.capacity := by
    intro hturn
    obtain ⟨rfl,-⟩ := Prod.ext_iff.mp hturn
    rw [recvTurn]
    split
    · rfl
    · split_ifs <;> rfl
  cases op with
  | send sender value => exact hsend sender value (some.inj h)
  | sendWait sender value ticket =>
    rw [act] at h
    split at h
    · cases h
    · exact hsend sender value (some.inj h)
  | recv => exact hrecv (some.inj h)
  | recvWait ticket =>
    rw [act] at h
    split at h
    · cases h
    · exact hrecv (some.inj h)
  | trySend sender value =>
    rw [act] at h
    split_ifs at h <;> cases h <;> rfl
  | tryRecv =>
    rw [act] at h
    split at h
    · cases h
      rfl
    · split_ifs at h <;> cases h <;> rfl
  | dropSender =>
    rw [act] at h
    split_ifs at h <;> cases h <;> rfl
  | _ =>
    cases h
    rfl

lemma step_capacity (p : Pool (Channel T) (Op T)) (e : Event T) :
    (step p e).shared.capacity = p.shared.capacity := by
  have henter : ∀ there op, (enter p there op).shared.capacity = p.shared.capacity := by
    intro there op
    cases there <;> rfl
  cases e with
  | advance i choice =>
    rcases Pool.advance_cases (act choice) p i with hsame | ⟨op,rest,s',next,-,-,hact,hadv⟩
    · rw [step,hsame]
    · rw [step,hadv]
      exact act_capacity hact
  | dropSender sender =>
    rw [step]
    split_ifs <;> rfl
  | dropReceiver =>
    rw [step]
    split_ifs <;> rfl
  | spuriousNotFull ticket => rfl
  | spuriousNotEmpty ticket => rfl
  | _ => exact henter _ _

lemma runAt_capacity (capacity : ℕ) (events : List (Event T)) (k : ℕ) :
    (runAt capacity events k).shared.capacity = capacity :=
  Runs.forall_take (I := fun p : Pool (Channel T) (Op T) => p.shared.capacity = capacity)
    (K := fun _ _ => True) (fun p e h _ => (step_capacity p e).trans h) rfl (fun _ _ _ => trivial) k

/-- For every capacity and along every run, whatever the calls, their order and their number. -/
theorem delivers_and_no_lost_wakeup (capacity : ℕ) (events : List (Event T)) (k : ℕ) :
    Delivers capacity (runAt capacity events k) ∧ NoLostWakeup capacity (runAt capacity events k) := by
  have h := sound_runAt capacity events k
  have hcapacity := runAt_capacity capacity events k
  have hdelivers := h.delivers
  have hwakeup := h.noLostWakeup
  rw [hcapacity] at hdelivers hwakeup
  exact ⟨hdelivers,hwakeup⟩

end Channel
end Enlil.Platform
