import Enlil.Platform.Scheduler

/-!
# Priority inheritance of the platform mutex: model of `sync/mod.rs`

Waiters are known by their priority alone. A thread that finds the raw lock taken registers its
priority before it blocks, and every thread that has acquired the lock removes its priority,
registered or not. The model is the pool of all calls and guards, each with the registered priority
of its thread; when the raw lock is free, any thread may be the next to acquire it.
-/

namespace Enlil.Platform
open List Priority

lemma Priority.asIndex_injective : Function.Injective asIndex := by
  intro p q
  cases p <;> cases q <;> simp [asIndex]

instance : LinearOrder Priority := LinearOrder.lift' asIndex asIndex_injective

structure PriorityInheritance where
  base : Priority
  waiters : List Priority
  deriving DecidableEq, Repr

namespace PriorityInheritance
section
variable (pi : PriorityInheritance)

def addWaiter (p : Priority) : PriorityInheritance :=
  { pi with waiters := pi.waiters ++ [p] }

def swapRemove (l : List Priority) (i : ℕ) : List Priority :=
  match l.getLast? with
  | some last => (l.set i last).dropLast
  | none => l

def removeWaiter (p : Priority) : Bool × PriorityInheritance :=
  match pi.waiters.findIdx? (· = p) with
  | some i => (true,{ pi with waiters := swapRemove pi.waiters i })
  | none => (false,pi)

def setBase (base : Priority) : PriorityInheritance := { pi with base }

def effective : Priority :=
  match pi.waiters.min? with
  | some highest => min highest pi.base
  | none => pi.base

end
variable {l rest : List Priority}

lemma swapRemove_perm {i : ℕ} (h : i < l.length) :
    (swapRemove l i).Perm (l.eraseIdx i) := by
  obtain ⟨init,last,rfl⟩ := eq_nil_or_concat l |>.resolve_left (by rintro rfl; cases h)
  rw [concat_eq_append] at h ⊢
  rw [swapRemove,getLast?_concat]
  dsimp only
  by_cases hi : i < init.length
  · rw [set_append_left _ _ hi,dropLast_concat,eraseIdx_append_of_lt_length hi]
    exact (set_perm_cons_eraseIdx hi last).trans (perm_append_singleton _ _).symm
  · have hlast : i = init.length := by
      rw [length_append,length_singleton] at h
      omega
    subst hlast
    rw [set_append_right _ _ (Nat.le_refl _),Nat.sub_self,set_cons_zero,
      dropLast_concat,eraseIdx_append_of_length_le (Nat.le_refl _),Nat.sub_self,
      eraseIdx_cons_zero,append_nil]

variable {pi : PriorityInheritance} {p : Priority}

lemma removeWaiter_perm
    (h : pi.waiters.Perm (p :: rest)) : (pi.removeWaiter p).2.waiters.Perm rest := by
  have hmem : p ∈ pi.waiters := h.mem_iff.mpr mem_cons_self
  rw [removeWaiter]
  split
  next i hi =>
    obtain ⟨hlt,hp,-⟩ := findIdx?_eq_some_iff_getElem.mp hi
    have hp : pi.waiters[i] = p := of_decide_eq_true hp
    refine (swapRemove_perm hlt).trans ?_
    have hcons := (getElem_cons_eraseIdx_perm hlt).trans h
    rw [hp] at hcons
    exact hcons.cons_inv
  next hnone =>
    have := findIdx?_eq_none_iff.mp hnone p hmem
    simp at this

lemma removeWaiter_of_not_mem
    (h : p ∉ pi.waiters) : (pi.removeWaiter p).2 = pi := by
  have hnone : pi.waiters.findIdx? (· = p) = none :=
    findIdx?_eq_none_iff.mpr fun q hq => decide_eq_false fun hqp => h (hqp ▸ hq)
  rw [removeWaiter,hnone]

@[simp] lemma removeWaiter_base (pi : PriorityInheritance) (p : Priority) :
    (pi.removeWaiter p).2.base = pi.base := by
  rw [removeWaiter]
  split <;> rfl

lemma effective_spec (pi : PriorityInheritance) :
    pi.effective ∈ pi.base :: pi.waiters ∧ ∀ q ∈ pi.base :: pi.waiters, pi.effective ≤ q := by
  rw [effective]
  split
  next highest hmin =>
    obtain ⟨hmem,hle⟩ := min?_eq_some_iff.mp hmin
    constructor
    · rcases min_choice highest pi.base with h | h
      · rw [h]
        exact mem_cons_of_mem _ hmem
      · rw [h]
        exact mem_cons_self
    · intro q hq
      rcases mem_cons.mp hq with rfl | hq
      · exact min_le_right _ _
      · exact (min_le_left _ _).trans (hle q hq)
  next hnone =>
    rw [min?_eq_none_iff.mp hnone]
    exact ⟨mem_cons_self,fun q hq => (mem_singleton.mp hq).ge⟩

end PriorityInheritance

structure PlatformMutex where
  locked : Bool
  pi : PriorityInheritance
  deriving DecidableEq, Repr

namespace PlatformMutex

inductive Op where
  /-- `lock`, before it tries the raw lock -/
  | lock (waiter : Option Priority)
  /-- `try_lock`, before it tries the raw lock -/
  | tryLock (waiter : Option Priority)
  /-- `lock`, which has found the raw lock taken -/
  | arm (waiter : Option Priority)
  /-- `lock`, blocked on the raw lock -/
  | blocked (waiter : Option Priority)
  /-- the raw lock is acquired, after waiting for it or not -/
  | acquired (waited : Bool) (waiter : Option Priority)
  /-- the registration is removed -/
  | refresh (waiter : Option Priority)
  /-- the call has returned its guard -/
  | holding (waiter : Option Priority)
  deriving DecidableEq, Repr

def act (m : PlatformMutex) : Op → Option (PlatformMutex × List Op)
  | .lock waiter =>
    if m.locked then some (m,[.arm waiter])
    else some ({ m with locked := true },[.acquired false waiter])
  | .tryLock waiter =>
    if m.locked then some (m,[])
    else some ({ m with locked := true },[.acquired false waiter])
  | .arm waiter =>
    match waiter with
    | some p => some ({ m with pi := m.pi.addWaiter p },[.blocked waiter])
    | none => some (m,[.blocked waiter])
  | .blocked waiter =>
    if m.locked then none
    else some ({ m with locked := true },[.acquired true waiter])
  | .acquired _ waiter =>
    match waiter with
    | some p => some ({ m with pi := (m.pi.removeWaiter p).2 },[.refresh waiter])
    | none => some (m,[.refresh waiter])
  | .refresh waiter =>
    some ({ m with pi := m.pi.setBase (waiter.getD .normal) },[.holding waiter])
  | .holding _ => some ({ m with locked := false },[])

inductive Event where
  | lock (waiter : Option Priority)
  | tryLock (waiter : Option Priority)
  | advance (i : ℕ)
  deriving DecidableEq, Repr

def step (p : Pool PlatformMutex Op) : Event → Pool PlatformMutex Op
  | .lock waiter => ⟨p.shared,.lock waiter :: p.active⟩
  | .tryLock waiter => ⟨p.shared,.tryLock waiter :: p.active⟩
  | .advance i => p.advance act i

def runAt (events : List Event) (k : ℕ) : Pool PlatformMutex Op :=
  (events.take k).foldl step ⟨⟨false,⟨.normal,[]⟩⟩,[]⟩

def Op.blockedPriority : Op → Option Priority
  | .blocked waiter => waiter
  | _ => none

/-- The raw lock is acquired and the bookkeeping is not finished. -/
def Op.booking : Op → Bool
  | .acquired _ _ => true
  | .refresh _ => true
  | _ => false

/-- The waiters are the registered priorities of the blocked threads, and while there is a holder
the effective priority is the highest one of its own and theirs. -/
structure Inherits (p : Pool PlatformMutex Op) : Prop where
  waiters : p.shared.pi.waiters.Perm (p.active.filterMap Op.blockedPriority)
  effective : ∀ waiter, .holding waiter ∈ p.active →
    p.shared.pi.effective ∈ waiter.getD .normal :: p.active.filterMap Op.blockedPriority ∧
      ∀ q ∈ waiter.getD .normal :: p.active.filterMap Op.blockedPriority, p.shared.pi.effective ≤ q

/-- A thread that has acquired the lock without waiting finds no waiter of its priority. -/
def NoOvertaking (p : Pool PlatformMutex Op) : Event → Prop
  | .advance i => ∀ q, p.active[i]? = some (.acquired false (some q)) → q ∉ p.shared.pi.waiters
  | _ => True

def Op.donated : Op → Option Priority
  | .blocked waiter => waiter
  | .acquired true waiter => waiter
  | _ => none

def Op.owner : Op → Bool
  | .acquired _ _ => true
  | .refresh _ => true
  | .holding _ => true
  | _ => false

structure Sound (m : PlatformMutex) (active : List Op) : Prop where
  waiters : m.pi.waiters.Perm (active.filterMap Op.donated)
  owners : active.countP Op.owner = if m.locked then 1 else 0
  base : ∀ waiter, .holding waiter ∈ active → m.pi.base = waiter.getD .normal

variable {m m' : PlatformMutex} {rest next : List Op}
variable {active active' : List Op} {waiter : Option Priority} {p : Pool PlatformMutex Op}

lemma Sound.perm (h : m.Sound active) (hperm : active.Perm active') : m.Sound active' :=
  ⟨h.waiters.trans (hperm.filterMap _),hperm.countP_eq _ ▸ h.owners,
    fun waiter hw => h.base waiter (hperm.mem_iff.mpr hw)⟩

lemma no_holding (h : rest.countP Op.owner = 0) : .holding waiter ∉ rest := fun hmem =>
  countP_eq_zero.mp h _ hmem rfl

lemma Sound.acquire {op : Op} {waited : Bool}
    (h : m.Sound (op :: rest)) (hfree : m.locked = false)
    (hdon : (op :: rest).filterMap Op.donated = (Op.acquired waited waiter :: rest).filterMap
      Op.donated) (hown : op.owner = false) :
    Sound { m with locked := true } (.acquired waited waiter :: rest) := by
  have howners := h.owners
  rw [hfree,countP_cons_of_neg (Bool.eq_false_iff.mp hown)] at howners
  refine ⟨hdon ▸ h.waiters,?_,fun w hw => ?_⟩
  · rw [countP_cons_of_pos rfl,howners]
    rfl
  · exact absurd ((mem_cons.mp hw).resolve_left nofun) (no_holding howners)

lemma Sound.act {op : Op} (h : m.Sound (op :: rest))
    (hno : ∀ q, op = .acquired false (some q) → q ∉ m.pi.waiters)
    (hact : m.act op = some (m',next)) : m'.Sound (next ++ rest) := by
  have hbase : ∀ w, .holding w ∈ rest → m.pi.base = w.getD .normal := fun w hw =>
    h.base w (mem_cons_of_mem op hw)
  cases op with
  | lock waiter =>
    rw [PlatformMutex.act] at hact
    split at hact
    next =>
      cases hact
      exact ⟨h.waiters,h.owners,fun w hw => hbase w ((mem_cons.mp hw).resolve_left nofun)⟩
    next hfree =>
      cases hact
      exact h.acquire (Bool.not_eq_true _ ▸ hfree) rfl rfl
  | tryLock waiter =>
    rw [PlatformMutex.act] at hact
    split at hact
    next =>
      cases hact
      exact ⟨h.waiters,h.owners,hbase⟩
    next hfree =>
      cases hact
      exact h.acquire (Bool.not_eq_true _ ▸ hfree) rfl rfl
  | arm waiter =>
    cases waiter with
    | none =>
      cases hact
      exact ⟨h.waiters,h.owners,fun w hw => hbase w ((mem_cons.mp hw).resolve_left nofun)⟩
    | some p =>
      cases hact
      refine ⟨?_,h.owners,fun w hw => hbase w ((mem_cons.mp hw).resolve_left nofun)⟩
      exact (perm_append_singleton p _).trans (h.waiters.cons p)
  | blocked waiter =>
    rw [PlatformMutex.act] at hact
    split at hact
    next => cases hact
    next hfree =>
      cases hact
      exact h.acquire (Bool.not_eq_true _ ▸ hfree) rfl rfl
  | acquired waited waiter =>
    cases waiter with
    | none =>
      cases hact
      refine ⟨?_,h.owners,fun w hw => hbase w ((mem_cons.mp hw).resolve_left nofun)⟩
      cases waited <;> exact h.waiters
    | some p =>
      cases hact
      refine ⟨?_,h.owners,fun w hw => ?_⟩
      · cases waited with
        | true => exact PriorityInheritance.removeWaiter_perm h.waiters
        | false =>
          change ((m.pi.removeWaiter p).2.waiters).Perm _
          rw [PriorityInheritance.removeWaiter_of_not_mem (hno p rfl)]
          exact h.waiters
      · change (m.pi.removeWaiter p).2.base = _
        rw [PriorityInheritance.removeWaiter_base]
        exact hbase w ((mem_cons.mp hw).resolve_left nofun)
  | refresh waiter =>
    cases hact
    refine ⟨h.waiters,h.owners,fun w hw => ?_⟩
    rcases mem_cons.mp hw with hw | hw
    · cases hw
      rfl
    · have hzero : rest.countP Op.owner = 0 := by
        have howners := h.owners
        rw [countP_cons_of_pos rfl] at howners
        split at howners <;> omega
      exact absurd hw (no_holding hzero)
  | holding waiter =>
    cases hact
    have howners := h.owners
    rw [countP_cons_of_pos rfl] at howners
    exact ⟨h.waiters,by split at howners <;> simp_all,hbase⟩

lemma sound_step (h : p.shared.Sound p.active) {e : Event}
    (hno : NoOvertaking p e) : (step p e).shared.Sound (step p e).active := by
  cases e with
  | lock waiter =>
    exact ⟨h.waiters,h.owners,fun w hw => h.base w ((mem_cons.mp hw).resolve_left nofun)⟩
  | tryLock waiter =>
    exact ⟨h.waiters,h.owners,fun w hw => h.base w ((mem_cons.mp hw).resolve_left nofun)⟩
  | advance i =>
    refine Pool.advance_invariant
      (G := fun m op => ∀ q, op = .acquired false (some q) → q ∉ m.pi.waiters)
      (fun _ _ _ hperm h => h.perm hperm) (fun _ _ _ _ _ h hG hact => h.act hG hact) h ?_
    intro op hop q heq
    exact hno q (heq ▸ hop)

lemma filterMap_donated (h : ∀ op ∈ active, op.booking = false) :
    active.filterMap Op.donated = active.filterMap Op.blockedPriority := by
  refine filterMap_congr fun op hop => ?_
  have := h op hop
  cases op with
  | acquired waited waiter => cases this
  | _ => rfl

lemma Sound.inherits (h : p.shared.Sound p.active)
    (hquiet : ∀ op ∈ p.active, op.booking = false) : Inherits p := by
  have hwaiters := filterMap_donated hquiet ▸ h.waiters
  refine ⟨hwaiters,fun waiter hw => ?_⟩
  have hperm := hwaiters.cons (waiter.getD .normal)
  obtain ⟨hmem,hle⟩ := p.shared.pi.effective_spec
  rw [h.base waiter hw] at hmem hle
  exact ⟨hperm.mem_iff.mp hmem,fun q hq => hle q (hperm.mem_iff.mpr hq)⟩

lemma sound_new : Sound ⟨false,⟨.normal,[]⟩⟩ [] where
  waiters := .refl _
  owners := rfl
  base _ h := by cases h

/-- **Priority inheritance.** Along every run in which no thread that acquires the lock without
waiting finds a waiter of its own priority, the waiters are the blocked threads and the effective
priority is the highest of the holder's and theirs. -/
theorem inherits_of_noOvertaking (events : List Event)
    (hno : ∀ k e, events[k]? = some e → NoOvertaking (runAt events k) e) (k : ℕ)
    (hquiet : ∀ op ∈ (runAt events k).active, op.booking = false) :
    Inherits (runAt events k) := by
  have hsound : (runAt events k).shared.Sound (runAt events k).active :=
    Runs.forall_take (I := fun p : Pool PlatformMutex Op => p.shared.Sound p.active)
      (K := NoOvertaking) (fun _ _ h hno => sound_step h hno) sound_new hno k
  exact hsound.inherits hquiet

/-- Two threads of one priority, of which the second blocks while the first holds the lock and
acquires it in its turn. -/
theorem inherits_of_two_threads :
    Inherits (runAt [.lock (some .high),.advance 0,.advance 0,.advance 0,.lock (some .high),
      .advance 0,.advance 0,.advance 1,.advance 0,.advance 0,.advance 0] 11) := by
  refine inherits_of_noOvertaking _ (fun k e he => ?_) 11 (by decide)
  match k, he with
  | 0, he | 4, he => cases he; trivial
  | 1, he | 2, he | 3, he | 5, he | 6, he | 7, he | 8, he | 9, he | 10, he =>
    cases he
    intro q
    cases q <;> decide
  | k+11, he => cases he

/-- Three threads of one priority: the first holds the lock while the second blocks, and the third
acquires it before the second does. The second is blocked, but no waiter is left. -/
theorem not_inherits_of_overtaking :
    (∀ op ∈ (runAt [.lock (some .high),.advance 0,.advance 0,.advance 0,.lock (some .high),
      .advance 0,.advance 0,.advance 1,.lock (some .high),.advance 0,.advance 0,
      .advance 0] 12).active, op.booking = false) ∧
    ¬ Inherits (runAt [.lock (some .high),.advance 0,.advance 0,.advance 0,.lock (some .high),
      .advance 0,.advance 0,.advance 1,.lock (some .high),.advance 0,.advance 0,
      .advance 0] 12) := by
  refine ⟨by decide,fun h => ?_⟩
  have hlen := h.waiters.length_eq
  revert hlen
  decide

end PlatformMutex
end Enlil.Platform
