import Enlil.Lib.Pool
import Enlil.Lib.Runs
import Enlil.Lib.Word
import Mathlib.Data.List.MinMax
import Mathlib.Data.List.Sort

/-!
# Run queues with work stealing: model of `threading/scheduler.rs`

A deque is changed under its lock, the counter by atomic additions, and the two in separate steps: a
producer counts its task after it has put it on the deque, a consumer discounts it after it has
taken it off. The model is the pool of all calls under way, of which one takes one such step at a
time.
-/

namespace Enlil.Platform
open Word List Function

inductive Priority where
  | critical
  | high
  | normal
  | low
  deriving DecidableEq, Repr

def Priority.asIndex : Priority → ℕ
  | .critical => 0
  | .high => 1
  | .normal => 2
  | .low => 3

def Priority.all : List Priority := [.critical,.high,.normal,.low]

structure SchedulerTask (W : Type) where
  id : ℕ
  priority : Priority
  work : W
  deriving DecidableEq, Repr

/-- The histories record, each with its CPU, the tasks put on a deque, taken off the front or the
back of one, and returned by a call. -/
structure RunQueues (W : Type) where
  numCpus : ℕ
  lanes : ℕ → Priority → List (SchedulerTask W)
  len : ℕ → ℕ
  nextTaskId : ℕ
  submitted : List (ℕ × SchedulerTask W)
  popped : List (ℕ × SchedulerTask W)
  stolen : List (ℕ × SchedulerTask W)
  returned : List (ℕ × SchedulerTask W)

namespace RunQueues

inductive Op (W : Type) where
  /-- `submit`, with the counters that `least_loaded_cpu` has read so far -/
  | submit (priority : Priority) (work : W) (reads : List ℕ)
  /-- `submit_to`, before it draws its identifier -/
  | submitTo (cpu : ℕ) (priority : Priority) (work : W)
  /-- `push`, before the task is on its deque -/
  | push (cpu : ℕ) (task : SchedulerTask W)
  /-- `push`, before the task is counted -/
  | count (cpu : ℕ)
  /-- `pop`, before it locks the next of some deques -/
  | pop (cpu : ℕ) (rest : List Priority)
  /-- `steal`, before it locks the next of some deques, with the victims after this one -/
  | steal (cpu : ℕ) (rest : List Priority) (victims : List ℕ)
  /-- `pop` or `steal`, before the task it has taken is discounted -/
  | discount (cpu : ℕ) (task : SchedulerTask W)
  /-- `try_steal`, with the counters it has read so far -/
  | trySteal (forCpu : ℕ) (reads : List (ℕ × ℕ)) (rest : List ℕ)
  /-- `try_steal`, before it turns to the next victim -/
  | stealFrom (victims : List ℕ)

def leastLoadedCpu (reads : List ℕ) : ℕ := ((reads.zipIdx.argmin Prod.fst).map Prod.snd).getD 0

def candidates (reads : List (ℕ × ℕ)) : List ℕ :=
  ((reads.filter fun r => decide (1 < r.2)).insertionSort fun a b => b.2 ≤ a.2).map Prod.fst

variable {W : Type}

def setLane (s : RunQueues W) (cpu : ℕ) (priority : Priority) (lane : List (SchedulerTask W)) :
    RunQueues W :=
  { s with lanes :=
    Function.update s.lanes cpu (Function.update (s.lanes cpu) priority lane) }

def act (s : RunQueues W) : Op W → Option (RunQueues W × List (Op W))
  | .submit priority work reads =>
    if reads.length < s.numCpus then
      some (s,[.submit priority work (reads ++ [s.len reads.length])])
    else some (s,[.submitTo (leastLoadedCpu reads) priority work])
  | .submitTo cpu priority work =>
    -- Without CPUs the remainder panics.
    if s.numCpus = 0 then some (s,[])
    else some ({ s with nextTaskId := add64 s.nextTaskId 1 },
      [.push (cpu%s.numCpus) ⟨s.nextTaskId,priority,work⟩])
  | .push cpu task =>
    some ({ s.setLane cpu task.priority (s.lanes cpu task.priority ++ [task]) with
      submitted := s.submitted ++ [(cpu,task)] },[.count cpu])
  | .count cpu => some ({ s with len := Function.update s.len cpu (add64 (s.len cpu) 1) },[])
  | .pop _ [] => some (s,[])
  | .pop cpu (priority :: rest) =>
    match s.lanes cpu priority with
    | [] => some (s,[.pop cpu rest])
    | task :: lane =>
      some ({ s.setLane cpu priority lane with popped := s.popped ++ [(cpu,task)] },
        [.discount cpu task])
  | .steal _ [] victims => some (s,[.stealFrom victims])
  | .steal cpu (priority :: rest) victims =>
    match (s.lanes cpu priority).getLast? with
    | none => some (s,[.steal cpu rest victims])
    | some task =>
      some ({ s.setLane cpu priority (s.lanes cpu priority).dropLast with
        stolen := s.stolen ++ [(cpu,task)] },[.discount cpu task])
  | .discount cpu task =>
    some ({ s with
      len := Function.update s.len cpu (sub64 (s.len cpu) 1)
      returned := s.returned ++ [(cpu,task)] },[])
  | .trySteal forCpu reads (cpu :: rest) =>
    if cpu = forCpu then some (s,[.trySteal forCpu reads rest])
    else some (s,[.trySteal forCpu (reads ++ [(cpu,s.len cpu)]) rest])
  | .trySteal _ reads [] => some (s,[.stealFrom (candidates reads)])
  | .stealFrom [] => some (s,[])
  | .stealFrom (cpu :: victims) => some (s,[.steal cpu Priority.all.reverse victims])

inductive Event (W : Type) where
  | submit (priority : Priority) (work : W)
  | submitTo (cpu : ℕ) (priority : Priority) (work : W)
  | pop (cpu : ℕ)
  | steal (cpu : ℕ)
  | trySteal (forCpu : ℕ)
  | advance (i : ℕ)

def enter (p : Pool (RunQueues W) (Op W)) (op : Op W) : Pool (RunQueues W) (Op W) :=
  ⟨p.shared,op :: p.active⟩

def step (p : Pool (RunQueues W) (Op W)) : Event W → Pool (RunQueues W) (Op W)
  | .submit priority work => enter p (.submit priority work [])
  | .submitTo cpu priority work => enter p (.submitTo cpu priority work)
  | .pop cpu => enter p (.pop cpu Priority.all)
  | .steal cpu => enter p (.steal cpu Priority.all.reverse [])
  | .trySteal forCpu => enter p (.trySteal forCpu [] (range p.shared.numCpus))
  | .advance i => p.advance act i

def new (numCpus : ℕ) : RunQueues W := ⟨numCpus,fun _ _ => [],fun _ => 0,0,[],[],[],[]⟩

def runAt (numCpus : ℕ) (events : List (Event W)) (k : ℕ) : Pool (RunQueues W) (Op W) :=
  (events.take k).foldl step ⟨new numCpus,[]⟩

section
variable (history : List (ℕ × SchedulerTask W)) (cpu : ℕ)

def lane (priority : Priority) : List (SchedulerTask W) :=
  (history.filter fun r => r.1 = cpu ∧ r.2.priority = priority).map Prod.snd

def onCpu : ℕ :=
  history.countP fun r => r.1 = cpu

end

def Op.inHand : Op W → Option (ℕ × SchedulerTask W)
  | .discount cpu task => some (cpu,task)
  | _ => none

/-- The tasks of a deque that were not stolen are those popped and then those still queued, in the
order of their submission, and every task taken is returned by the call that took it. -/
structure Accounted (p : Pool (RunQueues W) (Op W)) : Prop where
  in_order : ∀ cpu priority, ((lane p.shared.popped cpu priority) ++
    p.shared.lanes cpu priority).Sublist (lane p.shared.submitted cpu priority)
  once : ∀ cpu priority, (lane p.shared.submitted cpu priority).Perm
    (lane p.shared.popped cpu priority ++ p.shared.lanes cpu priority ++
      lane p.shared.stolen cpu priority)
  returned : (p.shared.popped ++ p.shared.stolen).Perm
    (p.shared.returned ++ p.active.filterMap Op.inHand)

/-- No counter exceeds the number of tasks submitted to its CPU and not yet returned. -/
def Counted (s : RunQueues W) : Prop :=
  ∀ cpu, s.len cpu+onCpu s.returned cpu ≤ onCpu s.submitted cpu

def CounterNeZero (p : Pool (RunQueues W) (Op W)) : Event W → Prop
  | .advance i => ∀ cpu task, p.active[i]? = some (.discount cpu task) → p.shared.len cpu ≠ 0
  | _ => True

/-! ## What a step does -/

def Op.counting (cpu : ℕ) : Op W → Bool
  | .count c => c = cpu
  | _ => false

/-- The call is at a step that touches neither a deque nor a counter. -/
def Op.Quiet (op : Op W) : Prop := op.inHand = none ∧ ∀ cpu, op.counting cpu = false

/-- The steps of the calls, those that touch no deque and no counter taken together. -/
inductive Steps (s : RunQueues W) : Op W → RunQueues W × List (Op W) → Prop
  | quiet (op : Op W) (nextTaskId : ℕ) (next : List (Op W)) (hop : op.Quiet)
      (hnext : ∀ op' ∈ next, op'.Quiet) : Steps s op ({ s with nextTaskId },next)
  | push (cpu : ℕ) (task : SchedulerTask W) : Steps s (.push cpu task)
        ({ s.setLane cpu task.priority (s.lanes cpu task.priority ++ [task]) with
          submitted := s.submitted ++ [(cpu,task)] },[.count cpu])
  | count (cpu : ℕ) :
      Steps s (.count cpu) ({ s with len := Function.update s.len cpu (add64 (s.len cpu) 1) },[])
  | pop (op : Op W) (cpu : ℕ) (priority : Priority) (task : SchedulerTask W)
      (lane : List (SchedulerTask W)) (hop : op.Quiet) (h : s.lanes cpu priority = task :: lane) :
      Steps s op ({ s.setLane cpu priority lane with popped := s.popped ++ [(cpu,task)] },
        [.discount cpu task])
  | steal (op : Op W) (cpu : ℕ) (priority : Priority) (task : SchedulerTask W)
      (lane : List (SchedulerTask W)) (hop : op.Quiet) (h : s.lanes cpu priority = lane ++ [task]) :
      Steps s op ({ s.setLane cpu priority lane with stolen := s.stolen ++ [(cpu,task)] },
        [.discount cpu task])
  | discount (cpu : ℕ) (task : SchedulerTask W) :
      Steps s (.discount cpu task) ({ s with
        len := Function.update s.len cpu (sub64 (s.len cpu) 1)
        returned := s.returned ++ [(cpu,task)] },[])

variable {op : Op W} {priority : Priority} {tasks rest : List (SchedulerTask W)}
    {active active' : List (Op W)} {p : Pool (RunQueues W) (Op W)}

lemma steps_of_act {s : RunQueues W} {r : RunQueues W × List (Op W)}
    (h : s.act op = some r) : Steps s op r := by
  have hends : op.Quiet → some (s,[]) = some r → Steps s op r := by
    intro hop heq
    cases heq
    exact .quiet op s.nextTaskId [] hop nofun
  have hgoes : ∀ {op' nextTaskId}, op.Quiet → op'.Quiet →
      some ({ s with nextTaskId },[op']) = some r → Steps s op r := by
    intro op' nextTaskId hop hop' heq
    cases heq
    exact .quiet op nextTaskId [op'] hop fun x hx => mem_singleton.mp hx ▸ hop'
  cases op with
  | submit priority work reads =>
    rw [act] at h
    split at h
    · exact hgoes ⟨rfl,fun _ => rfl⟩ ⟨rfl,fun _ => rfl⟩ h
    · exact hgoes ⟨rfl,fun _ => rfl⟩ ⟨rfl,fun _ => rfl⟩ h
  | submitTo cpu priority work =>
    rw [act] at h
    split at h
    · exact hends ⟨rfl,fun _ => rfl⟩ h
    · exact hgoes ⟨rfl,fun _ => rfl⟩ ⟨rfl,fun _ => rfl⟩ h
  | push cpu task =>
    cases h
    exact .push cpu task
  | count cpu =>
    cases h
    exact .count cpu
  | pop cpu rest =>
    cases rest with
    | nil => exact hends ⟨rfl,fun _ => rfl⟩ h
    | cons priority rest =>
      rw [act] at h
      split at h
      next => exact hgoes ⟨rfl,fun _ => rfl⟩ ⟨rfl,fun _ => rfl⟩ h
      next task lane hlane =>
        cases h
        exact .pop _ cpu priority task lane ⟨rfl,fun _ => rfl⟩ hlane
  | steal cpu rest victims =>
    cases rest with
    | nil => exact hgoes ⟨rfl,fun _ => rfl⟩ ⟨rfl,fun _ => rfl⟩ h
    | cons priority rest =>
      rw [act] at h
      split at h
      next => exact hgoes ⟨rfl,fun _ => rfl⟩ ⟨rfl,fun _ => rfl⟩ h
      next task hlast =>
        cases h
        obtain ⟨lane,hlane⟩ := getLast?_eq_some_iff.mp hlast
        rw [hlane,dropLast_concat]
        exact .steal _ cpu priority task lane ⟨rfl,fun _ => rfl⟩ hlane
  | discount cpu task =>
    cases h
    exact .discount cpu task
  | trySteal forCpu reads rest =>
    cases rest with
    | nil => exact hgoes ⟨rfl,fun _ => rfl⟩ ⟨rfl,fun _ => rfl⟩ h
    | cons cpu rest =>
      rw [act] at h
      split at h
      · exact hgoes ⟨rfl,fun _ => rfl⟩ ⟨rfl,fun _ => rfl⟩ h
      · exact hgoes ⟨rfl,fun _ => rfl⟩ ⟨rfl,fun _ => rfl⟩ h
  | stealFrom victims =>
    cases victims with
    | nil => exact hends ⟨rfl,fun _ => rfl⟩ h
    | cons cpu victims => exact hgoes ⟨rfl,fun _ => rfl⟩ ⟨rfl,fun _ => rfl⟩ h

/-! ## The deques -/

variable {s s' : RunQueues W}

lemma lane_append (history : List (ℕ × SchedulerTask W)) (c : ℕ) (task : SchedulerTask W)
    (cpu : ℕ) (priority : Priority) :
    lane (history ++ [(c,task)]) cpu priority =
      if c = cpu ∧ task.priority = priority then lane history cpu priority ++ [task]
      else lane history cpu priority := by
  rw [lane,filter_append,map_append,← lane]
  split
  next h => rw [filter_cons_of_pos (by simpa using h)]; rfl
  next h => rw [filter_cons_of_neg (by simpa using h)]; exact append_nil _

lemma setLane_lanes (c : ℕ) (p : Priority) (l : List (SchedulerTask W)) (cpu : ℕ)
    (priority : Priority) :
    (s.setLane c p l).lanes cpu priority =
      if c = cpu ∧ p = priority then l else s.lanes cpu priority := by
  change Function.update s.lanes c (Function.update (s.lanes c) p l) cpu priority = _
  by_cases hc : c = cpu
  · subst hc
    rw [update_self]
    by_cases hp : p = priority
    · subst hp
      rw [update_self,if_pos ⟨rfl,rfl⟩]
    · rw [update_of_ne (Ne.symm hp),if_neg fun h => hp h.2]
  · rw [update_of_ne (Ne.symm hc),if_neg fun h => hc h.1]

/-- The tasks of a deque that were not stolen are in order, and every task is on the deque of its
priority. -/
structure Ordered (s : RunQueues W) : Prop where
  in_order : ∀ cpu priority, (lane s.popped cpu priority ++ s.lanes cpu priority).Sublist
    (lane s.submitted cpu priority)
  once : ∀ cpu priority, (lane s.submitted cpu priority).Perm
    (lane s.popped cpu priority ++ s.lanes cpu priority ++ lane s.stolen cpu priority)
  priority : ∀ cpu priority, ∀ task ∈ s.lanes cpu priority, task.priority = priority

variable {cpu : ℕ}

lemma Ordered.priority_setLane (h : s.Ordered) (htasks : ∀ t ∈ tasks, t.priority = priority) (c : ℕ)
    (p : Priority) : ∀ t ∈ (s.setLane cpu priority tasks).lanes c p, t.priority = p := by
  intro t ht
  rw [setLane_lanes] at ht
  split at ht
  next hcp => exact hcp.2 ▸ htasks t ht
  next => exact h.priority c p t ht

lemma Ordered.push (h : s.Ordered) (cpu : ℕ) (task : SchedulerTask W) :
    Ordered { s.setLane cpu task.priority (s.lanes cpu task.priority ++ [task]) with
      submitted := s.submitted ++ [(cpu,task)] } := by
  constructor
  · intro c p
    dsimp only
    rw [setLane_lanes,lane_append]
    change (lane s.popped c p ++ _).Sublist _
    split
    next hcp =>
      obtain ⟨rfl,rfl⟩ := hcp
      rw [← append_assoc]
      exact (h.in_order cpu task.priority).append_right _
    next => exact h.in_order c p
  · intro c p
    dsimp only
    rw [setLane_lanes,lane_append]
    change List.Perm _ (lane s.popped c p ++ _ ++ lane s.stolen c p)
    split
    next hcp =>
      obtain ⟨rfl,rfl⟩ := hcp
      refine ((h.once cpu task.priority).append_right [task]).trans ?_
      simp only [append_assoc]
      exact ((perm_append_comm.append_left _).append_left _)
    next => exact h.once c p
  · refine h.priority_setLane fun t ht => ?_
    rcases mem_append.mp ht with ht | ht
    · exact h.priority _ _ t ht
    · rw [mem_singleton.mp ht]

variable {task : SchedulerTask W}

lemma Ordered.pop (h : s.Ordered) (hlane : s.lanes cpu priority = task :: rest) :
    Ordered { s.setLane cpu priority rest with popped := s.popped ++ [(cpu,task)] } := by
  have hpriority : task.priority = priority :=
    h.priority cpu priority task (hlane ▸ mem_cons_self)
  have hkept : ∀ c p, lane (s.popped ++ [(cpu,task)]) c p ++ (s.setLane cpu priority rest).lanes c p =
      lane s.popped c p ++ s.lanes c p := by
    intro c p
    rw [setLane_lanes,lane_append,hpriority]
    split
    next hcp =>
      obtain ⟨rfl,rfl⟩ := hcp
      rw [hlane,append_assoc,singleton_append]
    next => rfl
  constructor
  · intro c p
    exact (hkept c p).symm ▸ h.in_order c p
  · intro c p
    exact (hkept c p).symm ▸ h.once c p
  · exact h.priority_setLane fun t ht =>
      h.priority _ _ t (hlane ▸ mem_cons_of_mem task ht)

lemma Ordered.steal (h : s.Ordered) (hlane : s.lanes cpu priority = rest ++ [task]) :
    Ordered { s.setLane cpu priority rest with stolen := s.stolen ++ [(cpu,task)] } := by
  have hpriority : task.priority = priority :=
    h.priority cpu priority task (hlane ▸ mem_append_right _ (mem_singleton_self task))
  constructor
  · intro c p
    refine List.Sublist.trans ?_ (h.in_order c p)
    change (lane s.popped c p ++ (s.setLane cpu priority rest).lanes c p).Sublist _
    rw [setLane_lanes]
    split
    next hcp =>
      obtain ⟨rfl,rfl⟩ := hcp
      rw [hlane]
      exact (sublist_append_left rest [task]).append_left _
    next => exact .refl _
  · intro c p
    refine (h.once c p).trans ?_
    change List.Perm _ (lane s.popped c p ++ (s.setLane cpu priority rest).lanes c p ++
      lane (s.stolen ++ [(cpu,task)]) c p)
    rw [setLane_lanes,lane_append,hpriority]
    split
    next hcp =>
      obtain ⟨rfl,rfl⟩ := hcp
      rw [hlane]
      simp only [append_assoc]
      exact ((perm_append_comm.append_left _).append_left _)
    next => exact .refl _
  · exact h.priority_setLane fun t ht => h.priority _ _ t (hlane ▸ mem_append_left _ ht)

/-- The deques are in order, and every task taken is returned or in the hands of a call. -/
def Taken (s : RunQueues W) (active : List (Op W)) : Prop :=
  s.Ordered ∧ (s.popped ++ s.stolen).Perm (s.returned ++ active.filterMap Op.inHand)

lemma Taken.perm (h : s.Taken active) (hperm : active.Perm active') : s.Taken active' :=
  ⟨h.1,h.2.trans ((hperm.filterMap _).append_left _)⟩

lemma filterMap_inHand_quiet {next : List (Op W)} (h : ∀ op ∈ next, op.Quiet) :
    next.filterMap Op.inHand = [] :=
  filterMap_eq_nil_iff.mpr fun op hop => (h op hop).1

variable {rest next : List (Op W)}

lemma Taken.act (h : s.Taken (op :: rest))
    (hact : s.act op = some (s',next)) : s'.Taken (next ++ rest) := by
  obtain ⟨hord,hret⟩ := h
  -- The hands that are left when the call goes on from a step where its own were empty.
  have hrest : op.inHand = none →
      (s.popped ++ s.stolen).Perm (s.returned ++ rest.filterMap Op.inHand) := fun hop => by
    rwa [filterMap_cons_none hop] at hret
  have hsteps : Steps s op (s',next) := steps_of_act hact
  cases hsteps with
  | quiet op n next hop hnext =>
    refine ⟨⟨hord.in_order,hord.once,hord.priority⟩,?_⟩
    rw [filterMap_append,filterMap_inHand_quiet hnext,nil_append]
    exact hrest hop.1
  | push cpu task => exact ⟨hord.push cpu task,hrest rfl⟩
  | count cpu => exact ⟨⟨hord.in_order,hord.once,hord.priority⟩,hrest rfl⟩
  | pop op cpu priority task lane hop hlane =>
    refine ⟨hord.pop hlane,?_⟩
    change (s.popped ++ [(cpu,task)] ++ s.stolen).Perm
      (s.returned ++ (cpu,task) :: rest.filterMap Op.inHand)
    refine List.Perm.trans ?_ (((hrest hop.1).cons (cpu,task)).trans perm_middle.symm)
    rw [append_assoc]
    exact perm_middle
  | steal op cpu priority task lane hop hlane =>
    refine ⟨hord.steal hlane,?_⟩
    change (s.popped ++ (s.stolen ++ [(cpu,task)])).Perm
      (s.returned ++ (cpu,task) :: rest.filterMap Op.inHand)
    refine List.Perm.trans ?_ (((hrest hop.1).cons (cpu,task)).trans perm_middle.symm)
    rw [← append_assoc]
    exact perm_append_singleton _ _
  | discount cpu task =>
    refine ⟨⟨hord.in_order,hord.once,hord.priority⟩,hret.trans ?_⟩
    change (s.returned ++ (cpu,task) :: rest.filterMap Op.inHand).Perm
      (s.returned ++ [(cpu,task)] ++ rest.filterMap Op.inHand)
    rw [append_assoc,singleton_append]

lemma Taken.enter (h : s.Taken active) (hop : op.Quiet) :
    s.Taken (op :: active) := by
  refine ⟨h.1,?_⟩
  rw [filterMap_cons_none hop.1]
  exact h.2

lemma taken_step (h : p.shared.Taken p.active) (e : Event W) :
    (step p e).shared.Taken (step p e).active := by
  cases e with
  | advance i =>
    exact Pool.advance_invariant (G := fun _ _ => True) (fun _ _ _ hperm h => h.perm hperm)
      (fun _ _ _ _ _ h _ hact => h.act hact) h fun _ _ => trivial
  | _ => exact h.enter ⟨rfl,fun _ => rfl⟩

/-! ## The counters
-/

/-- With the tasks about to be counted, no counter exceeds the tasks submitted and not
returned. -/
def Covered (s : RunQueues W) (active : List (Op W)) : Prop :=
  ∀ cpu, s.len cpu+onCpu s.returned cpu+active.countP (Op.counting cpu) ≤ onCpu s.submitted cpu

lemma Covered.perm (h : s.Covered active)
    (hperm : active.Perm active') : s.Covered active' := fun cpu => hperm.countP_eq _ ▸ h cpu

lemma onCpu_append (history : List (ℕ × SchedulerTask W)) (c : ℕ) (task : SchedulerTask W)
    (cpu : ℕ) : onCpu (history ++ [(c,task)]) cpu = onCpu history cpu+if c = cpu then 1 else 0 := by
  rw [onCpu,countP_append,countP_singleton,← onCpu]
  simp only [decide_eq_true_eq]

lemma Covered.act (h : s.Covered (op :: rest))
    (hne : ∀ cpu task, op = .discount cpu task → s.len cpu ≠ 0)
    (hact : s.act op = some (s',next)) : s'.Covered (next ++ rest) := by
  intro c
  have hc := h c
  rw [countP_cons] at hc
  rw [countP_append]
  have hsteps : Steps s op (s',next) := steps_of_act hact
  cases hsteps with
  | quiet op n next hop hnext =>
    rw [countP_eq_zero.mpr fun op' h' => Bool.eq_false_iff.mp ((hnext op' h').2 c)]
    change s.len c+onCpu s.returned c+_ ≤ onCpu s.submitted c
    omega
  | push cpu task =>
    change s.len c+onCpu s.returned c+_ ≤ onCpu (s.submitted ++ [(cpu,task)]) c
    rw [onCpu_append,countP_singleton]
    simp only [Op.counting,decide_eq_true_eq]
    omega
  | count cpu =>
    change Function.update s.len cpu (add64 (s.len cpu) 1) c+onCpu s.returned c+_ ≤
      onCpu s.submitted c
    rw [countP_nil]
    by_cases hcpu : c = cpu
    · subst hcpu
      have := add64_le (s.len c) 1
      rw [update_self]
      simp only [Op.counting,decide_true,if_true] at hc
      omega
    · rw [update_of_ne hcpu]
      omega
  | pop op cpu priority task lane hop hlane =>
    change s.len c+onCpu s.returned c+_ ≤ onCpu s.submitted c
    rw [countP_singleton]
    simp only [Op.counting,Bool.false_eq_true,if_false]
    omega
  | steal op cpu priority task lane hop hlane =>
    change s.len c+onCpu s.returned c+_ ≤ onCpu s.submitted c
    rw [countP_singleton]
    simp only [Op.counting,Bool.false_eq_true,if_false]
    omega
  | discount cpu task =>
    change Function.update s.len cpu (sub64 (s.len cpu) 1) c +
      onCpu (s.returned ++ [(cpu,task)]) c+_ ≤ onCpu s.submitted c
    rw [onCpu_append,countP_nil]
    by_cases hcpu : c = cpu
    · subst hcpu
      have := sub64_one_succ_le (hne c task rfl)
      rw [update_self,if_pos rfl]
      omega
    · rw [update_of_ne hcpu,if_neg (Ne.symm hcpu)]
      omega

lemma Covered.enter (h : s.Covered active) (hop : op.Quiet) :
    s.Covered (op :: active) := by
  intro c
  rw [countP_cons_of_neg (Bool.eq_false_iff.mp (hop.2 c))]
  exact h c

lemma covered_step (h : p.shared.Covered p.active)
    {e : Event W} (hne : CounterNeZero p e) : (step p e).shared.Covered (step p e).active := by
  cases e with
  | advance i =>
    refine Pool.advance_invariant
      (G := fun s op => ∀ cpu task, op = .discount cpu task → s.len cpu ≠ 0)
      (fun _ _ _ hperm h => h.perm hperm) (fun _ _ _ _ _ h hG hact => h.act hG hact) h ?_
    intro op hop cpu task heq
    exact hne cpu task (heq ▸ hop)
  | _ => exact h.enter ⟨rfl,fun _ => rfl⟩

lemma taken_new (numCpus : ℕ) : (new numCpus : RunQueues W).Taken [] := by
  refine ⟨⟨fun _ _ => .refl _,fun _ _ => .refl _,fun _ _ task h => ?_⟩,.refl _⟩
  cases h

lemma covered_new (numCpus : ℕ) : (new numCpus : RunQueues W).Covered [] := fun _ =>
  Nat.le_refl 0

/-- **Run queues under work stealing.** Along every run each task is queued or taken by exactly one
call, in the order of submission unless it is stolen. The counters stay in bounds along every run in
which none is decremented at zero. -/
theorem accounted_and_counted (numCpus : ℕ) (events : List (Event W)) :
    (∀ k, Accounted (runAt numCpus events k)) ∧
      ((∀ k e, events[k]? = some e → CounterNeZero (runAt numCpus events k) e) →
        ∀ k, Counted (runAt numCpus events k).shared) := by
  constructor
  · intro k
    have htaken : (runAt numCpus events k).shared.Taken (runAt numCpus events k).active :=
      Runs.forall_take (I := fun p : Pool (RunQueues W) (Op W) => p.shared.Taken p.active)
        (K := fun _ _ => True)
        (fun _ e h _ => taken_step h e)
        (taken_new numCpus) (fun _ _ _ => trivial) k
    exact ⟨htaken.1.in_order,htaken.1.once,htaken.2⟩
  · intro hne k cpu
    have hcovered : (runAt numCpus events k).shared.Covered (runAt numCpus events k).active :=
      Runs.forall_take (I := fun p : Pool (RunQueues W) (Op W) => p.shared.Covered p.active)
        (K := CounterNeZero) (fun _ _ h hne => covered_step h hne) (covered_new numCpus) hne k
    exact Nat.le_trans (Nat.le_add_right _ _) (hcovered cpu)

/-- One submission and one pop, which takes the task when it is counted. -/
theorem counted_of_late_pop : Counted (runAt 1 ([.submitTo 0 .normal (),.advance 0,.advance 0,
    .advance 0,.pop 0,.advance 0,.advance 0,.advance 0,.advance 0] :
      List (Event Unit)) 9).shared := by
  refine (accounted_and_counted 1 _).2 (fun k e he => ?_) 9
  match k, he with
  | 0, he | 4, he => cases he; trivial
  | 1, he | 2, he | 3, he | 5, he | 6, he | 7, he => cases he; exact fun _ _ hop => nomatch hop
  | 8, he =>
    cases he
    intro cpu task hop
    cases hop
    decide
  | k+9, he => cases he

/-- One submission and one pop: the pop takes the task before the submission has counted it, and
the counter of the empty queue reads `2 ^ 64 - 1`. -/
theorem not_counted_of_early_pop :
    ¬ Counted (runAt 1 ([.submitTo 0 .normal (),.advance 0,.advance 0,.pop 0,.advance 0,
      .advance 0,.advance 0,.advance 0] : List (Event Unit)) 8).shared := by
  intro h
  have h0 := h 0
  revert h0
  decide

end RunQueues
end Enlil.Platform
