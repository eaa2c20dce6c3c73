import Enlil.Lib.Runs

/-!
# The executors of the asynchronous runtime: model of `async_rt/mod.rs`

`run` takes the first task of the first queue that is not empty and polls its future, until every
queue is empty. `Executor` has one queue, `PriorityExecutor` three: both are the loop below over the
list of their queues. What a poll returns, and when somebody spawns a task or uses a waker, are
events of the run. Looking at one queue is one step, so a waker can be used between two of them.
-/

namespace Enlil.Platform
open List Nat Function

inductive Poll where
  | ready
  | pending
  deriving DecidableEq, Repr

inductive TaskPriority where
  | low
  | normal
  | high
  deriving DecidableEq, Repr

inductive Call where
  | run
  | pollOnce
  deriving DecidableEq, Repr

/-- Where the executor is: outside a call, about to look at the next of some queues, or in the
poll of a task. -/
inductive Pc (L : Type) where
  | idle
  | scanning (call : Call) (rest : List L)
  | polling (call : Call) (task : ℕ)
  deriving DecidableEq, Repr

inductive Entry where
  | woken (task : ℕ)
  | polled (task : ℕ)
  | finished (task : ℕ) (poll : Poll)
  | returned
  deriving DecidableEq, Repr

/-- Tasks are numbered in the order in which they are spawned, and `lane` is the queue a task was
spawned on. The latest entry of the trace comes first. -/
structure ExecutorState (L : Type) where
  queue : L → List ℕ
  lane : ℕ → L
  spawned : ℕ
  pc : Pc L
  trace : List Entry

namespace ExecutorState

inductive Event (L : Type) where
  | spawn (l : L)
  | wake (task : ℕ)
  | call (call : Call)
  | look
  | finish (poll : Poll)
  deriving DecidableEq, Repr

section Loop
variable {L : Type} [DecidableEq L]
section
variable (s : ExecutorState L)

def push (l : L) (task : ℕ) : ExecutorState L :=
  { s with queue := update s.queue l (s.queue l ++ [task]) }

def spawn (l : L) : ExecutorState L :=
  { s.push l s.spawned with
    lane := update s.lane s.spawned l
    spawned := s.spawned+1 }

def wake (task : ℕ) : ExecutorState L :=
  if task < s.spawned then
    { s.push (s.lane task) task with trace := .woken task :: s.trace }
  else s

def look : ExecutorState L :=
  match s.pc with
  | .scanning call (l :: rest) =>
    match s.queue l with
    | task :: tasks =>
      { s with
        queue := update s.queue l tasks
        pc := .polling call task
        trace := .polled task :: s.trace }
    | [] =>
      if rest ≠ [] then { s with pc := .scanning call rest }
      else { s with
        pc := .idle
        trace := if call = .run then .returned :: s.trace else s.trace }
  | _ => s

end

def finish (order : List L) (s : ExecutorState L) (poll : Poll) : ExecutorState L :=
  match s.pc with
  | .polling call task =>
    { s with
      pc := if call = .run then .scanning .run order else .idle
      trace := .finished task poll :: s.trace }
  | _ => s

def step (order : List L) (s : ExecutorState L) : Event L → ExecutorState L
  | .spawn l => s.spawn l
  | .wake task => s.wake task
  | .call call => if s.pc = .idle then { s with pc := .scanning call order } else s
  | .look => s.look
  | .finish poll => s.finish order poll

def runAt [Inhabited L] (order : List L) (events : List (Event L)) (k : ℕ) : ExecutorState L :=
  (events.take k).foldl (step order) ⟨fun _ => [],fun _ => default,0,.idle,[]⟩

end Loop

def since (task : ℕ) (trace : List Entry) : List Entry := trace.takeWhile (· ≠ .polled task)

/-- No future was polled after it had returned `Ready`. Whenever `run` returned, a task that was
woken after its latest poll began had returned `Ready` in that poll. -/
structure Safe (trace : List Entry) : Prop where
  never_repolled : ∀ later task earlier, trace = later ++ .polled task :: earlier →
    .finished task .ready ∉ earlier
  none_forgotten : ∀ later task earlier, trace = later ++ .returned :: earlier →
    .woken task ∈ since task earlier → .finished task .ready ∈ since task earlier

variable {L : Type}

/-- A task is not woken after its future has returned `Ready`, and a future does not return
`Ready` while its task is queued again. -/
def Live (s : ExecutorState L) : Event L → Prop
  | .wake task => .finished task .ready ∉ s.trace
  | .finish .ready => ∀ call task, s.pc = .polling call task → ∀ l, task ∉ s.queue l
  | _ => True

/-- A task is not woken on a queue that the current round of `run` has found empty. -/
def Seen (s : ExecutorState L) : Event L → Prop
  | .wake task => ∀ rest, s.pc = .scanning .run rest → s.lane task ∈ rest
  | _ => True

structure Sound (s : ExecutorState L) : Prop where
  safe : Safe s.trace
  queued : ∀ l, ∀ task ∈ s.queue l, task < s.spawned ∧ s.lane task = l
  polling : ∀ call task, s.pc = .polling call task → task < s.spawned
  finished : ∀ task, .finished task .ready ∈ s.trace →
    task < s.spawned ∧ (∀ l, task ∉ s.queue l) ∧ ∀ call, s.pc ≠ .polling call task
  woken : ∀ task, .woken task ∈ since task s.trace → task < s.spawned ∧ task ∈ s.queue (s.lane task)
  scanning : ∀ call rest, s.pc = .scanning call rest → rest ≠ []
  ahead : ∀ rest, s.pc = .scanning .run rest → ∀ task, .woken task ∈ since task s.trace →
    s.lane task ∈ rest

variable {task : ℕ} {e : Entry}

lemma since_cons_of_ne (trace : List Entry) (h : e ≠ .polled task) :
    since task (e :: trace) = e :: since task trace :=
  takeWhile_cons_of_pos (decide_eq_true h)

lemma since_polled (task : ℕ) (trace : List Entry) : since task (.polled task :: trace) = [] :=
  takeWhile_cons_of_neg (by simp)

variable {trace : List Entry}

lemma woken_of_cons (h : .woken task ∈ since task (e :: trace)) :
    e = .woken task ∨ .woken task ∈ since task trace := by
  by_cases he : e = .polled task
  · rw [he,since_polled] at h
    cases h
  · rw [since_cons_of_ne trace he] at h
    exact (mem_cons.mp h).imp_left Eq.symm

lemma Safe.cons (h : Safe trace)
    (hpolled : ∀ task, e = .polled task → .finished task .ready ∉ trace)
    (hreturned : e = .returned → ∀ task, .woken task ∈ since task trace →
      .finished task .ready ∈ since task trace) : Safe (e :: trace) where
  never_repolled later task earlier htrace := by
    cases later with
    | nil =>
      obtain ⟨rfl,rfl⟩ := List.cons.inj htrace
      exact hpolled task rfl
    | cons e' later => exact h.never_repolled later task earlier (List.cons.inj htrace).2
  none_forgotten later task earlier htrace := by
    cases later with
    | nil =>
      obtain ⟨rfl,rfl⟩ := List.cons.inj htrace
      exact hreturned rfl task
    | cons e' later => exact h.none_forgotten later task earlier (List.cons.inj htrace).2

lemma safe_nil : Safe [] where
  never_repolled later task earlier h := by simp at h
  none_forgotten later task earlier h := by simp at h

variable [DecidableEq L] {s : ExecutorState L}

lemma mem_update_append {queue : L → List ℕ} {l l' : L} {task t : ℕ} :
    t ∈ update queue l (queue l ++ [task]) l' ↔ t ∈ queue l' ∨ (l' = l ∧ t = task) := by
  by_cases hl : l' = l
  · subst hl
    simp
  · simp [hl]

lemma Sound.spawn (hs : s.Sound) (l : L) : (s.spawn l).Sound := by
  have hlane : ∀ task, task < s.spawned → (s.spawn l).lane task = s.lane task := fun task h =>
    update_of_ne (Nat.ne_of_lt h) _ _
  have hqueue : ∀ l' task, task ∈ (s.spawn l).queue l' ↔
      task ∈ s.queue l' ∨ (l' = l ∧ task = s.spawned) := fun l' task => mem_update_append
  refine ⟨hs.safe,?_,?_,?_,?_,hs.scanning,?_⟩
  · intro l' task htask
    rcases (hqueue l' task).mp htask with h | ⟨rfl,rfl⟩
    · obtain ⟨hlt,hl⟩ := hs.queued l' task h
      exact ⟨lt_succ_of_lt hlt,(hlane task hlt).trans hl⟩
    · exact ⟨lt_succ_self _,update_self _ _ _⟩
  · exact fun call task h => lt_succ_of_lt (hs.polling call task h)
  · intro task h
    obtain ⟨hlt,hout,hpc⟩ := hs.finished task h
    refine ⟨lt_succ_of_lt hlt,fun l' hmem => ?_,hpc⟩
    rcases (hqueue l' task).mp hmem with h | ⟨-,rfl⟩
    · exact hout l' h
    · exact Nat.lt_irrefl _ hlt
  · intro task h
    obtain ⟨hlt,hmem⟩ := hs.woken task h
    rw [hlane task hlt]
    exact ⟨lt_succ_of_lt hlt,(hqueue _ task).mpr (.inl hmem)⟩
  · intro rest hpc task h
    rw [hlane task (hs.woken task h).1]
    exact hs.ahead rest hpc task h

lemma Sound.wake (hs : s.Sound) (hlive : s.Live (.wake task))
    (hseen : s.Seen (.wake task)) : (s.wake task).Sound := by
  rw [ExecutorState.wake]
  split
  next hlt =>
    have hqueue : ∀ l' t, t ∈ (s.push (s.lane task) task).queue l' ↔
        t ∈ s.queue l' ∨ (l' = s.lane task ∧ t = task) := fun l' t => mem_update_append
    refine ⟨hs.safe.cons nofun nofun,?_,hs.polling,?_,?_,hs.scanning,?_⟩
    · intro l' t ht
      rcases (hqueue l' t).mp ht with h | ⟨rfl,rfl⟩
      · exact hs.queued l' t h
      · exact ⟨hlt,rfl⟩
    · intro t h
      have hmem : .finished t .ready ∈ s.trace := (mem_cons.mp h).resolve_left nofun
      obtain ⟨hlt',hout,hpc⟩ := hs.finished t hmem
      refine ⟨hlt',fun l' ht => ?_,hpc⟩
      rcases (hqueue l' t).mp ht with h | ⟨-,rfl⟩
      · exact hout l' h
      · exact hlive hmem
    · intro t h
      rcases woken_of_cons h with h | h
      · cases h
        exact ⟨hlt,(hqueue _ _).mpr (.inr ⟨rfl,rfl⟩)⟩
      · exact ⟨(hs.woken t h).1,(hqueue _ _).mpr (.inl (hs.woken t h).2)⟩
    · intro rest hpc t h
      rcases woken_of_cons h with h | h
      · cases h
        exact hseen rest hpc
      · exact hs.ahead rest hpc t h
  next => exact hs

omit [DecidableEq L] in
lemma Sound.scan (hs : s.Sound) {order : List L} (hne : order ≠ []) (hall : ∀ l, l ∈ order)
    (call : Call) : Sound { s with pc := .scanning call order } where
  safe := hs.safe
  queued := hs.queued
  polling _ _ h := nomatch h
  finished task h := ⟨(hs.finished task h).1,(hs.finished task h).2.1,nofun⟩
  woken := hs.woken
  scanning _ _ h := by
    cases h
    exact hne
  ahead _ h task _ := by
    cases h
    exact hall _

lemma Sound.look_task (hs : s.Sound) {call : Call} {l : L} {rest : List L}
    {tasks : List ℕ} (hpc : s.pc = .scanning call (l :: rest)) (hq : s.queue l = task :: tasks) :
    Sound { s with
      queue := update s.queue l tasks
      pc := .polling call task
      trace := .polled task :: s.trace } := by
  have htask : task ∈ s.queue l := hq ▸ mem_cons_self
  have hold : ∀ l' t, t ∈ update s.queue l tasks l' → t ∈ s.queue l' := by
    intro l' t ht
    by_cases hl : l' = l
    · subst hl
      rw [update_self] at ht
      exact hq ▸ mem_cons_of_mem task ht
    · rwa [update_of_ne hl] at ht
  have hunfinished : .finished task .ready ∉ s.trace := fun h => (hs.finished task h).2.1 l htask
  refine ⟨hs.safe.cons ?_ nofun,fun l' t ht => hs.queued l' t (hold l' t ht),?_,?_,?_,nofun,
    nofun⟩
  · intro t ht
    cases ht
    exact hunfinished
  · intro _ _ h
    cases h
    exact (hs.queued l task htask).1
  · intro t h
    have hmem : .finished t .ready ∈ s.trace := (mem_cons.mp h).resolve_left nofun
    obtain ⟨hlt,hout,-⟩ := hs.finished t hmem
    refine ⟨hlt,fun l' ht => hout l' (hold l' t ht),fun _ hpc' => ?_⟩
    cases hpc'
    exact hunfinished hmem
  · intro t h
    by_cases ht : t = task
    · subst ht
      rw [since_polled] at h
      cases h
    · obtain ⟨hlt,hmem⟩ := hs.woken t ((woken_of_cons h).resolve_left nofun)
      refine ⟨hlt,?_⟩
      change t ∈ update s.queue l tasks (s.lane t)
      by_cases hl : s.lane t = l
      · rw [hl,update_self]
        rw [hl,hq] at hmem
        exact (mem_cons.mp hmem).resolve_left ht
      · rwa [update_of_ne hl]

omit [DecidableEq L] in
lemma Sound.lane_ne (hs : s.Sound) {l : L} (hq : s.queue l = []) {task : ℕ}
    (h : .woken task ∈ since task s.trace) : s.lane task ≠ l := by
  rintro rfl
  have := (hs.woken task h).2
  rw [hq] at this
  cases this

omit [DecidableEq L] in
lemma Sound.look_next (hs : s.Sound) {call : Call} {l : L} {rest : List L}
    (hpc : s.pc = .scanning call (l :: rest)) (hq : s.queue l = []) (hrest : rest ≠ []) :
    Sound { s with pc := .scanning call rest } where
  safe := hs.safe
  queued := hs.queued
  polling _ _ h := nomatch h
  finished task h := ⟨(hs.finished task h).1,(hs.finished task h).2.1,nofun⟩
  woken := hs.woken
  scanning _ _ h := by
    cases h
    exact hrest
  ahead _ h task hw := by
    cases h
    exact (mem_cons.mp (hs.ahead _ hpc task hw)).resolve_left (hs.lane_ne hq hw)

omit [DecidableEq L] in
/-- `run` returns: every task that was woken is on a queue still to come, and there is none. -/
lemma Sound.look_last (hs : s.Sound) {call : Call} {l : L}
    (hpc : s.pc = .scanning call [l]) (hq : s.queue l = []) :
    Sound { s with
      pc := .idle
      trace := if call = .run then .returned :: s.trace else s.trace } := by
  have hsame : ∀ trace' : List Entry,
      (∀ t, .finished t .ready ∈ trace' → .finished t .ready ∈ s.trace) →
      (∀ t, .woken t ∈ since t trace' → .woken t ∈ since t s.trace) → Safe trace' →
      Sound { s with pc := .idle, trace := trace' } := by
    intro trace' hfin hwok hsafe
    exact ⟨hsafe,hs.queued,nofun,fun t h =>
      ⟨(hs.finished t (hfin t h)).1,(hs.finished t (hfin t h)).2.1,nofun⟩,
      fun t h => hs.woken t (hwok t h),nofun,nofun⟩
  split
  next hrun =>
    subst hrun
    refine hsame _ (fun t h => (mem_cons.mp h).resolve_left nofun)
      (fun t h => (woken_of_cons h).resolve_left nofun) (hs.safe.cons nofun fun _ t hw => ?_)
    exact absurd (mem_singleton.mp (hs.ahead _ hpc t hw)) (hs.lane_ne hq hw)
  next => exact hsame _ (fun _ h => h) (fun _ h => h) hs.safe

lemma Sound.look (hs : s.Sound) : s.look.Sound := by
  rw [ExecutorState.look]
  split
  next call l rest hpc =>
    split
    next task tasks hq => exact hs.look_task hpc hq
    next hq =>
      split
      next hrest => exact hs.look_next hpc hq hrest
      next hrest =>
        rw [not_not.mp hrest] at hpc
        exact hs.look_last hpc hq
  next => exact hs

omit [DecidableEq L] in
lemma Sound.finish (hs : s.Sound) {order : List L} (hne : order ≠ []) (hall : ∀ l, l ∈ order)
    {poll : Poll} (hlive : s.Live (.finish poll)) : (s.finish order poll).Sound := by
  rw [ExecutorState.finish]
  split
  next call task hpc =>
    have hdone : Sound { s with pc := .idle, trace := .finished task poll :: s.trace } := by
      refine ⟨hs.safe.cons nofun nofun,hs.queued,nofun,fun t h => ?_,fun t h => ?_,nofun,nofun⟩
      · rcases mem_cons.mp h with h | h
        · cases h
          exact ⟨hs.polling call _ hpc,hlive call _ hpc,nofun⟩
        · exact ⟨(hs.finished t h).1,(hs.finished t h).2.1,nofun⟩
      · exact hs.woken t ((woken_of_cons h).resolve_left nofun)
    split
    next => exact hdone.scan hne hall .run
    next => exact hdone
  next => exact hs

lemma Sound.step (hs : s.Sound) {order : List L} (hne : order ≠ []) (hall : ∀ l, l ∈ order)
    {e : Event L} (hlive : s.Live e) (hseen : s.Seen e) : (s.step order e).Sound := by
  cases e with
  | spawn l => exact hs.spawn l
  | wake task => exact hs.wake hlive hseen
  | call call =>
    rw [ExecutorState.step]
    split
    · exact hs.scan hne hall call
    · exact hs
  | look => exact hs.look
  | finish poll => exact hs.finish hne hall hlive

omit [DecidableEq L] in
lemma sound_new [Inhabited L] : Sound (⟨fun _ => [],fun _ => default,0,.idle,[]⟩ :
    ExecutorState L) where
  safe := safe_nil
  queued := nofun
  polling := nofun
  finished := nofun
  woken := nofun
  scanning := nofun
  ahead := nofun

end ExecutorState
open ExecutorState

def Executor.runAt (events : List (Event Unit)) (k : ℕ) : ExecutorState Unit :=
  ExecutorState.runAt [()] events k

instance : Inhabited TaskPriority := ⟨.normal⟩

/-- The order in which `PriorityExecutor` looks at its queues. -/
def PriorityExecutor.order : List TaskPriority := [.high,.normal,.low]

def PriorityExecutor.runAt (events : List (Event TaskPriority)) (k : ℕ) :
    ExecutorState TaskPriority :=
  ExecutorState.runAt PriorityExecutor.order events k

/-- **Executors never poll a finished future and forget no wake**, for `Executor` along every run in
which no task is woken after its future returned `Ready` and no future returns `Ready` while its
task is queued again, and for `PriorityExecutor` if also no task is woken on a queue that the round
has found empty. -/
theorem executors_safe (events : List (Event Unit)) (prioritised : List (Event TaskPriority)) :
    ((∀ k e, events[k]? = some e → (Executor.runAt events k).Live e) →
      ∀ k, Safe (Executor.runAt events k).trace) ∧
    ((∀ k e, prioritised[k]? = some e → (PriorityExecutor.runAt prioritised k).Live e ∧
        (PriorityExecutor.runAt prioritised k).Seen e) →
      ∀ k, Safe (PriorityExecutor.runAt prioritised k).trace) := by
  constructor
  · intro hlive k
    -- The round has found no queue empty as long as it goes on.
    have hseen : ∀ (s : ExecutorState Unit) e, s.Sound → s.Seen e := by
      intro s e hs
      cases e with
      | wake task =>
        intro rest hpc
        obtain ⟨l,rest,rfl⟩ := exists_cons_of_ne_nil (hs.scanning _ _ hpc)
        exact mem_cons_self
      | _ => trivial
    have hsound : Sound (Executor.runAt events k) := Runs.forall_take (K := Live)
      (fun s e hs hK => hs.step (cons_ne_nil _ _) (fun _ => mem_singleton.mpr rfl) hK
        (hseen s e hs)) sound_new hlive k
    exact hsound.safe
  · intro hK k
    have hsound : Sound (PriorityExecutor.runAt prioritised k) :=
      Runs.forall_take (K := fun s e => s.Live e ∧ s.Seen e)
        (fun s e hs hK => hs.step (cons_ne_nil _ _) (fun l => by cases l <;> decide) hK.1 hK.2)
        sound_new hK k
    exact hsound.safe

/-- A task that is woken once, while it is polled, and finishes in its second poll; and one that is
woken on the queue that the round comes to next. -/
theorem executors_safe_after_wake :
    Safe (Executor.runAt [.spawn (),.call .run,.look,.wake 0,.finish .pending,.look,
      .finish .ready,.look] 8).trace ∧
    Safe (PriorityExecutor.runAt [.spawn .normal,.call .run,.look,.look,.finish .pending,.look,
      .wake 0,.look,.finish .ready,.look] 10).trace := by
  refine ⟨(executors_safe _ []).1 (fun k e he => ?_) 8,
    (executors_safe [] _).2 (fun k e he => ?_) 10⟩
  · match k, he with
    | 0, he | 1, he | 2, he | 4, he | 5, he | 7, he => cases he; trivial
    | 3, he =>
      cases he
      exact (by decide : (.finished 0 .ready : Entry) ∉ [.polled 0])
    | 6, he =>
      cases he
      intro call task hpc l
      cases l
      exact not_mem_nil
    | k+8, he => cases he
  · match k, he with
    | 0, he | 1, he | 2, he | 3, he | 4, he | 5, he | 7, he | 9, he =>
      cases he
      exact ⟨trivial,trivial⟩
    | 6, he =>
      cases he
      refine ⟨(by decide : (.finished 0 .ready : Entry) ∉ [.finished 0 .pending,.polled 0]),?_⟩
      intro rest hpc
      cases hpc
      exact mem_cons_self
    | 8, he =>
      cases he
      refine ⟨fun call task hpc l => ?_,trivial⟩
      cases l <;> exact not_mem_nil
    | k+10, he => cases he

/-- A task that is woken twice in its first poll and finishes in its second is polled a third time.
A task that is woken after `run` has found its queue empty is left on it when `run` returns. -/
theorem not_executors_safe :
    ¬ Safe (Executor.runAt [.spawn (),.call .run,.look,.wake 0,.wake 0,.finish .pending,
        .look,.finish .ready,.look] 9).trace ∧
    ¬ Safe (PriorityExecutor.runAt [.spawn .normal,.call .run,.look,.look,.wake 0,.wake 0,
        .finish .pending,.look,.look,.finish .ready,.look,.look] 12).trace ∧
    ¬ Safe (PriorityExecutor.runAt [.spawn .high,.call .run,.look,.finish .pending,.look,
        .wake 0,.look,.look] 8).trace := by
  refine ⟨fun h => ?_,fun h => ?_,fun h => ?_⟩
  · refine h.never_repolled [] 0 [.finished 0 .ready,.polled 0,.finished 0 .pending,.woken 0,
      .woken 0,.polled 0] (by decide) (by decide)
  · refine h.never_repolled [] 0 [.finished 0 .ready,.polled 0,.finished 0 .pending,.woken 0,
      .woken 0,.polled 0] (by decide) (by decide)
  · have hready := h.none_forgotten [] 0 [.woken 0,.finished 0 .pending,.polled 0] (by decide)
      (by decide)
    exact absurd hready (by decide)

end Enlil.Platform
