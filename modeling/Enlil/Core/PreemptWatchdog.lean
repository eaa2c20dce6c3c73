import Mathlib.Data.List.Basic
import Mathlib.Logic.Function.Basic

/-!
# Forced preemption: model of `preempt_watchdog.rs` and of its use by `run_timesliced`

The run loop and the watchdog thread share the queue of commands and the kick bytes of the vCPUs. The
watchdog looks at the clock before it waits for a command, so it may take one after the deadline.
-/

namespace Enlil.Core
open List Function

inductive WatchdogCommand where
  | arm (kicker : ℕ) (prevKicker : Option ℕ) (deadlineTsc : ℕ)
  | disarm

structure TimeSlicing where
  kicked : ℕ → Bool
  now : ℕ
  queue : List WatchdogCommand
  armed : Option (ℕ × ℕ)
  /-- The vCPU whose quantum is under way. -/
  running : Option ℕ
  /-- The vCPU of the last arm that was sent, and of the last one that the watchdog has taken. -/
  sent : Option ℕ
  installed : Option ℕ
  /-- The arms that were sent, those that have fired, and the vCPUs with which a run ended. -/
  arms : List (ℕ × ℕ)
  fired : List (ℕ × ℕ)
  ended : List ℕ

namespace TimeSlicing

def idle : TimeSlicing := ⟨fun _ => false,0,[],none,none,none,none,[],[],[]⟩

variable (s : TimeSlicing)

/-- `set(false)` on a kick handle, if there is one. -/
def clear (kicker : Option ℕ) : TimeSlicing :=
  { s with kicked := kicker.elim s.kicked (update s.kicked · false) }

def installArm (kicker : ℕ) (prevKicker : Option ℕ) (deadlineTsc : ℕ) : TimeSlicing :=
  { s.clear prevKicker with armed := some (kicker,deadlineTsc), installed := some kicker }

def command : WatchdogCommand → TimeSlicing
  | .arm kicker prevKicker deadlineTsc => s.installArm kicker prevKicker deadlineTsc
  | .disarm => { s.clear (s.armed.map Prod.fst) with armed := none }

inductive Event where
  | tick (ticks : ℕ)
  /-- Of the watchdog: the armed deadline has passed; the next command is taken. -/
  | fire | recv
  /-- Of the run loop: `set_immediate_exit`, `take_immediate_exit`, the messages it sends, and its
  return, which after an error sends none. -/
  | clear (v : ℕ) | take | arm (incoming deadline : ℕ) | disarm | leave

def step : Event → TimeSlicing
  | .tick ticks => { s with now := s.now+ticks }
  | .fire =>
    match s.armed with
    | some (v,deadline) =>
      if deadline ≤ s.now then
        { s with
          kicked := update s.kicked v true, armed := none, fired := s.fired ++ [(v,deadline)] }
      else s
    | none => s
  | .recv =>
    match s.queue with
    | c :: rest => { s with queue := rest }.command c
    | [] => s
  | .clear v => s.clear (some v)
  | .take => s.clear s.running
  | .arm incoming deadline =>
    { s with
      queue := s.queue ++ [.arm incoming s.running deadline]
      running := some incoming
      sent := some incoming
      arms := s.arms ++ [(incoming,deadline)] }
  | .disarm => { s with queue := s.queue ++ [.disarm] }
  | .leave => { s with running := none, ended := s.ended ++ s.running.toList }

def run (events : List Event) : TimeSlicing := events.foldl step s

/-- The arms in a queue, after one for `last`, clear the byte of the vCPU before them unless a run
ended with it; `latest` is the vCPU of the last arm. -/
def Linked (ended : List ℕ) (latest : Option ℕ) : Option ℕ → List WatchdogCommand → Prop
  | last, [] => last = latest
  | last, .arm kicker prevKicker _ :: q =>
    (∀ v, last = some v → prevKicker = some v ∨ v ∈ ended) ∧ Linked ended latest (some kicker) q
  | last, .disarm :: q => Linked ended latest last q

def queuedArms : List WatchdogCommand → List (ℕ × ℕ)
  | [] => []
  | .arm kicker _ deadlineTsc :: q => (kicker,deadlineTsc) :: queuedArms q
  | .disarm :: q => queuedArms q

structure Inv : Prop where
  linked : Linked s.ended s.sent s.installed s.queue
  sent : ∀ v, s.sent = some v → s.running = some v ∨ v ∈ s.ended
  running : ∀ v, s.running = some v → s.sent = some v
  armed : ∀ a, s.armed = some a → s.installed = some a.1
  once : s.fired ++ s.armed.toList ++ queuedArms s.queue <+ s.arms
  due : ∀ a ∈ s.fired, a.2 ≤ s.now
  kicked : ∀ v, s.kicked v → (s.installed = some v ∨ v ∈ s.ended) ∧ v ∈ s.fired.map Prod.fst

variable {s} {ended ended' : List ℕ} {last latest latest' : Option ℕ} {q q' : List WatchdogCommand}
variable {v deadline : ℕ} {prevKicker : Option ℕ}

lemma kicked_clear {o : Option ℕ} {v : ℕ} (h : (s.clear o).kicked v) : s.kicked v ∧ o ≠ some v := by
  cases o with
  | none => exact ⟨h,nofun⟩
  | some u =>
    change update s.kicked u false v at h
    rw [update_apply] at h
    split at h
    · cases h
    · exact ⟨h,by grind⟩

lemma Linked.append (h : Linked ended latest last q) (hsub : ended ⊆ ended')
    (h' : Linked ended' latest' latest q') : Linked ended' latest' last (q ++ q') := by
  induction q generalizing last with
  | nil =>
    cases h
    exact h'
  | cons c q ih =>
    cases c with
    | arm kicker prevKicker deadlineTsc =>
      exact ⟨fun v hv => (h.1 v hv).imp_right (hsub ·),ih h.2⟩
    | disarm => exact ih h

lemma queuedArms_append (q : List WatchdogCommand) :
    queuedArms (q ++ q') = queuedArms q ++ queuedArms q' := by
  induction q with
  | nil => rfl
  | cons c q ih => cases c <;> simp [queuedArms,ih]

lemma Inv.clear (h : s.Inv) (o : Option ℕ) : (s.clear o).Inv :=
  ⟨h.linked,h.sent,h.running,h.armed,h.once,h.due,fun v hv => h.kicked v (kicked_clear hv).1⟩

lemma Inv.recv {c : WatchdogCommand} (h : s.Inv) (hqueue : s.queue = c :: q) :
    ({ s with queue := q }.command c).Inv := by
  obtain ⟨hlinked,hsent,hrunning,-,honce,hdue,hkicked⟩ := h
  rw [hqueue] at hlinked honce
  cases c with
  | arm kicker prevKicker deadlineTsc =>
    refine ⟨hlinked.2,hsent,hrunning,?_,?_,hdue,fun v hv => ?_⟩
    · rintro a ⟨⟩
      rfl
    · refine .trans ?_ honce
      rw [append_assoc,append_assoc]
      exact (sublist_append_right ..).append_left _
    · obtain ⟨hv,hne⟩ := kicked_clear hv
      refine ⟨.inr ?_,(hkicked v hv).2⟩
      rcases (hkicked v hv).1 with hv | hv
      · exact (hlinked.1 v hv).resolve_left hne
      · exact hv
  | disarm =>
    refine ⟨hlinked,hsent,hrunning,nofun,.trans ?_ honce,hdue,
      fun v hv => hkicked v (kicked_clear hv).1⟩
    rw [append_assoc,append_assoc]
    exact (sublist_append_right ..).append_left _

lemma Inv.step (h : s.Inv) (e : Event) : (s.step e).Inv := by
  cases e with
  | tick ticks =>
    exact ⟨h.linked,h.sent,h.running,h.armed,h.once,
      fun a ha => Nat.le_add_right_of_le (h.due a ha),h.kicked⟩
  | fire =>
    rw [TimeSlicing.step]
    split
    next v deadline harmed =>
      split
      next hdue =>
        have honce := h.once
        rw [harmed] at honce
        refine ⟨h.linked,h.sent,h.running,nofun,by rwa [Option.toList_none,append_nil],?_,?_⟩
        · intro a ha
          rcases mem_append.mp ha with ha | ha
          · exact h.due a ha
          · cases mem_singleton.mp ha
            exact hdue
        · intro u hu
          rw [map_append]
          by_cases hvu : u = v
          · subst hvu
            exact ⟨.inl (h.armed _ harmed),mem_append_right _ mem_cons_self⟩
          · obtain ⟨hu,hfired⟩ := h.kicked u ((update_of_ne hvu true s.kicked).symm.trans hu)
            exact ⟨hu,mem_append_left _ hfired⟩
      next => exact h
    next => exact h
  | recv =>
    rw [TimeSlicing.step]
    split
    next c rest hqueue => exact h.recv hqueue
    next => exact h
  | clear v => exact h.clear (some v)
  | take => exact h.clear s.running
  | arm incoming deadline =>
    refine ⟨h.linked.append (Subset.refl _) ⟨h.sent,rfl⟩,fun v => .inl,fun v => id,h.armed,?_,h.due,
      h.kicked⟩
    rw [TimeSlicing.step,queuedArms_append,← append_assoc]
    exact h.once.append (.refl _)
  | disarm =>
    refine ⟨h.linked.append (Subset.refl _) rfl,h.sent,h.running,h.armed,?_,h.due,h.kicked⟩
    rw [TimeSlicing.step,queuedArms_append]
    exact (append_nil (queuedArms s.queue)).symm ▸ h.once
  | leave =>
    have hended : s.ended ⊆ s.ended ++ s.running.toList := subset_append_left ..
    refine ⟨append_nil s.queue ▸ h.linked.append hended rfl,fun v hv => .inr ?_,nofun,h.armed,h.once,
      h.due,fun v hv => ⟨(h.kicked v hv).1.imp_right (hended ·),(h.kicked v hv).2⟩⟩
    rcases h.sent v hv with hv | hv
    · exact mem_append_right _ (Option.mem_toList.mpr hv)
    · exact hended hv

lemma inv_run (events : List Event) : (idle.run events).Inv :=
  foldlRecOn (motive := Inv) events step ⟨rfl,nofun,nofun,nofun,.refl _,nofun,nofun⟩
    fun _ hs e _ => hs.step e

/-- **No stranded kick.** However the run loop and the watchdog are interleaved, a kick byte that is
set is that of the last arm taken or of a vCPU with which a run ended, and an arm of that vCPU has
fired. Once the watchdog has caught up, the last arm taken is that of the running vCPU. -/
theorem kicks_confined (events : List Event) :
    let s := idle.run events
    (∀ v, s.kicked v → (s.installed = some v ∨ v ∈ s.ended) ∧ v ∈ s.fired.map Prod.fst) ∧
      (s.queue = [] → ∀ v, s.running = some v → s.installed = some v) := by
  refine ⟨(inv_run events).kicked,fun hqueue v hv => ?_⟩
  have hlinked := (inv_run events).linked
  rw [hqueue] at hlinked
  exact hlinked.trans ((inv_run events).running v hv)

/-- **No early and no second kick.** The arms that fire are, in order, some of those sent, each of
them once and none before its deadline. -/
theorem fired_sublist_arms (events : List Event) :
    let s := idle.run events
    s.fired <+ s.arms ∧ ∀ a ∈ s.fired, a.2 ≤ s.now := by
  refine ⟨.trans ?_ (inv_run events).once,(inv_run events).due⟩
  rw [append_assoc]
  exact sublist_append_left ..

/-- The run loop neither sends another command nor clears the byte of `v`. -/
def Event.Spares (v : ℕ) : Event → Prop
  | .arm .. | .disarm | .take => False
  | .clear u => u ≠ v
  | _ => True

/-- The arm of `v` is the last command of the queue, or it was taken and is armed or has fired. -/
def Awaits (v deadline : ℕ) (s : TimeSlicing) : Prop :=
  (∃ q prevKicker, s.queue = q ++ [.arm v prevKicker deadline]) ∨
    s.queue = [] ∧ (s.armed = some (v,deadline) ∨ s.kicked v)

lemma Awaits.recv (h : Awaits v deadline s) : Awaits v deadline (s.step .recv) := by
  obtain ⟨_ | ⟨c,q⟩,prevKicker,hqueue⟩ | ⟨hqueue,h⟩ := h
  · rw [step,hqueue]
    exact .inr ⟨rfl,.inl rfl⟩
  · rw [step,hqueue]
    exact .inl ⟨q,prevKicker,by cases c <;> rfl⟩
  · rw [step,hqueue]
    exact .inr ⟨hqueue,h⟩

lemma Awaits.fire (h : Awaits v deadline s) : Awaits v deadline (s.step .fire) := by
  rw [step]
  split
  next u due harmed =>
    split
    next =>
      refine h.imp_right fun ⟨hqueue,h⟩ => ⟨hqueue,.inr ?_⟩
      by_cases huv : v = u
      · exact huv ▸ update_self ..
      · -- the deadline of another vCPU is armed, so that of `v` has fired
        refine (update_of_ne huv ..).trans (h.resolve_left fun ha => ?_)
        cases harmed.symm.trans ha
        exact huv rfl
    next => exact h
  next => exact h

lemma Awaits.step {e : Event} (h : Awaits v deadline s) (he : e.Spares v) :
    Awaits v deadline (s.step e) := by
  cases e with
  | tick ticks => exact h
  | fire => exact h.fire
  | recv => exact h.recv
  | clear u =>
    exact h.imp_right fun ⟨hqueue,h⟩ =>
      ⟨hqueue,h.imp_right (update_of_ne (Ne.symm he) ..).trans⟩
  | take => exact he.elim
  | arm incoming deadline => exact he.elim
  | disarm => exact he.elim
  | leave => exact h

/-- **Preemption.** Whatever was sent and armed before, and whatever the watchdog does while the run
loop leaves the arm of `v` alone: once the watchdog has taken all commands and looks at the clock
after the deadline, `v` is kicked. -/
theorem kicked_at_deadline (s : TimeSlicing) (v deadline : ℕ) (events : List Event)
    (hspares : ∀ e ∈ events, e.Spares v) :
    let t := (s.step (.arm v deadline)).run events
    t.queue = [] → deadline ≤ t.now → (t.step .fire).kicked v := by
  intro t hqueue hdue
  have hawaits : Awaits v deadline t :=
    foldlRecOn events step (.inl ⟨s.queue,s.running,rfl⟩) fun _ h e he => h.step (hspares e he)
  obtain ⟨q,prevKicker,hq⟩ | ⟨-,harmed | hkicked⟩ := hawaits
  · simp [hqueue] at hq
  · rw [step,harmed]
    simp only [if_pos hdue,update_self]
  · rw [step]
    split
    next => split <;> simp [update_apply,hkicked]
    next => exact hkicked

/-- The arm of `1` fires while that of `2` is still queued. -/
theorem kicked_at_deadline_queued :
    let s := idle.run [.arm 1 5,.recv,.tick 9]
    let t := (s.step (.arm 2 12)).run [.fire,.recv,.clear 1,.tick 4]
    t.queue = [] ∧ (t.step .fire).kicked 2 :=
  ⟨rfl,kicked_at_deadline _ 2 12 [.fire,.recv,.clear 1,.tick 4] (by simp [Event.Spares]) rfl
    (by decide)⟩

end TimeSlicing
end Enlil.Core
