import Mathlib.Logic.Function.Basic
import Mathlib.Data.List.Basic

/-! # The reactor of the asynchronous runtime: model of `async_rt/mod.rs`, `Reactor` -/

namespace Enlil.Platform
open List Function
variable {W : Type}

structure Registration (W : Type) where
  source : ℕ
  waker : Option W
  ready : Bool

structure Reactor (W : Type) where
  sources : ℕ → Option (Registration W)
  /-- A `usize` of the source, for fewer than `2^64` registrations. -/
  nextToken : ℕ
  readyQueue : List ℕ

inductive ReactorCall (W : Type) where
  | register (source : ℕ)
  | setWaker (token : ℕ) (waker : W)
  | markReady (token : ℕ)
  | takeReady
  | deregister (token : ℕ)

/-- The tokens that a call returns as ready, and the wakers that it wakes. -/
abbrev Effect (W : Type) := List ℕ × List W

/-- What a reactor is for: the registered tokens with the waker that waits for each, and the tokens
that are signalled and not taken, in the order of their first signal. -/
structure Interests (W : Type) where
  armed : ℕ → Option (Option W)
  next : ℕ
  due : List ℕ

namespace Interests

def new : Interests W := ⟨fun _ => none,0,[]⟩

def call (s : Interests W) : ReactorCall W → Effect W × Interests W
  | .register _ =>
    (([],[]),{ s with armed := update s.armed s.next (some none), next := s.next+1 })
  | .setWaker token waker =>
    if s.armed token = none then (([],[]),s)
    else if token ∈ s.due then (([],[waker]),s)
    else (([],[]),{ s with armed := update s.armed token (some (some waker)) })
  | .markReady token =>
    match s.armed token with
    | none => (([],[]),s)
    | some waker =>
      (([],waker.toList),{ s with
        armed := update s.armed token (some none)
        due := if token ∈ s.due then s.due else s.due ++ [token] })
  | .takeReady => ((s.due,[]),{ s with due := [] })
  | .deregister token =>
    (([],[]),{ s with armed := update s.armed token none, due := s.due.filter (· ≠ token) })

def after (calls : List (ReactorCall W)) : Interests W :=
  calls.foldl (fun s c => (s.call c).2) new

end Interests

namespace Reactor

def new : Reactor W := ⟨fun _ => none,0,[]⟩

def setReady (token : ℕ) (ready : Bool) (sources : ℕ → Option (Registration W)) :
    ℕ → Option (Registration W) :=
  update sources token ((sources token).map ({ · with ready }))

def call (r : Reactor W) : ReactorCall W → Effect W × Reactor W
  | .register source =>
    (([],[]),{ r with
      sources := update r.sources r.nextToken (some ⟨source,none,false⟩)
      nextToken := r.nextToken+1 })
  | .setWaker token waker =>
    match r.sources token with
    | none => (([],[]),r)
    | some reg =>
      if reg.ready then (([],[waker]),r)
      else (([],[]),{ r with sources := update r.sources token (some { reg with waker }) })
  | .markReady token =>
    match r.sources token with
    | none => (([],[]),r)
    | some reg =>
      (([],reg.waker.toList),{ r with
        sources := update r.sources token (some { reg with waker := none, ready := true })
        readyQueue := if reg.ready then r.readyQueue else r.readyQueue ++ [token] })
  | .takeReady =>
    ((r.readyQueue,[]),{ r with
      sources := r.readyQueue.foldl (fun sources token => setReady token false sources) r.sources
      readyQueue := [] })
  | .deregister token => (([],[]),{ r with sources := update r.sources token none })

def after (calls : List (ReactorCall W)) : Reactor W :=
  calls.foldl (fun r c => (r.call c).2) new

/-- The reactor stands for some interests; its queue may also hold tokens of the past. -/
structure Models (r : Reactor W) (s : Interests W) : Prop where
  armed : ∀ t, s.armed t = (r.sources t).map (·.waker)
  next : s.next = r.nextToken
  due : s.due = r.readyQueue.filter fun t => (r.sources t).isSome
  ready : ∀ t reg, r.sources t = some reg → (reg.ready = true ↔ t ∈ r.readyQueue)
  queue_lt : ∀ t ∈ r.readyQueue, t < r.nextToken
  sources_none : ∀ t, r.nextToken ≤ t → r.sources t = none

variable {r : Reactor W} {s : Interests W} {t : ℕ} {reg : Registration W}

lemma foldl_setReady (queue : List ℕ) (sources : ℕ → Option (Registration W)) (t : ℕ) :
    queue.foldl (fun sources token => setReady token false sources) sources t =
      (sources t).map fun reg => if t ∈ queue then { reg with ready := false } else reg := by
  induction queue generalizing sources with
  | nil => simp
  | cons u queue ih =>
    rw [foldl_cons,ih,setReady]
    by_cases h : t = u
    · subst h
      rw [update_self]
      cases sources t <;> simp
    · rw [update_of_ne h]
      simp [h]

lemma models_new : (new : Reactor W).Models .new :=
  ⟨fun _ => rfl,rfl,rfl,nofun,nofun,fun _ _ => rfl⟩

lemma Models.mem_due (h : r.Models s) (ht : r.sources t = some reg) :
    t ∈ s.due ↔ reg.ready = true := by
  rw [h.due,mem_filter,ht,h.ready t reg ht]
  simp

/-- A registration is changed, and its token queued if it is ready now. -/
lemma Models.put (h : r.Models s) (ht : r.sources t = some reg) (reg' : Registration W)
    (new : List ℕ) (hnew : ∀ u ∈ new, u = t) (hready : reg'.ready = true ↔ t ∈ r.readyQueue ++ new) :
    Models ⟨update r.sources t (some reg'),r.nextToken,r.readyQueue ++ new⟩
      ⟨update s.armed t (some reg'.waker),s.next,s.due ++ new⟩ := by
  have hfilter : ∀ u, (update r.sources t (some reg') u).isSome = (r.sources u).isSome := by
    intro u
    by_cases hu : u = t
    · rw [hu,update_self,ht]; rfl
    · rw [update_of_ne hu]
  obtain ⟨harmed,hnext,hdue,hother,hlt,hnone⟩ := h
  refine ⟨?_,hnext,?_,?_,?_,?_⟩
  · simp only [update_apply]; grind
  · simp only [hfilter,filter_append,hdue]
    exact congrArg _ (filter_eq_self.mpr fun u hu => by rw [hnew u hu,ht]; rfl).symm
  all_goals simp only [update_apply]; grind

/-- Whatever is called, the reactor stands for the interests again. -/
lemma Models.call (h : r.Models s) (c : ReactorCall W) : (r.call c).2.Models (s.call c).2 := by
  cases c with
  | register source =>
    obtain ⟨harmed,hnext,hdue,hready,hlt,hnone⟩ := h
    refine ⟨?_,congrArg (·+1) hnext,hdue.trans (filter_congr fun t ht => ?_),?_,?_,?_⟩
    · simp only [Reactor.call,Interests.call,update_apply]; grind
    -- Tokens are never reused, so nothing queued becomes registered again.
    · simp only [Reactor.call,update_of_ne (Nat.ne_of_lt (hlt t ht))]
    all_goals simp only [Reactor.call,update_apply]; grind
  | setWaker t w =>
    rw [Reactor.call,Interests.call,h.armed]
    cases ht : r.sources t with
    | none => exact h
    | some reg =>
      have hdue := h.mem_due ht
      cases hready : reg.ready
      · simpa [hready,hdue] using h.put ht { reg with waker := some w } [] nofun
          (by rw [append_nil]; exact h.ready t reg ht)
      · simpa [hready,hdue] using h
  | markReady t =>
    rw [Reactor.call,Interests.call,h.armed]
    cases ht : r.sources t with
    | none => exact h
    | some reg =>
      have hdue := h.mem_due ht
      have hput := h.put ht { reg with waker := none, ready := true }
      cases hready : reg.ready
      · simpa [hready,hdue] using hput [t] (by simp) (by simp)
      · simpa [hready,hdue] using hput [] nofun (by simpa [hready] using h.ready t reg ht)
  | takeReady =>
    obtain ⟨harmed,hnext,hdue,hready,hlt,hnone⟩ := h
    refine ⟨fun t => ?_,hnext,rfl,fun t reg ht => ?_,nofun,fun t ht => ?_⟩
    · simp only [Interests.call,Reactor.call,foldl_setReady,harmed]
      cases r.sources t <;> simp [apply_ite]
    -- A flag that was set belongs to a queued token, and all of these are reset.
    · simp only [Reactor.call,foldl_setReady] at ht
      obtain ⟨old,hold,rfl⟩ := Option.map_eq_some_iff.mp ht
      have := hready t old hold
      by_cases hq : t ∈ r.readyQueue <;> simp_all [Reactor.call]
    · simp only [Reactor.call,foldl_setReady,hnone t ht,Option.map_none]
  | deregister t =>
    obtain ⟨harmed,hnext,hdue,hready,hlt,hnone⟩ := h
    refine ⟨?_,hnext,?_,?_,hlt,?_⟩
    · simp only [Reactor.call,Interests.call,update_apply]; grind
    · rw [Reactor.call,Interests.call,hdue,filter_filter]
      refine filter_congr fun u _ => ?_
      by_cases hu : u = t <;> simp [hu]
    all_goals simp only [Reactor.call,update_apply]; grind

lemma models_after (calls : List (ReactorCall W)) : (after calls).Models (.after calls) := by
  suffices ∀ (r : Reactor W) s, r.Models s → Models (calls.foldl (fun r c => (r.call c).2) r)
      (calls.foldl (fun s c => (s.call c).2) s) from this _ _ models_new
  induction calls with
  | nil => exact fun _ _ h => h
  | cons c calls ih => exact fun r s h => ih _ _ (h.call c)

/-- After any calls, the next call has the effect it is for, unless it takes a token that is queued
and not registered any more. -/
theorem call_eq_iff (calls : List (ReactorCall W)) (c : ReactorCall W) :
    ((after calls).call c).1 = ((Interests.after calls).call c).1 ↔
      (c = .takeReady → ∀ t ∈ (after calls).readyQueue, ((after calls).sources t).isSome) := by
  have h := models_after calls
  cases c with
  | register source => simp [call,Interests.call]
  | deregister t => simp [call,Interests.call]
  | takeReady =>
    simp only [call,Interests.call,h.due,Prod.mk.injEq,and_true,true_implies]
    exact eq_comm.trans filter_eq_self
  | setWaker t w =>
    refine iff_of_true ?_ nofun
    cases ht : (after calls).sources t with
    | none => simp [call,Interests.call,h.armed,ht]
    | some reg => cases hready : reg.ready <;> simp [call,Interests.call,h.armed,ht,h.mem_due ht,hready]
  | markReady t =>
    refine iff_of_true ?_ nofun
    cases ht : (after calls).sources t <;> simp [call,Interests.call,h.armed,ht]

/-- A token that is deregistered after its signal is returned all the same. -/
theorem call_stale :
    ((after [.register 7,.markReady 0,.deregister 0] : Reactor Unit).call .takeReady).1 = ([0],[]) ∧
    ((.after [.register 7,.markReady 0,.deregister 0] : Interests Unit).call .takeReady).1 = ([],[]) :=
  ⟨rfl,rfl⟩

end Reactor
end Enlil.Platform
