import Enlil.Lib.Runs
import Mathlib.Data.List.Nodup

/-!
# The virtual switch: model of `net/switch.rs`

`add_port` takes the number of registered ports as the new port's identifier. A call reads the clock
once. The traffic counters that nothing reads are left out; a queued frame also carries the port it
came from, which the source does not record.
-/

namespace Enlil.Devices.Net
open List Function Prod

abbrev MacAddress := List UInt8

namespace MacAddress

def isMulticast (mac : MacAddress) : Bool := mac.headD 0 &&& 0x01 != 0

def isBroadcast (mac : MacAddress) : Bool := mac == replicate 6 0xFF

end MacAddress

structure FdbEntry where
  port : ℕ
  lastSeen : ℕ

structure Queued where
  origin : ℕ
  frame : List UInt8
  deriving DecidableEq

structure VirtualSwitch where
  fdb : List (MacAddress × FdbEntry)
  portQueues : ℕ → Option (List Queued)
  ports : List ℕ
  agingTime : ℕ
  maxFdbEntries : ℕ
  received : ℕ

namespace VirtualSwitch

def withAgingTime (agingTime : ℕ) : VirtualSwitch := ⟨[],fun _ => none,[],agingTime,4096,0⟩

variable (s : VirtualSwitch)

def nextId : ℕ := s.ports.length%2^32

def addPort : VirtualSwitch :=
  { s with
    ports := s.ports ++ [s.nextId]
    portQueues := update s.portQueues s.nextId (some []) }

def removePort (port : ℕ) : VirtualSwitch :=
  { s with
    ports := s.ports.filter (· ≠ port)
    portQueues := update s.portQueues port none
    fdb := s.fdb.filter fun e => e.2.port ≠ port }

def ageEntries (now : ℕ) : VirtualSwitch :=
  { s with fdb := s.fdb.filter fun e => now-e.2.lastSeen < s.agingTime }

def contains (mac : MacAddress) : Bool := s.fdb.any fun e => e.1 == mac

def insert (mac : MacAddress) (entry : FdbEntry) : VirtualSwitch :=
  { s with fdb := (mac,entry) :: s.fdb.filter fun e => e.1 ≠ mac }

def learn (now : ℕ) (mac : MacAddress) (port : ℕ) : VirtualSwitch :=
  if mac.isBroadcast || mac.isMulticast then s
  else if s.maxFdbEntries ≤ s.fdb.length && !s.contains mac then
    let aged := s.ageEntries now
    if aged.maxFdbEntries ≤ aged.fdb.length then aged else aged.insert mac ⟨port,now⟩
  else s.insert mac ⟨port,now⟩

def lookup (now : ℕ) (mac : MacAddress) : Option ℕ :=
  ((s.fdb.find? fun e => e.1 == mac).filter fun e => now-e.2.lastSeen < s.agingTime).map
    fun e => e.2.port

def enqueue (port : ℕ) (f : Queued) : VirtualSwitch :=
  match s.portQueues port with
  | none => s
  | some q => { s with portQueues := update s.portQueues port (some (q ++ [f])) }

def flood (src : ℕ) (frame : List UInt8) : VirtualSwitch :=
  (s.ports.filter (· ≠ src)).foldl (fun s port => s.enqueue port ⟨src,frame⟩) s

def processFrame (now src : ℕ) (frame : List UInt8) : VirtualSwitch :=
  if frame.length < 14 then s
  else
    let s := { s with received := (s.received+1)%2^64 }
    let dstMac := frame.take 6
    let srcMac := (frame.drop 6).take 6
    let s := s.learn now srcMac src
    let s := if s.received%1000 = 0 then s.ageEntries now else s
    if MacAddress.isBroadcast dstMac || MacAddress.isMulticast dstMac then s.flood src frame
    else
      match s.lookup now dstMac with
      | some dst => if dst = src then s else s.enqueue dst ⟨src,frame⟩
      | none => s.flood src frame

def dequeue (port : ℕ) : Option Queued × VirtualSwitch :=
  match s.portQueues port with
  | some (f :: q) => (some f,{ s with portQueues := update s.portQueues port (some q) })
  | _ => (none,s)

/-! What forwarding leaves alone. -/

@[simp] lemma ports_enqueue (port : ℕ) (f : Queued) : (s.enqueue port f).ports = s.ports := by
  rw [enqueue]
  split <;> rfl

lemma portQueues_enqueue_of_ne {port q : ℕ} (h : q ≠ port) (f : Queued) :
    (s.enqueue port f).portQueues q = s.portQueues q := by
  rw [enqueue]
  split
  · rfl
  · exact update_of_ne h _ _

section
variable (now : ℕ) (mac : MacAddress) (port : ℕ)

@[simp] lemma ports_learn :
    (s.learn now mac port).ports = s.ports := by
  rw [learn]
  dsimp only
  repeat' split
  all_goals rfl

@[simp] lemma portQueues_learn :
    (s.learn now mac port).portQueues = s.portQueues := by
  rw [learn]
  dsimp only
  repeat' split
  all_goals rfl

end
end VirtualSwitch

/-- Frames from `src` may have been queued, for other ports. -/
structure Forwards (src : ℕ) (s s' : VirtualSwitch) : Prop where
  ports : s'.ports = s.ports
  source : s'.portQueues src = s.portQueues src
  queues : ∀ p q', s'.portQueues p = some q' →
    ∃ q, s.portQueues p = some q ∧ ∀ f ∈ q', f ∈ q ∨ f.origin = src ∧ p ≠ src

namespace Forwards
variable {src : ℕ} {s s' s'' : VirtualSwitch}

lemma of_eq (hports : s'.ports = s.ports) (hqueues : s'.portQueues = s.portQueues) :
    Forwards src s s' :=
  ⟨hports,by rw [hqueues],fun _ q' h => ⟨q',by rw [← hqueues,h],fun _ hf => .inl hf⟩⟩

lemma trans (h : Forwards src s s') (h' : Forwards src s' s'') : Forwards src s s'' where
  ports := h'.ports.trans h.ports
  source := h'.source.trans h.source
  queues p q'' hq'' := by
    obtain ⟨q',hq',hnew'⟩ := h'.queues p q'' hq''
    obtain ⟨q,hq,hnew⟩ := h.queues p q' hq'
    exact ⟨q,hq,fun f hf => (hnew' f hf).elim (hnew f) .inr⟩

lemma enqueue {port : ℕ} (hne : port ≠ src) (frame : List UInt8) :
    Forwards src s (s.enqueue port ⟨src,frame⟩) where
  ports := s.ports_enqueue _ _
  source := s.portQueues_enqueue_of_ne hne.symm _
  queues p q' hq' := by
    by_cases hp : p = port
    · subst hp
      rw [VirtualSwitch.enqueue] at hq'
      split at hq'
      next hnone => rw [hnone] at hq'; cases hq'
      next q hq =>
        have hq'' : q ++ [⟨src,frame⟩] = q' := by
          dsimp only at hq'
          rw [update_self] at hq'
          exact Option.some.inj hq'
        subst hq''
        refine ⟨q,hq,fun f hf => ?_⟩
        rcases mem_append.mp hf with hold | hnew
        · exact .inl hold
        · rw [mem_singleton] at hnew
          exact .inr ⟨by rw [hnew],hne⟩
    · rw [s.portQueues_enqueue_of_ne hp] at hq'
      exact ⟨q',hq',fun _ hf => .inl hf⟩

lemma foldl_enqueue (frame : List UInt8) {targets : List ℕ} (h : ∀ p ∈ targets, p ≠ src) :
    Forwards src s (targets.foldl (fun s port => s.enqueue port ⟨src,frame⟩) s) := by
  induction targets generalizing s with
  | nil => exact of_eq rfl rfl
  | cons p rest ih =>
    have hfirst : Forwards src s (s.enqueue p ⟨src,frame⟩) :=
      enqueue (h p mem_cons_self) frame
    exact hfirst.trans (ih fun q hq => h q (mem_cons_of_mem p hq))

lemma flood (frame : List UInt8) : Forwards src s (s.flood src frame) :=
  foldl_enqueue frame fun p hp => by simpa using (mem_filter.mp hp).2

lemma processFrame (now : ℕ) (frame : List UInt8) :
    Forwards src s (s.processFrame now src frame) := by
  rw [VirtualSwitch.processFrame]
  split
  · exact of_eq rfl rfl
  · -- Learning and aging change only the table.
    simp only
    generalize hl : (VirtualSwitch.learn { s with received := (s.received+1)%2^64 } now
      ((frame.drop 6).take 6) src) = learned
    have hlearned : Forwards src s learned :=
      of_eq (by rw [← hl]; simp) (by rw [← hl]; simp)
    generalize ha : (if learned.received%1000 = 0 then learned.ageEntries now else learned) = aged
    have haged : Forwards src s aged := by
      refine hlearned.trans ?_
      rw [← ha]
      split <;> exact of_eq rfl rfl
    split
    · exact haged.trans (flood frame)
    · split
      · split
        · exact haged
        · exact haged.trans (enqueue ‹_› frame)
      · exact haged.trans (flood frame)

end Forwards

inductive Call where
  | addPort
  | removePort (port : ℕ)
  | processFrame (now src : ℕ) (frame : List UInt8)
  | dequeue (port : ℕ)

/-- The switch with the guests' identifiers: each guest has made one `add_port` call and holds its
identifier until a port with that identifier is removed. -/
structure Session where
  switch : VirtualSwitch
  guests : ℕ
  held : List (ℕ × ℕ)

namespace Session

def new (agingTime : ℕ) : Session := ⟨.withAgingTime agingTime,0,[]⟩

def step (s : Session) : Call → Session
  | .addPort => ⟨s.switch.addPort,s.guests+1,s.held ++ [(s.guests,s.switch.nextId)]⟩
  | .removePort port => ⟨s.switch.removePort port,s.guests,s.held.filter fun h => h.2 ≠ port⟩
  | .processFrame now src frame => { s with switch := s.switch.processFrame now src frame }
  | .dequeue port => { s with switch := (s.switch.dequeue port).2 }

def runAt (agingTime : ℕ) (calls : List Call) (k : ℕ) : Session :=
  (calls.take k).foldl step (new agingTime)

/-- No two ports share an identifier, no two guests hold the same one, and no frame waits at the port
it came from. -/
structure Apart (s : Session) : Prop where
  distinct : s.switch.ports.Nodup
  noAlias : ∀ g g' id, (g,id) ∈ s.held → (g',id) ∈ s.held → g = g'
  noEcho : ∀ p q f, s.switch.portQueues p = some q → f ∈ q → f.origin ≠ p

/-- Adding or removing a port changes no queue but that of the port removed, and a frame does not
reach the port it comes from. -/
def Separate (s : Session) (c : Call) (s' : Session) : Prop :=
  match c with
  | .addPort => ∀ p ∈ s.switch.ports, s'.switch.portQueues p = s.switch.portQueues p
  | .removePort port =>
    ∀ p ∈ s.switch.ports, p ≠ port → s'.switch.portQueues p = s.switch.portQueues p
  | .processFrame _ src _ => s'.switch.portQueues src = s.switch.portQueues src
  | .dequeue _ => True

/-- The number of registered ports is not the identifier of one of them. -/
def Fresh (s : Session) : Call → Prop
  | .addPort => s.switch.ports.length%2^32 ∉ s.switch.ports
  | _ => True

structure Holds (s : Session) : Prop where
  ports : s.held.map Prod.snd = s.switch.ports
  lt : ∀ h ∈ s.held, h.1 < s.guests
  guests : (s.held.map Prod.fst).Nodup
  apart : Apart s

variable {s : Session}

lemma noAlias_of_nodup {held : List (ℕ × ℕ)} (h : (held.map snd).Nodup) (g g' id : ℕ)
    (hg : (g,id) ∈ held) (hg' : (g',id) ∈ held) : g = g' :=
  congrArg fst (inj_on_of_nodup_map h hg hg' rfl)

lemma holds_new (agingTime : ℕ) : Holds (new agingTime) where
  ports := rfl
  lt _ h := by cases h
  guests := nodup_nil
  apart := ⟨nodup_nil,fun _ _ _ h => absurd h not_mem_nil,nofun⟩

lemma holds_addPort (hs : Holds s) (hfresh : Fresh s .addPort) : Holds (step s .addPort) := by
  have hports : (step s .addPort).held.map snd = (step s .addPort).switch.ports := by
    show (s.held ++ [(s.guests,s.switch.nextId)]).map snd = s.switch.ports ++ [s.switch.nextId]
    rw [map_append,hs.ports]
    rfl
  have hnodup : (step s .addPort).switch.ports.Nodup := by
    refine nodup_append.mpr ⟨hs.apart.distinct,nodup_singleton _,?_⟩
    intro p hp q hq heq
    rw [mem_singleton.mp hq] at heq
    exact hfresh (heq ▸ hp : s.switch.nextId ∈ s.switch.ports)
  refine ⟨hports,fun h hh => ?_,?_,hnodup,noAlias_of_nodup (hports ▸ hnodup),?_⟩
  · rcases mem_append.mp hh with hold | hnew
    · exact Nat.lt_succ_of_lt (hs.lt h hold)
    · rw [mem_singleton.mp hnew]
      exact Nat.lt_succ_self _
  · show ((s.held ++ [(s.guests,s.switch.nextId)]).map fst).Nodup
    rw [map_append]
    refine nodup_append.mpr ⟨hs.guests,nodup_singleton _,?_⟩
    intro g hg g' hg' heq
    obtain ⟨h,hh,rfl⟩ := List.mem_map.mp hg
    have hlt := hs.lt h hh
    rw [mem_singleton.mp hg'] at heq
    omega
  · -- The new queue is empty.
    intro p q f hq hf
    change update s.switch.portQueues s.switch.nextId (some []) p = some q at hq
    by_cases hp : p = s.switch.nextId
    · rw [hp,update_self] at hq
      cases hq
      cases hf
    · rw [update_of_ne hp] at hq
      exact hs.apart.noEcho p q f hq hf

lemma holds_removePort (hs : Holds s) (port : ℕ) : Holds (step s (.removePort port)) := by
  have hports : (step s (.removePort port)).held.map snd =
      (step s (.removePort port)).switch.ports := by
    show (s.held.filter fun h => h.2 ≠ port).map snd = s.switch.ports.filter (· ≠ port)
    rw [← hs.ports,List.filter_map]
    rfl
  have hnodup : (step s (.removePort port)).switch.ports.Nodup := hs.apart.distinct.filter _
  have hsub : (step s (.removePort port)).held.Sublist s.held := filter_sublist
  refine ⟨hports,fun h hh => hs.lt h (hsub.subset hh),hs.guests.sublist (hsub.map _),hnodup,
    noAlias_of_nodup (hports ▸ hnodup),fun p q f hq hf => ?_⟩
  change update s.switch.portQueues port none p = some q at hq
  by_cases hp : p = port
  · rw [hp,update_self] at hq
    cases hq
  · rw [update_of_ne hp] at hq
    exact hs.apart.noEcho p q f hq hf

lemma holds_of_queues (hs : Holds s) {switch : VirtualSwitch} (hports : switch.ports = s.switch.ports)
    (hecho : ∀ p q f, switch.portQueues p = some q → f ∈ q → f.origin ≠ p) :
    Holds { s with switch } where
  ports := hs.ports.trans hports.symm
  lt := hs.lt
  guests := hs.guests
  apart := ⟨by show switch.ports.Nodup; rw [hports]; exact hs.apart.distinct,hs.apart.noAlias,
    hecho⟩

lemma holds_processFrame (hs : Holds s) (now src : ℕ) (frame : List UInt8) :
    Holds (step s (.processFrame now src frame)) := by
  have hforwards : Forwards src s.switch (s.switch.processFrame now src frame) :=
    .processFrame now frame
  refine holds_of_queues hs hforwards.ports fun p q' f hq' hf => ?_
  obtain ⟨q,hq,hnew⟩ := hforwards.queues p q' hq'
  rcases hnew f hf with hold | ⟨horigin,hne⟩
  · exact hs.apart.noEcho p q f hq hold
  · rw [horigin]
    exact hne.symm

lemma holds_dequeue (hs : Holds s) (port : ℕ) : Holds (step s (.dequeue port)) := by
  refine holds_of_queues hs ?_ fun p q f hq hf => ?_
  · rw [VirtualSwitch.dequeue]
    split <;> rfl
  · rw [VirtualSwitch.dequeue] at hq
    split at hq
    next g rest hqueue =>
      change update s.switch.portQueues port (some rest) p = some q at hq
      by_cases hp : p = port
      · rw [hp,update_self] at hq
        cases hq
        exact hp ▸ hs.apart.noEcho port _ f hqueue (mem_cons_of_mem g hf)
      · rw [update_of_ne hp] at hq
        exact hs.apart.noEcho p q f hq hf
    next => exact hs.apart.noEcho p q f hq hf

lemma holds_step (hs : Holds s) (c : Call) (hfresh : Fresh s c) : Holds (step s c) := by
  cases c with
  | addPort => exact holds_addPort hs hfresh
  | removePort port => exact holds_removePort hs port
  | processFrame now src frame => exact holds_processFrame hs now src frame
  | dequeue port => exact holds_dequeue hs port

lemma separate_step (c : Call) (hfresh : Fresh s c) : Separate s c (step s c) := by
  cases c with
  | addPort =>
    intro p hp
    have hne : p ≠ s.switch.nextId := fun heq => hfresh (show s.switch.nextId ∈ _ from heq ▸ hp)
    exact update_of_ne hne _ _
  | removePort port =>
    intro p _ hne
    exact update_of_ne hne _ _
  | processFrame now src frame =>
    have hforwards : Forwards src s.switch (s.switch.processFrame now src frame) :=
      .processFrame now frame
    exact hforwards.source
  | dequeue port => trivial

lemma fresh_of_apart (c : Call) (h : Apart (step s c)) : Fresh s c := by
  cases c with
  | addPort =>
    intro hmem
    have hdisjoint := (nodup_append.mp h.distinct).2.2
    exact hdisjoint _ hmem _ (mem_singleton_self _) rfl
  | _ => trivial

/-- The ports are kept apart in a run just when the number of registered ports is not the identifier
of one of them at any `add_port` call. -/
theorem apart_iff (agingTime : ℕ) (calls : List Call) : ((∀ k, Apart (runAt agingTime calls k)) ∧
      ∀ k c, calls[k]? = some c →
        Separate (runAt agingTime calls k) c (runAt agingTime calls (k+1))) ↔
    ∀ k c, calls[k]? = some c → Fresh (runAt agingTime calls k) c := by
  have hiff := Runs.forall_take_iff (P := Apart) (I := Holds) (K := Fresh) (fun _ h => h.apart)
    (fun s c hs hfresh => holds_step hs c hfresh) (fun _ c _ h => fresh_of_apart c h)
    (holds_new agingTime) calls
  refine ⟨fun h => hiff.mp h.1,fun hfresh => ⟨hiff.mpr hfresh,fun k c hc => ?_⟩⟩
  have hnext : runAt agingTime calls (k+1) = step (runAt agingTime calls k) c :=
    Runs.foldl_take_succ hc
  rw [hnext]
  exact separate_step c (hfresh k c hc)

/-- After the first of two ports is removed, the next one gets the identifier of the second, whose
queued frame is lost. -/
theorem not_apart_after_remove : ¬ Apart (runAt 300 [.addPort,.addPort,
      .processFrame 0 0 (replicate 6 0xFF ++ replicate 8 2),.removePort 0,.addPort] 5) ∧
    (runAt 300 [.addPort,.addPort,
      .processFrame 0 0 (replicate 6 0xFF ++ replicate 8 2),.removePort 0,.addPort]
      4).switch.portQueues 1 = some [⟨0,replicate 6 0xFF ++ replicate 8 2⟩] ∧
    (runAt 300 [.addPort,.addPort,
      .processFrame 0 0 (replicate 6 0xFF ++ replicate 8 2),.removePort 0,.addPort]
      5).switch.portQueues 1 = some [] := by
  refine ⟨fun h => ?_,by decide,by decide⟩
  exact absurd h.distinct (by decide)

end Session
end Enlil.Devices.Net
