import Enlil.Config.Validate

/-! # What the validation says about isolation -/

namespace Enlil.Config
open List
variable {Path : Type} {id : Text} {owner : UInt32 → Option Text} {guests : Guests Path}

structure Isolated [DecidableEq Path] (c : EnlilConfig Path) : Prop where
  cpus : ∀ e ∈ c.guest.entries, e.2.cpus ≠ [] ∧ e.2.cpus.Nodup
  cores : ∀ e ∈ c.guest.entries, ∀ e' ∈ c.guest.entries, e.1 ≠ e'.1 →
    e.2.scheduling ≠ .timeslice → e.2.cpus.Disjoint e'.2.cpus
  names : ∀ e ∈ c.guest.entries, ∀ e' ∈ c.guest.entries, e.1 ≠ e'.1 → trim e.2.name ≠ trim e'.2.name
  macs : ∀ e ∈ c.guest.entries, ∀ e' ∈ c.guest.entries, e.1 ≠ e'.1 →
    ∀ mac, macBytes e.2 = some mac → macBytes e'.2 ≠ some mac
  disks : ∀ m ∈ mounts c.guest.entries, m.1.readonly = false →
    (mounts c.guest.entries).countP (·.1.path = m.1.path) < 2

lemma pairwise_guests_iff (hkeys : guests.NodupKeys)
    {R : Sigma (fun _ => GuestConfig Path) → Sigma (fun _ => GuestConfig Path) → Prop}
    (hsymm : ∀ e e', R e e' → R e' e) :
    guests.Pairwise R ↔ ∀ e ∈ guests, ∀ e' ∈ guests, e.1 ≠ e'.1 → R e e' := by
  constructor
  · intro h e he e' he' hne
    have : Std.Symm R := ⟨hsymm⟩
    exact h.forall he he' fun heq => hne (heq ▸ rfl)
  · intro h
    exact (nodupKeys_iff_pairwise.mp hkeys).imp_of_mem fun he he' hne => h _ he _ he' hne

variable {seen l : List UInt32}

lemma duplicateCpus_eq_nil :
    (duplicateCpus id seen l : List (IsolationError Path)) = [] ↔ l.Nodup ∧ ∀ cpu ∈ l, cpu ∉ seen := by
  induction l generalizing seen with
  | nil => simp [duplicateCpus]
  | cons cpu rest ih =>
    simp only [duplicateCpus,append_eq_nil_iff,ih,nodup_cons,mem_cons,not_or,
      ite_eq_right_iff,reduceCtorEq,imp_false]
    grind

lemma claimCpus_owner (cpu : UInt32) :
    (claimCpus id owner l : _ × List (IsolationError Path)).1 cpu =
      if cpu ∈ l then some id else owner cpu := by
  induction l generalizing owner with
  | nil => simp [claimCpus]
  | cons c rest ih =>
    rw [claimCpus,ih]
    by_cases hc : cpu = c <;> simp [hc]

lemma claimCpus_errors :
    (claimCpus id owner l : _ × List (IsolationError Path)).2 = [] ↔
      l.Nodup ∧ ∀ cpu ∈ l, owner cpu = none := by
  induction l generalizing owner with
  | nil => simp [claimCpus]
  | cons c rest ih =>
    simp only [claimCpus,append_eq_nil_iff,ih,nodup_cons,forall_mem_cons,
      ite_eq_right_iff,reduceCtorEq,imp_false,Function.update_apply,Option.not_isSome_iff_eq_none]
    grind

def dedicated (guests : Guests Path) : List UInt32 := guests.flatMap fun e => dedicatedCpus e.2

lemma claimPass_owner {cpu : UInt32} :
    (∀ o, (claimPass owner guests).1 cpu = some o → owner cpu = some o ∨
      ∃ e ∈ guests, e.1 = o ∧ cpu ∈ dedicatedCpus e.2) ∧
    ((claimPass owner guests).1 cpu = none ↔ owner cpu = none ∧ cpu ∉ dedicated guests) := by
  induction guests generalizing owner with
  | nil => simp [claimPass,dedicated]
  | cons e rest ih =>
    obtain ⟨hsome,hnone⟩ := @ih (claimCpus e.1 owner (dedicatedCpus e.2) :
      _ × List (IsolationError Path)).1
    rw [claimCpus_owner] at hsome hnone
    constructor
    · intro o ho
      obtain h | ⟨e',he',h⟩ := hsome o ho
      · split_ifs at h with hmem
        · exact .inr ⟨e,mem_cons_self ..,Option.some.inj h,hmem⟩
        · exact .inl h
      · exact .inr ⟨e',mem_cons_of_mem _ he',h⟩
    · refine hnone.trans ?_
      rw [dedicated,dedicated,flatMap_cons,mem_append]
      split_ifs with hmem <;> simp [hmem]

lemma claimPass_errors : (claimPass owner guests).2 = [] ↔
    (∀ e ∈ guests, e.2.cpus ≠ [] ∧ e.2.cpus.Nodup) ∧ (dedicated guests).Nodup ∧
      ∀ cpu ∈ dedicated guests, owner cpu = none := by
  induction guests generalizing owner with
  | nil => simp [claimPass,dedicated]
  | cons e rest ih =>
    simp only [claimPass,append_eq_nil_iff,ih,duplicateCpus_eq_nil,claimCpus_errors,
      claimCpus_owner,forall_mem_cons,ite_eq_right_iff,reduceCtorEq,imp_false]
    rw [dedicated,dedicated,flatMap_cons,nodup_append']
    simp only [List.Disjoint]
    grind

lemma intrusions_eq_nil {g : GuestConfig Path} : intrusions owner id g = [] ↔
    (g.scheduling = .timeslice → ∀ cpu ∈ g.cpus, ∀ o, owner cpu = some o → o = id) := by
  rw [intrusions]
  split_ifs with h
  · simp [h]
  · simp [not_not.mp h,filterMap_eq_nil_iff,Option.bind_eq_none_iff]

lemma validateCpuIsolation_eq_nil (hkeys : guests.NodupKeys) : validateCpuIsolation guests = [] ↔
    (∀ e ∈ guests, e.2.cpus ≠ [] ∧ e.2.cpus.Nodup) ∧ ∀ e ∈ guests, ∀ e' ∈ guests, e.1 ≠ e'.1 →
      e.2.scheduling ≠ .timeslice → e.2.cpus.Disjoint e'.2.cpus := by
  have hdedicated : ∀ g : GuestConfig Path, g.scheduling ≠ .timeslice → dedicatedCpus g = g.cpus := by
    intro g hg
    rw [dedicatedCpus,if_pos]
    cases hs : g.scheduling <;> simp_all
  have hshared : ∀ g : GuestConfig Path, g.scheduling = .timeslice → dedicatedCpus g = [] := by
    intro g hg
    simp [dedicatedCpus,hg]
  have hsub : ∀ g : GuestConfig Path, (dedicatedCpus g).Sublist g.cpus := by
    intro g
    rw [dedicatedCpus]
    split_ifs <;> simp
  rw [validateCpuIsolation,append_eq_nil_iff,claimPass_errors,flatMap_eq_nil_iff,
    dedicated,nodup_flatMap,pairwise_guests_iff hkeys]
  swap
  · intro e e' h cpu hl hr
    exact h hr hl
  simp only [intrusions_eq_nil,implies_true,and_true,Function.onFun]
  refine ⟨fun ⟨⟨hcpus,_,hpair⟩,hintrude⟩ => ⟨hcpus,fun e he e' he' hne hmode cpu hcpu hcpu' => ?_⟩,
    fun ⟨hcpus,hcores⟩ => ⟨⟨hcpus,?_,fun e he e' he' hne cpu hcpu hcpu' => ?_⟩,
      fun e he hmode cpu hcpu o ho => ?_⟩⟩
  · rw [← hdedicated _ hmode] at hcpu
    by_cases hmode' : e'.2.scheduling = .timeslice
    · -- the owner of the core would be the time-sliced guest
      cases howner : (claimPass (fun _ => none) guests).1 cpu with
      | none =>
        exact (claimPass_owner.2.mp howner).2 (mem_flatMap.mpr ⟨e,he,hcpu⟩)
      | some o =>
        obtain h | ⟨e'',he'',hid,hin⟩ := claimPass_owner.1 o howner
        · cases h
        · rw [hintrude e' he' hmode' cpu hcpu' o howner] at hid
          rw [hkeys.eq_of_fst_eq he'' he' hid,hshared _ hmode'] at hin
          exact not_mem_nil hin
    · rw [← hdedicated _ hmode'] at hcpu'
      exact hpair e he e' he' hne hcpu hcpu'
  · exact fun e he => (hcpus e he).2.sublist (hsub _)
  · by_cases hmode : e.2.scheduling = .timeslice
    · rw [hshared _ hmode] at hcpu
      exact not_mem_nil hcpu
    · exact hcores e he e' he' hne hmode ((hsub _).subset hcpu) ((hsub _).subset hcpu')
  · obtain h | ⟨e',he',rfl,hin⟩ := claimPass_owner.1 o ho
    · cases h
    · by_contra hne
      have hmode' : e'.2.scheduling ≠ .timeslice := fun h => by
        rw [hshared _ h] at hin
        exact not_mem_nil hin
      exact hcores e' he' e he hne hmode' ((hsub _).subset hin) hcpu

lemma sharedKeys_eq_nil {κ : Type} [DecidableEq κ] (o : HashOrder)
    {error : κ → List Text → IsolationError Path} {key : GuestConfig Path → Option κ}
    (hkeys : guests.NodupKeys) : sharedKeys o error key guests = [] ↔
      ∀ e ∈ guests, ∀ e' ∈ guests, e.1 ≠ e'.1 → ∀ k, key e.2 = some k → key e'.2 ≠ some k := by
  have hlength : ∀ (l : List (κ × Text)) ids,
      (l.foldl (fun ids x => ids ++ [x.2]) ids).length = ids.length+l.length := by
    intro l
    induction l with
    | nil => exact fun _ => rfl
    | cons x rest ih =>
      intro ids
      rw [foldl_cons,ih,length_append]
      exact Nat.add_right_comm ..
  rw [sharedKeys,filterMap_eq_nil_iff]
  simp only [ite_eq_right_iff,reduceCtorEq,imp_false,not_le,o.mem_walk]
  refine (forall_tally (P := fun _ (ids : List Text) => ids.length < 2)).trans ?_
  simp only [hlength,length_nil,zero_add]
  have hkey : ∀ e : Sigma fun _ : Text => GuestConfig Path,
      ((key e.2).map fun k => (k,e.1)).map Prod.fst = key e.2 := fun e => by
    cases key e.2 <;> rfl
  simp only [length_filter_le_one,map_filterMap,hkey,List.Nodup,pairwise_filterMap]
  rw [pairwise_guests_iff hkeys fun _ _ h k hk k' hk' => (h k' hk' k hk).symm]
  constructor
  · intro h e he e' he' hne k hk hk'
    exact h e he e' he' hne k hk k hk' rfl
  · rintro h e he e' he' hne k hk _ hk' rfl
    exact h e he e' he' hne k hk hk'

lemma validateDisks_eq_nil [DecidableEq Path] (o : HashOrder) : validateDisks o guests = [] ↔
    ∀ m ∈ mounts guests, m.1.readonly = false →
      (mounts guests).countP (·.1.path = m.1.path) < 2 := by
  have hfold : ∀ (l : List (DiskConfig Path × Text)) entry, (l.foldl addMount entry).1 =
      entry.1+l.length ∧ (l.foldl addMount entry).2.1 = (entry.2.1 || l.any fun m => !m.1.readonly) := by
    intro l
    induction l with
    | nil => simp
    | cons m rest ih =>
      intro entry
      rw [foldl_cons,(ih _).1,(ih _).2]
      simp only [addMount,length_cons,any_cons,Bool.or_assoc,and_true]
      omega
  rw [validateDisks,filterMap_eq_nil_iff]
  simp only [ite_eq_right_iff,reduceCtorEq,imp_false,o.mem_walk]
  refine (forall_tally (P := fun _ (v : ℕ × Bool × List Text) => ¬(2 ≤ v.1 ∧ v.2.1 = true))).trans ?_
  simp only [hfold,zero_add,Bool.false_or,countP_eq_length_filter,List.any_eq_true,
    mem_filter,decide_eq_true_eq,Bool.not_eq_true',not_and,not_exists]
  constructor
  · intro h m hm hwritable
    by_contra hcount
    exact h m hm (Nat.le_of_not_lt hcount) m ⟨hm,rfl⟩ hwritable
  · rintro h m hm hcount m' ⟨hm',hpath⟩ hwritable
    have hlt := h m' hm' hwritable
    rw [hpath] at hlt
    omega

variable [DecidableEq Path]

/-- The guests can be shown to their users: names are not blank and MACs are acceptable. -/
def Presentable (c : EnlilConfig Path) : Prop :=
  ∀ e ∈ c.guest.entries, trim e.2.name ≠ [] ∧ e.2.mac.bind macRejectionReason = none

/-- No error about isolation is reported iff the guests are isolated and presentable, in whatever
order the maps are walked. -/
theorem no_isolation_error_iff (o : HashOrder) (usb gpu firmware : List Text) (c : EnlilConfig Path) :
    (∀ e, .isolation e ∉ validateConfig o usb gpu firmware c) ↔ Isolated c ∧ Presentable c := by
  have hkeys : (o.walk c.guest.entries).NodupKeys :=
    (perm_nodupKeys (o.perm _)).mpr c.guest.nodupKeys
  have hmounts : (mounts (o.walk c.guest.entries)).Perm (mounts c.guest.entries) :=
    (o.perm _).flatMap_right _
  have hsplit : (∀ e, .isolation e ∉ validateConfig o usb gpu firmware c) ↔
      validateCpuIsolation (o.walk c.guest.entries) = [] ∧
      validateGuestNames o (o.walk c.guest.entries) = [] ∧
      validateGuestMacs o (o.walk c.guest.entries) = [] ∧
      validateDisks o (o.walk c.guest.entries) = [] := by
    have hmemory : ∀ e, .isolation e ∉ validateMemory c.hypervisor (o.walk c.guest.entries) := by
      simp [validateMemory]
    have hlog : ∀ e, .isolation e ∉ (validateLogLevel c.hypervisor : List (ConfigError Path)) := by
      simp [validateLogLevel]
    have hserial : ∀ e, .isolation e ∉ validateSerial (o.walk c.guest.entries) := by
      simp [validateSerial]
    simp [validateConfig,eq_nil_iff_forall_not_mem,not_or,hmemory,hlog,hserial,forall_and]
  rw [hsplit,validateCpuIsolation_eq_nil hkeys,validateGuestNames,validateGuestMacs,
    append_eq_nil_iff,append_eq_nil_iff,sharedKeys_eq_nil o hkeys,
    sharedKeys_eq_nil o hkeys,validateDisks_eq_nil]
  simp only [filterMap_eq_nil_iff,o.mem_walk,hmounts.mem_iff,hmounts.countP_eq,
    ite_eq_right_iff,reduceCtorEq,imp_false,Option.map_eq_none_iff]
  have hname : ∀ g : GuestConfig Path, trim g.name ≠ [] → nameKey g = some (trim g.name) :=
    fun g hg => if_neg hg
  constructor
  · rintro ⟨⟨hcpus,hcores⟩,⟨hblank,hnames⟩,⟨hmac,hmacs⟩,hdisks⟩
    refine ⟨⟨hcpus,hcores,fun e he e' he' hne heq => ?_,hmacs,hdisks⟩,
      fun e he => ⟨hblank e he,hmac e he⟩⟩
    exact hnames e he e' he' hne _ (hname _ (hblank e he))
      ((hname _ (hblank e' he')).trans (congrArg some heq.symm))
  · rintro ⟨h,hshown⟩
    refine ⟨⟨h.cpus,h.cores⟩,⟨fun e he => (hshown e he).1,fun e he e' he' hne k hk hk' => ?_⟩,
      ⟨fun e he => (hshown e he).2,h.macs⟩,h.disks⟩
    rw [hname _ (hshown e he).1] at hk
    rw [hname _ (hshown e' he').1] at hk'
    exact h.names e he e' he' hne (Option.some.inj (hk.trans hk'.symm))

/-- A guest alone is isolated, but a blank name is an error. -/
theorem blank_name_reported :
    let c : EnlilConfig Unit := ⟨⟨512,0,['i', 'n', 'f', 'o'],9100⟩,
      (∅ : AList _).insert ['a'] ⟨[' '],[0],64,.auto,[],['p', 't', 'y'],none⟩⟩
    Isolated c ∧ .isolation (.emptyName ['a']) ∈ validateConfig inOrder [] [] [] c := by
  refine ⟨⟨?_,?_,?_,?_,?_⟩,by decide⟩ <;> simp [AList.insert,List.kinsert,mounts]

end Enlil.Config
