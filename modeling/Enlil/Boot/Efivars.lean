import Enlil.Boot.Efivars.Walk

/-! # Seeding a boot entry keeps the variable store -/

namespace Enlil.Boot.Efivars
open List Prod Var
variable {image image' : Buf} {store : Store} {tail : ℕ} {v w : Var} {vars added : List Var}
  {old : Option Var} {items : List Item} {option : List UInt8} {n : ℕ}
section Lists

def liveNamed (vars : List Var) (name : List Char) : List Var :=
  vars.filter fun v => v.liveGlobal && v.name = name

def liveNumbered (vars : List Var) (n : ℕ) : List Var :=
  vars.filter fun v => v.liveGlobal && bootNumber v.name = some n

lemma orderVar_eq (vars : List Var) : orderVar vars = (liveNamed vars bootOrderName).head? := by
  rw [orderVar,liveNamed,head?_filter,find?_filter]
  congr 1
  funext v
  cases v.liveGlobal <;> simp

lemma lowestFree_spec {used : List ℕ} {fuel k : ℕ} (h : lowestFree used fuel k = some n) :
    n ∉ used ∧ n < k+fuel := by
  induction fuel generalizing k with
  | zero => cases h
  | succ fuel ih =>
    rw [lowestFree] at h
    split at h
    · obtain ⟨hfree,hlt⟩ := ih h
      exact ⟨hfree,by omega⟩
    · next hfree =>
      cases h
      exact ⟨fun hmem => hfree (contains_iff_mem.mpr hmem),by omega⟩

lemma mem_bootVars : (n,v) ∈ bootVars vars ↔ v ∈ liveNumbered vars n := by
  simp only [bootVars,liveNumbered,mem_filterMap,mem_filter,Option.map_eq_some_iff,
    Prod.mk.injEq,Bool.and_eq_true,decide_eq_true_eq]
  constructor
  · rintro ⟨w,⟨hw,hlive⟩,k,hk,rfl,rfl⟩
    exact ⟨hw,hlive,hk⟩
  · rintro ⟨hv,hlive,hn⟩
    exact ⟨v,⟨hv,hlive⟩,n,hn,rfl,rfl⟩

lemma liveNumbered_eq (vars : List Var) (n : ℕ) :
    liveNumbered vars n = ((bootVars vars).filter (·.1 = n)).map snd := by
  induction vars with
  | nil => rfl
  | cons v vars ih =>
    unfold liveNumbered bootVars at ih ⊢
    cases hlive : v.liveGlobal <;> cases hnumber : bootNumber v.name with
    | none => simp [hlive,hnumber,ih]
    | some k => by_cases hk : k = n <;> simp [hlive,hnumber,hk,ih]

lemma eq_singleton {α : Type} {l : List α} {x : α} (h : l.length ≤ 1) (hx : x ∈ l) : l = [x] := by
  match l, h with
  | [y], _ => rw [mem_singleton.mp hx]

end Lists

/-- What a store that the firmware wrote satisfies: the free space is erased, and live boot
variables and entries of the boot order are unique. -/
structure Store.WellFormed (image : Buf) (store : Store) (vars : List Var) (tail : ℕ) : Prop where
  one_order : (liveNamed vars bootOrderName).length ≤ 1
  erased : ∀ i, tail ≤ i → i < store.stop → image.byte i = erased
  one_boot : ∀ n, (liveNumbered vars n).length ≤ 1
  upper : ∀ n, ∀ v ∈ liveNumbered vars n, v.name = bootName n
  nodup : (bootOrder image vars).Nodup

section
variable (image : Buf) (vars : List Var)

def superseded (n : ℕ) : Option Var :=
  if (bootOrder image vars).head? = some n then none else orderVar vars

def markDeleted (old : Option Var) (v : Var) : Var :=
  if old = some v then { v with state := v.state &&& varDeleted } else v

def newItems (option : List UInt8) (n : ℕ) : List Item :=
  (if (bootVars vars).any fun e => dataOf image e.2 = option then [] else [(bootName n,option)]) ++
    if (bootOrder image vars).head? = some n then []
    else [(bootOrderName,newOrder n (bootOrder image vars))]

def Chosen (option : List UInt8) (n : ℕ) : Prop :=
  (∃ v ∈ liveNumbered vars n, dataOf image v = option) ∨
    ((bootVars vars).any (fun e => dataOf image e.2 = option) = false ∧ liveNumbered vars n = [] ∧
      n < 2^16)

end
variable {blobs : List (List UInt8)}

lemma bootVariable_eq_ok (h : bootVariable image store vars option = .ok (n,blobs)) :
    Chosen image vars option n ∧
      blobs = (if (bootVars vars).any fun e => dataOf image e.2 = option then []
        else [(bootName n,option)]).map (encodeItem store) := by
  unfold bootVariable at h
  split at h
  · next e hfind =>
    cases h
    have hmem := mem_of_find?_eq_some hfind
    have hdata := find?_some hfind
    rw [if_pos (any_eq_true.mpr ⟨e,hmem,hdata⟩)]
    exact ⟨.inl ⟨e.2,mem_bootVars.mp hmem,of_decide_eq_true hdata⟩,rfl⟩
  · next hfind =>
    have hnone : (bootVars vars).any (fun e => dataOf image e.2 = option) = false := by
      rw [any_eq_false]
      exact find?_eq_none.mp hfind
    split at h
    · cases h
    · next k hfree =>
      cases h
      obtain ⟨hunused,hlt⟩ := lowestFree_spec hfree
      refine ⟨.inr ⟨hnone,?_,by omega⟩,?_⟩
      · refine eq_nil_iff_forall_not_mem.mpr fun v hv => hunused ?_
        exact mem_map.mpr ⟨(n,v),mem_bootVars.mpr hv,rfl⟩
      · rw [hnone]
        rfl

lemma commit_cases (htail : tail ≤ store.stop)
    (hblobs : blobs = (if (bootVars vars).any fun e => dataOf image e.2 = option then []
        else [(bootName n,option)]).map (encodeItem store)) :
    (∃ e, commit image store vars tail n blobs = (.error e,image)) ∨
      tail+itemBytes store (newItems image vars option n) ≤ store.stop ∧
        (∀ i, tail ≤ i → i < tail+itemBytes store (newItems image vars option n) →
          image.byte i = erased) ∧
        commit image store vars tail n blobs =
          (.ok n,putAll (retire image (superseded image vars n)) tail
            ((newItems image vars option n).map (encodeItem store))) := by
  -- What is pending is the encoding of the new items.
  have hpending : (if decide ((bootOrder image vars).head? ≠ some n) = true then
      blobs ++ [encodeVariable store bootOrderName globalVariable
        (newOrder n (bootOrder image vars))] else blobs) =
      (newItems image vars option n).map (encodeItem store) := by
    rw [newItems,map_append,← hblobs]
    by_cases hfirst : (bootOrder image vars).head? = some n
    · rw [if_neg (by simp [hfirst]),if_pos hfirst,map_nil,append_nil]
    · rw [if_pos (by simp [hfirst]),if_neg hfirst]
      rfl
  have hretire : (if decide ((bootOrder image vars).head? ≠ some n) = true then
      retire image (orderVar vars) else image) = retire image (superseded image vars n) := by
    by_cases hfirst : (bootOrder image vars).head? = some n
    · rw [if_neg (by simp [hfirst]),superseded,if_pos hfirst]
      rfl
    · rw [if_pos (by simp [hfirst]),superseded,if_neg hfirst]
  unfold commit
  simp only
  rw [hpending,hretire]
  split
  · next hempty =>
    -- Nothing is new, so the boot order stays.
    have hitems : newItems image vars option n = [] := map_eq_nil_iff.mp hempty
    have hfirst : (bootOrder image vars).head? = some n := by
      by_contra hne
      rw [newItems,if_neg hne] at hitems
      cases (append_eq_nil_iff.mp hitems).2
    rw [hitems,superseded,if_pos hfirst]
    refine .inr ⟨htail,fun i hi hi' => ?_,rfl⟩
    exact absurd hi (Nat.not_le.mpr hi')
  split
  · exact .inl ⟨_,rfl⟩
  split
  · exact .inl ⟨_,rfl⟩
  split
  · exact .inl ⟨_,rfl⟩
  next hroom herased =>
  refine .inr ⟨?_,fun i hi hi' => ?_,rfl⟩
  · have hle := Nat.not_lt.mp hroom
    change itemBytes store (newItems image vars option n) ≤ store.stop-tail at hle
    omega
  · by_contra hne
    refine herased (any_eq_true.mpr ⟨image.byte i,?_,decide_eq_true hne⟩)
    refine mem_map.mpr ⟨i-tail,mem_range.mpr ?_,?_⟩
    · change i-tail < itemBytes store (newItems image vars option n)
      omega
    · rw [Nat.add_sub_cancel' hi]

lemma seedBootEntry_cases (entry : BootEntry) (hstore : locate image = .ok store)
    (hwalk : walk image store store.first = .ok (vars,tail)) :
    (∃ e, seedBootEntry image entry = (.error e,image)) ∨
      ∃ option n, loadOption entry = .ok option ∧
        (∃ blobs, bootVariable image store vars option = .ok (n,blobs)) ∧
        tail+itemBytes store (newItems image vars option n) ≤ store.stop ∧
        (∀ i, tail ≤ i → i < tail+itemBytes store (newItems image vars option n) →
          image.byte i = erased) ∧
        seedBootEntry image entry = (.ok n,putAll (retire image (superseded image vars n)) tail
            ((newItems image vars option n).map (encodeItem store))) := by
  have htail : tail ≤ store.stop := (walk_eq_ok.mp hwalk).tail_le (locate_ok hstore).2.1
  rcases hoption : loadOption entry with e | option
  · exact .inl ⟨e,by simp only [seedBootEntry,hstore,hwalk,hoption]⟩
  rcases hboot : bootVariable image store vars option with e | ⟨n,blobs⟩
  · exact .inl ⟨e,by simp only [seedBootEntry,hstore,hwalk,hoption,hboot]⟩
  have hseed : seedBootEntry image entry = commit image store vars tail n blobs := by
    simp only [seedBootEntry,hstore,hwalk,hoption,hboot]
  rw [hseed]
  rcases commit_cases htail (bootVariable_eq_ok hboot).2 with hfail | hdone
  · exact .inl hfail
  · exact .inr ⟨option,n,rfl,⟨blobs,hboot⟩,hdone⟩

section Image

lemma byte_retire_of_ne {i : ℕ} (h : ∀ w, old = some w → i ≠ w.pos+2) :
    (retire image old).byte i = image.byte i := by
  cases old with
  | none => rfl
  | some w =>
    have hne := h w rfl
    refine Buf.byte_put_of_not_mem ?_
    rw [length_singleton]
    omega

lemma byte_retire (image : Buf) (w : Var) :
    (retire image (some w)).byte (w.pos+2) = image.byte (w.pos+2) &&& varDeleted :=
  Buf.byte_put_of_mem (i := 0) Nat.one_pos

lemma len_retire : (retire image old).len = image.len := by
  cases old with
  | none => rfl
  | some w => rfl

lemma superseded_mem (h : superseded image vars n = some w) :
    w ∈ liveNamed vars bootOrderName := by
  unfold superseded at h
  split at h
  · cases h
  · rw [orderVar_eq] at h
    exact mem_of_head? h

def committed (image : Buf) (store : Store) (old : Option Var) (tail : ℕ)
    (items : List Item) : Buf :=
  putAll (retire image old) tail (items.map (encodeItem store))

lemma len_committed : (committed image store old tail items).len = image.len := by
  rw [committed,len_putAll,len_retire]

lemma byte_committed {i : ℕ} (hfree : i < tail ∨ tail+itemBytes store items ≤ i)
    (hold : ∀ w, old = some w → i ≠ w.pos+2) :
    (committed image store old tail items).byte i = image.byte i := by
  have hretire : (retire image old).byte i = image.byte i := byte_retire_of_ne hold
  rw [← hretire]
  exact byte_putAll _ hfree

variable (store) in
lemma byte_committed_state (h : w.pos+2 < tail) :
    (committed image store (some w) tail items).byte (w.pos+2) =
      image.byte (w.pos+2) &&& varDeleted := by
  rw [committed,byte_putAll _ (.inl h),byte_retire]

variable (hwalks : Walks image store store.first vars tail) (hold : ∀ w, old = some w → w ∈ vars)
include hwalks in
lemma Walks.state_lt (hv : v ∈ vars) : v.pos+2 < tail := by
  have hfound := hwalks.found hv
  have hheader := hfound.header
  have hdata := hfound.data_le
  have hge := store.headerBytes_ge
  omega

include hwalks hold

lemma restate_committed (hv : v ∈ vars) :
    restate (committed image store old tail items) v = markDeleted old v := by
  have hstate := (hwalks.found hv).state_eq
  have hlt := hwalks.state_lt hv
  unfold restate markDeleted
  split
  · next heq =>
    subst heq
    rw [byte_committed_state store hlt,← hstate]
  · next hne =>
    rw [byte_committed (.inl hlt),← hstate]
    intro w hw hpos
    have heq : v = w := hwalks.eq_of_pos hv (hold w hw) (Nat.add_right_cancel hpos)
    exact hne (heq ▸ hw)

lemma dataOf_committed (hv : v ∈ vars) :
    dataOf (committed image store old tail items) v = dataOf image v := by
  refine Buf.slice_congr fun i hi hi' => byte_committed (.inl ?_) fun w hw hpos => ?_
  · have := (hwalks.found hv).data_le
    omega
  · have := hwalks.state_outside (hold w hw) hv
    omega

lemma walks_committed (hfirst : store.first%4 = 0) (hlen : store.stop ≤ image.len)
    (hfits : tail+itemBytes store items ≤ store.stop) (hsmall : itemBytes store items < 2^32)
    (hnames : ∀ it ∈ items, Plain it.1)
    (hend : ∀ i, tail ≤ i → i < store.stop → image.byte i = erased) :
    ∃ added tail', Walks (committed image store old tail items) store store.first
        (vars.map (markDeleted old) ++ added) tail' ∧
      added.map (fun v => (v.name,dataOf (committed image store old tail items) v)) = items ∧
      ∀ v ∈ added, v.state = varAdded ∧ v.guid = globalVariable := by
  have hfree : store.stop < tail+itemBytes store items+store.headerBytes ∨
      (retire image old).slice (tail+itemBytes store items) 2 ≠ varStartId := by
    rcases Nat.lt_or_ge store.stop (tail+itemBytes store items+store.headerBytes) with h | h
    · exact .inl h
    · refine .inr fun hid => ?_
      have hge := store.headerBytes_ge
      have hbyte : (retire image old).byte (tail+itemBytes store items) = erased := by
        rw [byte_retire_of_ne,hend _ (by omega) (by omega)]
        intro w hw
        have := hwalks.state_lt (hold w hw)
        omega
      cases hbyte.symm.trans (cons.inj hid).1
  have hlen' : store.stop ≤ (retire image old).len := by rwa [len_retire]
  obtain ⟨added,hadded,hviews,hlive⟩ :=
    walks_putAll (hwalks.tail_mod hfirst) hlen' hfits hsmall hnames hfree
  refine ⟨added,tail+itemBytes store items,?_,hviews,hlive⟩
  have hstates : vars.map (restate (committed image store old tail items)) =
      vars.map (markDeleted old) :=
    map_congr_left fun v hv => restate_committed hwalks hold hv
  rw [← hstates]
  refine hwalks.congr len_committed (fun i _ hi hne => ?_) hadded
  exact byte_committed (.inl hi) fun w hw => hne w (hold w hw)

lemma locate_committed (hstore : locate image = .ok store) (halign : fvHeaderLen image%4 = 0)
    (herased : ∀ i, tail ≤ i → i < tail+itemBytes store items → image.byte i = erased) :
    locate (committed image store old tail items) = .ok store := by
  obtain ⟨hfirst,-,-,-,hsignature⟩ := locate_ok hstore
  have hmod : store.first%4 = 0 := by
    rw [hfirst]
    unfold storeHeaderBytes
    omega
  have htail := hwalks.le
  have hbytes : image.byte 40 = 0x5F ∧ image.byte 41 = 0x46 ∧ image.byte 42 = 0x56 ∧
      image.byte 43 = 0x48 := by
    simpa [Buf.slice,range_succ,fvSignature] using hsignature
  have hheader : fvHeaderLen image = (image.byte 48).toNat+256*(image.byte 49).toNat := by
    simp [fvHeaderLen,Buf.slice,range_succ,Le.toNat]
  have hff : (erased : UInt8).toNat = 255 := rfl
  refine locate_congr hstore len_committed fun i hi => byte_committed ?_ fun w hw hpos => ?_
  · -- The fields are not erased, so nothing was written over them.
    by_contra hin
    have hbyte := herased i (by omega) (by omega)
    rcases hi with hlt | ⟨hlo,hhi⟩ | rfl | rfl
    · omega
    · obtain ⟨h0,h1,h2,h3⟩ := hbytes
      obtain rfl | rfl | rfl | rfl : i = 40 ∨ i = 41 ∨ i = 42 ∨ i = 43 := by omega
      · cases h0.symm.trans hbyte
      · cases h1.symm.trans hbyte
      · cases h2.symm.trans hbyte
      · cases h3.symm.trans hbyte
    · rw [hbyte,hff] at hheader
      omega
    · rw [hbyte,hff] at hheader
      omega
  · -- Variables are aligned, and none starts at the signature.
    have hfound := hwalks.found (hold w hw)
    have hmodw := hfound.aligned hmod
    have hle := hfound.le_pos
    have hat : w.pos = 40 := by omega
    have hid := hfound.start_eq
    rw [hat] at hid
    cases hbytes.1.symm.trans (cons.inj hid).1

end Image
section Live

lemma liveGlobal_deleted (h : v.liveGlobal = true) :
    liveGlobal { v with state := v.state &&& varDeleted } = false := by
  have hdead : ¬ (v.state &&& varDeleted = varAdded ∨
      v.state &&& varDeleted = varAddedInTransition) := by
    rcases of_decide_eq_true (of_decide_eq_true h).1 with hstate | hstate
    · rw [hstate]
      decide
    · rw [hstate]
      decide
  exact decide_eq_false fun hboth => hdead (of_decide_eq_true hboth.1)

lemma markDeleted_none (v : Var) : markDeleted none v = v := if_neg (by simp)

/-- Of the live boot orders only the first is retired. -/
lemma liveNamed_markDeleted (hnodup : vars.Nodup) :
    liveNamed (vars.map (markDeleted (orderVar vars))) bootOrderName =
      (liveNamed vars bootOrderName).tail := by
  rw [orderVar_eq]
  induction vars with
  | nil => rfl
  | cons v vars ih =>
    obtain ⟨hv,hnodup⟩ := nodup_cons.mp hnodup
    by_cases hlive : (v.liveGlobal && v.name = bootOrderName) = true
    · have hrest : vars.map (markDeleted (some v)) = vars := by
        refine (map_congr_left fun u hu => if_neg fun heq => ?_).trans (map_id' vars)
        cases heq
        exact hv hu
      have hhead : liveNamed (v :: vars) bootOrderName = v :: liveNamed vars bootOrderName :=
        filter_cons_of_pos hlive
      have hdead := liveGlobal_deleted (Bool.and_eq_true_iff.mp hlive).1
      rw [hhead,head?_cons,map_cons,hrest,tail_cons,markDeleted,if_pos rfl]
      exact filter_cons_of_neg (by simp [hdead])
    · have hskip : ∀ l, liveNamed (v :: l) bootOrderName = liveNamed l bootOrderName :=
        fun l => filter_cons_of_neg hlive
      have hsame : markDeleted (liveNamed vars bootOrderName).head? v = v :=
        if_neg fun heq => hv (mem_filter.mp (mem_of_head? heq)).1
      rw [hskip,map_cons,hsame,hskip,ih hnodup]

lemma filter_added {q : List Char → Bool}
    (hviews : added.map (fun v => (v.name,dataOf image' v)) = items)
    (hlive : ∀ v ∈ added, v.state = varAdded ∧ v.guid = globalVariable) :
    (added.filter fun v => v.liveGlobal && q v.name).map (fun v => (v.name,dataOf image' v)) =
      items.filter fun it => q it.1 := by
  rw [← hviews,filter_map]
  congr 1
  refine filter_congr fun v hv => ?_
  obtain ⟨hstate,hguid⟩ := hlive v hv
  simp [liveGlobal,live,hstate,hguid]

end Live

/-- What a seeding may change: bytes of the free space, and the state of the boot order that it
supersedes. -/
def Framed (image image' : Buf) (store : Store) (vars : List Var) (tail n : ℕ) : Prop :=
  image'.len = image.len ∧ ∀ i, image'.byte i = image.byte i ∨ (tail ≤ i ∧ i < store.stop) ∨
    ∃ w ∈ vars, superseded image vars n = some w ∧ i = w.pos+2 ∧
      image'.byte i = image.byte i &&& varDeleted

def after (image : Buf) (vars : List Var) (n : ℕ) (added : List Var) : List Var :=
  vars.map (markDeleted (superseded image vars n)) ++ added

/-- What a guest's firmware finds after a boot entry was seeded. -/
structure Seeded (image image' : Buf) (store : Store) (vars added : List Var)
    (option : List UInt8) (n : ℕ) : Prop where
  located : locate image' = .ok store
  walked : ∃ tail', walk image' store store.first = .ok (after image vars n added,tail')
  kept : ∀ v ∈ vars, dataOf image' v = dataOf image v
  added_eq : added.map (fun v => (v.name,dataOf image' v)) = newItems image vars option n
  added_live : ∀ v ∈ added, v.state = varAdded ∧ v.guid = globalVariable
  boot : ∃ v, liveNumbered (after image vars n added) n = [v] ∧ v.name = bootName n ∧
    dataOf image' v = option
  order : ∃ v, liveNamed (after image vars n added) bootOrderName = [v] ∧
    units (dataOf image' v) = n :: (bootOrder image vars).filter (· ≠ n)

section Seed
variable (hkept : ∀ v ∈ vars, dataOf image' v = dataOf image v)
  (hviews : added.map (fun v => (v.name,dataOf image' v)) = newItems image vars option n)
  (hlive : ∀ v ∈ added, v.state = varAdded ∧ v.guid = globalVariable)

lemma Chosen.lt (h : Chosen image vars option n) : n < 2^16 := by
  rcases h with ⟨v,hv,-⟩ | ⟨-,-,hlt⟩
  · have hlive := (mem_filter.mp hv).2
    exact bootNumber_lt (of_decide_eq_true (Bool.and_eq_true_iff.mp hlive).2)
  · exact hlt

lemma Chosen.any (h : ∃ v ∈ liveNumbered vars n, dataOf image v = option) :
    (bootVars vars).any (fun e => dataOf image e.2 = option) = true := by
  obtain ⟨v,hv,hdata⟩ := h
  exact any_eq_true.mpr ⟨(n,v),mem_bootVars.mpr hv,decide_eq_true hdata⟩

lemma bootVars_after : bootVars (after image vars n added) = bootVars vars ++ bootVars added := by
  rw [bootVars,after,filter_append,filterMap_append]
  refine congrArg (· ++ bootVars added) ?_
  rw [bootVars,filterMap_filter,filterMap_filter,filterMap_map]
  refine filterMap_congr fun v _ => ?_
  rw [Function.comp_apply,markDeleted]
  split
  · next hv =>
    have hmem := (mem_filter.mp (superseded_mem hv)).2
    rw [of_decide_eq_true (Bool.and_eq_true_iff.mp hmem).2]
    simp [show bootNumber bootOrderName = none by decide]
  · rfl

lemma liveNumbered_after : liveNumbered (after image vars n added) n =
    liveNumbered vars n ++ liveNumbered added n := by
  simp only [liveNumbered_eq,bootVars_after,filter_append,map_append]

include hkept hviews hlive

lemma seeded_boot (hwf : Store.WellFormed image store vars tail)
    (hchosen : Chosen image vars option n) :
    ∃ v, liveNumbered (after image vars n added) n = [v] ∧ v.name = bootName n ∧
      dataOf image' v = option := by
  have hnew := filter_added (q := fun name => bootNumber name = some n) hviews hlive
  have hnumber := bootNumber_bootName hchosen.lt
  have horder : (if (bootOrder image vars).head? = some n then []
      else [(bootOrderName,newOrder n (bootOrder image vars))]).filter
        (fun it : Item => bootNumber it.1 = some n) = [] := by
    split
    · rfl
    · rfl
  rw [newItems,filter_append,horder,append_nil] at hnew
  rw [liveNumbered_after]
  rcases hchosen with hfound | ⟨hnone,hfree,-⟩
  · rw [if_pos (Chosen.any hfound),filter_nil,map_eq_nil_iff] at hnew
    obtain ⟨v,hv,hdata⟩ := hfound
    refine ⟨v,?_,hwf.upper n v hv,?_⟩
    · rw [eq_singleton (hwf.one_boot n) hv]
      exact congrArg ([v] ++ ·) hnew
    · rw [hkept v (mem_filter.mp hv).1,hdata]
  · rw [hnone,if_neg (by decide),filter_cons_of_pos (by simp [hnumber]),filter_nil,
      map_eq_singleton_iff] at hnew
    obtain ⟨v,hv,hview⟩ := hnew
    rw [hfree,nil_append]
    exact ⟨v,hv,congrArg fst hview,congrArg snd hview⟩

omit hkept in
/-- Either the first live boot order starts with the entry and stays, or it is retired and the new
one stands behind the others. -/
lemma liveOrders_after (hnodup : vars.Nodup) (hchosen : Chosen image vars option n) :
    if (bootOrder image vars).head? = some n then
      liveNamed (after image vars n added) bootOrderName = liveNamed vars bootOrderName
    else
      ∃ v, liveNamed (after image vars n added) bootOrderName =
          (liveNamed vars bootOrderName).tail ++ [v] ∧
        units (dataOf image' v) = n :: (bootOrder image vars).filter (· ≠ n) := by
  have hnew := filter_added (q := fun name => name = bootOrderName) hviews hlive
  have hboot : (if (bootVars vars).any fun e => dataOf image e.2 = option then []
      else [(bootName n,option)]).filter (fun it : Item => it.1 = bootOrderName) = [] := by
    split
    · rfl
    · exact filter_cons_of_neg (by simp [bootName_ne_bootOrderName])
  rw [newItems,filter_append,hboot,nil_append] at hnew
  have hretired := liveNamed_markDeleted hnodup
  unfold liveNamed after superseded at *
  rw [filter_append]
  split
  next hfirst =>
    rw [if_pos hfirst,filter_nil,map_eq_nil_iff] at hnew
    rw [funext markDeleted_none,List.map_id',hnew,append_nil]
  next hfirst =>
    rw [if_neg hfirst,filter_cons_of_pos (by simp),filter_nil,map_eq_singleton_iff] at hnew
    obtain ⟨v,hv,hview⟩ := hnew
    refine ⟨v,by rw [hretired,hv],?_⟩
    rw [show dataOf image' v = newOrder n (bootOrder image vars) from congrArg Prod.snd hview,
      newOrder,units_flatMap]
    refine forall_mem_cons.mpr ⟨hchosen.lt,fun k hk => ?_⟩
    have hmem := (mem_filter.mp hk).1
    unfold bootOrder at hmem
    cases hvar : orderVar vars with
    | none =>
      rw [hvar] at hmem
      cases hmem
    | some w =>
      rw [hvar] at hmem
      exact units_lt _ k hmem

lemma seeded_order (hnodup : vars.Nodup) (hwf : Store.WellFormed image store vars tail)
    (hchosen : Chosen image vars option n) :
    ∃ v, liveNamed (after image vars n added) bootOrderName = [v] ∧
      units (dataOf image' v) = n :: (bootOrder image vars).filter (· ≠ n) := by
  have horders := liveOrders_after hviews hlive hnodup hchosen
  have hone := hwf.one_order
  split at horders
  next hfirst =>
    cases hvar : orderVar vars with
    | none =>
      rw [bootOrder,hvar] at hfirst
      cases hfirst
    | some v =>
      have hmem : v ∈ liveNamed vars bootOrderName := by
        rw [orderVar_eq] at hvar
        exact mem_of_head? hvar
      have hunits : units (dataOf image v) = bootOrder image vars := by
        rw [bootOrder,hvar]
        rfl
      refine ⟨v,horders.trans (eq_singleton hone hmem),?_⟩
      rw [hkept v (mem_filter.mp hmem).1,hunits]
      obtain ⟨rest,hrest⟩ := head?_eq_some_iff.mp hfirst
      have hnodup := hwf.nodup
      rw [hrest,nodup_cons] at hnodup
      rw [hrest,filter_cons_of_neg (by simp),List.filter_eq_self.mpr]
      exact fun k hk => decide_eq_true fun heq => hnodup.1 (heq ▸ hk)
  next hfirst =>
    obtain ⟨v,hv,hunits⟩ := horders
    have hnone : (liveNamed vars bootOrderName).tail = [] :=
      eq_nil_of_length_eq_zero (by rw [length_tail]; omega)
    exact ⟨v,by rw [hv,hnone,nil_append],hunits⟩

end Seed

lemma plain_newItems (image : Buf) (vars : List Var) (option : List UInt8) (n : ℕ) :
    ∀ it ∈ newItems image vars option n, Plain it.1 := by
  intro it hit
  rcases mem_append.mp hit with hit | hit
  · split at hit
    · cases hit
    · rw [mem_singleton.mp hit]
      exact plain_bootName n
  · split at hit
    · cases hit
    · rw [mem_singleton.mp hit]
      exact plain_bootOrderName

section Erased
variable (hstore : locate image = .ok store)
  (hwalk : walk image store store.first = .ok (vars,tail)) (halign : fvHeaderLen image%4 = 0)
  (herased : ∀ i, tail ≤ i → i < store.stop → image.byte i = erased)
include hstore hwalk halign herased

lemma walk_committed (hfits : tail+itemBytes store (newItems image vars option n) ≤ store.stop)
    (himage : committed image store (superseded image vars n) tail
      (newItems image vars option n) = image') :
    locate image' = .ok store ∧ (∀ v ∈ vars, dataOf image' v = dataOf image v) ∧
      ∃ added tail', walk image' store store.first = .ok (after image vars n added,tail') ∧
        added.map (fun v => (v.name,dataOf image' v)) = newItems image vars option n ∧
        ∀ v ∈ added, v.state = varAdded ∧ v.guid = globalVariable := by
  subst himage
  have hwalks := walk_eq_ok.mp hwalk
  obtain ⟨hfirst,-,hlen,hsize,-⟩ := locate_ok hstore
  have hle := hwalks.le
  have hmod : store.first%4 = 0 := by
    rw [hfirst,storeHeaderBytes]
    omega
  have hold : ∀ w, superseded image vars n = some w → w ∈ vars :=
    fun w hw => (mem_filter.mp (superseded_mem hw)).1
  obtain ⟨added,tail',hafter,hadded⟩ := walks_committed hwalks hold hmod hlen hfits
    (by omega) (plain_newItems image vars option n) herased
  exact ⟨locate_committed hwalks hold hstore halign fun i hi hi' => herased i hi (by omega),
    fun v hv => dataOf_committed hwalks hold hv,added,tail',walk_eq_ok.mpr hafter,hadded⟩

end Erased

/-- An error leaves the image alone. Otherwise only free space and the state of the superseded boot
order change, and in a well-formed store the walk finds the old variables and the new ones, the
entry first in the boot order. -/
theorem seedBootEntry_seeds (entry : BootEntry) (hstore : locate image = .ok store)
    (hwalk : walk image store store.first = .ok (vars,tail))
    (halign : fvHeaderLen image%4 = 0) :
    (∀ e, (seedBootEntry image entry).1 = .error e → (seedBootEntry image entry).2 = image) ∧
      ∀ n, (seedBootEntry image entry).1 = .ok n → ∃ option, loadOption entry = .ok option ∧
        Framed image (seedBootEntry image entry).2 store vars tail n ∧
        (Store.WellFormed image store vars tail →
          ∃ added, Seeded image (seedBootEntry image entry).2 store vars added option n) := by
  have hwalks := walk_eq_ok.mp hwalk
  rcases seedBootEntry_cases entry hstore hwalk with
    ⟨e,hfail⟩ | ⟨option,n,hoption,⟨blobs,hboot⟩,hfits,herased,hdone⟩
  · rw [hfail]
    exact ⟨fun _ _ => rfl,fun _ h => (by cases h)⟩
  rw [← committed] at hdone
  rw [hdone]
  refine ⟨fun _ h => (by cases h),fun k hk => ?_⟩
  cases hk
  have hold : ∀ w, superseded image vars n = some w → w ∈ vars :=
    fun w hw => (mem_filter.mp (superseded_mem hw)).1
  refine ⟨option,hoption,⟨len_committed,fun i => ?_⟩,fun hwf => ?_⟩
  · by_cases hfree : tail ≤ i ∧ i < store.stop
    · exact .inr (.inl hfree)
    by_cases hstate : ∃ w, superseded image vars n = some w ∧ i = w.pos+2
    · obtain ⟨w,hw,rfl⟩ := hstate
      refine .inr (.inr ⟨w,hold w hw,hw,rfl,?_⟩)
      rw [hw,byte_committed_state store (hwalks.state_lt (hold w hw))]
    · exact .inl (byte_committed (by omega) fun w hw hpos => hstate ⟨w,hw,hpos⟩)
  · obtain ⟨hlocate,hkept,added,tail',hafter,hviews,hlive⟩ :=
      walk_committed hstore hwalk halign hwf.erased hfits rfl
    have hchosen := (bootVariable_eq_ok hboot).1
    exact ⟨added,hlocate,⟨tail',hafter⟩,hkept,hviews,hlive,
      seeded_boot hkept hviews hlive hwf hchosen,
      seeded_order hkept hviews hlive hwalks.nodup hwf hchosen⟩

/-- A volume of 480 bytes with a store in the plain layout from 80 on; `body` stands in it. -/
def volume (body : List UInt8) : Buf :=
  let bytes := replicate 40 0 ++ fvSignature ++ replicate 4 0 ++ [52,0,0,0] ++
    plainStoreGuid ++ Le.bytes 4 428 ++ [0x5A,0xFE] ++ replicate 6 0 ++ body
  ⟨480,fun i => bytes.getD i erased⟩

def volumeStore : Store := ⟨80,480,false⟩

def rootLoader : BootEntry := ⟨[],⟨1,replicate 16 0,0,0⟩,[]⟩

def usedVolume : Buf :=
  volume (encodeItem volumeStore (bootName 5,[1]) ++
    encodeItem volumeStore (bootOrderName,newOrder 5 []))

def usedVars : List Var :=
  [newVar volumeStore 80 (bootName 5) globalVariable [1],
    newVar volumeStore 132 bootOrderName globalVariable (newOrder 5 [])]

lemma liveNumbered_usedVars (n : ℕ) : liveNumbered usedVars n =
    if 5 = n then [newVar volumeStore 80 (bootName 5) globalVariable [1]] else [] := by
  have hboot : bootNumber (bootName 5) = some 5 := by decide
  have horder : bootNumber bootOrderName = none := by decide
  simp [liveNumbered,usedVars,newVar,liveGlobal,live,filter_cons,hboot,horder]

lemma usedVolume_wellFormed : Store.WellFormed usedVolume volumeStore usedVars 188 where
  one_order := by decide +kernel
  erased := by
    have hfree : ∀ k < 292, usedVolume.byte (188+k) = erased := by decide +kernel
    intro i hlo hhi
    have hk := hfree (i-188) (by change i < 480 at hhi; omega)
    rwa [Nat.add_sub_cancel' hlo] at hk
  one_boot := by
    intro n
    rw [liveNumbered_usedVars]
    split <;> decide
  upper := by
    intro n v hv
    rw [liveNumbered_usedVars] at hv
    split at hv
    · next heq =>
      rw [mem_singleton.mp hv,← heq]
      rfl
    · cases hv
  nodup := by decide +kernel

lemma locate_usedVolume : locate usedVolume = .ok volumeStore := by decide +kernel

lemma walk_usedVolume : walk usedVolume volumeStore volumeStore.first = .ok (usedVars,188) := by
  decide +kernel

lemma seeds_usedVolume : (seedBootEntry usedVolume rootLoader).1 = .ok 0 := by decide +kernel

theorem seedBootEntry_usedVolume : ∃ option added, loadOption rootLoader = .ok option ∧
    Seeded usedVolume (seedBootEntry usedVolume rootLoader).2 volumeStore usedVars added option
      0 := by
  obtain ⟨option,hoption,-,hseeded⟩ := (seedBootEntry_seeds rootLoader locate_usedVolume
    walk_usedVolume (by decide +kernel)).2 0 seeds_usedVolume
  obtain ⟨added,hadded⟩ := hseeded usedVolume_wellFormed
  exact ⟨option,added,hoption,hadded⟩

def listed (items : List Item) : Buf := volume (items.flatMap (encodeItem volumeStore))

def rootOption : List UInt8 := (loadOption rootLoader).toOption.getD []

/-- In these stores one boot order is live and starts with the entry, so that nothing is written: its
number stays in the boot order twice, its name keeps the digit in lower case, and another variable
keeps its number. -/
theorem seedBootEntry_keeps :
    let twice := listed [(bootName 0,rootOption),(bootOrderName,[0,0,5,0,0,0])]
    let lower := listed [(bootPrefix ++ ['0','0','0','a'],rootOption),(bootOrderName,[10,0])]
    let shared := listed [(bootName 3,[1]),(bootName 3,rootOption),(bootOrderName,[3,0])]
    (∀ image ∈ [twice,lower,shared], locate image = .ok volumeStore ∧ fvHeaderLen image%4 = 0 ∧
      (walk image volumeStore 80).map (fun r => (liveNamed r.1 bootOrderName).length) = .ok 1) ∧
    ((seedBootEntry twice rootLoader).1 = .ok 0 ∧
      (walk (seedBootEntry twice rootLoader).2 volumeStore 80).map
        (fun r => bootOrder (seedBootEntry twice rootLoader).2 r.1) = .ok [0,5,0]) ∧
    ((seedBootEntry lower rootLoader).1 = .ok 10 ∧
      (walk (seedBootEntry lower rootLoader).2 volumeStore 80).map
        (fun r => r.1.any (·.name = bootName 10)) = .ok false) ∧
    (seedBootEntry shared rootLoader).1 = .ok 3 ∧
      (walk (seedBootEntry shared rootLoader).2 volumeStore 80).map
        (fun r => (liveNumbered r.1 3).length) = .ok 2 := by
  decide +kernel

end Enlil.Boot.Efivars
