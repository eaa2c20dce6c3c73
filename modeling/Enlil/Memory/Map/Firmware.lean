import Mathlib.Algebra.Order.BigOperators.Group.Finset
import Enlil.Lib.Cover
import Enlil.Memory.Map.Plan

/-! # Memory maps: carving from arbitrary region lists -/

namespace Enlil.Memory
open MemoryMap List Bool Word Cover MemoryRegion Nat

def MemoryRegion.offers (a : ℕ) (r : MemoryRegion) : Bool :=
  r.kind.isAllocatable && r.contains a

def MemoryMap.cover (m : MemoryMap) (a : ℕ) : ℕ := m.regions.countP (MemoryRegion.offers a)

/-- The usable regions leave room to align inside the address space. -/
def MemoryMap.Room (align : ℕ) (m : MemoryMap) : Prop :=
  ∀ r ∈ m.regions, r.kind = .usable → r.base+align ≤ 2^64 ∧ r.endAddr+align ≤ 2^64

def inSpan (a : ℕ) (s : ℕ × ℕ) : Bool := decide (s.1 ≤ a ∧ a < s.1+s.2)

variable {m m' : MemoryMap} {r : MemoryRegion} {a b start size align limit c : ℕ}

lemma inSpan_eq_true {s : ℕ × ℕ} : inSpan a s = true ↔ InSpan a s := decide_eq_true_iff

lemma contains_eq_true : r.contains a = true ↔ r.base ≤ a ∧ a < r.endAddr := by
  simp only [MemoryRegion.contains,and_eq_true,decide_eq_true_iff]

lemma offers_eq_true :
    r.offers a = true ↔ r.kind = .usable ∧ r.base ≤ a ∧ a < r.endAddr := by
  rw [offers,and_eq_true,isAllocatable_iff,contains_eq_true]

lemma endAddr_lt (r : MemoryRegion) : r.endAddr < 2^64 := add64_lt _ _

variable {kind : MemoryKind}

lemma endAddr_mk {base stop : ℕ} (h : base ≤ stop) (hstop : stop < 2^64) :
    (⟨base,stop-base,kind⟩ : MemoryRegion).endAddr = stop := by
  show Word.add64 base (stop-base) = stop
  rw [add64_of_lt (by omega)]
  omega

/-! ### One carve -/

lemma mem_splitPieces {p : MemoryRegion} (hstop : start+size < 2^64)
    (hp : p ∈ splitPieces r start size) :
    (p = ⟨r.base,start-r.base,r.kind⟩ ∧ r.base < start) ∨ p = ⟨start,size,.reserved⟩ ∨
      (p = ⟨start+size,r.endAddr-(start+size),r.kind⟩ ∧ start+size < r.endAddr) := by
  simp only [splitPieces,add64_of_lt hstop,mem_append,mem_singleton] at hp
  rcases hp with (hp | hp) | hp
  · split_ifs at hp with h
    · exact Or.inl ⟨mem_singleton.mp hp,h⟩
    · cases hp
  · exact Or.inr (Or.inl hp)
  · split_ifs at hp with h
    · exact Or.inr (Or.inr ⟨mem_singleton.mp hp,h⟩)
    · cases hp

lemma countP_piece {lo hi : ℕ} (husable : kind = .usable) (hle : lo ≤ hi)
    (hhi : hi < 2^64) :
    (if lo < hi then [⟨lo,hi-lo,kind⟩] else []).countP (offers a) =
      if lo ≤ a ∧ a < hi then 1 else 0 := by
  by_cases h : lo < hi
  · rw [if_pos h,countP_singleton]
    refine if_congr (offers_eq_true.trans ?_) rfl rfl
    rw [endAddr_mk hle hhi]
    exact and_iff_right husable
  · rw [if_neg h,if_neg (by omega)]
    rfl

lemma countP_splitPieces (husable : r.kind = .usable) (hbase : r.base ≤ start)
    (hend : start+size ≤ r.endAddr) (a : ℕ) :
    (splitPieces r start size).countP (offers a) + (if inSpan a (start,size) then 1 else 0) =
      if r.offers a then 1 else 0 := by
  have hlt := endAddr_lt r
  have hr : r.offers a = true ↔ r.base ≤ a ∧ a < r.endAddr :=
    offers_eq_true.trans (and_iff_right husable)
  have hspan : inSpan a (start,size) = true ↔ start ≤ a ∧ a < start+size := inSpan_eq_true
  have hmid : [(⟨start,size,.reserved⟩ : MemoryRegion)].countP (offers a) = 0 := rfl
  simp only [splitPieces,add64_of_lt (by omega : start+size < 2^64)]
  rw [countP_append,countP_append,countP_piece husable hbase (by omega),hmid,
    countP_piece husable hend hlt,if_congr hr rfl rfl,if_congr hspan rfl rfl]
  split_ifs <;> omega

lemma carveBelow_found (h : m.carveBelow size align limit = some (m',some b)) :
    isPowerOfTwo align = true ∧ 0 < size ∧ b+size ≤ limit ∧
      ∃ pre r post, carveScan size align limit 0 m.regions = some (pre.length,b) ∧
        m.regions = pre ++ r :: post ∧ r.kind = .usable ∧
        b = Word.alignUp64 r.base align ∧ b+size ≤ r.endAddr ∧
        m'.regions = pre ++ splitPieces r b size ++ post := by
  rw [carveBelow] at h
  split_ifs at h with hpow hsize
  · cases h
  split at h
  next => cases h
  next idx start hscan =>
    cases h
    obtain ⟨pre,r,post,hrs,hidx,husable,hstart,hend,hlimit⟩ := carveScan_found hscan
    rw [zero_add] at hidx
    subst hidx
    refine ⟨hpow,Nat.pos_of_ne_zero hsize,hlimit,pre,r,post,hscan,hrs,husable,hstart,hend,?_⟩
    rw [splitReserve,hrs]
    simp

lemma le_alignUp (hpow : isPowerOfTwo align = true) (h : r.base+(align-1) < 2^64) :
    r.base ≤ Word.alignUp64 r.base align := by
  obtain ⟨k,rfl⟩ := isPowerOfTwo_iff.mp hpow
  have hk : k ≤ 64 := (Nat.pow_le_pow_iff_right (by decide : 1 < 2)).mp (by omega)
  exact le_alignUp64 hk h

def MemoryMap.NoWrap (m : MemoryMap) (align : ℕ) : Prop :=
  ∀ r ∈ m.regions, r.kind = .usable → r.base+(align-1) < 2^64

/-- The region that a carve takes has an aligned address from its base on. -/
def MemoryMap.NoWrapAt (m : MemoryMap) (size align limit : ℕ) : Prop :=
  ∀ i start r, carveScan size align limit 0 m.regions = some (i,start) → m.regions[i]? = some r →
    r.base+(align-1) < 2^64

lemma MemoryMap.NoWrap.noWrapAt (h : m.NoWrap align) (size limit : ℕ) :
    m.NoWrapAt size align limit := by
  intro i start r hscan hr
  obtain ⟨pre,x,post,hrs,hidx,husable,-⟩ := carveScan_found hscan
  obtain rfl : x = r := by simpa [hrs,hidx] using hr
  exact h x (mem_of_getElem? hr) husable

section
variable (h : m.carveBelow size align limit = some (m',some b))
include h

lemma carveBelow_taken (hwrap : m.NoWrapAt size align limit) :
    ∃ pre r post, m.regions = pre ++ r :: post ∧ r.kind = .usable ∧ r.base ≤ b ∧
      b+size ≤ r.endAddr ∧ m'.regions = pre ++ splitPieces r b size ++ post := by
  obtain ⟨hpow,-,-,pre,r,post,hscan,hrs,husable,hb,hend,hrs'⟩ := carveBelow_found h
  refine ⟨pre,r,post,hrs,husable,?_,hend,hrs'⟩
  rw [hb]
  exact le_alignUp hpow (hwrap _ _ r hscan (by rw [hrs]; simp))

lemma carveBelow_cover (hwrap : m.NoWrapAt size align limit) (a : ℕ) :
    m.cover a = m'.cover a+if inSpan a (b,size) then 1 else 0 := by
  obtain ⟨pre,r,post,hrs,husable,hbase,hend,hrs'⟩ := carveBelow_taken h hwrap
  have hsplit := countP_splitPieces husable hbase hend a
  rw [MemoryMap.cover,MemoryMap.cover,hrs,hrs',countP_append,countP_append,
    countP_append,countP_cons]
  omega

lemma carveBelow_room (hroom : m.Room c) : m'.Room c := by
  obtain ⟨-,hsize,-,pre,r,post,-,hrs,husable,-,hend,hrs'⟩ := carveBelow_found h
  have hlt := endAddr_lt r
  obtain ⟨hrb,hre⟩ := hroom r (by rw [hrs]; simp) husable
  intro p hp hpu
  rw [hrs',mem_append,mem_append] at hp
  rcases hp with (hp | hp) | hp
  · exact hroom p (by rw [hrs]; simp [hp]) hpu
  · obtain ⟨rfl,hlt⟩ | rfl | ⟨rfl,hlt⟩ := mem_splitPieces (by omega) hp
    · rw [endAddr_mk hlt.le (by omega)]
      exact ⟨hrb,by omega⟩
    · cases hpu
    · rw [endAddr_mk hlt.le (by omega)]
      exact ⟨(by omega : b+size+c ≤ 2^64),hre⟩
  · exact hroom p (by rw [hrs]; simp [hp]) hpu

end

lemma Room.noWrap (hroom : m.Room align) (hpow : isPowerOfTwo align = true) :
    m.NoWrap align := by
  intro r hr husable
  obtain ⟨k,rfl⟩ := isPowerOfTwo_iff.mp hpow
  have hpos : 0 < 2^k := Nat.two_pow_pos k
  have := (hroom r hr husable).1
  omega

/-! ### Runs of carves -/

/-- A run of `carve_below` (`carve` is the case of the largest limit), with the spans it
handed out, in which no aligned start wraps. -/
inductive CarveRun : MemoryMap → List (ℕ × ℕ) → MemoryMap → Prop
  | nil (m : MemoryMap) : CarveRun m [] m
  | cons {m m₁ m₂ : MemoryMap} {size align limit : ℕ} {res : Option ℕ} {spans : List (ℕ × ℕ)}
      (hwrap : m.NoWrap align) (hcarve : m.carveBelow size align limit = some (m₁,res))
      (hrest : CarveRun m₁ spans m₂) :
      CarveRun m (res.toList.map (fun b => (b,size)) ++ spans) m₂

lemma carveBelow_none (h : m.carveBelow size align limit = some (m',none)) : m' = m := by
  rw [carveBelow] at h
  split_ifs at h
  · cases h
    rfl
  · cases hscan : carveScan size align limit 0 m.regions with
    | none =>
      rw [hscan] at h
      cases h
      rfl
    | some found =>
      rw [hscan] at h
      cases h

lemma CarveRun.cover {spans : List (ℕ × ℕ)} (h : CarveRun m spans m') (a : ℕ) :
    m.cover a = m'.cover a+spans.countP (inSpan a) := by
  induction h with
  | nil m => rfl
  | @cons m m₁ m₂ size align limit res spans hwrap hcarve _ ih =>
    cases res with
    | none =>
      rw [← carveBelow_none hcarve,ih]
      rfl
    | some b =>
      rw [carveBelow_cover hcarve (hwrap.noWrapAt _ _) a,ih]
      show _ = m₂.cover a+((b,size) :: spans).countP (inSpan a)
      rw [countP_cons]
      omega

lemma pairwise_spanDisjoint_iff (spans : List (ℕ × ℕ)) :
    spans.Pairwise SpanDisjoint ↔ ∀ a, spans.countP (inSpan a) ≤ 1 := by
  rw [← pairwise_disjoint_iff inSpan]
  simp only [inSpan_eq_true]
  exact Iff.rfl

variable {rs guests : List MemoryRegion}

lemma carveScan_one_none {i : ℕ} (hbase : ∀ r ∈ rs, r.kind = .usable → r.base < 2^64)
    (h : carveScan 1 1 (2^64-1) i rs = none) : ∀ r ∈ rs, r.offers a = false := by
  induction rs generalizing i with
  | nil => exact fun r hr => (nomatch hr)
  | cons r rs ih =>
    have hrest := ih (i := i+1) fun x hx => hbase x (mem_cons_of_mem r hx)
    simp only [carveScan] at h
    by_cases husable : r.kind.isAllocatable = true
    · have hstart : Word.alignUp64 r.base 1 = r.base := by
        have hlt := hbase r mem_cons_self (isAllocatable_iff.mp husable)
        rw [show 1 = 2^0 from rfl,alignUp64_eq (by decide) hlt]
        omega
      have hlt := endAddr_lt r
      rw [if_pos husable,hstart] at h
      have hempty : r.endAddr ≤ r.base := by
        by_contra hne
        rw [checkedAdd64_of_lt (by omega)] at h
        simp only at h
        rw [if_pos (by omega)] at h
        cases h
      have hnone : carveScan 1 1 (2^64-1) (i+1) rs = none := by
        split at h
        · exact h
        · split_ifs at h
          exact h
      intro x hx
      obtain rfl | hx := mem_cons.mp hx
      · rw [eq_false_iff,ne_eq,offers_eq_true]
        omega
      · exact hrest hnone x hx
    · rw [if_neg husable] at h
      intro x hx
      obtain rfl | hx := mem_cons.mp hx
      · simp [offers,husable]
      · exact hrest h x hx

lemma CarveRun.exhaust (hroom : m.Room 1) :
    ∃ spans m', CarveRun m spans m' ∧ ∀ a, m'.cover a = 0 := by
  generalize hn : ∑ a ∈ Finset.range (2^64), m.cover a = n
  induction n using Nat.strong_induction_on generalizing m with
  | _ n ih =>
    have hwrap : m.NoWrap 1 := Room.noWrap hroom (by decide)
    cases hscan : carveScan 1 1 (2^64-1) 0 m.regions with
    | none =>
      refine ⟨[],m,CarveRun.nil m,fun a => countP_eq_zero.mpr fun r hr => ?_⟩
      rw [carveScan_one_none (fun r hr hu => by have := (hroom r hr hu).1; omega) hscan r hr]
      exact Bool.false_ne_true
    | some found =>
      obtain ⟨idx,b⟩ := found
      have hcarve : m.carveBelow 1 1 (2^64-1) = some (m.splitReserve idx b 1,some b) := by
        rw [carveBelow,if_pos (by decide),if_neg (by decide),hscan]
      have hcover := carveBelow_cover hcarve (hwrap.noWrapAt _ _)
      obtain ⟨-,-,hlimit,-⟩ := carveBelow_found hcarve
      have hless : ∑ a ∈ Finset.range (2^64), (m.splitReserve idx b 1).cover a < n := by
        rw [← hn]
        refine Finset.sum_lt_sum (fun a _ => by rw [hcover a]; exact le_add_right _ _)
          ⟨b,Finset.mem_range.mpr (by omega),?_⟩
        have hin : inSpan b (b,1) = true := inSpan_eq_true.mpr ⟨le_rfl,lt_succ_self b⟩
        rw [hcover b,if_pos hin]
        exact lt_succ_self _
      obtain ⟨spans,m',hrun,hzero⟩ := ih _ hless (carveBelow_room hcarve hroom) rfl
      exact ⟨_,m',CarveRun.cons hwrap hcarve hrun,hzero⟩

/-! ### Firmware tables -/

inductive FirmwareTable where
  | e820 (entries : List E820Entry)
  | uefi (descriptors : List UefiMemoryDescriptor)

/-- What an entry says: its span, without wrapping, and the region the code makes of it. -/
structure FirmwareEntry where
  span : ℕ × ℕ
  region : MemoryRegion

namespace FirmwareTable

def entries : FirmwareTable → List FirmwareEntry
  | .e820 es => es.map fun e => ⟨(e.base.toNat,e.length.toNat),e.region⟩
  | .uefi ds => ds.map fun d => ⟨(d.physStart.toNat,d.pageCount.toNat*4096),d.region⟩

def toMap : FirmwareTable → MemoryMap
  | .e820 es => fromE820 es
  | .uefi ds => fromUefi ds

/-- The spans share no byte, and none has a byte that some entry classifies as not usable. -/
def Safe (t : FirmwareTable) (spans : List (ℕ × ℕ)) : Prop :=
  spans.Pairwise SpanDisjoint ∧
    ∀ s ∈ spans, ∀ a, InSpan a s → ∀ e ∈ t.entries, InSpan a e.span → e.region.kind = .usable

end FirmwareTable

/-- The entry offers a byte that the other one offers too or classifies as not usable. -/
def FirmwareEntry.Clashes (e e' : FirmwareEntry) : Prop :=
  ∃ a, e.region.offers a = true ∧
    (e'.region.offers a = true ∨ (e'.region.kind ≠ .usable ∧ InSpan a e'.span))

lemma cover_fromRegions (rs : List MemoryRegion) (a : ℕ) :
    (fromRegions rs).cover a = rs.countP (offers a) :=
  (perm_insertionSort _ rs).countP_eq _

lemma offers_of_size_zero (h : r.size = 0) : r.offers a = false := by
  rw [eq_false_iff,ne_eq,offers_eq_true,endAddr,h,Word.add64,add_zero]
  have := mod_le r.base (2^64)
  omega

lemma countP_filter_map {α : Type} {keep : α → Bool} {region : α → MemoryRegion} {l : List α}
    (hkeep : ∀ x, keep x = false → (region x).size = 0) (a : ℕ) :
    ((l.filter keep).map region).countP (offers a) =
      l.countP fun x => (region x).offers a := by
  rw [countP_map,countP_filter]
  refine countP_congr fun x _ => ?_
  rw [and_eq_true,Function.comp_apply]
  refine ⟨And.left,fun h => ⟨h,?_⟩⟩
  by_contra hx
  rw [offers_of_size_zero (hkeep x (eq_false_iff.mpr hx))] at h
  cases h

lemma FirmwareTable.cover_toMap (t : FirmwareTable) (a : ℕ) :
    t.toMap.cover a = t.entries.countP fun e => e.region.offers a := by
  cases t with
  | e820 es =>
    rw [toMap,fromE820,cover_fromRegions,countP_filter_map,entries,countP_map]
    · rfl
    · intro e he
      have hlen : e.length = 0 := by simpa using he
      show e.length.toNat = 0
      rw [hlen]
      rfl
  | uefi ds =>
    rw [toMap,fromUefi,cover_fromRegions,countP_filter_map,entries,countP_map]
    · rfl
    · intro d hd
      have hcount : d.pageCount = 0 := by simpa using hd
      show d.lengthBytes = 0
      rw [UefiMemoryDescriptor.lengthBytes,hcount]
      rfl

lemma FirmwareTable.room_toMap (t : FirmwareTable) : t.toMap.Room 1 := by
  have hrs : ∀ rs : List MemoryRegion, (∀ r ∈ rs, r.base < 2^64) → (fromRegions rs).Room 1 := by
    intro rs h r hr _
    have hb := h r ((perm_insertionSort _ rs).mem_iff.mp hr)
    have he := endAddr_lt r
    omega
  cases t with
  | e820 es =>
    refine hrs _ fun r hr => ?_
    obtain ⟨e,-,rfl⟩ := List.mem_map.mp hr
    exact e.base.toNat_lt
  | uefi ds =>
    refine hrs _ fun r hr => ?_
    obtain ⟨d,-,rfl⟩ := List.mem_map.mp hr
    exact d.physStart.toNat_lt

/-- The carves on a firmware table hand out no byte twice and none that an entry classifies as
not usable, exactly if no usable entry clashes with another entry. -/
theorem FirmwareTable.carves_safe_iff (t : FirmwareTable) :
    (∀ spans m, CarveRun t.toMap spans m → t.Safe spans) ↔
      t.entries.Pairwise fun e e' => ¬ e.Clashes e' ∧ ¬ e'.Clashes e := by
  constructor
  · intro hsafe
    obtain ⟨spans,m,hrun,hzero⟩ := CarveRun.exhaust t.room_toMap
    obtain ⟨hdisj,husable⟩ := hsafe spans m hrun
    have hcount : ∀ a, (t.entries.countP fun e => e.region.offers a) = spans.countP (inSpan a) := by
      intro a
      rw [← t.cover_toMap,hrun.cover a,hzero,zero_add]
    have honce := (pairwise_disjoint_iff (fun a (e : FirmwareEntry) => e.region.offers a)
      t.entries).mpr fun a => by
        rw [hcount]
        exact (pairwise_spanDisjoint_iff spans).mp hdisj a
    have hno : ∀ e ∈ t.entries, ∀ e' ∈ t.entries, ∀ a, e.region.offers a = true →
        ¬ (e'.region.kind ≠ .usable ∧ InSpan a e'.span) := by
      rintro e he e' he' a hoff ⟨hkind,hin⟩
      have hpos : 0 < spans.countP (inSpan a) := by
        rw [← hcount]
        exact countP_pos_iff.mpr ⟨e,he,hoff⟩
      obtain ⟨s,hs,hsa⟩ := countP_pos_iff.mp hpos
      exact hkind (husable s hs a (inSpan_eq_true.mp hsa) e' he' hin)
    refine honce.imp_of_mem fun {e e'} he he' hapart => ⟨?_,?_⟩
    · rintro ⟨a,hoff,hoff' | hbad⟩
      · exact hapart a ⟨hoff,hoff'⟩
      · exact hno e he e' he' a hoff hbad
    · rintro ⟨a,hoff,hoff' | hbad⟩
      · exact hapart a ⟨hoff',hoff⟩
      · exact hno e' he' e he a hoff hbad
  · intro hclean spans m hrun
    have honce : ∀ a, (t.entries.countP fun e => e.region.offers a) ≤ 1 := by
      refine (pairwise_disjoint_iff (fun a (e : FirmwareEntry) => e.region.offers a)
        t.entries).mp (hclean.imp fun {e e'} h a hboth => ?_)
      exact h.1 ⟨a,hboth.1,Or.inl hboth.2⟩
    have hle : ∀ a, spans.countP (inSpan a) ≤ t.entries.countP fun e => e.region.offers a := by
      intro a
      rw [← t.cover_toMap,hrun.cover a]
      exact le_add_left _ _
    refine ⟨(pairwise_spanDisjoint_iff spans).mpr fun a => (hle a).trans (honce a),?_⟩
    intro s hs a hin e' he' hin'
    by_contra hkind
    have hpos : 0 < spans.countP (inSpan a) :=
      countP_pos_iff.mpr ⟨s,hs,inSpan_eq_true.mpr hin⟩
    obtain ⟨e,he,hoff⟩ := countP_pos_iff.mp (hpos.trans_le (hle a))
    have hne : e ≠ e' := by
      rintro rfl
      exact hkind (offers_eq_true.mp hoff).1
    have : Std.Symm fun x y : FirmwareEntry => ¬ x.Clashes y ∧ ¬ y.Clashes x :=
      ⟨fun _ _ h => h.symm⟩
    exact (hclean.forall he he' hne).1 ⟨a,hoff,Or.inr ⟨hkind,hin'⟩⟩

/-- Two pages of RAM, the first of which another entry reserves. -/
def overlappingTable : FirmwareTable :=
  .e820 [⟨0,8192,1⟩,⟨0,4096,2⟩]

/-- The page that one entry calls usable and another one reserved is handed out. -/
theorem overlappingTable_unsafe : (∀ e ∈ overlappingTable.entries, e.span.1+e.span.2 ≤ 2^64) ∧
      ∃ m, CarveRun overlappingTable.toMap [(0,4096)] m ∧
        ¬ overlappingTable.Safe [(0,4096)] := by
  have hcarve : overlappingTable.toMap.carveBelow 4096 4096 (2^64-1) =
      some (overlappingTable.toMap.splitReserve 0 0 4096,some 0) := by decide
  have hwrap : overlappingTable.toMap.NoWrap 4096 := by
    unfold MemoryMap.NoWrap
    decide
  refine ⟨by decide,_,CarveRun.cons hwrap hcarve (CarveRun.nil _),?_⟩
  rintro ⟨-,husable⟩
  have hkind := husable (0,4096) mem_cons_self 0 ⟨by decide,by decide⟩
    ⟨(0,4096),0,4096,.reserved⟩ (mem_cons_of_mem _ mem_cons_self)
    ⟨by decide,by decide⟩
  cases hkind

/-! ### Plans
-/

/-- No carve takes a region whose base wraps when it is aligned. -/
def MemoryMap.NoneWraps (align : ℕ) : List (ℕ × ℕ) → MemoryMap → Prop
  | [], _ => True
  | (size,limit) :: rest, m => m.NoWrapAt size align limit ∧
    ∀ m' b, m.carveBelow size align limit = some (m',b) → NoneWraps align rest m'

/-- The sizes that a plan carves, with the limits for their ends. -/
def MemoryPlanRequest.carves (req : MemoryPlanRequest) : List (ℕ × ℕ) :=
  (req.dmaSize,2^32) ::
    (req.preclaimedHeap.elim [req.heapSize] (fun _ => []) ++ req.guestRamSizes).map (·,2^64-1)

lemma carveGuests_cover {sizes : List ℕ} (hwrap : m.NoneWraps align (sizes.map (·,2^64-1)))
    (h : carveGuests align sizes m = some (m',some guests)) (a : ℕ) :
    m.cover a = m'.cover a+(guests.map MemoryRegion.span).countP (inSpan a) := by
  induction sizes generalizing m guests with
  | nil =>
    cases h
    rfl
  | cons size sizes ih =>
    rw [carveGuests] at h
    cases hcarve : m.carve size align with
    | none =>
      rw [hcarve] at h
      cases h
    | some res =>
      obtain ⟨m₁,_ | b⟩ := res
      · rw [hcarve] at h
        cases h
      · rw [hcarve] at h
        simp only at h
        cases hrest : carveGuests align sizes m₁ with
        | none =>
          rw [hrest] at h
          cases h
        | some res =>
          obtain ⟨m₂,gs⟩ := res
          rw [hrest,Option.some.injEq,Prod.mk.injEq] at h
          obtain ⟨rfl,hgs⟩ := h
          obtain ⟨gs,rfl,rfl⟩ := Option.map_eq_some_iff.mp hgs
          rw [carveBelow_cover hcarve hwrap.1,ih (hwrap.2 _ _ hcarve) hrest,map_cons,countP_cons]
          exact (Nat.add_assoc ..).trans rfl

lemma planHypervisorRegions_cover {req : MemoryPlanRequest} {h : HypervisorRegions}
    (hwrap : m.NoneWraps req.align req.carves)
    (hplan : m.planHypervisorRegions req = some (m',some h)) :
    (∀ a, m.cover a = m'.cover a+(carvedSpans req h).countP (inSpan a)) ∧
      h.dma.base+h.dma.size ≤ 2^32 ∧ ∃ m₁,
        m.carveBelow h.dma.size req.align (2^32) = some (m₁,some h.dma.base) ∧
        h.dma.size = req.dmaSize ∧ ∀ span, req.preclaimedHeap = some span →
          h.heap.span = span ∧ m₁.spanIsReserved span.1 span.2 = true := by
  rw [planHypervisorRegions] at hplan
  split at hplan
  · cases hplan
  · cases hplan
  rename_i m₁ dmaBase hdma
  split at hplan
  · cases hplan
  · cases hplan
  rename_i m₂ heap hheap
  split at hplan
  · cases hplan
  · cases hplan
  rename_i m₃ guests hguests
  cases hplan
  have hrest := hwrap.2 _ _ hdma
  suffices h : (∀ a, m₁.cover a = m'.cover a +
      (carvedHeap req heap ++ guests.map MemoryRegion.span).countP (inSpan a)) ∧
      ∀ span, req.preclaimedHeap = some span →
        heap.span = span ∧ m₁.spanIsReserved span.1 span.2 = true by
    refine ⟨fun a => ?_,(carveBelow_found hdma).2.2.1,m₁,hdma,rfl,h.2⟩
    rw [carveBelow_cover hdma hwrap.1,h.1,carvedSpans,countP_cons]
    exact (Nat.add_assoc ..).trans rfl
  rw [planHeap] at hheap
  cases hpre : req.preclaimedHeap with
  | some span =>
    rw [hpre] at hheap hrest
    simp only at hheap
    split_ifs at hheap with hbad
    · cases hheap
    · cases hheap
      rw [carvedHeap,hpre]
      refine ⟨carveGuests_cover hrest hguests,?_⟩
      rintro _ ⟨⟩
      exact ⟨rfl,by simpa using (not_or.mp hbad).2⟩
  | none =>
    rw [hpre] at hheap hrest
    obtain ⟨⟨m₂',base⟩,hcarve,hres⟩ := Option.map_eq_some_iff.mp hheap
    rw [Prod.mk.injEq] at hres
    obtain ⟨rfl,hbase⟩ := hres
    obtain ⟨b,rfl,rfl⟩ := Option.map_eq_some_iff.mp hbase
    rw [carvedHeap,hpre]
    refine ⟨fun a => ?_,fun _ hsome => by cases hsome⟩
    rw [carveBelow_cover hcarve hrest.1,carveGuests_cover (hrest.2 _ _ hcarve) hguests,
      singleton_append,countP_cons]
    exact Nat.add_assoc ..

lemma spanScan_covers {stop cursor : ℕ} (h : spanScan stop cursor rs = true) (hlo : cursor ≤ a)
    (hhi : a < stop) : ∃ r ∈ rs, r.kind = .reserved ∧ r.contains a = true := by
  fun_induction spanScan stop cursor rs with
  | case1 => cases h
  | case2 cursor r rs hkind ih =>
    obtain ⟨x,hx,hxa⟩ := ih h hlo
    exact ⟨x,mem_cons_of_mem r hx,hxa⟩
  | case3 cursor r rs hkind hbelow ih =>
    obtain ⟨x,hx,hxa⟩ := ih h hlo
    exact ⟨x,mem_cons_of_mem r hx,hxa⟩
  | case4 => cases h
  | case5 cursor r rs hkind hbelow hgap hend =>
    exact ⟨r,mem_cons_self,not_not.mp hkind,contains_eq_true.mpr (by omega)⟩
  | case6 cursor r rs hkind hbelow hgap hend ih =>
    by_cases hin : a < r.endAddr
    · exact ⟨r,mem_cons_self,not_not.mp hkind,contains_eq_true.mpr (by omega)⟩
    · obtain ⟨x,hx,hxa⟩ := ih h (by omega)
      exact ⟨x,mem_cons_of_mem r hx,hxa⟩

lemma spanIsReserved_covers {s : ℕ × ℕ} (h : m.spanIsReserved s.1 s.2 = true) (ha : InSpan a s) :
    ∃ r ∈ m.regions, r.kind = .reserved ∧ r.contains a = true := by
  rw [spanIsReserved,checkedAdd64] at h
  split at h
  next => cases h
  next stop hstop =>
    split_ifs at hstop h
    cases hstop
    exact spanScan_covers h ha.1 ha.2

section
variable (hcons : m.isConsistent = true) (hends : ∀ r ∈ m.regions.dropLast, r.base+r.size < 2^64)
include hcons hends

lemma isConsistent_pairwise :
    m.regions.Pairwise fun r r' => r.endAddr ≤ r'.base := by
  obtain ⟨rs⟩ := m
  change isConsistent.go rs = true at hcons
  induction rs with
  | nil => exact List.Pairwise.nil
  | cons r rs ih =>
    cases rs with
    | nil => exact pairwise_singleton _ _
    | cons r' rs =>
      rw [isConsistent.go,and_eq_true,decide_eq_true_iff] at hcons
      have hrest := ih (fun x hx => hends x (mem_cons_of_mem r hx)) hcons.2
      refine pairwise_cons.mpr ⟨?_,hrest⟩
      intro x hx
      obtain rfl | hx := mem_cons.mp hx
      · exact hcons.1
      · -- the region between them is not the last one, so its end does not wrap
        have hr' : r'.base ≤ r'.endAddr := by
          rw [endAddr,add64_of_lt (hends r' ?_)]
          · exact le_add_right _ _
          · simp [dropLast_cons_of_ne_nil (ne_nil_of_mem hx)]
        exact (hcons.1.trans hr').trans ((pairwise_cons.mp hrest).1 x hx)

lemma kindAt_of_contains (hr : r ∈ m.regions) (ha : r.contains a = true) :
    m.kindAt a = some r.kind := by
  have : Std.Symm fun r r' : MemoryRegion => r.endAddr ≤ r'.base ∨ r'.endAddr ≤ r.base :=
    ⟨fun _ _ h => h.symm⟩
  have hpair : m.regions.Pairwise fun r r' => r.endAddr ≤ r'.base ∨ r'.endAddr ≤ r.base :=
    (isConsistent_pairwise hcons hends).imp Or.inl
  cases hfind : m.regions.find? (·.contains a) with
  | none => exact absurd ha (by simpa using find?_eq_none.mp hfind r hr)
  | some x =>
    have hx := find?_some hfind
    obtain rfl : x = r := by
      by_contra hne
      have hapart := hpair.forall (mem_of_find?_eq_some hfind) hr hne
      rw [contains_eq_true] at ha hx
      omega
    rw [kindAt,kindIn,hfind]
    rfl

lemma cover_le_one (a : ℕ) : m.cover a ≤ 1 := by
  refine countP_le_one_of_pairwise ((isConsistent_pairwise hcons hends).imp ?_)
  rintro r r' hle ⟨hr,hr'⟩
  have h := (offers_eq_true.mp hr).2.2
  have h' := (offers_eq_true.mp hr').2.1
  omega

lemma cover_eq_zero (ha : m.kindAt a = some .reserved) :
    m.cover a = 0 := by
  refine countP_eq_zero.mpr fun x hx hoff => ?_
  rw [offers,and_eq_true,isAllocatable_iff] at hoff
  rw [kindAt_of_contains hcons hends hx hoff.2,hoff.1] at ha
  cases ha

/-- A byte that is reserved after a carve was reserved before, or usable and in the span. -/
lemma kindAt_of_carved (hcarve : m.carveBelow size align limit = some (m',some b))
    (hwrap : m.NoWrapAt size align limit) (hr : r ∈ m'.regions) (hkind : r.kind = .reserved)
    (ha : r.contains a = true) : m.kindAt a = some .reserved ∨
      m.kindAt a = some .usable ∧ InSpan a (b,size) := by
  obtain ⟨pre,x,post,hrs,husable,hbase,hend,hrs'⟩ := carveBelow_taken hcarve hwrap
  have hkept : ∀ y ∈ m.regions, y.contains a = true → m.kindAt a = some y.kind := fun y hy hya =>
    kindAt_of_contains hcons hends hy hya
  have hlt := endAddr_lt x
  rw [hrs',mem_append,mem_append] at hr
  rcases hr with (hr | hr) | hr
  · exact .inl (hkind ▸ hkept r (by rw [hrs]; simp [hr]) ha)
  · obtain ⟨rfl,-⟩ | rfl | ⟨rfl,-⟩ := mem_splitPieces (by omega) hr
    · cases husable.symm.trans hkind
    · rw [contains_eq_true,endAddr,add64_of_lt (by omega : b+size < 2^64)] at ha
      have hx := contains_eq_true.mpr ⟨hbase.trans ha.1,ha.2.trans_le hend⟩
      exact .inr ⟨husable ▸ hkept x (by rw [hrs]; simp) hx,ha⟩
    · cases husable.symm.trans hkind
  · exact .inl (hkind ▸ hkept r (by rw [hrs]; simp [hr]) ha)

end

def HeapReserved (m : MemoryMap) (req : MemoryPlanRequest) : Prop :=
  ∀ span, req.preclaimedHeap = some span → ∀ a, InSpan a span → m.kindAt a = some .reserved

/-- No byte of the preclaimed heap is one that a carve could take. -/
def HeapUnusable (m : MemoryMap) (req : MemoryPlanRequest) : Prop :=
  ∀ span, req.preclaimedHeap = some span → ∀ a, InSpan a span → m.kindAt a ≠ some .usable

/-- What a plan promises of its regions: they are disjoint, and the DMA window is low. -/
def PlanSafe (h : HypervisorRegions) : Prop :=
  (h.dma.span :: h.heap.span :: h.guestRam.map MemoryRegion.span).Pairwise SpanDisjoint ∧
    h.dma.base+h.dma.size ≤ 2^32

/-- Where no aligned start wraps, the regions of a plan on a consistent map are disjoint exactly if
no byte of the preclaimed heap was usable, and then all of them were reserved. -/
theorem MemoryMap.plan_safe_iff {req : MemoryPlanRequest} {h : HypervisorRegions}
    (hcons : m.isConsistent = true) (hends : ∀ r ∈ m.regions.dropLast, r.base+r.size < 2^64)
    (hwrap : m.NoneWraps req.align req.carves)
    (hplan : m.planHypervisorRegions req = some (m',some h)) :
    (PlanSafe h ↔ HeapUnusable m req) ∧ (HeapReserved m req ↔ HeapUnusable m req) := by
  obtain ⟨hcover,hlow,m₁,hdma,hsize,hadopt⟩ := planHypervisorRegions_cover hwrap hplan
  have hkinds : ∀ span, req.preclaimedHeap = some span → ∀ a, InSpan a span →
      m.kindAt a = some .reserved ∨ m.kindAt a = some .usable ∧ InSpan a h.dma.span := by
    intro span hspan a ha
    obtain ⟨r,hr,hkind,hcont⟩ := spanIsReserved_covers (hadopt span hspan).2 ha
    exact kindAt_of_carved hcons hends hdma (hsize ▸ hwrap.1) hr hkind hcont
  have hheap : HeapReserved m req ↔ HeapUnusable m req := by
    refine ⟨fun hres span hspan a ha husable => ?_,fun hfree span hspan a ha => ?_⟩
    · cases (hres span hspan a ha).symm.trans husable
    · exact (hkinds span hspan a ha).resolve_right fun husable => hfree span hspan a ha husable.1
  refine ⟨⟨fun hsafe span hspan a ha husable => ?_,fun hfree => ⟨?_,hlow⟩⟩,hheap⟩
  · -- a byte that was usable is one of the DMA window
    obtain hres | ⟨-,hdma⟩ := hkinds span hspan a ha
    · cases hres.symm.trans husable
    · rw [← (hadopt span hspan).1] at ha
      exact (pairwise_cons.mp hsafe.1).1 _ mem_cons_self a ⟨hdma,ha⟩
  have hle : ∀ a, (carvedSpans req h).countP (inSpan a) ≤ m.cover a := by
    intro a
    rw [hcover a]
    exact le_add_left _ _
  have hdisj : (carvedSpans req h).Pairwise SpanDisjoint :=
    (pairwise_spanDisjoint_iff _).mpr fun a => (hle a).trans (cover_le_one hcons hends a)
  cases hpre : req.preclaimedHeap with
  | none =>
    rw [carvedSpans,carvedHeap,hpre] at hdisj
    exact hdisj
  | some span =>
    rw [carvedSpans,carvedHeap,hpre,nil_append] at hdisj
    -- The adopted heap has no byte that the plan could carve.
    have hfresh : ∀ s ∈ h.dma.span :: h.guestRam.map MemoryRegion.span,
        SpanDisjoint h.heap.span s := by
      rintro s hs a ⟨hin,hins⟩
      rw [(hadopt span hpre).1] at hin
      have hzero := cover_eq_zero hcons hends (hheap.mpr hfree span hpre a hin)
      have hle := hle a
      rw [hzero,carvedSpans,carvedHeap,hpre,nil_append] at hle
      exact countP_eq_zero.mp (le_zero.mp hle) s hs (inSpan_eq_true.mpr hins)
    obtain ⟨hdma,hguests⟩ := pairwise_cons.mp hdisj
    refine pairwise_cons.mpr ⟨?_,pairwise_cons.mpr ⟨?_,hguests⟩⟩
    · intro s hs
      obtain rfl | hs := mem_cons.mp hs
      · exact fun a ha => hfresh _ mem_cons_self a ⟨ha.2,ha.1⟩
      · exact hdma s hs
    · exact fun s hs => hfresh s (mem_cons_of_mem _ hs)

/-- A megabyte of RAM below a page that firmware already reserved, and RAM up to the last page. -/
def plannedMap : MemoryMap :=
  ⟨[⟨0,2^20,.usable⟩,⟨2^20,4096,.reserved⟩,⟨2^21,2^64-2^21-4096,.usable⟩]⟩

theorem MemoryMap.plan_safe_iff_adopting : ∃ m' h,
    plannedMap.planHypervisorRegions ⟨4096,4096,[2^21],2^21,some (2^20,4096)⟩ = some (m',some h) ∧
      (PlanSafe h ↔ HeapUnusable plannedMap ⟨4096,4096,[2^21],2^21,some (2^20,4096)⟩) :=
  ⟨_,_,rfl,(MemoryMap.plan_safe_iff (by decide) (by decide)
    ⟨by rintro _ _ _ ⟨⟩ ⟨⟩; decide,by
      rintro _ _ ⟨⟩
      exact ⟨by rintro _ _ _ ⟨⟩ ⟨⟩; decide,fun _ _ _ => trivial⟩⟩ rfl).1⟩

/-- A plan that names its own DMA window as the preclaimed heap finds it reserved by the carve it has
just made, and adopts it. Where the alignment of the last region's base wraps, the heap is carved at
`0`, on the DMA window. -/
theorem MemoryMap.plan_adopts_dma_window : ∃ m₁ h₁ m₂ h₂,
    plannedMap.isConsistent = true ∧ plannedMap.kindAt 0 = some .usable ∧
      plannedMap.planHypervisorRegions ⟨4096,4096,[],4096,some (0,4096)⟩ = some (m₁,some h₁) ∧
      h₁.dma = ⟨0,4096,.reserved⟩ ∧ h₁.heap = ⟨0,4096,.reserved⟩ ∧
      let m : MemoryMap := ⟨[⟨0,8192,.usable⟩,⟨2^64-8192,4096,.usable⟩]⟩
      m.isConsistent = true ∧
      m.planHypervisorRegions ⟨4096,4096,[],2^21,none⟩ = some (m₂,some h₂) ∧
      h₂.dma = ⟨0,4096,.reserved⟩ ∧ h₂.heap = ⟨0,4096,.reserved⟩ :=
  ⟨_,_,_,_,by decide,by decide,rfl,rfl,rfl,by decide,rfl,rfl,rfl⟩

end Enlil.Memory
