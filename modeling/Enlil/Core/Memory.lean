import Enlil.Lib.Extents
import Enlil.Lib.OrdMap
import Enlil.Lib.Runs
import Enlil.Lib.Word
import Mathlib.Data.String.Basic

/-! # Guest memory on the host: model of `enlil-core/src/memory.rs` -/

namespace Enlil.Core
open List OrdMap

inductive Error where
  | memory (text : String)
  | vm (text : String)
  deriving DecidableEq, Repr

def Error.toString : Error → String
  | .memory text => s!"memory error: {text}"
  | .vm text => s!"vm error: {text}"

def largePageSize : ℕ := 2*1024*1024

structure MemoryRegion where
  hostBase : ℕ
  size : ℕ
  guestId : String
  deriving DecidableEq, Repr

def MemoryRegion.extent (r : MemoryRegion) : ℕ × ℕ := (r.hostBase,r.size)

structure MemoryMapEntry where
  gpa : ℕ
  hpa : ℕ
  size : ℕ
  deriving DecidableEq, Repr

structure MemoryMap where
  guestId : String
  entries : List MemoryMapEntry
  deriving DecidableEq, Repr

def alignUp (value align : ℕ) : ℕ := Word.alignUp64 value align

/-- Host memory and who owns it. Free blocks are pairs of base and size. Every region is kept
under its own base address. -/
structure MemoryManager where
  totalBytes : ℕ
  reservedBytes : ℕ
  regions : OrdMap ℕ MemoryRegion
  memoryMaps : OrdMap String MemoryMap
  nextBase : ℕ
  freeList : List (ℕ × ℕ)
  keyed : ∀ e ∈ regions.entries, e.2.hostBase = e.1

namespace MemoryManager
open Word Extents

def sizeOfMb (sizeMb : ℕ) : ℕ := alignUp (mul64 (mul64 sizeMb 1024) 1024) largePageSize

def new (totalMb reservedMb : ℕ) : MemoryManager where
  totalBytes := sizeOfMb totalMb
  reservedBytes := sizeOfMb reservedMb
  regions := .empty
  memoryMaps := .empty
  nextBase := sizeOfMb reservedMb
  freeList := []
  keyed := nofun

def checkOverlap (m : MemoryManager) (base size : ℕ) (guestId : String) : Except Error Unit :=
  match m.regions.entries.find? fun e =>
      decide (base < add64 e.1 e.2.size) && decide (e.1 < add64 base size) with
  | some e => .error (.memory s!"region for '{guestId}' overlaps with '{e.2.guestId}'")
  | none => .ok ()

def findFreeSlot (m : MemoryManager) (size : ℕ) : Option ℕ :=
  m.freeList.findIdx? fun b => decide (size ≤ b.2)

def takeFree (m : MemoryManager) (idx size : ℕ) : ℕ × MemoryManager :=
  let block := m.freeList.getD idx (0,0)
  let leftover := sub64 block.2 size
  let rest := m.freeList.eraseIdx idx
  (block.1,{ m with
    freeList := if 0 < leftover then rest ++ [(add64 block.1 size,leftover)] else rest })

section
variable (m : MemoryManager) (guestId : String)

def bump (size : ℕ) : Except Error (ℕ × MemoryManager) :=
  let base := alignUp m.nextBase largePageSize
  let sizeMb := size/(1024*1024)
  let remaining := (m.totalBytes-base)/(1024*1024)
  if m.totalBytes < add64 base size then
    .error (.memory
      s!"cannot allocate {sizeMb} MB for '{guestId}': only {remaining} MB remaining")
  else .ok (base,{ m with nextBase := add64 base size })

def place (size : ℕ) : Except Error (ℕ × MemoryManager) :=
  match m.findFreeSlot size with
  | some idx => .ok (m.takeFree idx size)
  | none => m.bump guestId size

def register (base size : ℕ) : MemoryManager :=
  { m with
    regions := m.regions.insert base ⟨base,size,guestId⟩
    memoryMaps := m.memoryMaps.insert guestId ⟨guestId,[⟨0,base,size⟩]⟩
    keyed := fun _ he => (mem_entries_insert_imp he).elim (fun h => h ▸ rfl) (m.keyed _) }

def owns : Bool :=
  m.regions.values.any (·.guestId = guestId)

def allocate (sizeMb : ℕ) : Except Error ℕ × MemoryManager :=
  if m.owns guestId then
    (.error (.memory s!"guest '{guestId}' already has an allocated region"),m)
  else
    let size := sizeOfMb sizeMb
    match m.place guestId size with
    | .error e => (.error e,m)
    | .ok (base,m') =>
      match m'.checkOverlap base size guestId with
      | .error e => (.error e,m')
      | .ok () => (.ok base,m'.register guestId base size)

def coalesceBlock (merged : List (ℕ × ℕ)) (block : ℕ × ℕ) : List (ℕ × ℕ) :=
  match merged.getLast? with
  | some last =>
    if add64 last.1 last.2 = block.1 then merged.dropLast ++ [(last.1,add64 last.2 block.2)]
    else merged ++ [block]
  | none => merged ++ [block]

def coalesceFreeList (freeList : List (ℕ × ℕ)) : List (ℕ × ℕ) :=
  if freeList.length < 2 then freeList
  else (freeList.insertionSort fun a b => a.1 ≤ b.1).foldl coalesceBlock []

def release (e : ℕ × MemoryRegion) : MemoryManager :=
  { m with
    regions := m.regions.erase e.1
    memoryMaps := m.memoryMaps.erase guestId
    freeList := coalesceFreeList (m.freeList ++ [(e.2.hostBase,e.2.size)])
    keyed := fun x hx => m.keyed x (mem_entries_of_mem_erase hx) }

def deallocate : Except Error Unit × MemoryManager :=
  match m.regions.entries.find? fun e => decide (e.2.guestId = guestId) with
  | none => (.error (.memory s!"no region found for guest '{guestId}'"),m)
  | some e => (.ok (),m.release guestId e)

end

inductive Call where
  | allocate (guestId : String) (sizeMb : ℕ)
  | deallocate (guestId : String)
  deriving DecidableEq, Repr

def Call.guestId : Call → String
  | .allocate guestId _ => guestId
  | .deallocate guestId => guestId

/-- The call asks for some memory if it asks for memory at all. -/
def Call.SizeNeZero : Call → Prop
  | .allocate _ sizeMb => sizeMb ≠ 0
  | .deallocate _ => True

/-! ## Sizes -/

lemma largePageSize_eq : largePageSize = 2^21 := rfl

lemma dvd_alignUp (value : ℕ) : largePageSize ∣ alignUp value largePageSize := by
  rw [alignUp,largePageSize_eq]
  exact dvd_alignUp64 (by decide)

variable {value sizeMb idx : ℕ} {others merged rest freeList : List (ℕ × ℕ)} {r : MemoryRegion}

lemma le_alignUp (h : value+(largePageSize-1) < 2^64) :
    value ≤ alignUp value largePageSize := by
  rw [largePageSize_eq] at h ⊢
  exact le_alignUp64 (by decide) h

lemma alignUp_of_dvd (h : value+(largePageSize-1) < 2^64)
    (hd : largePageSize ∣ value) : alignUp value largePageSize = value := by
  refine le_antisymm ?_ (le_alignUp h)
  rw [largePageSize_eq] at h hd ⊢
  exact alignUp64_le (by decide) h hd (le_refl _)

/-- The bytes of a size in MB can be computed inside 64 bits. -/
def SizeFits (sizeMb : ℕ) : Prop := sizeMb*1024*1024+(largePageSize-1) < 2^64

instance (sizeMb : ℕ) : Decidable (SizeFits sizeMb) :=
  inferInstanceAs (Decidable (sizeMb*1024*1024+(largePageSize-1) < 2^64))

lemma dvd_sizeOfMb (sizeMb : ℕ) : largePageSize ∣ sizeOfMb sizeMb := dvd_alignUp _

lemma mul64_mb (h : SizeFits sizeMb) :
    mul64 (mul64 sizeMb 1024) 1024 = sizeMb*1024*1024 := by
  have hb : sizeMb*1024*1024 < 2^64 := lt_of_le_of_lt (Nat.le_add_right _ _) h
  have hk : sizeMb*1024 ≤ sizeMb*1024*1024 := Nat.le_mul_of_pos_right _ (by decide)
  rw [mul64_of_lt (lt_of_le_of_lt hk hb),mul64_of_lt hb]

lemma le_sizeOfMb (h : SizeFits sizeMb) :
    sizeMb*1024*1024 ≤ sizeOfMb sizeMb := by
  rw [sizeOfMb,mul64_mb h]
  exact le_alignUp h

lemma sizeOfMb_pos (h : SizeFits sizeMb) (hne : sizeMb ≠ 0) :
    0 < sizeOfMb sizeMb := by
  have hk : 0 < sizeMb*1024*1024 :=
    Nat.mul_pos (Nat.mul_pos (Nat.pos_of_ne_zero hne) (by decide)) (by decide)
  exact lt_of_lt_of_le hk (le_sizeOfMb h)

/-! ## Regions and free blocks tile the space below the bump pointer -/

def blocks (m : MemoryManager) : List (ℕ × ℕ) :=
  m.regions.values.map MemoryRegion.extent ++ m.freeList

/-- Regions and free blocks tile the space below the bump pointer, and no guest has two regions. -/
structure WellFormed (m : MemoryManager) : Prop where
  tiles : Tiles largePageSize m.reservedBytes m.nextBase m.blocks
  reserved_dvd : largePageSize ∣ m.reservedBytes
  nextBase_le : m.nextBase ≤ max m.reservedBytes m.totalBytes
  reserved_lt : m.reservedBytes < 2^64
  total_lt : m.totalBytes < 2^64
  unique : (m.regions.values.map MemoryRegion.guestId).Nodup

lemma alignUp_lt (value : ℕ) : alignUp value largePageSize < 2^64 := by
  rw [alignUp,alignUp64]
  exact lt_of_le_of_lt Nat.and_le_left (add64_lt _ _)

lemma wellFormed_new (totalMb reservedMb : ℕ) : (new totalMb reservedMb).WellFormed where
  tiles := .nil
  reserved_dvd := dvd_sizeOfMb reservedMb
  nextBase_le := Nat.le_max_left _ _
  reserved_lt := alignUp_lt _
  total_lt := alignUp_lt _
  unique := .nil

variable {m : MemoryManager}

lemma WellFormed.nextBase_dvd (h : m.WellFormed) : largePageSize ∣ m.nextBase :=
  h.tiles.dvd_hi h.reserved_dvd

lemma WellFormed.nextBase_lt (h : m.WellFormed) : m.nextBase < 2^64 :=
  lt_of_le_of_lt h.nextBase_le (Nat.max_lt.mpr ⟨h.reserved_lt,h.total_lt⟩)

/-! ## Placing a region -/

/-- What placing a region of `size` bytes at `base` leaves: the same regions, and space that the
new extent completes to a tiling. -/
structure Placed (m : MemoryManager) (base size : ℕ) (m' : MemoryManager) : Prop where
  regions : m'.regions = m.regions
  totalBytes : m'.totalBytes = m.totalBytes
  reservedBytes : m'.reservedBytes = m.reservedBytes
  nextBase_le : m'.nextBase ≤ max m.reservedBytes m.totalBytes
  tiles : Tiles largePageSize m.reservedBytes m'.nextBase ((base,size) :: m'.blocks)

variable {m m' : MemoryManager} {guestId : String} {base size : ℕ}

lemma placed_takeFree (h : m.WellFormed) (hidx : m.findFreeSlot size = some idx)
    (hdvd : largePageSize ∣ size) (hpos : 0 < size) :
    Placed m (m.takeFree idx size).1 size (m.takeFree idx size).2 := by
  obtain ⟨hlt,hfit⟩ := findIdx?_eq_some_iff_getElem.mp hidx
  have hperm : m.blocks.Perm
      (m.freeList[idx] :: (m.regions.values.map MemoryRegion.extent ++ m.freeList.eraseIdx idx)) :=
    ((getElem_cons_eraseIdx_perm hlt).symm.append_left _).trans perm_middle
  have ht := h.tiles.perm hperm
  rcases hbn : m.freeList[idx] with ⟨b,n⟩
  rw [hbn] at ht hfit
  have hn : size ≤ n := of_decide_eq_true hfit.1
  have hin := ht.inside _ mem_cons_self
  have hlim := h.nextBase_lt
  have hget : m.freeList.getD idx (0,0) = (b,n) := by
    rw [getD_eq_getElem?_getD,getElem?_eq_getElem hlt,hbn,Option.getD_some]
  have hleft : sub64 n size = n-size := sub64_of_le hn (by omega)
  have htake : m.takeFree idx size = (b,{ m with
      freeList := if 0 < n-size then m.freeList.eraseIdx idx ++ [(b+size,n-size)]
        else m.freeList.eraseIdx idx }) := by
    simp only [takeFree,hget,hleft,add64_of_lt (by omega : b+size < 2^64)]
  rw [htake]
  refine ⟨rfl,rfl,rfl,h.nextBase_le,?_⟩
  by_cases hleft : 0 < n-size
  · have hs := (show n = size+(n-size) by omega) ▸ ht
    refine (hs.split hdvd hpos hleft).perm (List.Perm.cons _ ?_)
    simp only [blocks,if_pos hleft,← append_assoc]
    exact (perm_append_singleton _ _).symm
  · have hs : n = size := by omega
    simp only [blocks,if_neg hleft]
    exact hs ▸ ht

def BumpFits (m : MemoryManager) (size : ℕ) : Prop :=
  m.nextBase+(largePageSize-1) < 2^64 ∧ alignUp m.nextBase largePageSize+size < 2^64

lemma placed_bump (h : m.WellFormed) (hfit : m.BumpFits size) (hdvd : largePageSize ∣ size)
    (hpos : 0 < size) (hok : m.bump guestId size = .ok (base,m')) : Placed m base size m' := by
  have hbase : alignUp m.nextBase largePageSize = m.nextBase :=
    alignUp_of_dvd hfit.1 h.nextBase_dvd
  have hsum : add64 m.nextBase size = m.nextBase+size := add64_of_lt (hbase ▸ hfit.2)
  simp only [bump,hbase,hsum] at hok
  split at hok
  · cases hok
  next hle =>
    cases hok
    exact ⟨rfl,rfl,rfl,le_trans (Nat.not_lt.mp hle) (Nat.le_max_right _ _),
      h.tiles.grow h.nextBase_dvd hdvd hpos⟩

lemma checkOverlap_placed (h : m.WellFormed) (hp : Placed m base size m') :
    m'.checkOverlap base size guestId = .ok () := by
  have hlim : m'.nextBase < 2^64 :=
    lt_of_le_of_lt hp.nextBase_le (Nat.max_lt.mpr ⟨h.reserved_lt,h.total_lt⟩)
  have hnone : (m'.regions.entries.find? fun e =>
      decide (base < add64 e.1 e.2.size) && decide (e.1 < add64 base size)) = none := by
    refine find?_eq_none.mpr fun e he => ?_
    have hmem : e.2.extent ∈ m'.blocks :=
      mem_append_left _ (mem_map_of_mem (mem_map_of_mem he))
    have hapart := (pairwise_cons.mp hp.tiles.apart).1 _ hmem
    have hin := hp.tiles.inside _ (mem_cons_of_mem _ hmem)
    have hin' := hp.tiles.inside _ mem_cons_self
    have hkey := m'.keyed e he
    simp only [MemoryRegion.extent,Apart,hkey] at hapart hin hin'
    rw [add64_of_lt (by omega : e.1+e.2.size < 2^64),add64_of_lt (by omega : base+size < 2^64)]
    simp only [Bool.and_eq_true,decide_eq_true_eq]
    omega
  rw [checkOverlap,hnone]

lemma register_values_perm (guestId : String) (hp : Placed m base size m') :
    (m'.register guestId base size).regions.values.Perm
      (⟨base,size,guestId⟩ :: m.regions.values) := by
  have hfresh : ∀ e ∈ m'.regions.entries, e.1 ≠ base := by
    intro e he hbase
    have hmem : e.2.extent ∈ m'.blocks :=
      mem_append_left _ (mem_map_of_mem (mem_map_of_mem he))
    have hapart := (pairwise_cons.mp hp.tiles.apart).1 _ hmem
    have hpos := hp.tiles.pos _ (mem_cons_of_mem _ hmem)
    have hpos' := hp.tiles.pos _ mem_cons_self
    have hkey := m'.keyed e he
    simp only [MemoryRegion.extent,Apart,hkey] at hapart hpos hpos'
    omega
  rw [← hp.regions]
  exact values_insert_perm _ hfresh

lemma wellFormed_register (h : m.WellFormed) (hp : Placed m base size m')
    (hfree : m.owns guestId = false) : (m'.register guestId base size).WellFormed := by
  have hperm := register_values_perm guestId hp
  have hblocks : ((base,size) :: m'.blocks).Perm (m'.register guestId base size).blocks := by
    rw [blocks,blocks,hp.regions]
    exact ((hperm.map MemoryRegion.extent).append_right m'.freeList).symm
  refine ⟨?_,?_,?_,?_,?_,?_⟩
  · change Tiles _ m'.reservedBytes m'.nextBase _
    rw [hp.reservedBytes]
    exact hp.tiles.perm hblocks
  · exact hp.reservedBytes ▸ h.reserved_dvd
  · change m'.nextBase ≤ max m'.reservedBytes m'.totalBytes
    rw [hp.reservedBytes,hp.totalBytes]
    exact hp.nextBase_le
  · exact hp.reservedBytes ▸ h.reserved_lt
  · exact hp.totalBytes ▸ h.total_lt
  · refine (hperm.map _).nodup_iff.mpr (nodup_cons.mpr ⟨fun hmem => ?_,h.unique⟩)
    obtain ⟨r,hr,hg⟩ := mem_map.mp hmem
    have := any_eq_false.mp hfree r hr
    exact this (decide_eq_true hg)

/-! ## Returning a region -/

variable {p lo hi : ℕ}

lemma tiles_coalesceBlock {block : ℕ × ℕ} (hhi : hi < 2^64)
    (h : Tiles p lo hi (others ++ (merged ++ block :: rest))) :
    Tiles p lo hi (others ++ (coalesceBlock merged block ++ rest)) := by
  have hkeep : Tiles p lo hi (others ++ ((merged ++ [block]) ++ rest)) := by simpa using h
  rw [coalesceBlock]
  split
  next last hlast =>
    obtain ⟨init,hinit⟩ := getLast?_eq_some_iff.mp hlast
    subst hinit
    split
    next hadj =>
      obtain ⟨b,n⟩ := last
      obtain ⟨b',n'⟩ := block
      dsimp only at hadj ⊢
      have hperm : (others ++ (init ++ [(b,n)] ++ (b',n') :: rest)).Perm
          ((b,n) :: (b',n') :: (others ++ (init ++ rest))) := by
        rw [perm_iff_count]
        intro e
        simp only [count_append,count_cons,count_nil]
        omega
      have ht := h.perm hperm
      have hin := ht.inside
      simp only [mem_cons,forall_eq_or_imp] at hin
      have hb' : b' = b+n := by rw [← hadj,add64_of_lt (by omega)]
      subst hb'
      rw [add64_of_lt (by omega : n+n' < 2^64),dropLast_concat]
      refine ht.merge.perm ?_
      rw [perm_iff_count]
      intro e
      simp only [count_append,count_cons,count_nil]
      omega
    next => exact hkeep
  next => exact hkeep

lemma tiles_foldl_coalesceBlock (hhi : hi < 2^64)
    (list merged : List (ℕ × ℕ)) (h : Tiles p lo hi (others ++ (merged ++ list))) :
    Tiles p lo hi (others ++ list.foldl coalesceBlock merged) := by
  induction list generalizing merged with
  | nil => simpa using h
  | cons block rest ih => exact ih _ (tiles_coalesceBlock hhi h)

lemma tiles_coalesceFreeList (hhi : hi < 2^64) (h : Tiles p lo hi (others ++ freeList)) :
    Tiles p lo hi (others ++ coalesceFreeList freeList) := by
  rw [coalesceFreeList]
  split
  · exact h
  · refine tiles_foldl_coalesceBlock hhi _ [] (h.perm ?_)
    exact (perm_insertionSort _ freeList).symm.append_left others

variable {e : ℕ × MemoryRegion}

lemma wellFormed_release (h : m.WellFormed)
    (he : e ∈ m.regions.entries) : (m.release guestId e).WellFormed := by
  have hvalues := values_perm_erase he
  refine ⟨?_,h.reserved_dvd,h.nextBase_le,h.reserved_lt,h.total_lt,?_⟩
  · refine tiles_coalesceFreeList h.nextBase_lt (h.tiles.perm ?_)
    rw [blocks,← append_assoc]
    exact ((hvalues.map MemoryRegion.extent).append_right m.freeList).trans
      (perm_append_singleton e.2.extent _).symm
  · exact (nodup_cons.mp ((hvalues.map _).nodup_iff.mp h.unique)).2

/-! ## Runs
-/

def NoOverflow (m : MemoryManager) : Call → Prop
  | .allocate _ sizeMb =>
    SizeFits sizeMb ∧ (m.findFreeSlot (sizeOfMb sizeMb) = none → m.BumpFits (sizeOfMb sizeMb))
  | .deallocate _ => True

def call (m : MemoryManager) : Call → Bool × MemoryManager
  | .allocate guestId sizeMb => (m.allocate guestId sizeMb).map Except.isOk id
  | .deallocate guestId => (m.deallocate guestId).map Except.isOk id

/-- What a call can do: fail and change nothing, enter a region that was placed, or release the
region of its guest. -/
inductive Does (m : MemoryManager) : Call → Bool × MemoryManager → Prop
  | fail (c : Call) : Does m c (false,m)
  | enter {guestId : String} {sizeMb base : ℕ} {m' : MemoryManager}
      (hfree : m.owns guestId = false) (hp : Placed m base (sizeOfMb sizeMb) m') :
      Does m (.allocate guestId sizeMb) (true,m'.register guestId base (sizeOfMb sizeMb))
  | release {guestId : String} {e : ℕ × MemoryRegion} (he : e ∈ m.regions.entries)
      (hg : e.2.guestId = guestId) : Does m (.deallocate guestId) (true,m.release guestId e)

lemma place_cases (guestId : String) (h : m.WellFormed) (hdvd : largePageSize ∣ size) (hpos : 0 < size)
    (hfit : m.findFreeSlot size = none → m.BumpFits size) :
    (∃ e, m.place guestId size = .error e) ∨
      ∃ base m', m.place guestId size = .ok (base,m') ∧ Placed m base size m' := by
  rw [place]
  split
  next idx hidx => exact .inr ⟨_,_,rfl,placed_takeFree h hidx hdvd hpos⟩
  next hnone =>
    rcases hb : m.bump guestId size with e | ⟨base,m'⟩
    · exact .inl ⟨e,rfl⟩
    · exact .inr ⟨base,m',rfl,placed_bump h (hfit hnone) hdvd hpos hb⟩

variable {c : Call}

lemma does_call (h : m.WellFormed) (hfit : m.NoOverflow c) (hne : c.SizeNeZero) :
    Does m c (m.call c) := by
  cases c with
  | allocate guestId sizeMb =>
    obtain ⟨hsize,hbump⟩ := hfit
    simp only [call,allocate]
    split
    next => exact .fail _
    next hfree =>
      have hpos : 0 < sizeOfMb sizeMb := sizeOfMb_pos hsize hne
      rcases place_cases guestId h (dvd_sizeOfMb sizeMb) hpos hbump with
        ⟨e,he⟩ | ⟨base,m',hm',hp⟩
      · simp only [he]
        exact .fail _
      · simp only [hm',checkOverlap_placed h hp]
        exact .enter (Bool.not_eq_true _ ▸ hfree) hp
  | deallocate guestId =>
    simp only [call,deallocate]
    split
    next => exact .fail _
    next e he =>
      have hg : e.2.guestId = guestId := by simpa using find?_some he
      exact .release (mem_of_find?_eq_some he) hg

structure History where
  manager : MemoryManager
  log : List Call

def History.step (h : History) (c : Call) : History :=
  let r := h.manager.call c
  ⟨r.2,if r.1 then c :: h.log else h.log⟩

def historyAt (totalMb reservedMb : ℕ) (calls : List Call) (k : ℕ) : History :=
  (calls.take k).foldl History.step ⟨new totalMb reservedMb,[]⟩

def History.AllocatedLast (h : History) (guestId : String) : Prop :=
  ∃ sizeMb, h.log.find? (fun c => decide (c.guestId = guestId)) = some (.allocate guestId sizeMb)

/-- Regions and free blocks are aligned, pairwise disjoint and inside the managed range, and with
the untouched tail they make up all of it. -/
structure History.Owned (h : History) : Prop where
  one_region : ∀ guestId, h.AllocatedLast guestId →
    ∃ r, h.manager.regions.values.filter (·.guestId = guestId) = [r]
  aligned : ∀ e ∈ h.manager.blocks, largePageSize ∣ e.1 ∧ largePageSize ∣ e.2
  apart : h.manager.blocks.Pairwise Apart
  inside : ∀ e ∈ h.manager.blocks, h.manager.reservedBytes ≤ e.1 ∧ e.1+e.2 ≤ h.manager.totalBytes
  conserved : (((h.manager.blocks.map Prod.snd).sum : ℕ) : ℤ) +
    ((h.manager.totalBytes : ℤ)-h.manager.nextBase) =
      (h.manager.totalBytes : ℤ)-h.manager.reservedBytes

/-- The manager is well formed and the log tells who owns a region. -/
structure History.Sound (h : History) : Prop where
  wellFormed : h.manager.WellFormed
  owns_iff : ∀ guestId, h.manager.owns guestId = true ↔ h.AllocatedLast guestId

lemma owns_iff_mem :
    m.owns guestId = true ↔ guestId ∈ m.regions.values.map MemoryRegion.guestId := by
  simp [owns,any_eq_true]

lemma filter_guestId {l : List MemoryRegion} (h : (l.map MemoryRegion.guestId).Nodup)
    (hr : r ∈ l) : l.filter (·.guestId = r.guestId) = [r] := by
  obtain ⟨l₁,l₂,rfl⟩ := append_of_mem hr
  have hmid := (perm_middle.map MemoryRegion.guestId).nodup_iff.mp h
  have hne := (nodup_cons.mp hmid).1
  have hout : ∀ x ∈ l₁ ++ l₂, x.guestId ≠ r.guestId := fun x hx heq =>
    hne (heq ▸ mem_map_of_mem hx)
  have h₁ : l₁.filter (·.guestId = r.guestId) = [] := filter_eq_nil_iff.mpr fun x hx => by
    simpa using hout x (mem_append_left _ hx)
  have h₂ : l₂.filter (·.guestId = r.guestId) = [] := filter_eq_nil_iff.mpr fun x hx => by
    simpa using hout x (mem_append_right _ hx)
  rw [filter_append,filter_cons_of_pos (by simp),h₁,h₂,nil_append]

lemma History.Sound.owned {h : History} (hs : h.Sound) : h.Owned where
  one_region guestId hlast := by
    obtain ⟨r,hr,rfl⟩ := mem_map.mp (owns_iff_mem.mp ((hs.owns_iff guestId).mpr hlast))
    exact ⟨r,filter_guestId hs.wellFormed.unique hr⟩
  aligned := hs.wellFormed.tiles.aligned
  apart := hs.wellFormed.tiles.apart
  inside e he := by
    have hin := hs.wellFormed.tiles.inside e he
    have hpos := hs.wellFormed.tiles.pos e he
    have htop := hs.wellFormed.nextBase_le
    omega
  conserved := by
    have := hs.wellFormed.tiles.covers
    omega

lemma sound_new (totalMb reservedMb : ℕ) : (History.mk (new totalMb reservedMb) []).Sound where
  wellFormed := wellFormed_new totalMb reservedMb
  owns_iff guestId := by
    refine iff_of_false (by simp [owns,new]) ?_
    rintro ⟨sizeMb,h⟩
    cases h

lemma allocatedLast_cons {log : List Call} : (History.mk m (c :: log)).AllocatedLast guestId ↔
      if c.guestId = guestId then ∃ sizeMb, c = .allocate guestId sizeMb
      else (History.mk m log).AllocatedLast guestId := by
  by_cases hc : c.guestId = guestId
  · simp [History.AllocatedLast,hc]
  · simp [History.AllocatedLast,hc]

lemma owns_register (hp : Placed m base size m') {g : String} :
    (m'.register guestId base size).owns g = true ↔ g = guestId ∨ m.owns g = true := by
  have hperm := register_values_perm guestId hp
  rw [owns_iff_mem,(hperm.map _).mem_iff,map_cons,mem_cons,owns_iff_mem]

lemma owns_release (h : m.WellFormed) (he : e ∈ m.regions.entries)
    {g : String} :
    (m.release guestId e).owns g = true ↔ g ≠ e.2.guestId ∧ m.owns g = true := by
  have hperm := (values_perm_erase he).map MemoryRegion.guestId
  have hout := (nodup_cons.mp (hperm.nodup_iff.mp h.unique)).1
  rw [owns_iff_mem,owns_iff_mem,hperm.mem_iff,map_cons,mem_cons]
  change g ∈ (m.regions.erase e.1).values.map MemoryRegion.guestId ↔ _
  constructor
  · exact fun hg => ⟨fun heq => hout (heq ▸ hg),.inr hg⟩
  · exact fun hg => hg.2.resolve_left hg.1

lemma History.Sound.step {h : History} (hs : h.Sound)
    (hfit : h.manager.NoOverflow c) (hne : c.SizeNeZero) : (h.step c).Sound := by
  obtain ⟨m,log⟩ := h
  have hdoes : Does m c (m.call c) := does_call hs.wellFormed hfit hne
  rw [History.step]
  dsimp only
  generalize m.call c = r at hdoes
  cases hdoes with
  | fail => exact hs
  | enter hfree hp =>
    refine ⟨wellFormed_register hs.wellFormed hp hfree,fun g => ?_⟩
    rw [owns_register hp,if_pos rfl,allocatedLast_cons,hs.owns_iff g]
    split
    next hg =>
      subst hg
      exact iff_of_true (.inl rfl) ⟨_,rfl⟩
    next hg => exact or_iff_right fun heq => hg heq.symm
  | release he hguest =>
    refine ⟨wellFormed_release hs.wellFormed he,fun g => ?_⟩
    rw [owns_release hs.wellFormed he,if_pos rfl,allocatedLast_cons,hs.owns_iff g,hguest]
    split
    next hg => exact iff_of_false (fun h => h.1 hg.symm) (fun ⟨_,h⟩ => nomatch h)
    next hg => exact and_iff_right fun heq => hg heq.symm

lemma mem_of_call_allocate (h : m.WellFormed)
    (hfit : m.NoOverflow (.allocate guestId sizeMb)) (hne : sizeMb ≠ 0)
    (hr : r ∈ m.regions.values) : r ∈ (m.call (.allocate guestId sizeMb)).2.regions.values := by
  have hdoes : Does m _ (m.call (.allocate guestId sizeMb)) := does_call h hfit hne
  generalize m.call (.allocate guestId sizeMb) = result at hdoes
  cases hdoes with
  | fail => exact hr
  | enter hfree hp =>
    exact (register_values_perm guestId hp).mem_iff.mpr (mem_cons_of_mem _ hr)

/-- **Ownership along a run.** If no call asks for size zero, the guests that allocated last have
one region each, the space is conserved, and no allocation makes another region disappear. -/
theorem owned_of_sizes_ne_zero (totalMb reservedMb : ℕ) (calls : List Call)
    (hfit : ∀ k c, calls[k]? = some c → (historyAt totalMb reservedMb calls k).manager.NoOverflow c)
    (hne : ∀ c ∈ calls, c.SizeNeZero) (k : ℕ) :
    (historyAt totalMb reservedMb calls k).Owned ∧
      ∀ guestId sizeMb, calls[k]? = some (.allocate guestId sizeMb) →
        ∀ r ∈ (historyAt totalMb reservedMb calls k).manager.regions.values,
          r ∈ (historyAt totalMb reservedMb calls (k+1)).manager.regions.values := by
  have hsound : ∀ k, (historyAt totalMb reservedMb calls k).Sound := by
    refine Runs.forall_take (K := fun h c => h.manager.NoOverflow c ∧ c.SizeNeZero) ?_
      (sound_new totalMb reservedMb) fun k c hc => ⟨hfit k c hc,hne c (mem_of_getElem? hc)⟩
    exact fun h c hs hK => hs.step hK.1 hK.2
  refine ⟨(hsound k).owned,fun guestId sizeMb hc r hr => ?_⟩
  rw [historyAt,Runs.foldl_take_succ hc]
  exact mem_of_call_allocate (hsound k).wellFormed (hfit k _ hc) (hne _ (mem_of_getElem? hc)) hr

/-- Two guests, a return and an allocation out of the returned block. -/
theorem owned_after_reuse : (historyAt 16 2
      [.allocate "a" 3,.allocate "b" 1,.deallocate "a",.allocate "c" 2] 4).Owned := by
  refine (owned_of_sizes_ne_zero 16 2 _ ?_ ?_ 4).1
  · intro k c hc
    match k, hc with
    | 0, hc => cases hc; exact ⟨by decide,fun _ => ⟨by decide,by decide⟩⟩
    | 1, hc => cases hc; exact ⟨by decide,fun _ => ⟨by decide,by decide⟩⟩
    | 2, hc => cases hc; exact trivial
    | 3, hc => cases hc; exact ⟨by decide,fun _ => ⟨by decide,by decide⟩⟩
    | k+4, hc => cases hc
  · intro c hc
    simp only [mem_cons,not_mem_nil,or_false] at hc
    rcases hc with rfl | rfl | rfl | rfl
    · exact (by decide : 3 ≠ 0)
    · exact (by decide : 1 ≠ 0)
    · exact trivial
    · exact (by decide : 2 ≠ 0)

/-- A guest that was given a region of size zero loses it to the next guest. -/
theorem not_owned_after_size_zero :
    (historyAt 16 2 [.allocate "a" 0,.allocate "b" 2] 0).manager.NoOverflow (.allocate "a" 0) ∧
    (historyAt 16 2 [.allocate "a" 0,.allocate "b" 2] 1).manager.NoOverflow (.allocate "b" 2) ∧
    (historyAt 16 2 [.allocate "a" 0,.allocate "b" 2] 2).AllocatedLast "a" ∧
    (historyAt 16 2 [.allocate "a" 0,.allocate "b" 2] 2).manager.owns "a" = false ∧
    ¬ (historyAt 16 2 [.allocate "a" 0,.allocate "b" 2] 2).Owned := by
  have hlast : (historyAt 16 2 [.allocate "a" 0,.allocate "b" 2] 2).AllocatedLast "a" :=
    ⟨0,by decide +kernel⟩
  have howns : (historyAt 16 2 [.allocate "a" 0,.allocate "b" 2] 2).manager.owns "a" = false := by
    decide +kernel
  refine ⟨⟨by decide,fun _ => ⟨by decide,by decide⟩⟩,
    ⟨by decide,fun _ => ⟨by decide,by decide⟩⟩,hlast,howns,fun h => ?_⟩
  obtain ⟨r,hr⟩ := h.one_region "a" hlast
  have hmem := mem_filter.mp (hr ▸ mem_singleton_self r)
  exact Bool.eq_false_iff.mp howns (any_eq_true.mpr ⟨r,hmem⟩)

end MemoryManager
end Enlil.Core
