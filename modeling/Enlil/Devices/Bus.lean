import Enlil.Lib.OrdMap
import Mathlib.Tactic.Common

/-! # Port and memory buses: model of `bus.rs` -/

namespace Enlil.Devices
open List OrdMap
variable {D β : Type}

inductive BusError where
  | emptyRange
  | overlap (base stop : ℕ)

/-- The devices of a bus under their base addresses, each with the exclusive end of its range. -/
abbrev Bus (D : Type) := OrdMap ℕ (ℕ × D)

/-- How the devices of a bus answer, the bytes of a value and the address that a device is given. -/
structure BusKind (D : Type) where
  read : D → ℕ → ℕ → ℕ × D
  write : D → ℕ → ℕ → ℕ → D
  width : ℕ
  target : ℕ → ℕ → ℕ

def BusKind.pio (pioRead : D → ℕ → ℕ → ℕ × D) (pioWrite : D → ℕ → ℕ → ℕ → D) : BusKind D :=
  ⟨pioRead,pioWrite,4,fun _ port => port⟩

def BusKind.mmio (mmioRead : D → ℕ → ℕ → ℕ × D) (mmioWrite : D → ℕ → ℕ → ℕ → D) : BusKind D :=
  ⟨mmioRead,mmioWrite,8,fun base address => address-base⟩

inductive BusCall (D : Type) where
  | register (base stop : ℕ) (device : D)
  | read (address : ℕ) (data : List UInt8)
  | write (address : ℕ) (data : List UInt8)

def toLeBytes (width value : ℕ) : List UInt8 := (range width).map fun i => .ofNat (value >>> (8*i))

def leTo (width : ℕ) (data : List UInt8) : ℕ :=
  (data.take width).foldr (fun b value => b.toNat+256*value) 0

def fillLe (data bytes : List UInt8) : List UInt8 :=
  bytes.take data.length ++ data.drop bytes.length

namespace Bus
variable (bus : Bus D)

def atOrBelow (a : ℕ) : Option (ℕ × ℕ × D) := (bus.entries.filter (·.1 ≤ a)).getLast?

def atOrAbove (a : ℕ) : Option (ℕ × ℕ × D) := (bus.entries.filter (a ≤ ·.1)).head?

def lookup (address : ℕ) : Option (ℕ × ℕ × D) := (bus.atOrBelow address).filter (address < ·.2.1)

def register (base stop : ℕ) (device : D) : Option BusError × Bus D :=
  if stop ≤ base then (some .emptyRange,bus)
  else match bus.lookup base with
    | some prev => (some (.overlap base prev.2.1),bus)
    | none =>
      match (bus.atOrAbove base).filter (·.1 < stop) with
      | some next => (some (.overlap next.1 next.2.1),bus)
      | none => (none,bus.insert base (stop,device))

def access (address : ℕ) (miss : β) (f : ℕ → D → β × D) : β × Bus D :=
  match bus.lookup address with
  | some (base,_,device) => ((f base device).1,bus.modify base (.map id fun _ => (f base device).2))
  | none => (miss,bus)

variable (k : BusKind D)

def read (address : ℕ) (data : List UInt8) : List UInt8 × Bus D :=
  bus.access address (replicate data.length 0xFF) fun base device =>
    (k.read device (k.target base address) (data.length%256)).map (fillLe data <| toLeBytes k.width ·) id

def write (address : ℕ) (data : List UInt8) : Bus D :=
  (bus.access address () fun base device =>
    ((),k.write device (k.target base address) (data.length%256) (leTo k.width data))).2

def call : BusCall D → Bus D
  | .register base stop device => (bus.register base stop device).2
  | .read address data => (bus.read k address data).2
  | .write address data => bus.write k address data

def after (calls : List (BusCall D)) : Bus D := calls.foldl (call · k) .empty

def Contains (x : ℕ × ℕ × D) (address : ℕ) : Prop := x.1 ≤ address ∧ address < x.2.1

/-- No range is empty, and two ranges have no address in common. -/
structure Apart : Prop where
  nonempty : ∀ x ∈ bus.entries, x.1 < x.2.1
  le_of_lt : ∀ x ∈ bus.entries, ∀ y ∈ bus.entries, x.1 < y.1 → x.2.1 ≤ y.1

variable {bus} {a : ℕ} {x : ℕ × ℕ × D}

lemma atOrBelow_eq_some (h : bus.atOrBelow a = some x) :
    x ∈ bus.entries ∧ x.1 ≤ a ∧ ∀ y ∈ bus.entries, y.1 ≤ a → y.1 ≤ x.1 := by
  obtain ⟨l,hl⟩ := getLast?_eq_some_iff.mp h
  have hx : x ∈ bus.entries.filter (·.1 ≤ a) := hl ▸ mem_append_right _ mem_cons_self
  obtain ⟨hmem,hle⟩ := mem_filter.mp hx
  refine ⟨hmem,of_decide_eq_true hle,fun y hy hya => ?_⟩
  have hsorted := hl ▸ bus.sorted.filter _
  have hy' := hl ▸ mem_filter.mpr ⟨hy,decide_eq_true hya⟩
  rcases mem_append.mp hy' with hy | hy
  · exact le_of_lt ((pairwise_append.mp hsorted).2.2 y hy x mem_cons_self)
  · exact le_of_eq (congrArg _ (mem_singleton.mp hy))

lemma atOrAbove_eq_some (h : bus.atOrAbove a = some x) :
    x ∈ bus.entries ∧ a ≤ x.1 ∧ ∀ y ∈ bus.entries, a ≤ y.1 → x.1 ≤ y.1 := by
  obtain ⟨l,hl⟩ := head?_eq_some_iff.mp h
  have hx : x ∈ bus.entries.filter (a ≤ ·.1) := hl ▸ mem_cons_self
  obtain ⟨hmem,hle⟩ := mem_filter.mp hx
  refine ⟨hmem,of_decide_eq_true hle,fun y hy hay => ?_⟩
  have hsorted := hl ▸ bus.sorted.filter _
  rcases mem_cons.mp (hl ▸ mem_filter.mpr ⟨hy,decide_eq_true hay⟩) with rfl | hy
  · exact le_refl _
  · exact le_of_lt ((pairwise_cons.mp hsorted).1 y hy)

section
variable (h : bus.Apart)
include h

/-- Looking at the nearest entry below is enough. -/
lemma Apart.lookup_eq_some : bus.lookup a = some x ↔ x ∈ bus.entries ∧ Contains x a := by
  rw [lookup,Option.filter_eq_some_iff]
  constructor
  · rintro ⟨hx,hlt⟩
    obtain ⟨hmem,hle,-⟩ := atOrBelow_eq_some hx
    exact ⟨hmem,hle,of_decide_eq_true hlt⟩
  · rintro ⟨hmem,hle,hlt⟩
    refine ⟨?_,decide_eq_true hlt⟩
    cases hp : bus.atOrBelow a with
    | none =>
      have := getLast?_eq_none_iff.mp hp
      exact absurd (mem_filter.mpr ⟨hmem,decide_eq_true hle⟩) (this ▸ not_mem_nil)
    | some p =>
      obtain ⟨hpm,hpa,hmax⟩ := atOrBelow_eq_some hp
      -- An entry between would start inside the range of `x`.
      rcases lt_or_eq_of_le (hmax x hmem hle) with hlt' | heq
      · exact absurd (h.le_of_lt x hmem p hpm hlt') (by omega)
      · rw [eq_of_mem_entries hmem hpm heq]

/-- A range is refused just if it is empty or meets one that is in use. -/
lemma Apart.register_eq (base stop : ℕ) (device : D) :
    (bus.register base stop device).2 = bus ∧
      (stop ≤ base ∨ ∃ x ∈ bus.entries, ∃ a, base ≤ a ∧ a < stop ∧ Contains x a) ∧
        (bus.register base stop device).1 ≠ none ∨
    bus.register base stop device = (none,bus.insert base (stop,device)) ∧
      base < stop ∧ ∀ x ∈ bus.entries, x.1 < stop → x.2.1 ≤ base := by
  rw [register]
  split
  next hempty => exact .inl ⟨rfl,.inl hempty,nofun⟩
  next hpos =>
    split
    next prev hprev =>
      obtain ⟨hmem,hc⟩ := h.lookup_eq_some.mp hprev
      exact .inl ⟨rfl,.inr ⟨prev,hmem,base,Nat.le_refl _,not_le.mp hpos,hc⟩,nofun⟩
    next hprev =>
      split
      next next hnext =>
        obtain ⟨hn,hlt⟩ := Option.filter_eq_some_iff.mp hnext
        obtain ⟨hmem,hle,-⟩ := atOrAbove_eq_some hn
        exact .inl ⟨rfl,.inr ⟨next,hmem,next.1,hle,of_decide_eq_true hlt,Nat.le_refl _,
          h.nonempty next hmem⟩,nofun⟩
      next hnext =>
        refine .inr ⟨rfl,not_le.mp hpos,fun x hx hlt => not_lt.mp fun hend => ?_⟩
        -- A range that is met starts at or below `base`, or between `base` and `stop`.
        by_cases hle : x.1 ≤ base
        · rw [h.lookup_eq_some.mpr ⟨hx,hle,hend⟩] at hprev
          exact nomatch hprev
        · cases hn : bus.atOrAbove base with
          | none =>
            have := head?_eq_none_iff.mp hn
            exact absurd (mem_filter.mpr ⟨hx,decide_eq_true (by omega)⟩) (this ▸ not_mem_nil)
          | some n =>
            have := (atOrAbove_eq_some hn).2.2 x hx (by omega)
            exact Option.filter_eq_none_iff.mp hnext n hn (decide_eq_true (by omega))

lemma Apart.access_eq (hx : x ∈ bus.entries) (ha : Contains x a) (miss : β)
    (f : ℕ → D → β × D) : bus.access a miss f =
      ((f x.1 x.2.2).1,bus.modify x.1 (.map id fun _ => (f x.1 x.2.2).2)) := by
  rw [access,h.lookup_eq_some.mpr ⟨hx,ha⟩]

lemma Apart.access_miss (hx : ∀ x ∈ bus.entries, ¬Contains x a) (miss : β)
    (f : ℕ → D → β × D) : bus.access a miss f = (miss,bus) := by
  rw [access]
  split
  next hl =>
    obtain ⟨hmem,hc⟩ := h.lookup_eq_some.mp hl
    exact absurd hc (hx _ hmem)
  next => rfl

lemma Apart.insert {base stop : ℕ} {device : D} (hpos : base < stop)
    (hfree : ∀ x ∈ bus.entries, x.1 < stop → x.2.1 ≤ base) : Apart (bus.insert base (stop,device)) := by
  constructor
  · intro x hx
    rcases mem_entries_insert_imp hx with rfl | hx
    · exact hpos
    · exact h.nonempty x hx
  · intro x hx y hy hlt
    rcases mem_entries_insert_imp hx with rfl | hx <;>
      rcases mem_entries_insert_imp hy with rfl | hy
    · exact absurd hlt (lt_irrefl _)
    · have := hfree y hy
      have := h.nonempty y hy
      grind
    · have := hfree x hx
      grind
    · exact h.le_of_lt x hx y hy hlt

lemma Apart.modify (base : ℕ) (f : D → D) : Apart (bus.modify base (.map id f)) := by
  have hrange (e : ℕ × ℕ × D) : (if e.1 = base then (e.1,e.2.map id f) else e).1 = e.1 ∧
      (if e.1 = base then (e.1,e.2.map id f) else e).2.1 = e.2.1 := by
    split_ifs <;> exact ⟨rfl,rfl⟩
  refine ⟨forall_mem_map.mpr fun x hx => ?_,
    forall_mem_map.mpr fun x hx => forall_mem_map.mpr fun y hy => ?_⟩
  · rw [(hrange x).1,(hrange x).2]
    exact h.nonempty x hx
  · rw [(hrange x).1,(hrange x).2,(hrange y).1]
    exact h.le_of_lt x hx y hy

lemma Apart.access (miss : β) (f : ℕ → D → β × D) : Apart (bus.access a miss f).2 := by
  rw [Bus.access]
  split
  · exact h.modify _ _
  · exact h

/-- Whatever is called, the ranges stay apart. -/
lemma Apart.call (k : BusKind D) (c : BusCall D) : Apart (bus.call k c) := by
  cases c with
  | register base stop device =>
    rcases h.register_eq base stop device with ⟨heq,-⟩ | ⟨heq,hpos,hfree⟩ <;> rw [Bus.call,heq]
    · exact h
    · exact h.insert hpos hfree
  | read | write => exact h.access _ _

end

lemma apart_after (k : BusKind D) (calls : List (BusCall D)) : (after k calls).Apart :=
  foldlRecOn calls (call · k) ⟨nofun,nofun⟩ fun _ h c _ => h.call k c

/-- **Bus routing is exact.** After any calls the ranges in use are disjoint. A registration is
refused just if its range is empty or meets one in use, and then changes nothing. An access goes to
the device whose range contains the address; without one it reads ones or is dropped. -/
theorem routing (k : BusKind D) (calls : List (BusCall D)) :
    let bus := after k calls
    (bus.entries.Pairwise fun x y => ∀ a, ¬(Contains x a ∧ Contains y a)) ∧
    (∀ base stop device,
      let r := bus.register base stop device
      (r.1 ≠ none ↔ stop ≤ base ∨ ∃ x ∈ bus.entries, ∃ a, base ≤ a ∧ a < stop ∧ Contains x a) ∧
      if r.1 = none then r.2.entries.Perm ((base,stop,device) :: bus.entries) else r.2 = bus) ∧
    ∀ a data, (∀ x ∈ bus.entries, Contains x a →
        let r := k.read x.2.2 (k.target x.1 a) (data.length%256)
        let w := k.write x.2.2 (k.target x.1 a) (data.length%256) (leTo k.width data)
        bus.read k a data =
          (fillLe data (toLeBytes k.width r.1),bus.modify x.1 (.map id fun _ => r.2)) ∧
        bus.write k a data = bus.modify x.1 (.map id fun _ => w)) ∧
      ((∀ x ∈ bus.entries, ¬Contains x a) →
        bus.read k a data = (replicate data.length 0xFF,bus) ∧ bus.write k a data = bus) := by
  intro bus
  have h : bus.Apart := apart_after k calls
  refine ⟨bus.sorted.imp_of_mem fun hx hy hlt a ha => ?_,fun base stop device => ?_,fun a data =>
    ⟨fun x hx ha => ⟨h.access_eq hx ha _ _,?_⟩,fun hx => ⟨h.access_miss hx _ _,?_⟩⟩⟩
  · exact absurd (Nat.lt_of_lt_of_le ha.1.2 (h.le_of_lt _ hx _ hy hlt)) (not_lt.mpr ha.2.1)
  · rcases h.register_eq base stop device with ⟨heq,hbad,hne⟩ | ⟨heq,hpos,hfree⟩
    · exact ⟨iff_of_true hne hbad,(if_neg hne).mpr heq⟩
    · intro r
      rw [show r = _ from heq]
      refine ⟨iff_of_false (not_not.mpr rfl) ?_,insertEntry_perm fun x hx hbase => ?_⟩
      · rintro (hle | ⟨x,hx,a,hle,hlt,hc⟩)
        · exact absurd hpos (not_lt.mpr hle)
        · exact absurd (hfree x hx (Nat.lt_of_le_of_lt hc.1 hlt)) (by have := hc.2; omega)
      · have := hfree x hx (hbase ▸ hpos)
        exact absurd (h.nonempty x hx) (by omega)
  · rw [write,h.access_eq hx ha]
  · rw [write,h.access_miss hx]

end Bus

end Enlil.Devices
