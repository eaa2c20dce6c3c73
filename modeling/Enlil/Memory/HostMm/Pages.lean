import Enlil.Memory.HostMm.Regions

/-! # Pages, frames and the ledger -/

namespace Enlil.Memory
open Word Paging List Prog

attribute [local irreducible] Prog.wp

structure Page where
  va : ℕ
  frame : ℕ
  prot : UInt8
  owned : Bool

def Page.cell (p : Page) : Cell := ⟨p.va,p.prot,p.owned⟩

def ledger (pages : List Page) : Multiset ℕ :=
  ↑((pages.filter (·.owned)).map Page.frame)

/-- The extra flags in use, and what a leaf shows of its protection. -/
structure Policy where
  Extra : ℕ → Prop
  Shows : UInt8 → ℕ → Prop
  extra_lt : ∀ {x}, Extra x → x < 2^64
  extra_addr : ∀ {x}, Extra x → x &&& frameAddrMask = 0
  shows_pte : ∀ {x pa prot}, Extra x → Shows prot (pteEntry pa (protFlags prot ||| x))
  shows_reprotect : ∀ {w prot prot'}, Shows prot w →
    Shows prot' ((w &&& not64 (Flags.writable ||| Flags.noExecute)) ||| protFlags prot')

variable {F : Type} {P : Policy} {Held : F → Multiset ℕ → Prop}
  {s t : HostAddressSpace} {a b : F} {E E' : Multiset ℕ} {p : Page} {pages pages' : List Page}
  {n va pa extraFlags : ℕ} {prot : UInt8}

/-- The leaf of a page carries its frame and shows its protection. -/
def Page.Live (P : Policy) (s : HostAddressSpace) (p : Page) : Prop :=
  ∃ w, s.leafAt p.va = some w ∧ (w &&& frameAddrMask)/4096 = p.frame ∧ P.Shows p.prot w

/-- The tables hold exactly `pages`, and the frames out are theirs and those of `E`. -/
structure Holds (P : Policy) (Held : F → Multiset ℕ → Prop) (s : HostAddressSpace) (a : F)
    (E : Multiset ℕ) (pages : List Page) : Prop where
  tables : s.TableInv fun _ => none
  nodup : (pages.map Page.va).Nodup
  valid : ∀ p ∈ pages, p.va%4096 = 0 ∧ p.va < 2^48
  live : ∀ p ∈ pages, p.Live P s
  only : ∀ va, va%4096 = 0 → va < 2^48 → s.leafAt va ≠ none → ∃ p ∈ pages, p.va = va
  held : Held a (E+ledger pages)

lemma ledger_cons :
    ledger (p :: pages) = if p.owned then p.frame ::ₘ ledger pages else ledger pages := by
  rw [ledger,filter_cons]
  split_ifs <;> rfl

lemma ledger_perm (h : pages.Perm pages') : ledger pages = ledger pages' :=
  Multiset.coe_eq_coe.mpr ((h.filter _).map _)

section
variable (h : Holds P Held s a E pages)
include h

lemma Holds.perm (hp : pages.Perm pages') :
    Holds P Held s a E pages' := by
  refine ⟨h.tables,(hp.map Page.va).nodup_iff.mp h.nodup,?_,?_,?_,?_⟩
  · exact fun p hmem => h.valid p (hp.mem_iff.mpr hmem)
  · exact fun p hmem => h.live p (hp.mem_iff.mpr hmem)
  · intro va hal hcanon hleaf
    obtain ⟨p,hmem,hva⟩ := h.only va hal hcanon hleaf
    exact ⟨p,hp.mem_iff.mp hmem,hva⟩
  · rw [← ledger_perm hp]
    exact h.held

lemma Holds.of_held (hheld : Held b (E'+ledger pages)) : Holds P Held s b E' pages :=
  ⟨h.tables,h.nodup,h.valid,h.live,h.only,hheld⟩

lemma Holds.of_leaves (ht : t.TableInv fun _ => none)
    (hleaf : ∀ va, t.leafAt va = s.leafAt va) (hheld : Held b (E+ledger pages)) :
    Holds P Held t b E pages := by
  refine ⟨ht,h.nodup,h.valid,?_,?_,hheld⟩
  · intro q hq
    rw [Page.Live,hleaf]
    exact h.live q hq
  · intro va' hal hcanon
    rw [hleaf]
    exact h.only va' hal hcanon

omit h in
lemma HostAddressSpace.TableInv.setMappings {H : HugeLeaves} (h : s.TableInv H)
    (mappings : List Region) : TableInv { s with mappings := mappings } H :=
  ⟨h.root,h.cursor,h.used,h.inside,h.phys,h.tree,h.huge⟩

lemma Holds.setMappings (mappings : List Region) :
    Holds P Held { s with mappings := mappings } a E pages :=
  ⟨h.tables.setMappings mappings,h.nodup,h.valid,h.live,h.only,h.held⟩

omit h in
lemma page_index_ne {va va' : ℕ} (h : va%4096 = 0) (h' : va'%4096 = 0) (hlt : va < 2^48)
    (hlt' : va' < 2^48) (hne : va ≠ va') : va/4096%2^36 ≠ va'/4096%2^36 := by
  omega

lemma Holds.va_notMem (hnone : s.leafAt va = none) {p : Page}
    (hp : p ∈ pages) : p.va ≠ va := by
  rintro rfl
  obtain ⟨w,hw,-⟩ := h.live p hp
  rw [hnone] at hw
  cases hw

lemma Holds.add (htables : t.TableInv fun _ => none) (hva : p.va%4096 = 0)
    (hcanon : p.va < 2^48) (hnone : s.leafAt p.va = none) (hlive : p.Live P t)
    (hframe : ∀ va', va'/4096%2^36 ≠ p.va/4096%2^36 → t.leafAt va' = s.leafAt va')
    (hE : E'+ledger (p :: pages) = E+ledger pages) :
    Holds P Held t a E' (p :: pages) := by
  refine ⟨htables,?_,?_,?_,?_,?_⟩
  · rw [map_cons,nodup_cons,List.mem_map]
    refine ⟨?_,h.nodup⟩
    rintro ⟨q,hq,hqv⟩
    exact h.va_notMem hnone hq hqv
  · intro q hq
    obtain rfl | hq := mem_cons.mp hq
    · exact ⟨hva,hcanon⟩
    · exact h.valid q hq
  · intro q hq
    obtain rfl | hq := mem_cons.mp hq
    · exact hlive
    · obtain ⟨hqal,hqlt⟩ := h.valid q hq
      rw [Page.Live,hframe q.va (page_index_ne hqal hva hqlt hcanon (h.va_notMem hnone hq))]
      exact h.live q hq
  · intro va' hal hlt hleaf
    by_cases hsame : va' = p.va
    · exact ⟨p,mem_cons_self,hsame.symm⟩
    · rw [hframe va' (page_index_ne hal hva hlt hcanon hsame)] at hleaf
      obtain ⟨q,hq,hqv⟩ := h.only va' hal hlt hleaf
      exact ⟨q,mem_cons_of_mem p hq,hqv⟩
  · rw [hE]
    exact h.held

end
section
variable (h : Holds P Held s a E (p :: pages))
include h

lemma Holds.head_notMem {q : Page} (hq : q ∈ pages) :
    q.va ≠ p.va := by
  have hnodup := h.nodup
  rw [map_cons,nodup_cons,List.mem_map] at hnodup
  exact fun hqv => hnodup.1 ⟨q,hq,hqv⟩

lemma Holds.remove (htables : t.TableInv fun _ => none) (hnone : t.leafAt p.va = none)
    (hframe : ∀ va', va'/4096%2^36 ≠ p.va/4096%2^36 → t.leafAt va' = s.leafAt va')
    (hE : E'+ledger pages = E+ledger (p :: pages)) : Holds P Held t a E' pages := by
  obtain ⟨hva,hcanon⟩ := h.valid p mem_cons_self
  refine ⟨htables,?_,?_,?_,?_,?_⟩
  · have hnodup := h.nodup
    rw [map_cons,nodup_cons] at hnodup
    exact hnodup.2
  · exact fun q hq => h.valid q (mem_cons_of_mem p hq)
  · intro q hq
    obtain ⟨hqal,hqlt⟩ := h.valid q (mem_cons_of_mem p hq)
    rw [Page.Live,hframe q.va (page_index_ne hqal hva hqlt hcanon (h.head_notMem hq))]
    exact h.live q (mem_cons_of_mem p hq)
  · intro va' hal hlt hleaf
    have hne : va' ≠ p.va := by
      rintro rfl
      exact hleaf hnone
    rw [hframe va' (page_index_ne hal hva hlt hcanon hne)] at hleaf
    obtain ⟨q,hq,hqv⟩ := h.only va' hal hlt hleaf
    obtain rfl | hq := mem_cons.mp hq
    · exact absurd hqv.symm hne
    · exact ⟨q,hq,hqv⟩
  · rw [hE]
    exact h.held

lemma Holds.replace (htables : t.TableInv fun _ => none)
    (hlive : ({ p with prot := prot } : Page).Live P t)
    (hframe : ∀ va', va'/4096%2^36 ≠ p.va/4096%2^36 → t.leafAt va' = s.leafAt va') :
    Holds P Held t a E ({ p with prot := prot } :: pages) := by
  obtain ⟨hva,hcanon⟩ := h.valid p mem_cons_self
  refine ⟨htables,h.nodup,?_,?_,?_,?_⟩
  · intro q hq
    obtain rfl | hq := mem_cons.mp hq
    · exact ⟨hva,hcanon⟩
    · exact h.valid q (mem_cons_of_mem p hq)
  · intro q hq
    obtain rfl | hq := mem_cons.mp hq
    · exact hlive
    · obtain ⟨hqal,hqlt⟩ := h.valid q (mem_cons_of_mem p hq)
      rw [Page.Live,hframe q.va (page_index_ne hqal hva hqlt hcanon (h.head_notMem hq))]
      exact h.live q (mem_cons_of_mem p hq)
  · intro va' hal hlt hleaf
    by_cases hsame : va' = p.va
    · exact ⟨_,mem_cons_self,hsame.symm⟩
    · rw [hframe va' (page_index_ne hal hva hlt hcanon hsame)] at hleaf
      obtain ⟨q,hq,hqv⟩ := h.only va' hal hlt hleaf
      obtain rfl | hq := mem_cons.mp hq
      · exact absurd hqv.symm hsame
      · exact ⟨q,mem_cons_of_mem _ hq,hqv⟩
  · have hledger : ledger ({ p with prot := prot } :: pages) = ledger (p :: pages) := by
      rw [ledger_cons,ledger_cons]
    rw [hledger]
    exact h.held

end
namespace HostAddressSpace

lemma frame_pte (hextra : P.Extra extraFlags) (hpa : pa%4096 = 0) (hlt : pa < 2^52) :
    (pteEntry pa (protFlags prot ||| extraFlags) &&& frameAddrMask)/4096 = pa/4096 := by
  have hflags : (protFlags prot ||| extraFlags) &&& frameAddrMask = 0 := by
    have hprot : protFlags prot &&& frameAddrMask = 0 := by
      rw [protFlags]
      split_ifs <;> decide
    rw [Nat.and_or_distrib_right,hprot,P.extra_addr hextra]
    rfl
  have haddr : pteEntry pa (protFlags prot ||| extraFlags) &&& frameAddrMask = pa :=
    (and_or_and_self hflags).trans (and_frameAddrMask_of_aligned hpa hlt)
  rw [haddr]

lemma frame_reprotect {w : ℕ} :
    ((w &&& not64 (Flags.writable ||| Flags.noExecute)) ||| protFlags prot) &&& frameAddrMask =
      w &&& frameAddrMask := by
  have hprot : protFlags prot &&& frameAddrMask = 0 := by
    rw [protFlags]
    split_ifs <;> decide
  have hmask : not64 (Flags.writable ||| Flags.noExecute) &&& frameAddrMask = frameAddrMask := by
    decide
  rw [Nat.and_or_distrib_right,hprot,Nat.or_zero,Nat.and_assoc,hmask]

lemma wp_mapPage {owned : Bool} (h : Holds P Held s a E pages) (hextra : P.Extra extraFlags)
    (hlt : pa < 2^52)
    (hE : E'+ledger (⟨va,pa/4096,prot,owned⟩ :: pages) = E+ledger pages) :
    (mapPage va pa prot extraFlags).wp s (fun _ t => Shell s t ∧ va%4096 = 0 ∧ va < 2^48 ∧
        Holds P Held t a E' (⟨va,pa/4096,prot,owned⟩ :: pages))
      (fun _ t => Shell s t ∧ Holds P Held t a E pages) := by
  refine (h.tables.wp_mapPage (P.extra_lt hextra)).mono ?_ ?_
  · rintro _ t ⟨ht,hgrown,⟨hva,hcanon,-⟩,hpa,hnone,hleaf,hframe⟩
    refine ⟨hgrown.shell,hva,hcanon,h.add ht hva hcanon hnone ?_ hframe hE⟩
    exact ⟨_,hleaf,frame_pte hextra hpa hlt,P.shows_pte hextra⟩
  · rintro _ t ⟨ht,hshell,hleaf,-⟩
    exact ⟨hshell,h.of_leaves ht hleaf h.held⟩

def handAfter (p : Page) (E : Multiset ℕ) : Multiset ℕ := if p.owned then p.frame ::ₘ E else E

lemma wp_unmapPage (h : Holds P Held s a E (p :: pages)) :
    (unmapPage p.va).wp s
      (fun o t => o = some ⟨p.frame⟩ ∧ Shell s t ∧ Holds P Held t a (handAfter p E) pages)
      (fun _ _ => False) := by
  obtain ⟨hva,hcanon⟩ := h.valid p mem_cons_self
  obtain ⟨w,hleaf,hframe,-⟩ := h.live p mem_cons_self
  refine h.tables.wp_unmapPage.mono ?_ fun _ _ hfail => hfail.2 ⟨hva,hcanon,rfl⟩
  rintro _ t ⟨ht,hshell,rfl,hnone,hother⟩
  refine ⟨?_,hshell,h.remove ht hnone hother ?_⟩
  · rw [hleaf,← hframe]
    rfl
  · rw [ledger_cons,handAfter]
    split_ifs
    · rw [Multiset.add_cons,Multiset.cons_add]
    · rfl

lemma wp_reprotectPage (h : Holds P Held s a E (p :: pages)) : (reprotectPage p.va prot).wp s
      (fun _ t => Shell s t ∧ Holds P Held t a E ({ p with prot := prot } :: pages))
      (fun _ _ => False) := by
  obtain ⟨w,hleaf,hframe,hshows⟩ := h.live p mem_cons_self
  refine h.tables.wp_reprotectPage.mono ?_ ?_
  · rintro _ t ⟨ht,hshell,⟨old,hold,hnew⟩,hother⟩
    obtain rfl : w = old := Option.some.inj (hleaf.symm.trans hold)
    refine ⟨hshell,h.replace ht ⟨_,hnew,?_,P.shows_reprotect hshows⟩ hother⟩
    rw [frame_reprotect]
    exact hframe
  · rintro _ _ ⟨-,hnone⟩
    exact absurd (hleaf.symm.trans hnone) (by simp)

section Frames
variable [FrameSource F]

def numbers (frames : List PhysFrame) : Multiset ℕ := ↑(frames.map PhysFrame.number)

lemma numbers_cons (f : PhysFrame) (frames : List PhysFrame) :
    numbers (f :: frames) = f.number ::ₘ numbers frames := rfl

lemma numbers_append (l l' : List PhysFrame) : numbers (l ++ l') = numbers l+numbers l' := by
  rw [numbers,map_append]
  rfl

lemma wp_allocFrame (law : FrameSource.Lawful F Held) (h : Held a E) :
    (allocFrame (F := F)).wp (s,a) (fun o q => q.1 = s ∧ ((o = none ∧ Held q.2 E) ∨
        ∃ f, o = some f ∧ f.number < 2^40 ∧ Held q.2 (f.number ::ₘ E)))
      (fun _ _ => False) := by
  obtain ⟨o,a',halloc,hres⟩ := law.alloc h
  have hrun : allocFrame (s,a) = some (.ok o,(s,a')) := by
    show (FrameSource.allocFrame a).map _ = _
    rw [halloc]
    rfl
  exact Prog.wp.intro_ok hrun ⟨rfl,hres⟩

variable {f : PhysFrame} {frames phys : List PhysFrame}
section
variable (law : FrameSource.Lawful F Held)
include law

lemma wp_freeFrame (h : Held a (f.number ::ₘ E)) :
    (freeFrame (F := F) f).wp (s,a) (fun _ q => q.1 = s ∧ Held q.2 E) (fun _ _ => False) := by
  obtain ⟨a',hfree,hheld⟩ := law.free h
  have hrun : freeFrame f (s,a) = some (.ok (),(s,a')) := by
    show (FrameSource.freeFrame a f).map _ = _
    rw [hfree]
    rfl
  exact Prog.wp.intro_ok hrun ⟨rfl,hheld⟩

lemma holds_freeFrame (h : Holds P Held s a (f.number ::ₘ E) pages) :
    (freeFrame (F := F) f).wp (s,a) (fun _ q => q.1 = s ∧ Holds P Held s q.2 E pages)
      (fun _ _ => False) := by
  have hheld := h.held
  rw [Multiset.cons_add] at hheld
  exact (wp_freeFrame law hheld).mono (fun _ _ hq => ⟨hq.1,h.of_held hq.2⟩) fun _ _ hf => hf

lemma wp_freeFrames (h : Held a (numbers frames+E)) :
    (freeFrames (F := F) frames).wp (s,a) (fun _ q => q.1 = s ∧ Held q.2 E)
      (fun _ _ => False) := by
  induction frames generalizing a with
  | nil =>
    rw [freeFrames,wp_pure]
    rw [show numbers [] = 0 from rfl,Multiset.zero_add] at h
    exact ⟨rfl,h⟩
  | cons f rest ih =>
    rw [numbers_cons,Multiset.cons_add] at h
    rw [freeFrames,wp_bind]
    refine (wp_freeFrame law h).mono ?_ fun _ _ hf => hf
    rintro _ ⟨_,a'⟩ ⟨rfl,h'⟩
    exact ih h'

lemma wp_allocFrames (hphys : ∀ f ∈ phys, f.number < 2^40) (h : Held a (numbers phys+E)) :
    (allocFrames (F := F) n phys).wp (s,a)
      (fun frames q => q.1 = s ∧ frames.length = phys.length+n ∧
        (∀ f ∈ frames, f.number < 2^40) ∧ Held q.2 (numbers frames+E))
      (fun _ q => q.1 = s ∧ Held q.2 E) := by
  induction n generalizing phys a with
  | zero =>
    rw [allocFrames,wp_pure]
    exact ⟨rfl,rfl,hphys,h⟩
  | succ n ih =>
    rw [allocFrames,wp_bind]
    refine (wp_allocFrame law h).mono ?_ fun _ _ hf => hf.elim
    rintro _ ⟨_,a'⟩ ⟨rfl,⟨rfl,h'⟩ | ⟨f,rfl,hlt,h'⟩⟩
    · simp only [wp_bind,wp_throw]
      exact (wp_freeFrames law h').mono (fun _ _ hq => hq) fun _ _ hf => hf.elim
    · have hall : ∀ g ∈ phys ++ [f], g.number < 2^40 := by
        intro g hg
        obtain hg | rfl := (mem_append.mp hg).imp id mem_singleton.mp
        · exact hphys g hg
        · exact hlt
      have hnum : numbers (phys ++ [f])+E = f.number ::ₘ (numbers phys+E) := by
        rw [numbers_append,← Multiset.cons_add,numbers_cons]
        show numbers phys + {f.number} + E = _
        rw [Multiset.add_comm (numbers phys)]
        rfl
      refine (ih hall (hnum ▸ h')).mono ?_ fun _ _ hq => hq
      rintro frames q ⟨hs,hlen,hrest⟩
      refine ⟨hs,?_,hrest⟩
      rw [hlen,length_append,length_singleton]
      omega

end
end Frames
end HostAddressSpace
end Enlil.Memory
