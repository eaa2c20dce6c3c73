import Enlil.Devices.Storage.Qcow.Safe

/-! # The layout of an image -/

namespace Enlil.Devices.Storage
open Prog QcowImage Word Nat

structure Span where
  start : ℕ
  len : ℕ
  deriving DecidableEq

namespace Span

def Apart (a b : Span) : Prop := a.start+a.len ≤ b.start ∨ b.start+b.len ≤ a.start

end Span

inductive Region where
  | header
  | l1Table
  | refcountTable
  | refcountBlock (k : ℕ)
  | l2Table (i : ℕ)
  | data (i j : ℕ)
  deriving DecidableEq

def Region.IsTable : Region → Prop
  | .data _ _ => False
  | _ => True

def IsMapped (entry : ℕ) : Prop := entry &&& oflagZero = 0 ∧ entry &&& l2OffsetMask ≠ 0

instance (entry : ℕ) : Decidable (IsMapped entry) := inferInstanceAs (Decidable (_ ∧ _))

section
variable (h : QcowHeader) (s : QcowImage)

def l2TableOf (i : ℕ) : ℕ := s.l1Table.getD i 0 &&& l2OffsetMask

def l2EntryOf (i j : ℕ) : ℕ := s.file.readBE (l2TableOf s i+8*j) 8

def rtSlots : ℕ := s.rtClusters*2^h.clusterBits/8

def blockOf (k : ℕ) : ℕ := s.file.readBE (s.rtOffset+8*k) 8 &&& reftOffsetMask

def Region.span : Region → Option Span
  | .header => some ⟨0,104⟩
  | .l1Table => some ⟨h.l1TableOffset,8*s.l1Table.length⟩
  | .refcountTable => some ⟨s.rtOffset,8*rtSlots h s⟩
  | .refcountBlock k =>
    if k < rtSlots h s ∧ blockOf s k ≠ 0 then some ⟨blockOf s k,2^h.clusterBits⟩ else none
  | .l2Table i =>
    if l2TableOf s i ≠ 0 then some ⟨l2TableOf s i,2^h.clusterBits⟩ else none
  | .data i j =>
    if l2TableOf s i ≠ 0 ∧ j < 2^h.clusterBits/8 ∧ IsMapped (l2EntryOf s i j) then
      some ⟨l2EntryOf s i j &&& l2OffsetMask,2^h.clusterBits⟩
    else none

/-- The tables lie inside the file, and overlap neither each other nor the data. -/
structure Sound : Prop where
  len_lt : s.file.len < 2^63
  inside : ∀ (r : Region) (sp : Span), r.IsTable → r.span h s = some sp →
    sp.start+sp.len ≤ s.file.len
  apart : ∀ (r r' : Region) (sp sp' : Span), r ≠ r' → r.IsTable → r.span h s = some sp →
    r'.span h s = some sp' → sp.Apart sp'

def slot (c : ℕ) : Option ℕ :=
  if l2TableOf s (c/(2^h.clusterBits/8)) = 0 then none
  else some (l2EntryOf s (c/(2^h.clusterBits/8)) (c%(2^h.clusterBits/8)))

end

def locOf : Option ℕ → ℕ → ClusterLoc
  | none, _ => .unallocated
  | some entry, inCluster =>
    if entry &&& oflagZero ≠ 0 then .zero
    else if entry &&& l2OffsetMask = 0 then .unallocated
    else .mapped ((entry &&& l2OffsetMask)+inCluster)

variable {h : QcowHeader} {s s' : QcowImage}

lemma l2Offset_lt (x : ℕ) : x &&& l2OffsetMask < 2^56 :=
  and_le_right.trans_lt (by decide)

variable {i k pos n c maxLen v : ℕ}

lemma span_l2Table (hi : l2TableOf s i ≠ 0) :
    (Region.l2Table i).span h s = some ⟨l2TableOf s i,2^h.clusterBits⟩ :=
  if_pos hi

lemma span_refcountBlock (hk : k < rtSlots h s) (hblock : blockOf s k ≠ 0) :
    (Region.refcountBlock k).span h s = some ⟨blockOf s k,2^h.clusterBits⟩ :=
  if_pos ⟨hk,hblock⟩

variable {i j : ℕ}

lemma span_data (hi : l2TableOf s i ≠ 0) (hj : j < 2^h.clusterBits/8)
    (hmapped : IsMapped (l2EntryOf s i j)) :
    (Region.data i j).span h s = some ⟨l2EntryOf s i j &&& l2OffsetMask,2^h.clusterBits⟩ :=
  if_pos ⟨hi,hj,hmapped⟩

lemma Sound.of_span (hs : Sound h s) (hlen : s'.file.len = s.file.len)
    (hspan : ∀ (r : Region) sp, r.span h s' = some sp → r.span h s = some sp) : Sound h s' where
  len_lt := hlen ▸ hs.len_lt
  inside r sp hr hsp := hlen ▸ hs.inside r sp hr (hspan r sp hsp)
  apart r r' sp sp' hne hr hsp hsp' := hs.apart r r' sp sp' hne hr (hspan r sp hsp) (hspan r' sp' hsp')

section
variable (hr : h.Readable)
include hr

lemma l1Index_eq (g : ℕ) : g/mul64 (2^h.clusterBits/8) (2^h.clusterBits) =
      g/2^h.clusterBits/(2^h.clusterBits/8) := by
  rw [hr.l1Span_eq,mul_comm,Nat.div_div_eq_div_mul]

lemma l2EntryOff_eq (s : QcowImage) (i : ℕ) {j : ℕ} (hj : j < 2^h.clusterBits/8) :
    add64 (l2TableOf s i) (mul64 j 8) = l2TableOf s i+8*j := by
  have htable : l2TableOf s i < 2^56 := l2Offset_lt _
  have hsize := hr.size_le
  rw [mul64_of_lt (by omega),add64_of_lt (by omega),mul_comm]

lemma l2Index_lt (c : ℕ) : c%(2^h.clusterBits/8) < 2^h.clusterBits/8 :=
  mod_lt _ (Nat.pos_of_ne_zero hr.l2Entries_ne)

lemma l2Entry_le {j : ℕ} (hj : j < 2^h.clusterBits/8) :
    8*j+8 ≤ 2^h.clusterBits := by
  have := hr.eight_le
  omega

end

lemma Sound.l2Entry_inside (hs : Sound h s) (hr : h.Readable) (hi : l2TableOf s i ≠ 0)
    (hj : j < 2^h.clusterBits/8) : l2TableOf s i+8*j+8 ≤ s.file.len := by
  have hinside := hs.inside (.l2Table i) _ trivial (span_l2Table hi)
  have := l2Entry_le hr hj
  dsimp only at hinside
  omega

lemma readBE_eq (hpos : pos+n ≤ s.file.len) (hlt : pos < 2^63) :
    readBE pos n s = some (.ok (s.file.readBE pos n),s) := by
  have hseek : seek pos = pure () := if_pos hlt
  rw [readBE,hseek,pure_bind]
  show (ensure (pos+n ≤ s.file.len) QcowError.unexpectedEof >>= fun _ =>
    (pure (s.file.readBE pos n) : QcowOp ℕ)) s = _
  rw [ensure,if_pos hpos]
  rfl

lemma Sound.readBE_l2Entry (hs : Sound h s) (hr : h.Readable) (hi : l2TableOf s i ≠ 0)
    (hj : j < 2^h.clusterBits/8) :
    readBE (add64 (l2TableOf s i) (mul64 j 8)) 8 s = some (.ok (l2EntryOf s i j),s) := by
  have hinside := hs.l2Entry_inside hr hi hj
  have hlen := hs.len_lt
  rw [l2EntryOff_eq hr s i hj]
  exact readBE_eq hinside (by omega)

lemma bind_eq_of_ok {α β : Type} {x : QcowOp α} {f : α → QcowOp β} {a : α}
    (hx : x s = some (.ok a,s)) : (x >>= f) s = f a s := by
  simp only [Bind.bind,hx]

lemma slot_eq_none (hzero : l2TableOf s (c/(2^h.clusterBits/8)) = 0) : slot h s c = none :=
  if_pos hzero

lemma slot_eq_some (hne : l2TableOf s (c/(2^h.clusterBits/8)) ≠ 0) : slot h s c =
      some (l2EntryOf s (c/(2^h.clusterBits/8)) (c%(2^h.clusterBits/8))) :=
  if_neg hne

lemma l2TableOf_of_length_le (hi : s.l1Table.length ≤ i) : l2TableOf s i = 0 := by
  rw [l2TableOf,List.getD_eq_default _ _ hi,zero_and]

lemma Sound.resolveCluster_eq (hs : Sound h s) (hr : h.Readable) (g : ℕ) :
    resolveCluster h g s =
      some (.ok (locOf (slot h s (g/2^h.clusterBits)) (g%2^h.clusterBits)),s) := by
  rw [resolveCluster,hr.clusterSize_eq,pure_bind,hr.l2Entries_eq,pure_bind,
    div_of_ne hr.l1Span_ne,pure_bind,l1Index_eq hr]
  generalize hc : g/2^h.clusterBits = c
  show (if s.l1Table.length ≤ c/(2^h.clusterBits/8) then _ else _ : QcowOp ClusterLoc) s = _
  by_cases hlen : s.l1Table.length ≤ c/(2^h.clusterBits/8)
  · rw [if_pos hlen,slot_eq_none (l2TableOf_of_length_le hlen)]
    rfl
  rw [if_neg hlen]
  show (if l2TableOf s (c/(2^h.clusterBits/8)) = 0 then _ else _ : QcowOp ClusterLoc) s = _
  by_cases htable : l2TableOf s (c/(2^h.clusterBits/8)) = 0
  · rw [if_pos htable,slot_eq_none htable]
    rfl
  rw [if_neg htable,slot_eq_some htable,rem_of_ne hr.l2Entries_ne,pure_bind]
  refine (bind_eq_of_ok (hs.readBE_l2Entry hr htable (l2Index_lt hr c))).trans ?_
  generalize l2EntryOf s _ _ = entry
  rw [locOf]
  by_cases hzero : entry &&& oflagZero ≠ 0
  · rw [if_pos hzero,if_pos hzero]
    rfl
  rw [if_neg hzero,if_neg hzero]
  by_cases hhost : entry &&& l2OffsetMask = 0
  · rw [if_pos hhost,if_pos hhost]
    rfl
  rw [if_neg hhost,if_neg hhost,sub_of_le Nat.one_le_two_pow,pure_bind,
    and_two_pow_sub_one_eq_mod,add64_of_lt]
  · rfl
  · have hoffset := l2Offset_lt entry
    have hmod := mod_lt g (Nat.two_pow_pos h.clusterBits)
    have hsize := hr.size_le
    omega

section
variable (s : QcowImage) (pos n : ℕ) (f : ℕ → UInt8)

def QcowImage.store : QcowImage :=
  { s with file := s.file.store pos n f }

lemma l2TableOf_store (i : ℕ) : l2TableOf (s.store pos n f) i = l2TableOf s i := rfl

lemma l2EntryOf_store (i j : ℕ) :
    l2EntryOf (s.store pos n f) i j = (s.file.store pos n f).readBE (l2TableOf s i+8*j) 8 := rfl

end
variable {f : ℕ → UInt8}

lemma Region.span_store {r : Region} (hblock : ∀ k, r = .refcountBlock k → k < rtSlots h s →
      blockOf (s.store pos n f) k = blockOf s k)
    (hentry : ∀ i j, r = .data i j → l2TableOf s i ≠ 0 → j < 2^h.clusterBits/8 →
      l2EntryOf (s.store pos n f) i j = l2EntryOf s i j) :
    r.span h (s.store pos n f) = r.span h s := by
  cases r with
  | header => rfl
  | l1Table => rfl
  | refcountTable => rfl
  | l2Table i => rfl
  | refcountBlock k =>
    by_cases hk : k < rtSlots h s
    · simp only [Region.span,hblock k rfl hk]
      rfl
    · rw [Region.span,Region.span,if_neg fun hc => hk hc.1,if_neg fun hc => hk hc.1]
  | data i j =>
    by_cases hi : l2TableOf s i ≠ 0 ∧ j < 2^h.clusterBits/8
    · simp only [Region.span,hentry i j rfl hi.1 hi.2]
      rfl
    · rw [Region.span,Region.span,if_neg fun hc => hi ⟨hc.1,hc.2.1⟩,
        if_neg fun hc => hi ⟨hc.1,hc.2.1⟩]

structure WritesIn (h : QcowHeader) (s : QcowImage) (r : Region) (pos n : ℕ) : Prop where
  pos_lt : 0 < n
  table : r.IsTable
  span : ∃ sp, r.span h s = some sp ∧ sp.start ≤ pos ∧ pos+n ≤ sp.start+sp.len

namespace WritesIn
variable {r : Region} {pos n : ℕ} {f : ℕ → UInt8}
section
variable (hw : WritesIn h s r pos n) (hs : Sound h s)
include hw hs

lemma le_len : pos+n ≤ s.file.len := by
  obtain ⟨sp,hsp,-,hle⟩ := hw.span
  exact hle.trans (hs.inside r sp hw.table hsp)

lemma len_store : (s.store pos n f).file.len = s.file.len :=
  max_eq_left (hw.le_len hs)

variable {p m k i j : ℕ}

lemma byte_eq {r' : Region} (hne : r' ≠ r) {sp' : Span}
    (hsp' : r'.span h s = some sp') (hstart : sp'.start ≤ p) (hstop : p < sp'.start+sp'.len)
    (hlen : p < s.file.len) : (s.store pos n f).file.byte p = s.file.byte p := by
  obtain ⟨sp,hsp,hle,hge⟩ := hw.span
  have hapart := hs.apart r r' sp sp' hne.symm hw.table hsp hsp'
  refine Buf.byte_store_of_not_mem hlen ?_
  rcases hapart with hleft | hright <;> omega

lemma readBE_eq {r' : Region} (hne : r' ≠ r) {sp' : Span}
    (hsp' : r'.span h s = some sp') (hstart : sp'.start ≤ p)
    (hstop : p+m ≤ sp'.start+sp'.len) (hlen : p+m ≤ s.file.len) :
    (s.store pos n f).file.readBE p m = s.file.readBE p m :=
  Buf.readBE_congr fun _ _ _ => hw.byte_eq hs hne hsp' (by omega) (by omega) (by omega)

lemma blockOf_eq (hne : r ≠ .refcountTable)
    (hk : k < rtSlots h s) : blockOf (s.store pos n f) k = blockOf s k := by
  have hspan : Region.refcountTable.span h s = some ⟨s.rtOffset,8*rtSlots h s⟩ := rfl
  have hinside := hs.inside .refcountTable _ trivial hspan
  dsimp only at hinside
  have hread := hw.readBE_eq (f := f) hs hne.symm hspan (le_add_right s.rtOffset (8*k))
    (show s.rtOffset+8*k+8 ≤ s.rtOffset+8*rtSlots h s by omega) (by omega)
  exact congrArg (· &&& reftOffsetMask) hread

lemma l2EntryOf_eq (hr : h.Readable)
    (hne : r ≠ .l2Table i) (hi : l2TableOf s i ≠ 0) (hj : j < 2^h.clusterBits/8) :
    l2EntryOf (s.store pos n f) i j = l2EntryOf s i j := by
  have hle := l2Entry_le hr hj
  exact hw.readBE_eq hs hne.symm (span_l2Table hi) (le_add_right (l2TableOf s i) (8*j))
    (show l2TableOf s i+8*j+8 ≤ l2TableOf s i+2^h.clusterBits by omega)
    (hs.l2Entry_inside hr hi hj)

lemma span_eq (hr : h.Readable)
    (hrt : r ≠ .refcountTable) (hl2 : ∀ i, r ≠ .l2Table i) (r' : Region) :
    r'.span h (s.store pos n f) = r'.span h s := by
  refine Region.span_store (fun k _ hk => ?_) fun i j _ hi hj => ?_
  · exact hw.blockOf_eq hs hrt hk
  · exact hw.l2EntryOf_eq hs hr (hl2 i) hi hj

end
end WritesIn
variable {err : QcowError → QcowImage → Prop} {ok : Unit → QcowImage → Prop}

lemma wlp_writeAll (hn : 0 < n)
    (hok : pos+n ≤ maxLen → ok () (s.store pos n f)) (herr : ∀ e, err e s) :
    (writeAll maxLen pos n f).wlp s ok err := by
  rw [writeAll,if_neg hn.ne']
  simp only [seek,wlp_bind,wlp_ensure,wlp_modify]
  exact ⟨fun _ => ⟨hok,fun _ => herr _⟩,fun _ => herr _⟩

lemma wlp_writeBE (hn : 0 < n)
    (hok : pos+n ≤ maxLen → ok () (s.store pos n fun i => .ofNat (v/256^(n-1-i))))
    (herr : ∀ e, err e s) : (writeBE maxLen pos n v).wlp s ok err :=
  wlp_writeAll hn hok herr

def blockEntries (h : QcowHeader) : ℕ := 2^h.clusterBits*8/2^h.refcountOrder

structure BlockAt (h : QcowHeader) (s : QcowImage) (index off : ℕ) : Prop where
  order_lt : h.refcountOrder < 32
  entries_ne : blockEntries h ≠ 0
  slot_lt : index/blockEntries h < rtSlots h s
  block : blockOf s (index/blockEntries h) = off
  off_ne : off ≠ 0

lemma refcountBlockEntries_eq (hr : h.Readable) (horder : h.refcountOrder < 32) :
    h.refcountBlockEntries = pure (blockEntries h) := by
  have hsize := hr.size_le
  have hbits : h.refcountBits = pure (2^h.refcountOrder) := oneShl_of_lt horder
  rw [QcowHeader.refcountBlockEntries,hr.clusterSize_eq,pure_bind,hbits,pure_bind,
    mul64_of_lt (by omega)]
  rfl

lemma refcountBlockEntries_eq_none (hr : h.Readable) (horder : ¬ h.refcountOrder < 32) :
    h.refcountBlockEntries s = none := by
  have hbits : h.refcountBits s = none := bind_eq_none (assert_eq_panic horder)
  rw [QcowHeader.refcountBlockEntries,hr.clusterSize_eq,pure_bind]
  exact bind_eq_none hbits

section
variable (hs : Sound h s)
include hs

lemma Sound.rtEntries_eq (hr : h.Readable) :
    rtEntries h s = some (.ok (rtSlots h s),s) := by
  have hinside := hs.inside .refcountTable _ trivial rfl
  have hlen := hs.len_lt
  have hmul : mul64 s.rtClusters (2^h.clusterBits) = s.rtClusters*2^h.clusterBits := by
    refine mul64_of_lt ?_
    have : 8*rtSlots h s ≤ s.file.len := by
      dsimp only at hinside
      omega
    rw [rtSlots] at this
    omega
  rw [Storage.rtEntries_eq hr,hmul]
  rfl

lemma Sound.readBE_block {k : ℕ} (hk : k < rtSlots h s) :
    readBE (add64 s.rtOffset (mul64 k 8)) 8 s =
      some (.ok (s.file.readBE (s.rtOffset+8*k) 8),s) := by
  have hinside := hs.inside .refcountTable _ trivial rfl
  have hlen := hs.len_lt
  dsimp only at hinside
  rw [mul64_of_lt (by omega),add64_of_lt (by omega),mul_comm k 8]
  exact readBE_eq (by omega) (by omega)

lemma Sound.wlp_refcountBlockOffset (hr : h.Readable) (index : ℕ) :
    (refcountBlockOffset h index).wlp s
      (fun block s' => s' = s ∧ ∀ off, block = some off → BlockAt h s index off)
      (fun _ s' => s' = s) := by
  by_cases horder : h.refcountOrder < 32
  · rw [refcountBlockOffset,refcountBlockEntries_eq hr horder,pure_bind,wlp_bind,wlp_div]
    intro hentries
    rw [wlp_bind]
    refine wlp.intro_ok (hs.rtEntries_eq hr) ?_
    rw [wlp_ite]
    refine ⟨fun _ => ⟨rfl,by simp⟩,fun hlt => ?_⟩
    have hslot := Nat.lt_of_not_le hlt
    simp only [wlp_bind,wlp_gets,id]
    refine wlp.intro_ok (hs.readBE_block hslot) ⟨rfl,fun off hoff => ?_⟩
    split at hoff
    · cases hoff
    case _ hne =>
      have hoff := Option.some.inj hoff
      exact ⟨horder,hentries,hslot,hoff,fun hz => hne (hoff ▸ hz)⟩
  · exact wlp.of_none (bind_eq_none (refcountBlockEntries_eq_none hr horder))

lemma Sound.wlp_writeRefcount (hr : h.Readable) (maxLen index value : ℕ) :
    (writeRefcount h maxLen index value).wlp s
      (fun _ s' => ∃ k pos n f, WritesIn h s (.refcountBlock k) pos n ∧ s' = s.store pos n f)
      (fun _ s' => s' = s) := by
  rw [writeRefcount,wlp_bind]
  refine (hs.wlp_refcountBlockOffset hr index).mono ?_ fun _ _ herr => herr
  rintro block s' ⟨rfl,hblock⟩
  cases block with
  | none => rfl
  | some off =>
    obtain ⟨horder,hentries,hslot,hoff,hne⟩ := hblock off rfl
    have hbits : h.refcountBits = pure (2^h.refcountOrder) := oneShl_of_lt horder
    dsimp only
    rw [refcountBlockEntries_eq hr horder,pure_bind,rem_of_ne hentries,pure_bind,hbits,pure_bind]
    split
    case _ w hw =>
      obtain ⟨hwidth,hpos⟩ := eight_mul_width hw
      refine wlp_writeBE hpos (fun _ => ⟨index/blockEntries h,_,w,_,⟨hpos,trivial,_,
        span_refcountBlock hslot (hoff ▸ hne),?_⟩,rfl⟩) fun _ => rfl
      -- The entry ends inside the block, which ends inside the file.
      have hinside := hs.inside (.refcountBlock (index/blockEntries h)) _ trivial
        (span_refcountBlock hslot (hoff ▸ hne))
      have hlen := hs.len_lt
      have hentry : (index%blockEntries h+1)*w ≤ 2^h.clusterBits := by
        refine entry_le ?_
        rw [← hwidth]
        exact mod_lt _ (Nat.pos_of_ne_zero hentries)
      rw [add_mul,one_mul] at hentry
      dsimp only at hinside ⊢
      rw [hoff] at hinside ⊢
      rw [mul64_of_lt (by omega),add64_of_lt (by omega)]
      omega
    case _ => rfl

lemma Sound.wlp_readRefcount (hr : h.Readable) (index : ℕ) :
    (readRefcount h index).wlp s (fun _ s' => s' = s) (fun _ s' => s' = s) := by
  rw [readRefcount,wlp_bind]
  refine (hs.wlp_refcountBlockOffset hr index).mono ?_ fun _ _ herr => herr
  rintro block s' ⟨rfl,hblock⟩
  cases block with
  | none => rfl
  | some off =>
    obtain ⟨horder,hentries,-⟩ := hblock off rfl
    have hbits : h.refcountBits = pure (2^h.refcountOrder) := oneShl_of_lt horder
    have hread : ∀ pos n, (readBE pos n).wlp s' (fun _ s'' => s'' = s') (fun _ s'' => s'' = s') :=
      fun pos n => (isQuery_readBE pos n).wlp_eq
    dsimp only
    rw [refcountBlockEntries_eq hr horder,pure_bind,rem_of_ne hentries,pure_bind,hbits,
      pure_bind,wlp_ite]
    refine ⟨fun _ => ?_,fun _ => ?_⟩
    · rw [wlp_bind]
      refine (hread _ _).mono ?_ fun _ _ herr => herr
      rintro _ _ rfl
      simp
    · split
      · exact hread _ _
      · rfl

end

def setSlot (h : QcowHeader) (s : QcowImage) (c v : ℕ) : QcowImage :=
  s.store (l2TableOf s (c/(2^h.clusterBits/8))+8*(c%(2^h.clusterBits/8))) 8
    fun i => .ofNat (v/256^(8-1-i))

section
variable {c c' v : ℕ}

lemma writesIn_setSlot (hr : h.Readable) (hne : l2TableOf s (c/(2^h.clusterBits/8)) ≠ 0) :
    WritesIn h s (.l2Table (c/(2^h.clusterBits/8)))
      (l2TableOf s (c/(2^h.clusterBits/8))+8*(c%(2^h.clusterBits/8))) 8 where
  pos_lt := by decide
  table := trivial
  span := by
    have := l2Entry_le hr (l2Index_lt hr c)
    exact ⟨_,span_l2Table hne,le_add_right _ _,by dsimp only; omega⟩

lemma slot_setSlot_self (hne : l2TableOf s (c/(2^h.clusterBits/8)) ≠ 0) (hv : v < 2^64) :
    slot h (setSlot h s c v) c = some v := by
  have htable : l2TableOf (setSlot h s c v) (c/(2^h.clusterBits/8)) ≠ 0 := hne
  rw [slot_eq_some htable,setSlot,l2EntryOf_store,Buf.readBE_store hv]

section
variable (hs : Sound h s) (hr : h.Readable) (hne : l2TableOf s (c/(2^h.clusterBits/8)) ≠ 0)
include hs hr hne

lemma l2EntryOf_setSlot {i j : ℕ} (hi : l2TableOf s i ≠ 0) (hj : j < 2^h.clusterBits/8)
    (hother : i ≠ c/(2^h.clusterBits/8) ∨ j ≠ c%(2^h.clusterBits/8)) :
    l2EntryOf (setSlot h s c v) i j = l2EntryOf s i j := by
  by_cases hsame : i = c/(2^h.clusterBits/8)
  · have hjne : j ≠ c%(2^h.clusterBits/8) := hother.resolve_left fun hi' => hi' hsame
    have happart : l2TableOf s i+8*j+8 ≤
          l2TableOf s (c/(2^h.clusterBits/8))+8*(c%(2^h.clusterBits/8)) ∨
        l2TableOf s (c/(2^h.clusterBits/8))+8*(c%(2^h.clusterBits/8))+8 ≤
          l2TableOf s i+8*j := by
      rw [hsame]
      generalize c%(2^h.clusterBits/8) = j' at hjne ⊢
      omega
    rw [setSlot,l2EntryOf_store,l2EntryOf]
    exact Buf.readBE_store_of_disjoint (hs.l2Entry_inside hr hi hj) happart
  · have htable : Region.l2Table (c/(2^h.clusterBits/8)) ≠ .l2Table i :=
      fun heq => hsame (Region.l2Table.inj heq).symm
    exact (writesIn_setSlot hr hne).l2EntryOf_eq hs hr htable hi hj

lemma slot_setSlot_of_ne (hc : c' ≠ c) :
    slot h (setSlot h s c v) c' = slot h s c' := by
  by_cases htable : l2TableOf s (c'/(2^h.clusterBits/8)) = 0
  · rw [slot_eq_none htable,slot_eq_none]
    exact htable
  · have htable' : l2TableOf (setSlot h s c v) (c'/(2^h.clusterBits/8)) ≠ 0 := htable
    rw [slot_eq_some htable,slot_eq_some htable',
      l2EntryOf_setSlot hs hr hne htable (l2Index_lt hr c')]
    by_contra heq
    rw [not_or,not_not,not_not] at heq
    refine hc ?_
    rw [← div_add_mod c' (2^h.clusterBits/8),heq.1,heq.2,div_add_mod]

lemma span_setSlot {r : Region}
    (hdata : r ≠ .data (c/(2^h.clusterBits/8)) (c%(2^h.clusterBits/8))) :
    r.span h (setSlot h s c v) = r.span h s := by
  refine Region.span_store (fun k _ hk => ?_) fun i j hij hi hj => ?_
  · exact (writesIn_setSlot hr hne).blockOf_eq hs nofun hk
  · refine l2EntryOf_setSlot hs hr hne hi hj ?_
    by_contra heq
    rw [not_or,not_not,not_not] at heq
    exact hdata (by rw [hij,heq.1,heq.2])

end
end
end Enlil.Devices.Storage
