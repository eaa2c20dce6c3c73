import Enlil.Devices.Storage.Qcow.Layout

/-! # Allocating in a sound image -/

namespace Enlil.Devices.Storage
open Prog QcowImage List Word Buf Option Nat Storage
open Nat (two_pow_pos)

/-- Clusters have at least 512 bytes, offsets fit into L2 entries, and a refcount table of the
largest size covers every host file. -/
structure Spacious (h : QcowHeader) (maxLen : ℕ) : Prop extends h.Allocatable where
  nine_le : 9 ≤ h.clusterBits
  maxLen_le : maxLen ≤ 2^56
  reach : maxLen ≤ (2^32-1)*(2^h.clusterBits/8)*blockEntries h*2^h.clusterBits

/-- A sound image whose regions end at or below `B`. No table has a byte of `Z`, and the bytes of `Z`
are those of `f₀`. -/
structure Guarded (h : QcowHeader) (maxLen : ℕ) (Z : ℕ → Prop) (f₀ : ℕ → UInt8) (B : ℕ)
    (s : QcowImage) : Prop where
  sound : Sound h s
  le : B ≤ s.file.len
  len_le : s.file.len ≤ maxLen
  rt_lt : s.rtClusters < 2^32
  rt_ge : h.refcountTableClusters ≤ s.rtClusters
  inside : ∀ (r : Region) (sp : Span), r.span h s = some sp → sp.start+sp.len ≤ B
  avoids : ∀ (r : Region) (sp : Span), r.IsTable → r.span h s = some sp → ∀ p, sp.start ≤ p →
    p < sp.start+sp.len → ¬ Z p
  bound : ∀ p, Z p → p < B
  bytes : ∀ p, Z p → s.file.byte p = f₀ p

variable {h : QcowHeader} {maxLen B B' : ℕ} {Z : ℕ → Prop} {f₀ : ℕ → UInt8} {s s' : QcowImage}

lemma Spacious.maxLen_lt (hh : Spacious h maxLen) : maxLen < 2^63 :=
  hh.maxLen_le.trans_lt (by decide)

lemma Guarded.len_lt (hg : Guarded h maxLen Z f₀ B s) (hh : Spacious h maxLen) :
    s.file.len < 2^63 :=
  hg.len_le.trans_lt hh.maxLen_lt

/-! ### Changes behind the regions -/

/-- A change that leaves the tables in memory and all bytes below a bound alone. -/
structure EqBelow (B : ℕ) (s s' : QcowImage) : Prop where
  l1Table : s'.l1Table = s.l1Table
  rtOffset : s'.rtOffset = s.rtOffset
  rtClusters : s'.rtClusters = s.rtClusters
  bytes : ∀ p < B, s'.file.byte p = s.file.byte p

namespace EqBelow
variable (he : EqBelow B s s')
include he

lemma l2TableOf_eq (i : ℕ) : l2TableOf s' i = l2TableOf s i := by
  rw [l2TableOf,l2TableOf,he.l1Table]

lemma rtSlots_eq : rtSlots h s' = rtSlots h s := by
  rw [rtSlots,rtSlots,he.rtClusters]

lemma readBE_eq {p n : ℕ} (hp : p+n ≤ B) : s'.file.readBE p n = s.file.readBE p n :=
  readBE_congr fun i _ hi => he.bytes i (by omega)

section
variable (hg : Guarded h maxLen Z f₀ B s)
include hg

lemma l2EntryOf_eq (hr : h.Readable)
    {i j : ℕ} (hi : l2TableOf s i ≠ 0) (hj : j < 2^h.clusterBits/8) :
    l2EntryOf s' i j = l2EntryOf s i j := by
  have hinside := hg.inside _ _ (span_l2Table hi)
  have hle := l2Entry_le hr hj
  dsimp only at hinside
  rw [l2EntryOf,l2EntryOf,he.l2TableOf_eq]
  exact he.readBE_eq (by omega)

lemma blockOf_eq {k : ℕ} (hk : k < rtSlots h s) : blockOf s' k = blockOf s k := by
  have hinside := hg.inside .refcountTable _ rfl
  dsimp only at hinside
  rw [blockOf,blockOf,he.rtOffset,he.readBE_eq (by omega)]

lemma span_eq (hr : h.Readable)
    (r : Region) : r.span h s' = r.span h s := by
  cases r with
  | header => rfl
  | l1Table => rw [Region.span,Region.span,he.l1Table]
  | refcountTable => rw [Region.span,Region.span,he.rtOffset,he.rtSlots_eq]
  | l2Table i => rw [Region.span,Region.span,he.l2TableOf_eq]
  | refcountBlock k =>
    rw [Region.span,Region.span,he.rtSlots_eq]
    by_cases hk : k < rtSlots h s
    · rw [he.blockOf_eq hg hk]
    · rw [if_neg fun hc => hk hc.1,if_neg fun hc => hk hc.1]
  | data i j =>
    rw [Region.span,Region.span,he.l2TableOf_eq]
    by_cases hi : l2TableOf s i ≠ 0 ∧ j < 2^h.clusterBits/8
    · rw [he.l2EntryOf_eq hg hr hi.1 hi.2]
    · rw [if_neg fun hc => hi ⟨hc.1,hc.2.1⟩,if_neg fun hc => hi ⟨hc.1,hc.2.1⟩]

lemma slot_eq (hr : h.Readable) (c : ℕ) :
    slot h s' c = slot h s c := by
  rw [slot,slot,he.l2TableOf_eq]
  split
  · rfl
  case _ hne => rw [he.l2EntryOf_eq hg hr hne (l2Index_lt hr c)]

lemma guarded (hh : Spacious h maxLen)
    (hB : B ≤ s'.file.len) (hlen : s'.file.len ≤ maxLen) : Guarded h maxLen Z f₀ B s' where
  sound := by
    refine ⟨hlen.trans_lt hh.maxLen_lt,fun r sp _ hsp => ?_,fun r r' sp sp' hne hr hsp hsp' => ?_⟩
    · rw [he.span_eq hg hh.toReadable] at hsp
      exact (hg.inside r sp hsp).trans hB
    · rw [he.span_eq hg hh.toReadable] at hsp hsp'
      exact hg.sound.apart r r' sp sp' hne hr hsp hsp'
  le := hB
  len_le := hlen
  rt_lt := he.rtClusters ▸ hg.rt_lt
  rt_ge := he.rtClusters ▸ hg.rt_ge
  inside r sp hsp := hg.inside r sp (he.span_eq hg hh.toReadable r ▸ hsp)
  avoids r sp hr hsp := hg.avoids r sp hr (he.span_eq hg hh.toReadable r ▸ hsp)
  bound := hg.bound
  bytes p hp := (he.bytes p (hg.bound p hp)).trans (hg.bytes p hp)

end
end EqBelow

lemma Guarded.eqBelow_resize (hg : Guarded h maxLen Z f₀ B s) (n : ℕ) :
    EqBelow B s { s with file := s.file.resize n } :=
  ⟨rfl,rfl,rfl,fun _ hp => byte_resize_of_lt (hp.trans_le hg.le)⟩

lemma Guarded.eqBelow_store (hg : Guarded h maxLen Z f₀ B s) {pos n : ℕ} (hpos : B ≤ pos)
    (f : ℕ → UInt8) : EqBelow B s (s.store pos n f) :=
  ⟨rfl,rfl,rfl,fun _ hp => byte_store_of_not_mem (hp.trans_le hg.le) (.inl (hp.trans_le hpos))⟩

/-! ### Changes inside tables that move nothing -/

/-- A change inside the regions that moves none of them. -/
structure Inert (h : QcowHeader) (B : ℕ) (s s' : QcowImage) : Prop where
  l1Table : s'.l1Table = s.l1Table
  rtOffset : s'.rtOffset = s.rtOffset
  rtClusters : s'.rtClusters = s.rtClusters
  len : s'.file.len = s.file.len
  slot : ∀ c, slot h s' c = slot h s c
  bytes : ∀ p, B ≤ p → p < s.file.len → s'.file.byte p = s.file.byte p

lemma Inert.refl (h : QcowHeader) (B : ℕ) (s : QcowImage) : Inert h B s s :=
  ⟨rfl,rfl,rfl,rfl,fun _ => rfl,fun _ _ _ => rfl⟩

variable {s'' : QcowImage}

lemma Inert.trans (hi : Inert h B s s') (hi' : Inert h B s' s'') : Inert h B s s'' :=
  ⟨hi'.l1Table.trans hi.l1Table,hi'.rtOffset.trans hi.rtOffset,hi'.rtClusters.trans hi.rtClusters,
    hi'.len.trans hi.len,fun c => (hi'.slot c).trans (hi.slot c),
    fun p hp hlt => (hi'.bytes p hp (hi.len ▸ hlt)).trans (hi.bytes p hp hlt)⟩

section
variable {r : Region} {pos n : ℕ} {f : ℕ → UInt8} (hw : WritesIn h s r pos n)
  (hg : Guarded h maxLen Z f₀ B s)
include hw hg

lemma WritesIn.byte_eq_of_mem {p : ℕ}
    (hp : Z p) : (s.store pos n f).file.byte p = s.file.byte p := by
  obtain ⟨sp,hsp,hle,hge⟩ := hw.span
  refine byte_store_of_not_mem ((hg.bound p hp).trans_le hg.le) ?_
  by_contra hmem
  exact hg.avoids r sp hw.table hsp p (by omega) (by omega) hp

lemma WritesIn.le_bound :
    pos+n ≤ B := by
  obtain ⟨sp,hsp,-,hge⟩ := hw.span
  exact hge.trans (hg.inside r sp hsp)

lemma WritesIn.guarded (hr : h.Readable) (hrt : r ≠ .refcountTable) (hl2 : ∀ i, r ≠ .l2Table i) :
    Guarded h maxLen Z f₀ B (s.store pos n f) where
  sound := hg.sound.of_span (hw.len_store hg.sound) fun r' sp hsp => by
    rwa [hw.span_eq hg.sound hr hrt hl2] at hsp
  le := (hw.len_store hg.sound).symm ▸ hg.le
  len_le := (hw.len_store hg.sound).symm ▸ hg.len_le
  rt_lt := hg.rt_lt
  rt_ge := hg.rt_ge
  inside r' sp hsp := hg.inside r' sp (hw.span_eq hg.sound hr hrt hl2 r' ▸ hsp)
  avoids r' sp ht hsp := hg.avoids r' sp ht (hw.span_eq hg.sound hr hrt hl2 r' ▸ hsp)
  bound := hg.bound
  bytes p hp := (hw.byte_eq_of_mem hg hp).trans (hg.bytes p hp)

lemma WritesIn.inert
    (hr : h.Readable) (hl2 : ∀ i, r ≠ .l2Table i) : Inert h B s (s.store pos n f) where
  l1Table := rfl
  rtOffset := rfl
  rtClusters := rfl
  len := hw.len_store hg.sound
  slot c := by
    rw [slot,slot,l2TableOf_store]
    split
    · rfl
    case _ hne => rw [hw.l2EntryOf_eq hg.sound hr (hl2 _) hne (l2Index_lt hr c)]
  bytes p hp hlt := by
    have := hw.le_bound hg
    exact byte_store_of_not_mem hlt (by omega)

end
variable (hg : Guarded h maxLen Z f₀ B s) (hh : Spacious h maxLen)

/-- The image is still guarded after a change that moved nothing. -/
def Settled (h : QcowHeader) (maxLen : ℕ) (Z : ℕ → Prop) (f₀ : ℕ → UInt8) (B : ℕ)
    (s s' : QcowImage) : Prop :=
  Guarded h maxLen Z f₀ B s' ∧ Inert h B s s'

lemma Guarded.settled (hg : Guarded h maxLen Z f₀ B s) : Settled h maxLen Z f₀ B s s :=
  ⟨hg,.refl h B s⟩

lemma Settled.trans (hs : Settled h maxLen Z f₀ B s s')
    (hs' : Settled h maxLen Z f₀ B s' s'') : Settled h maxLen Z f₀ B s s'' :=
  ⟨hs'.1,hs.2.trans hs'.2⟩

section
include hg hh

lemma wlp_writeRefcount (index value : ℕ) :
    (writeRefcount h maxLen index value).wlp s (fun _ => Settled h maxLen Z f₀ B s)
      (fun _ => Settled h maxLen Z f₀ B s) := by
  refine (hg.sound.wlp_writeRefcount hh.toReadable maxLen index value).mono ?_ ?_
  · rintro _ _ ⟨k,pos,n,f,hw,rfl⟩
    exact ⟨hw.guarded hg hh.toReadable nofun nofun,hw.inert hg hh.toReadable nofun⟩
  · rintro _ _ rfl
    exact hg.settled

lemma wlp_freeOldTable (oldFirst oldClusters : ℕ) :
    (freeOldTable h maxLen oldFirst oldClusters).wlp s (fun _ => Settled h maxLen Z f₀ B s)
      (fun _ => Settled h maxLen Z f₀ B s) := by
  refine wlp_forN (fun _ => Settled h maxLen Z f₀ B s) hg.settled fun k s₁ _ hs₁ => ?_
  rw [wlp_bind]
  refine (hs₁.1.sound.wlp_readRefcount hh.toReadable _).mono ?_ ?_
  · rintro rc _ rfl
    exact (wlp_writeRefcount hs₁.1 hh _ _).mono (fun _ _ => hs₁.trans) fun _ _ => hs₁.trans
  · rintro _ _ rfl
    exact hs₁

lemma wlp_writeHeader {pos n : ℕ} (hn : 0 < n) (hpos : pos+n ≤ 104) (v : ℕ) :
    (writeBE maxLen pos n v).wlp s (fun _ => Settled h maxLen Z f₀ B s)
      (fun _ => Settled h maxLen Z f₀ B s) := by
  have hw : WritesIn h s .header pos n :=
    ⟨hn,trivial,_,rfl,zero_le _,by simpa using hpos⟩
  exact wlp_writeBE hn
    (fun _ => ⟨hw.guarded hg hh.toReadable nofun nofun,hw.inert hg hh.toReadable nofun⟩)
    fun _ => hg.settled

lemma wlp_retireTable (newOff newClusters oldFirst oldClusters : ℕ) :
    (do
      writeBE maxLen 48 8 newOff
      writeBE maxLen 56 4 newClusters
      freeOldTable h maxLen oldFirst oldClusters : QcowOp Unit).wlp s
      (fun _ => Settled h maxLen Z f₀ B s) (fun _ => Settled h maxLen Z f₀ B s) := by
  rw [wlp_bind]
  refine (wlp_writeHeader hg hh (by decide) (by decide) newOff).mono ?_ fun _ _ herr => herr
  intro _ s₁ hs₁
  rw [wlp_bind]
  refine (wlp_writeHeader hs₁.1 hh (by decide) (by decide) newClusters).mono ?_
    fun _ _ herr => hs₁.trans herr
  intro _ s₂ hs₂
  exact (wlp_freeOldTable hs₂.1 hh oldFirst oldClusters).mono
    (fun _ _ hs₃ => hs₁.trans (hs₂.trans hs₃)) fun _ _ herr => hs₁.trans (hs₂.trans herr)

/-! ### New regions -/

section
variable (hB : B ≤ B') (hB' : B' ≤ s'.file.len) (hlen : s'.file.len ≤ maxLen)
include hB hB' hlen

lemma Guarded.extend (hrt : s'.rtClusters < 2^32) (hge : h.refcountTableClusters ≤ s'.rtClusters)
    (hspan : ∀ (r : Region) (sp : Span), r.span h s' = some sp →
      r.span h s = some sp ∨ B ≤ sp.start ∧ sp.start+sp.len ≤ B')
    (hnew : ∀ (r r' : Region) (sp sp' : Span), r ≠ r' → r.span h s' = some sp →
      r'.span h s' = some sp' → r.span h s ≠ some sp → r'.span h s ≠ some sp' → sp.Apart sp')
    (hbytes : ∀ p, Z p → s'.file.byte p = s.file.byte p) : Guarded h maxLen Z f₀ B' s' := by
  have hinside : ∀ (r : Region) (sp : Span), r.span h s' = some sp → sp.start+sp.len ≤ B' := by
    intro r sp hsp
    rcases hspan r sp hsp with hold | ⟨-,hle⟩
    · exact (hg.inside r sp hold).trans hB
    · exact hle
  refine ⟨⟨hlen.trans_lt hh.maxLen_lt,fun r sp _ hsp => (hinside r sp hsp).trans hB',?_⟩,hB',hlen,
    hrt,hge,hinside,?_,fun p hp => (hg.bound p hp).trans_le hB,
    fun p hp => (hbytes p hp).trans (hg.bytes p hp)⟩
  · intro r r' sp sp' hne htable hsp hsp'
    by_cases hold : r.span h s = some sp
    · by_cases hold' : r'.span h s = some sp'
      · exact hg.sound.apart r r' sp sp' hne htable hold hold'
      · have hstart := ((hspan r' sp' hsp').resolve_left hold').1
        exact .inl ((hg.inside r sp hold).trans hstart)
    · by_cases hold' : r'.span h s = some sp'
      · have hstart := ((hspan r sp hsp).resolve_left hold).1
        exact .inr ((hg.inside r' sp' hold').trans hstart)
      · exact hnew r r' sp sp' hne hsp hsp' hold hold'
  · intro r sp htable hsp p hp hlt hz
    rcases hspan r sp hsp with hold | ⟨hstart,-⟩
    · exact hg.avoids r sp htable hold p hp hlt hz
    · exact absurd (hg.bound p hz) (by omega)

lemma Guarded.extend_one (hrt : s'.rtClusters = s.rtClusters)
    (r₀ : Region) (hspan : ∀ r : Region, r ≠ r₀ → r.span h s' = r.span h s)
    (hnew : ∀ sp, r₀.span h s' = some sp → B ≤ sp.start ∧ sp.start+sp.len ≤ B')
    (hbytes : ∀ p, Z p → s'.file.byte p = s.file.byte p) : Guarded h maxLen Z f₀ B' s' := by
  refine hg.extend hh hB hB' hlen (hrt ▸ hg.rt_lt) (hrt ▸ hg.rt_ge) ?_ ?_ hbytes
  · intro r sp hsp
    by_cases hr : r = r₀
    · exact .inr (hnew sp (hr ▸ hsp))
    · exact .inl (hspan r hr ▸ hsp)
  · intro r r' sp sp' hne hsp hsp' hfresh hfresh'
    have hr : r = r₀ := by
      by_contra hr
      exact hfresh (hspan r hr ▸ hsp)
    have hr' : r' = r₀ := by
      by_contra hr'
      exact hfresh' (hspan r' hr' ▸ hsp')
    exact absurd (hr.trans hr'.symm) hne

end
end

/-- Nothing of the image is changed but where its refcounts are. -/
structure Kept (h : QcowHeader) (maxLen : ℕ) (Z : ℕ → Prop) (f₀ : ℕ → UInt8) (s s' : QcowImage) :
    Prop where
  guarded : ∃ B, Guarded h maxLen Z f₀ B s'
  l1Table : s'.l1Table = s.l1Table
  slot : ∀ c, slot h s' c = slot h s c

lemma Kept.trans (hk : Kept h maxLen Z f₀ s s') (hk' : Kept h maxLen Z f₀ s' s'') :
    Kept h maxLen Z f₀ s s'' :=
  ⟨hk'.guarded,hk'.l1Table.trans hk.l1Table,fun c => (hk'.slot c).trans (hk.slot c)⟩

lemma Guarded.kept (hg : Guarded h maxLen Z f₀ B s) : Kept h maxLen Z f₀ s s :=
  ⟨⟨B,hg⟩,rfl,fun _ => rfl⟩

lemma Settled.kept (hs : Settled h maxLen Z f₀ B s s') : Kept h maxLen Z f₀ s s' :=
  ⟨⟨B,hs.1⟩,hs.2.l1Table,hs.2.slot⟩

lemma EqBelow.kept (he : EqBelow B s s') (hg : Guarded h maxLen Z f₀ B s) (hh : Spacious h maxLen)
    (hB : B ≤ s'.file.len) (hlen : s'.file.len ≤ maxLen) : Kept h maxLen Z f₀ s s' :=
  ⟨⟨B,he.guarded hg hh hB hlen⟩,he.l1Table,he.slot_eq hg hh.toReadable⟩

/-! ### A new refcount block -/

variable {off : ℕ}

lemma reftOffset_eq (hoff : 512 ∣ off) (hlt : off < 2^64) :
    off &&& reftOffsetMask = off := by
  obtain ⟨k,rfl⟩ := hoff
  have hmask := and_shifted_mask (512*k) 55 9
  rw [show (2^55-1)*2^9 = reftOffsetMask by rfl] at hmask
  rw [hmask]
  omega

lemma Spacious.dvd_size (hh : Spacious h maxLen) : 512 ∣ 2^h.clusterBits :=
  pow_dvd_pow 2 hh.nine_le

section
variable {k off : ℕ}

lemma writesIn_refcountTable (hk : k < rtSlots h s) :
    WritesIn h s .refcountTable (s.rtOffset+8*k) 8 :=
  ⟨by decide,trivial,_,rfl,le_add_right _ _,by dsimp only; omega⟩

lemma blockOf_store (s : QcowImage) (pos n : ℕ) (f : ℕ → UInt8) (k : ℕ) :
    blockOf (s.store pos n f) k =
      (s.file.store pos n f).readBE (s.rtOffset+8*k) 8 &&& reftOffsetMask := rfl

lemma blockOf_store_of_ne (hg : Guarded h maxLen Z f₀ B s) {k' : ℕ} (hk' : k' < rtSlots h s)
    (hne : k' ≠ k) (f : ℕ → UInt8) : blockOf (s.store (s.rtOffset+8*k) 8 f) k' = blockOf s k' := by
  have hinside := hg.sound.inside .refcountTable _ trivial rfl
  dsimp only at hinside
  rw [blockOf_store,readBE_store_of_disjoint (by omega) (by omega),blockOf]

include hg hh in
lemma Guarded.publish_block
    (hk : k < rtSlots h s) (hB : B ≤ off) (hoff : off+2^h.clusterBits ≤ s.file.len)
    (hdvd : 512 ∣ off) :
    Kept h maxLen Z f₀ s
      (s.store (s.rtOffset+8*k) 8 fun i => .ofNat (off/256^(8-1-i))) := by
  have hw := writesIn_refcountTable hk
  have hlen := hg.len_lt hh
  refine ⟨⟨off+2^h.clusterBits,hg.extend_one hh
    (hB.trans (Nat.le_add_right _ _)) ?_ ?_ rfl (.refcountBlock k) ?_ ?_ ?_⟩,
    rfl,(hw.inert hg hh.toReadable nofun).slot⟩
  · rw [hw.len_store hg.sound]
    exact hoff
  · rw [hw.len_store hg.sound]
    exact hg.len_le
  · intro r hne
    refine Region.span_store (fun k' hr hk' => ?_) fun i j _ hi hj => ?_
    · exact blockOf_store_of_ne hg hk' (fun heq => hne (hr.trans (heq ▸ rfl))) _
    · exact hw.l2EntryOf_eq hg.sound hh.toReadable nofun hi hj
  · intro sp hsp
    have hlt : off < 2^63 := (Nat.le_of_add_right_le hoff).trans_lt hlen
    have hblock : blockOf (s.store (s.rtOffset+8*k) 8 fun i => .ofNat (off/256^(8-1-i))) k
        = off := by
      rw [blockOf_store,readBE_store (show off < 256^8 by omega),reftOffset_eq hdvd (by omega)]
    rw [Region.span,hblock] at hsp
    obtain ⟨-,heq⟩ := ite_none_right_eq_some.mp hsp
    cases heq
    exact ⟨hB,le_rfl⟩
  · exact fun p hp => hw.byte_eq_of_mem hg hp

end

/-! ### A larger refcount table -/

/-- A table behind the regions that has the entries of the old one, then pointers to new blocks that
follow it. -/
structure NewTable (h : QcowHeader) (s : QcowImage) (newOff newClusters blkStart nb topSlot : ℕ) :
    Prop where
  blocks : blkStart*2^h.clusterBits = newOff+newClusters*2^h.clusterBits
  stop_le : (blkStart+nb)*2^h.clusterBits ≤ s.file.len
  top_lt : topSlot < rtSlots h s+nb
  old : ∀ k < rtSlots h s, s.file.readBE (newOff+8*k) 8 = s.file.readBE (s.rtOffset+8*k) 8
  new : ∀ k, rtSlots h s ≤ k → k < newClusters*2^h.clusterBits/8 → s.file.readBE (newOff+8*k) 8 =
      if k ≤ topSlot then (blkStart+(k-rtSlots h s))*2^h.clusterBits else 0

namespace NewTable
variable {newOff newClusters blkStart nb topSlot : ℕ}
section
variable (hn : NewTable h s newOff newClusters blkStart nb topSlot)
include hn

lemma span_cases (hh : Spacious h maxLen) (hlen : s.file.len < 2^63) {r : Region} {sp : Span}
    (hsp : r.span h { s with rtOffset := newOff, rtClusters := newClusters } = some sp) :
    r.span h s = some sp ∨ r = .refcountTable ∧ sp = ⟨newOff,8*(newClusters*2^h.clusterBits/8)⟩ ∨
      ∃ k, r = .refcountBlock k ∧ rtSlots h s ≤ k ∧ k ≤ topSlot ∧
        sp = ⟨(blkStart+(k-rtSlots h s))*2^h.clusterBits,2^h.clusterBits⟩ := by
  cases r with
  | header => exact .inl hsp
  | l1Table => exact .inl hsp
  | l2Table i => exact .inl hsp
  | data i j => exact .inl hsp
  | refcountTable => exact .inr (.inl ⟨rfl,(some.inj hsp).symm⟩)
  | refcountBlock k =>
    obtain ⟨⟨hk,hne⟩,heq⟩ := ite_none_right_eq_some.mp hsp
    have hblock : blockOf { s with rtOffset := newOff, rtClusters := newClusters } k =
        s.file.readBE (newOff+8*k) 8 &&& reftOffsetMask := rfl
    by_cases hold : k < rtSlots h s
    · left
      rw [hblock,hn.old k hold] at hne heq
      rw [span_refcountBlock hold hne]
      exact heq
    · right
      right
      have hread := hn.new k (Nat.le_of_not_lt hold) hk
      rw [hblock,hread] at hne heq
      by_cases htop : k ≤ topSlot
      · have htopLt := hn.top_lt
        have hstop : (blkStart+(k-rtSlots h s))*2^h.clusterBits ≤
            (blkStart+nb)*2^h.clusterBits := mul_le_mul_right _ (by omega)
        have hlt := (hstop.trans hn.stop_le).trans_lt hlen
        rw [if_pos htop,reftOffset_eq (hh.dvd_size.mul_left _) (by omega)] at heq
        exact ⟨k,rfl,Nat.le_of_not_lt hold,htop,(some.inj heq).symm⟩
      · rw [if_neg htop] at hne
        exact absurd (zero_and _) hne

lemma kept (hg : Guarded h maxLen Z f₀ B s) (hh : Spacious h maxLen) (hB : B ≤ newOff)
    (hlt : newClusters < 2^32) (hge : h.refcountTableClusters ≤ newClusters) :
    Kept h maxLen Z f₀ s { s with rtOffset := newOff, rtClusters := newClusters } := by
  have hlen := hg.len_lt hh
  have hblocks := hn.blocks
  have htopLt := hn.top_lt
  have hsize : 8*(newClusters*2^h.clusterBits/8) ≤ newClusters*2^h.clusterBits :=
    mul_div_le _ _
  have hstart : ∀ k, blkStart*2^h.clusterBits ≤ (blkStart+(k-rtSlots h s))*2^h.clusterBits :=
    fun k => mul_le_mul_right _ (le_add_right _ _)
  refine ⟨⟨(blkStart+nb)*2^h.clusterBits,hg.extend hh ?_ hn.stop_le hg.len_le hlt hge ?_ ?_
    fun _ _ => rfl⟩,rfl,fun _ => rfl⟩
  · have := mul_le_mul_right (2^h.clusterBits) (le_add_right blkStart nb)
    omega
  · intro r sp hsp
    rcases hn.span_cases hh hlen hsp with hold | ⟨-,rfl⟩ | ⟨k,-,hle,htop,rfl⟩
    · exact .inl hold
    · have := mul_le_mul_right (2^h.clusterBits) (le_add_right blkStart nb)
      exact .inr ⟨hB,by dsimp only; omega⟩
    · have := hstart k
      refine .inr ⟨by dsimp only; omega,?_⟩
      rw [← succ_mul]
      exact mul_le_mul_right _ (by omega)
  · intro r r' sp sp' hne hsp hsp' hfresh hfresh'
    rcases (hn.span_cases hh hlen hsp).resolve_left hfresh with ⟨rfl,rfl⟩ | ⟨k,rfl,hle,-,rfl⟩ <;>
      rcases (hn.span_cases hh hlen hsp').resolve_left hfresh' with
        ⟨rfl,rfl⟩ | ⟨k',rfl,hle',-,rfl⟩
    · exact absurd rfl hne
    · have := hstart k'
      exact .inl (by dsimp only; omega)
    · have := hstart k
      exact .inr (by dsimp only; omega)
    · rcases Nat.lt_or_gt_of_ne (show k ≠ k' from fun heq => hne (heq ▸ rfl)) with hlt | hgt
      · left
        rw [← succ_mul]
        exact mul_le_mul_right _ (by omega)
      · right
        rw [← succ_mul]
        exact mul_le_mul_right _ (by omega)

end
end NewTable

lemma wlp_readExact (s : QcowImage) (pos n : ℕ) :
    (readExact pos n).wlp s (fun bytes s' => s' = s ∧ bytes = s.file.slice pos n)
      (fun _ s' => s' = s) := by
  simp only [readExact,seek,wlp_bind,wlp_ensure,wlp_gets,wlp_pure]
  exact ⟨fun _ => ⟨fun _ => ⟨trivial,rfl⟩,fun _ => trivial⟩,fun _ => trivial⟩

structure TableOf (cs : ℕ) (s : QcowImage) (oldOff oldEntries newClusters blkStart stop : ℕ)
    (table : Buf) : Prop where
  len : table.len = newClusters*cs
  old : ∀ k < oldEntries, table.readBE (8*k) 8 = s.file.readBE (oldOff+8*k) 8
  new : ∀ k, oldEntries ≤ k → k < newClusters*cs/8 →
    table.readBE (8*k) 8 = if k < stop then (blkStart+(k-oldEntries))*cs else 0

section
variable {cs rbe len rtIndex oldClusters oldEntries newClusters : ℕ}
variable {oldOff blkStart k topSlot nb : ℕ}

lemma tableOf_put (s : QcowImage) (hentries : 8*oldEntries = oldClusters*cs) :
    TableOf cs s oldOff oldEntries newClusters blkStart oldEntries
      ((zeros (newClusters*cs)).put 0 (s.file.slice oldOff (oldClusters*cs))) where
  len := rfl
  old k hk := by
    refine readBE_eq_readBE fun i hi => ?_
    rw [← Nat.zero_add (8*k+i),byte_put_of_mem (by rw [length_slice]; omega),
      getD_slice (by omega),Nat.add_assoc]
  new k hbeyond hk := by
    rw [if_neg (Nat.not_lt.mpr hbeyond)]
    refine readBE_eq_zero fun i hi => ?_
    rw [byte_put_of_not_mem (by rw [length_slice]; omega)]
    rfl

lemma TableOf.writeBE {table : Buf}
    (ht : TableOf cs s oldOff oldEntries newClusters blkStart (oldEntries+k) table)
    (hlt : (blkStart+k)*cs < 2^64) :
    TableOf cs s oldOff oldEntries newClusters blkStart (oldEntries+(k+1))
      (table.writeBE ((oldEntries+k)*8) 8 ((blkStart+k)*cs)) where
  len := ht.len
  old j hj := by
    rw [readBE_writeBE_of_disjoint (by omega)]
    exact ht.old j hj
  new j hle hj := by
    by_cases hk : j = oldEntries+k
    · rw [hk,Nat.mul_comm 8,readBE_writeBE hlt,if_pos (by omega),Nat.add_sub_cancel_left]
    · rw [readBE_writeBE_of_disjoint (by omega),ht.new j hle hj]
      by_cases hjk : j < oldEntries+k
      · rw [if_pos hjk,if_pos (by omega)]
      · rw [if_neg hjk,if_neg (by omega)]

lemma wlp_buildTable (s : QcowImage)
    (ha : Arena cs rbe len rtIndex oldClusters oldEntries newClusters)
    (hentries : 8*oldEntries = oldClusters*cs) (hfirst : oldEntries ≤ topSlot)
    (htop : topSlot < newClusters*cs/8) (hroom : topSlot < oldEntries+nb)
    (hend : (blkStart+nb)*cs < 2^64) :
    (buildTable cs oldOff oldClusters newClusters blkStart oldEntries topSlot).wlp s
      (fun table s' => s' = s ∧
        TableOf cs s oldOff oldEntries newClusters blkStart (topSlot+1) table)
      (fun _ s' => s' = s) := by
  have hbytes := ha.bytes_lt
  have hclusters : blkStart+nb < 2^64 :=
    (Nat.le_mul_of_pos_right _ (by have := ha.eight_le; omega)).trans_lt hend
  have hold : oldClusters*cs ≤ newClusters*cs := mul_le_mul_right _ ha.grows.le
  rw [buildTable,mul64_of_lt (show newClusters*cs < 2^64 by omega),
    mul64_of_lt (show oldClusters*cs < 2^64 by omega)]
  simp only [wlp_bind,wlp_assert]
  intro _
  refine (wlp_readExact s _ _).mono ?_ fun _ _ herr => herr
  rintro _ s' ⟨hs',rfl⟩
  rw [hs']
  refine (wlp_foldN (fun k (table : Buf) s' => s' = s ∧
    TableOf cs s oldOff oldEntries newClusters blkStart (oldEntries+k) table)
    ⟨rfl,tableOf_put s hentries⟩ ?_).mono ?_ fun _ _ herr => herr
  · rintro k table s₁ hk ⟨hs₁,ht⟩
    have hp : mul64 (oldEntries+k) 8 = (oldEntries+k)*8 := mul64_of_lt (by omega)
    have hle : (blkStart+k)*cs ≤ (blkStart+nb)*cs := mul_le_mul_right _ (by omega)
    have hv : mul64 (add64 blkStart k) cs = (blkStart+k)*cs := by
      rw [add64_of_lt (by omega),mul64_of_lt (by omega)]
    simp only [wlp_bind,wlp_assert,wlp_pure,hp,hv]
    exact fun _ => ⟨hs₁,ht.writeBE (by omega)⟩
  · rintro table s₁ ⟨hs₁,ht⟩
    rw [show oldEntries+(topSlot+1-oldEntries) = topSlot+1 by omega] at ht
    exact ⟨hs₁,ht⟩

end

lemma eight_mul_rtSlots (hh : Spacious h maxLen) (s : QcowImage) :
    8*rtSlots h s = s.rtClusters*2^h.clusterBits := by
  have hdvd : 8 ∣ 2^h.clusterBits := (show 8 ∣ 512 by decide).trans hh.dvd_size
  exact Nat.mul_div_cancel' (hdvd.mul_left _)

section
variable {newOff newClusters blkStart nb topSlot : ℕ} {table blocks : Buf}
  (hg : Guarded h maxLen Z f₀ B s) (hnew : s.file.len ≤ newOff)
  (hblk : blkStart*2^h.clusterBits = newOff+newClusters*2^h.clusterBits)
  (htop : topSlot < rtSlots h s+nb) (hroom : topSlot < newClusters*2^h.clusterBits/8)
  (hblocks : blocks.len = nb*2^h.clusterBits)
  (htable : TableOf (2^h.clusterBits) s s.rtOffset (rtSlots h s) newClusters blkStart (topSlot+1)
    table) (hfirst : rtSlots h s ≤ topSlot)
include hg hnew hblk htop hroom hblocks htable hfirst

lemma newTable_store :
    NewTable h ((s.store newOff table.len table.byte).store (newOff+table.len) blocks.len blocks.byte)
      newOff newClusters blkStart nb topSlot := by
  have hinside := hg.sound.inside .refcountTable _ trivial rfl
  have hlen := htable.len
  dsimp only at hinside
  have hread : ∀ k < newClusters*2^h.clusterBits/8,
      ((s.file.store newOff table.len table.byte).store (newOff+table.len) blocks.len
        blocks.byte).readBE (newOff+8*k) 8 = table.readBE (8*k) 8 := by
    intro k hk
    refine readBE_eq_readBE fun i hi => ?_
    rw [byte_store_of_not_mem (lt_max_of_lt_right (by omega)) (by omega),Nat.add_assoc,
      byte_store_of_mem (by omega)]
  refine ⟨hblk,?_,htop,fun k hk => ?_,fun k hle hk => ?_⟩
  · rw [Nat.add_mul,hblk]
    exact le_max_of_le_right (by omega)
  · have hk' : k < rtSlots h s := hk
    have hold : ((s.file.store newOff table.len table.byte).store (newOff+table.len) blocks.len
        blocks.byte).readBE (s.rtOffset+8*k) 8 = s.file.readBE (s.rtOffset+8*k) 8 := by
      rw [readBE_store_of_disjoint (le_max_of_le_left (by omega)) (by omega),
        readBE_store_of_disjoint (by omega) (by omega)]
    exact (hread k (by omega)).trans ((htable.old k hk').trans hold.symm)
  · have hle' : rtSlots h s ≤ k := hle
    refine (hread k hk).trans ((htable.new k hle' hk).trans ?_)
    simp only [Nat.lt_succ_iff]
    rfl

lemma wlp_publishTable (hh : Spacious h maxLen) (hlt : newClusters < 2^32)
    (hge : h.refcountTableClusters ≤ newClusters) (oldFirst oldClusters : ℕ) :
    (publishTable h maxLen newOff newClusters oldFirst oldClusters table blocks).wlp s
      (fun _ s' => Kept h maxLen Z f₀ s s' ∧ rtSlots h s' = newClusters*2^h.clusterBits/8)
      (fun _ => Kept h maxLen Z f₀ s) := by
  have hlen := htable.len
  have hB := hg.le
  have hpos : 0 < table.len := by omega
  have hpos' : 0 < blocks.len := by
    rw [hblocks]
    exact Nat.mul_pos (by omega) (two_pow_pos _)
  rw [publishTable,wlp_bind]
  refine wlp_writeAll hpos (fun hmax => ?_) fun _ => hg.kept
  have he₁ := hg.eqBelow_store (hg.le.trans hnew) table.byte (n := table.len)
  have hlen₁ : (s.store newOff table.len table.byte).file.len ≤ maxLen := max_le hg.len_le hmax
  have hle₁ : B ≤ (s.store newOff table.len table.byte).file.len := hB.trans (le_max_left _ _)
  have hk₁ := he₁.kept hg hh hle₁ hlen₁
  have hg₁ := he₁.guarded hg hh hle₁ hlen₁
  rw [wlp_bind]
  refine wlp_writeAll hpos' (fun hmax' => ?_) fun _ => hk₁
  have he₂ := hg₁.eqBelow_store (show B ≤ newOff+table.len by omega) blocks.byte (n := blocks.len)
  have hlen₂ := max_le hlen₁ hmax'
  have hle₂ := hle₁.trans (le_max_left _ (newOff+table.len+blocks.len))
  have hk₂ := hk₁.trans (he₂.kept hg₁ hh hle₂ hlen₂)
  have hg₂ := he₂.guarded hg₁ hh hle₂ hlen₂
  have hn := newTable_store hg hnew hblk htop hroom hblocks htable hfirst
  generalize (s.store newOff table.len table.byte).store (newOff+table.len) blocks.len blocks.byte =
    s₂ at hk₂ hg₂ hn ⊢
  rw [wlp_bind,wlp_modify,mod_eq_of_lt hlt]
  have hk₃ := hn.kept hg₂ hh (hB.trans hnew) hlt hge
  have hslots : rtSlots h { s₂ with rtOffset := newOff, rtClusters := newClusters } =
      newClusters*2^h.clusterBits/8 := rfl
  generalize ({ s₂ with rtOffset := newOff, rtClusters := newClusters } : QcowImage) = s₃ at hk₃ hslots ⊢
  replace hk₃ := hk₂.trans hk₃
  obtain ⟨B₃,hg₃⟩ := hk₃.guarded
  refine (wlp_retireTable hg₃ hh newOff newClusters oldFirst oldClusters).mono ?_
    fun _ _ hs₄ => hk₃.trans hs₄.kept
  intro _ s₄ hs₄
  refine ⟨hk₃.trans hs₄.kept,?_⟩
  rw [← hslots,rtSlots,rtSlots,hs₄.2.rtClusters]

end

lemma Guarded.fits (hg : Guarded h maxLen Z f₀ B s) : Fits h maxLen s.l1Table.length 0 s :=
  ⟨zero_le _,hg.len_le,hg.rt_lt,hg.rt_ge,rfl⟩

def Covers (h : QcowHeader) (s : QcowImage) (rtIndex : ℕ) : Prop :=
  rtIndex < rtSlots h s ∨ s.rtClusters = 2^32-1

lemma slot_lt_of_covers (hh : Spacious h maxLen) {rtIndex index : ℕ} (hcovers : Covers h s rtIndex)
    (hindex : index/blockEntries h = rtIndex)
    (hmax : (index+1)*2^h.clusterBits ≤ maxLen) : rtIndex < rtSlots h s := by
  rcases hcovers with hlt | hmost
  · exact hlt
  · have hdvd : 8 ∣ 2^h.clusterBits := (show 8 ∣ 512 by decide).trans hh.dvd_size
    have hle := hmax.trans hh.reach
    have hlt : index < (2^32-1)*(2^h.clusterBits/8)*blockEntries h :=
      Nat.le_of_mul_le_mul_right hle (two_pow_pos _)
    rw [← hindex,rtSlots,hmost,Nat.mul_div_assoc _ hdvd]
    exact Nat.div_lt_of_lt_mul (Nat.mul_comm _ (blockEntries h) ▸ hlt)

/-- A cluster of zeros behind the regions of an image that is otherwise kept. -/
structure Fresh (h : QcowHeader) (maxLen : ℕ) (Z : ℕ → Prop) (f₀ : ℕ → UInt8) (s : QcowImage)
    (off : ℕ) (s' : QcowImage) : Prop extends Kept h maxLen Z f₀ s s' where
  behind : Guarded h maxLen Z f₀ off s'
  inside : off+2^h.clusterBits ≤ s'.file.len
  aligned : 512 ∣ off
  zeros : ∀ p, off ≤ p → p < off+2^h.clusterBits → s'.file.byte p = 0

lemma Guarded.mono (hg : Guarded h maxLen Z f₀ B s) (hB : B ≤ B') (hB' : B' ≤ s.file.len) :
    Guarded h maxLen Z f₀ B' s :=
  { hg with
    le := hB'
    inside := fun r sp hsp => (hg.inside r sp hsp).trans hB
    bound := fun p hp => (hg.bound p hp).trans_le hB }

section
include hg hh

lemma Guarded.mul64_rtClusters :
    mul64 s.rtClusters (2^h.clusterBits)/8 = rtSlots h s := by
  have hinside := hg.sound.inside .refcountTable _ trivial rfl
  have hlen := hg.len_lt hh
  have height := eight_mul_rtSlots hh s
  dsimp only at hinside
  rw [mul64_of_lt (by omega),rtSlots]

variable {rtIndex : ℕ}

lemma Guarded.rtClusters_eq_max (hindex : rtIndex < 2^60) (hbeyond : rtSlots h s ≤ rtIndex)
    (hle : min (max (divCeil (mul64 (add64 rtIndex 1) 8) (2^h.clusterBits))
      h.refcountTableClusters) (2^32-1) ≤ s.rtClusters) : s.rtClusters = 2^32-1 := by
  have hlt := hg.rt_lt
  by_contra hne
  have hneeded : divCeil (mul64 (add64 rtIndex 1) 8) (2^h.clusterBits) ≤ s.rtClusters := by omega
  rw [divCeil_le_iff _ _ (two_pow_pos _),add64_of_lt (by omega),
    mul64_of_lt (by omega),← eight_mul_rtSlots hh s] at hneeded
  omega

lemma divCeil_lt_of_len (n : ℕ) :
    divCeil s.file.len (2^h.clusterBits)/n < 2^60 := by
  have hlen := hg.len_le.trans hh.maxLen_le
  have hup := divCeil_mul_lt s.file.len (two_pow_pos h.clusterBits)
  have hsize := hh.size_le
  have height : divCeil s.file.len (2^h.clusterBits)*8 ≤
      divCeil s.file.len (2^h.clusterBits)*2^h.clusterBits :=
    mul_le_mul_left _ hh.eight_le
  exact (div_le_self _ n).trans_lt (by omega)

lemma wlp_growRefcountTable (hslot : rtIndex = divCeil s.file.len (2^h.clusterBits)/blockEntries h)
    (hbeyond : rtSlots h s ≤ rtIndex) :
    (growRefcountTable h maxLen rtIndex).wlp s
      (fun _ s' => Kept h maxLen Z f₀ s s' ∧ Covers h s' rtIndex)
      (fun _ => Kept h maxLen Z f₀ s) := by
  have hentries := hg.mul64_rtClusters hh
  rw [growRefcountTable,hh.clusterSize_eq,pure_bind,hh.refcountBlockEntries_eq,pure_bind,
    wlp_bind,wlp_gets,wlp_bind]
  refine wlp.intro_ok (rtEntries_eq hh.toReadable s) ?_
  rw [wlp_ite]
  refine ⟨fun _ => hg.kept,fun _ => ?_⟩
  rw [QcowHeader.refcountTableClustersFor,hh.clusterSize_eq,pure_bind,pure_bind]
  generalize hnew : min (max (divCeil (mul64 (add64 rtIndex 1) 8)
      (2^h.clusterBits)) h.refcountTableClusters) (2^32-1) = newClusters
  rw [wlp_ite]
  refine ⟨fun hle => ⟨hg.kept,.inr ?_⟩,fun hle => ?_⟩
  · exact hg.rtClusters_eq_max hh (hslot ▸ divCeil_lt_of_len hg hh _) hbeyond (hnew ▸ hle)
  have hgrows : s.rtClusters < newClusters := Nat.lt_of_not_le hle
  have ha := arena_of_grow hh.toAllocatable hh.maxLen_lt hg.fits hslot (hentries.symm ▸ hbeyond)
    hnew.symm hgrows
  have hclusters := ha.clusters_lt
  have hbytes := ha.bytes_lt
  dsimp only [id]
  rw [add64_of_lt (show _+newClusters < 2^64 by omega),hentries]
  rw [hentries] at ha
  obtain ⟨topSlot,nb,hcount,htop,hfirst,hroom,hnb⟩ := blockCount_eq hh.two_le
    ((hslot ▸ hbeyond).trans (Nat.div_le_div_right (le_add_right _ newClusters)))
    hclusters (2^64) 1 (by omega) (by omega)
  have hindex : rtIndex ≤ topSlot := by
    rw [htop,hslot]
    exact Nat.div_le_div_right (by omega)
  have hend : (divCeil s.file.len (2^h.clusterBits)+newClusters+nb)*2^h.clusterBits <
      2^64 := by
    have hlen := hg.len_le.trans hh.maxLen_le
    have hup := divCeil_mul_lt s.file.len (two_pow_pos h.clusterBits)
    have htight := ha.tight
    have hsize := hh.size_le
    have hle : rtIndex*8 ≤ divCeil s.file.len (2^h.clusterBits)*2^h.clusterBits :=
      Nat.mul_le_mul (hslot ▸ div_le_self _ _) hh.eight_le
    have hnbBytes := mul_le_mul_right (2^h.clusterBits) hnb
    rw [Nat.add_mul,Nat.add_mul] at hnbBytes ⊢
    omega
  rw [hcount,pure_bind]
  dsimp only
  rw [add64_of_lt (by omega),mul64_of_lt (show newClusters*_ < 2^64 by omega),wlp_ite]
  refine ⟨fun _ => hg.kept,fun hlt => ?_⟩
  have hlt' : topSlot < newClusters*2^h.clusterBits/8 := Nat.lt_of_not_le hlt
  rw [wlp_bind]
  refine (wlp_buildTable s ha (eight_mul_rtSlots hh s) hfirst hlt' hroom hend).mono ?_
    fun _ s' heq => heq ▸ hg.kept
  rintro table s₁ ⟨hs₁,htable⟩
  rw [hs₁,wlp_bind]
  refine (wp_buildBlocks s hh.toAllocatable ha hnb (htop ▸ hroom)).wlp.mono ?_
    fun _ s' heq => heq ▸ hg.kept
  rintro blocks s₂ ⟨hs₂,hblocks⟩
  rw [hs₂,mul64_of_lt (by omega)]
  refine (wlp_publishTable hg (divCeil_mul_ge _ (two_pow_pos _)) (Nat.add_mul _ _ _) hroom hlt'
    hblocks htable hfirst hh (by omega) (hg.rt_ge.trans hgrows.le) _ _).mono ?_ fun _ _ herr => herr
  rintro _ s₃ ⟨hk,hslots⟩
  exact ⟨hk,.inl (by omega)⟩

/-! ### A host cluster -/

lemma wlp_coverSlot (hslot : rtIndex = divCeil s.file.len (2^h.clusterBits)/blockEntries h) :
    (coverSlot h maxLen rtIndex).wlp s (fun _ s' => Kept h maxLen Z f₀ s s' ∧ Covers h s' rtIndex)
      (fun _ => Kept h maxLen Z f₀ s) := by
  rw [coverSlot,wlp_bind]
  refine wlp.intro_ok (rtEntries_eq hh.toReadable s) ?_
  rw [wlp_ite,hg.mul64_rtClusters hh]
  exact ⟨fun hbeyond => wlp_growRefcountTable hg hh hslot hbeyond,
    fun hlt => ⟨hg.kept,.inl (Nat.lt_of_not_le hlt)⟩⟩

lemma Guarded.wlp_setLen {n : ℕ}
    (hn : s.file.len ≤ n) {ok : Unit → QcowImage → Prop} {err : QcowError → QcowImage → Prop}
    (hok : n ≤ maxLen → Guarded h maxLen Z f₀ B { s with file := s.file.resize n } →
      Kept h maxLen Z f₀ s { s with file := s.file.resize n } →
      ok () { s with file := s.file.resize n })
    (herr : ∀ e, err e s) : (setLen maxLen n).wlp s ok err := by
  simp only [setLen,wlp_bind,wlp_ensure,wlp_modify]
  refine ⟨fun hmax => ?_,fun _ => herr _⟩
  have he := hg.eqBelow_resize n
  exact hok hmax (he.guarded hg hh (hg.le.trans hn) hmax) (he.kept hg hh (hg.le.trans hn) hmax)

lemma wlp_appendRefcountBlock (hcovers : Covers h s rtIndex) :
    (appendRefcountBlock h maxLen (blockEntries h) rtIndex).wlp s (fun _ => Kept h maxLen Z f₀ s)
      (fun _ => Kept h maxLen Z f₀ s) := by
  have hlen := hg.len_lt hh
  have hsize := hh.size_le
  have hge := divCeil_mul_ge s.file.len (two_pow_pos h.clusterBits)
  have hup := divCeil_mul_lt s.file.len (two_pow_pos h.clusterBits)
  rw [appendRefcountBlock,hh.clusterSize_eq,pure_bind,wlp_bind,wlp_gets,wlp_bind]
  dsimp only [id]
  rw [nextMultipleOf_eq hh.toReadable hlen,add64_of_lt (by omega),
    Nat.mul_div_cancel _ (two_pow_pos _)]
  refine hg.wlp_setLen hh (by omega) (fun hmax hg₁ hk₁ => ?_) fun _ => hg.kept
  rw [← succ_mul] at hmax
  rw [div_of_ne (b := blockEntries h) hh.entries_ne,pure_bind,wlp_ite]
  refine ⟨fun _ => hk₁,fun hslot => ?_⟩
  have hlt := slot_lt_of_covers hh hcovers (not_not.mp hslot) hmax
  have hk₂ := hg₁.publish_block hh hlt (hg.le.trans hge) le_rfl (hh.dvd_size.mul_left _)
  have hpos : add64 s.rtOffset (mul64 rtIndex 8) = s.rtOffset+8*rtIndex := by
    have hinside := hg.sound.inside .refcountTable _ trivial rfl
    dsimp only at hinside
    rw [mul64_of_lt (by omega),add64_of_lt (by omega),Nat.mul_comm]
  rw [wlp_bind,wlp_gets,wlp_bind]
  dsimp only [id]
  rw [hpos]
  refine wlp_writeBE (by decide) (fun _ => ?_) fun _ => hk₁
  replace hk₂ := hk₁.trans hk₂
  obtain ⟨B₂,hg₂⟩ := hk₂.guarded
  rw [wlp_bind]
  exact (wlp_writeRefcount hg₂ hh _ 1).mono (fun _ _ hs₃ => hk₂.trans hs₃.kept)
    fun _ _ hs₃ => hk₂.trans hs₃.kept

lemma wlp_allocateRefcountBlock :
    (allocateRefcountBlock h maxLen (divCeil s.file.len (2^h.clusterBits))).wlp s
      (fun _ => Kept h maxLen Z f₀ s) (fun _ => Kept h maxLen Z f₀ s) := by
  rw [allocateRefcountBlock,hh.refcountBlockEntries_eq,pure_bind,div_of_ne hh.entries_ne,
    pure_bind,wlp_bind]
  refine (wlp_coverSlot hg hh rfl).mono ?_ fun _ _ herr => herr
  rintro _ s₁ ⟨hk₁,hcovers⟩
  obtain ⟨B₁,hg₁⟩ := hk₁.guarded
  rw [wlp_bind]
  refine (isQuery_refcountBlockOffset hh.toAllocatable _).wlp_eq.mono ?_ fun _ s₂ hs₂ => hs₂ ▸ hk₁
  intro block s₂ hs₂
  rw [hs₂]
  cases block with
  | some off => exact hk₁
  | none =>
    exact (wlp_appendRefcountBlock hg₁ hh hcovers).mono (fun _ _ hk₂ => hk₁.trans hk₂)
      fun _ _ hk₂ => hk₁.trans hk₂

lemma wlp_allocateLoop (fuel : ℕ) :
    (allocateLoop h maxLen fuel).wlp s (Fresh h maxLen Z f₀ s) (fun _ => Kept h maxLen Z f₀ s) := by
  induction fuel generalizing s B with
  | zero => trivial
  | succ fuel ih =>
    have hlen := hg.len_lt hh
    have hsize := hh.size_le
    have hge := divCeil_mul_ge s.file.len (two_pow_pos h.clusterBits)
    have hup := divCeil_mul_lt s.file.len (two_pow_pos h.clusterBits)
    rw [allocateLoop,hh.clusterSize_eq,pure_bind,wlp_bind,wlp_gets]
    dsimp only [id]
    rw [nextMultipleOf_eq hh.toReadable hlen,Nat.mul_div_cancel _ (two_pow_pos _),wlp_bind]
    refine (isQuery_refcountBlockOffset hh.toAllocatable _).wlp_eq.mono ?_
      fun _ s₁ hs₁ => hs₁ ▸ hg.kept
    intro block s₁ hs₁
    rw [hs₁]
    cases block with
    | none =>
      dsimp only
      rw [wlp_bind]
      refine (wlp_allocateRefcountBlock hg hh).mono ?_ fun _ _ herr => herr
      intro _ s₂ hk₂
      obtain ⟨B₂,hg₂⟩ := hk₂.guarded
      exact (ih hg₂).mono (fun _ _ hf => { hf with toKept := hk₂.trans hf.toKept })
        fun _ _ herr => hk₂.trans herr
    | some block =>
      dsimp only
      rw [add64_of_lt (by omega),wlp_bind]
      refine hg.wlp_setLen hh (by omega) (fun hmax hg₂ hk₂ => ?_) fun _ => hg.kept
      -- the bytes of the new cluster are those that the longer file gets
      have hbehind := hg₂.mono (hg.le.trans hge) (le_add_right _ _)
      rw [wlp_bind]
      refine (wlp_writeRefcount hbehind hh _ 1).mono ?_ fun _ _ hs₃ => hk₂.trans hs₃.kept
      intro _ s₃ hs₃
      refine ⟨hk₂.trans hs₃.kept,hs₃.1,hs₃.2.len.ge,hh.dvd_size.mul_left _,fun p hp hlt => ?_⟩
      rw [hs₃.2.bytes p hp hlt]
      exact byte_resize_of_ge (hge.trans hp)

lemma wlp_allocateHostCluster :
    (allocateHostCluster h maxLen).wlp s (Fresh h maxLen Z f₀ s) (fun _ => Kept h maxLen Z f₀ s) :=
  wlp_allocateLoop hg hh _

/-! ### An L2 table and a data cluster
-/

end

/-- No guest cluster of a set is mapped to another place than before. -/
structure Grown (h : QcowHeader) (maxLen : ℕ) (Z : ℕ → Prop) (f₀ : ℕ → UInt8) (P : ℕ → Prop)
    (s s' : QcowImage) : Prop where
  guarded : ∃ B, Guarded h maxLen Z f₀ B s'
  slot : ∀ c entry, P c → slot h s' c = some entry → IsMapped entry → slot h s c = some entry

variable {P : ℕ → Prop}

lemma Kept.grown (hk : Kept h maxLen Z f₀ s s') : Grown h maxLen Z f₀ P s s' :=
  ⟨hk.guarded,fun c _ _ hslot _ => hk.slot c ▸ hslot⟩

lemma Grown.trans (hg : Grown h maxLen Z f₀ P s s')
    (hg' : Grown h maxLen Z f₀ P s' s'') : Grown h maxLen Z f₀ P s s'' :=
  ⟨hg'.guarded,fun c entry hc hslot hmapped =>
    hg.slot c entry hc (hg'.slot c entry hc hslot hmapped) hmapped⟩

lemma l2Offset_or_copied (hoff : 512 ∣ off) (hlt : off < 2^56) :
    (off ||| oflagCopied) &&& l2OffsetMask = off := by
  obtain ⟨k,rfl⟩ := hoff
  have hmask := and_shifted_mask (512*k) 47 9
  rw [show (2^47-1)*2^9 = l2OffsetMask by rfl] at hmask
  rw [and_or_distrib_right,hmask,show oflagCopied &&& l2OffsetMask = 0 by decide,or_zero]
  omega

lemma Fresh.lt (hf : Fresh h maxLen Z f₀ s off s') (hh : Spacious h maxLen) : off < 2^56 := by
  have hpos := two_pow_pos h.clusterBits
  have hle := (hf.inside.trans hf.behind.len_le).trans hh.maxLen_le
  omega

section
variable {i off : ℕ}

lemma l2TableOf_set_self (hi : i < s.l1Table.length) (hoff : 512 ∣ off) (hlt : off < 2^56) :
    l2TableOf { s with l1Table := s.l1Table.set i (off ||| oflagCopied) } i = off := by
  rw [l2TableOf]
  dsimp only
  rw [getD_eq_getElem _ _ (by rwa [length_set]),getElem_set_self, l2Offset_or_copied hoff hlt]

lemma l2TableOf_set_of_ne {i' : ℕ} (hne : i' ≠ i) (v : ℕ) :
    l2TableOf { s with l1Table := s.l1Table.set i v } i' = l2TableOf s i' := by
  rw [l2TableOf,l2TableOf]
  dsimp only
  rw [getD_eq_getElem?_getD,getD_eq_getElem?_getD,getElem?_set_ne hne.symm]

lemma not_isMapped_zero : ¬ IsMapped 0 := by decide

lemma Guarded.publish_l2Table (hg : Guarded h maxLen Z f₀ off s) (hh : Spacious h maxLen)
    (hi : i < s.l1Table.length) (hnone : l2TableOf s i = 0)
    (hoff : off+2^h.clusterBits ≤ s.file.len) (hdvd : 512 ∣ off)
    (hzeros : ∀ p, off ≤ p → p < off+2^h.clusterBits → s.file.byte p = 0) :
    Grown h maxLen Z f₀ P s { s with l1Table := s.l1Table.set i (off ||| oflagCopied) } := by
  have hpos := two_pow_pos h.clusterBits
  have hlt : off < 2^56 := by
    have := (hoff.trans hg.len_le).trans hh.maxLen_le
    omega
  have hself := l2TableOf_set_self hi hdvd hlt
  have hentry : ∀ j < 2^h.clusterBits/8,
      l2EntryOf { s with l1Table := s.l1Table.set i (off ||| oflagCopied) } i j = 0 := by
    intro j hj
    have := l2Entry_le hh.toReadable hj
    rw [l2EntryOf,hself]
    exact readBE_eq_zero fun n hn => hzeros _ (by omega) (by omega)
  refine ⟨⟨off+2^h.clusterBits,hg.extend_one hh (le_add_right _ _) hoff hg.len_le rfl
    (.l2Table i) ?_ ?_ fun _ _ => rfl⟩,?_⟩
  · intro r hne
    cases r with
    | header => rfl
    | refcountTable => rfl
    | refcountBlock k => rfl
    | l1Table => rw [Region.span,Region.span,length_set]
    | l2Table i' =>
      have hi' : i' ≠ i := fun heq => hne (congrArg Region.l2Table heq)
      rw [Region.span,Region.span,l2TableOf_set_of_ne hi']
    | data i' j =>
      by_cases hi' : i' = i
      · rw [hi',Region.span,Region.span,if_neg ?_,if_neg fun hc => hc.1 hnone]
        rintro ⟨-,hj,hmapped⟩
        rw [hentry j hj] at hmapped
        exact not_isMapped_zero hmapped
      · rw [Region.span,Region.span,l2EntryOf,l2EntryOf,l2TableOf_set_of_ne hi']
  · intro sp hsp
    rw [Region.span,hself] at hsp
    obtain ⟨-,heq⟩ := ite_none_right_eq_some.mp hsp
    cases heq
    exact ⟨le_rfl,le_rfl⟩
  · intro c entry _ hslot hmapped
    by_cases hc : c/(2^h.clusterBits/8) = i
    · have hzero : off ≠ 0 := by
        have := hg.inside .header _ rfl
        dsimp only at this
        omega
      rw [slot_eq_some (by rw [hc,hself]; exact hzero),hc,hentry _ (l2Index_lt hh.toReadable c)] at hslot
      cases hslot
      exact absurd hmapped not_isMapped_zero
    · rw [slot,l2EntryOf,l2TableOf_set_of_ne hc] at hslot
      exact hslot

include hg hh in
lemma wlp_allocateL2Table (hi : i < s.l1Table.length) (hnone : l2TableOf s i = 0) :
    (allocateL2Table h maxLen i).wlp s
      (fun table s' => Grown h maxLen Z f₀ P s s' ∧ table = l2TableOf s' i ∧ l2TableOf s' i ≠ 0)
      (fun _ => Grown h maxLen Z f₀ P s) := by
  rw [allocateL2Table,wlp_bind]
  refine (wlp_allocateHostCluster hg hh).mono ?_ fun _ _ herr => herr.grown
  intro off s₁ hf
  have hi₁ : i < s₁.l1Table.length := hf.l1Table ▸ hi
  have hnone₁ : l2TableOf s₁ i = 0 := by rw [l2TableOf,hf.l1Table]; exact hnone
  have hinside := hf.behind.sound.inside .l1Table _ trivial rfl
  have hlen := hf.behind.len_lt hh
  dsimp only at hinside
  rw [mul64_of_lt (by omega),add64_of_lt (by omega),Nat.mul_comm,wlp_bind]
  refine wlp_writeBE (by decide) (fun _ => ?_) fun _ => hf.toKept.grown
  have hw : WritesIn h s₁ .l1Table (h.l1TableOffset+8*i) 8 :=
    ⟨by decide,trivial,_,rfl,Nat.le_add_right _ _,by dsimp only; omega⟩
  have hg₂ := hw.guarded (f := fun j => .ofNat ((off ||| oflagCopied)/256^(8-1-j))) hf.behind
    hh.toReadable (by simp) (by simp)
  have hin₂ := hw.inert (f := fun j => .ofNat ((off ||| oflagCopied)/256^(8-1-j))) hf.behind
    hh.toReadable (by simp)
  generalize s₁.store (h.l1TableOffset+8*i) 8
    (fun j => .ofNat ((off ||| oflagCopied)/256^(8-1-j))) = s₂ at hg₂ hin₂ ⊢
  have hi₂ : i < s₂.l1Table.length := hin₂.l1Table ▸ hi₁
  have hnone₂ : l2TableOf s₂ i = 0 := by rw [l2TableOf,hin₂.l1Table]; exact hnone₁
  have hself := l2TableOf_set_self hi₂ hf.aligned (hf.lt hh)
  have hgrown : Grown h maxLen Z f₀ P s₂ _ := hg₂.publish_l2Table hh hi₂ hnone₂ (hin₂.len ▸ hf.inside)
    hf.aligned fun p hp hlt => by
      rw [hin₂.bytes p hp (hlt.trans_le hf.inside)]
      exact hf.zeros p hp hlt
  have hkept : Kept h maxLen Z f₀ s s₂ := hf.toKept.trans ⟨⟨off,hg₂⟩,hin₂.l1Table,hin₂.slot⟩
  simp only [wlp_bind,wlp_gets,wlp_assert,wlp_modify,wlp_pure,id]
  refine fun _ => ⟨hkept.grown.trans hgrown,hself.symm,?_⟩
  rw [hself]
  have hheader := hf.behind.inside .header _ rfl
  dsimp only at hheader
  omega

include hg hh in
lemma wlp_l2TableAt (hi : i < s.l1Table.length) : (l2TableAt h maxLen i (l2TableOf s i)).wlp s
      (fun table s' => Grown h maxLen Z f₀ P s s' ∧ table = l2TableOf s' i ∧ l2TableOf s' i ≠ 0)
      (fun _ => Grown h maxLen Z f₀ P s) := by
  rw [l2TableAt,wlp_ite]
  exact ⟨fun hnone => wlp_allocateL2Table hg hh hi hnone, fun hsome => ⟨hg.kept.grown,rfl,hsome⟩⟩

end

lemma Guarded.publish_data {c off : ℕ} (hg : Guarded h maxLen Z f₀ off s) (hh : Spacious h maxLen)
    (hne : l2TableOf s (c/(2^h.clusterBits/8)) ≠ 0)
    (hoff : off+2^h.clusterBits ≤ s.file.len) (hdvd : 512 ∣ off) (hlt : off < 2^56) :
    Grown h maxLen Z f₀ (· ≠ c) s (setSlot h s c (off ||| oflagCopied)) := by
  have hw := writesIn_setSlot hh.toReadable hne
  have hv : off ||| oflagCopied < 2^64 :=
    or_lt_two_pow (by omega) (by decide)
  refine ⟨⟨off+2^h.clusterBits,hg.extend_one hh (le_add_right _ _) ?_ ?_ rfl
    (.data (c/(2^h.clusterBits/8)) (c%(2^h.clusterBits/8)))
    (fun r hr => span_setSlot hg.sound hh.toReadable hne hr) ?_
    fun p hp => hw.byte_eq_of_mem hg hp⟩,?_⟩
  · exact (hw.len_store hg.sound).symm ▸ hoff
  · exact (hw.len_store hg.sound).symm ▸ hg.len_le
  · intro sp hsp
    have hself := slot_setSlot_self (h := h) hne hv
    rw [slot_eq_some (show l2TableOf (setSlot h s c (off ||| oflagCopied)) _ ≠ 0 from hne)] at hself
    rw [Region.span,some.inj hself,l2Offset_or_copied hdvd hlt] at hsp
    obtain ⟨-,heq⟩ := ite_none_right_eq_some.mp hsp
    cases heq
    exact ⟨le_rfl,le_rfl⟩
  · intro c' entry hc' hslot _
    rwa [slot_setSlot_of_ne hg.sound hh.toReadable hne hc'] at hslot

lemma wlp_copyOnWrite (hg : Guarded h maxLen Z f₀ off s) (hh : Spacious h maxLen)
    (hoff : off+2^h.clusterBits ≤ s.file.len) (backing : Option Reader) (old guestOffset : ℕ) :
    (copyOnWrite maxLen backing (2^h.clusterBits) old guestOffset off).wlp s
      (fun _ s' => Guarded h maxLen Z f₀ off s' ∧ Kept h maxLen Z f₀ s s' ∧
        s'.file.len = s.file.len)
      (fun _ => Kept h maxLen Z f₀ s) := by
  have hsame : Guarded h maxLen Z f₀ off s ∧ Kept h maxLen Z f₀ s s ∧ s.file.len = s.file.len :=
    ⟨hg,hg.kept,rfl⟩
  cases backing with
  | none => exact hsame
  | some read =>
    rw [copyOnWrite,wlp_ite]
    refine ⟨fun _ => ?_,fun _ => hsame⟩
    rw [sub_of_le Nat.one_le_two_pow,pure_bind,wlp_bind,wlp_ofOutcome]
    refine ⟨fun bytes _ => ?_,fun _ _ => hg.kept⟩
    refine wlp_writeAll (two_pow_pos _) (fun hmax => ?_) fun _ => hg.kept
    have he := hg.eqBelow_store (n := 2^h.clusterBits) (le_refl off)
      fun i => (fill (2^h.clusterBits) bytes).getD i 0
    have hlen : (s.store off (2^h.clusterBits) fun i =>
        (fill (2^h.clusterBits) bytes).getD i 0).file.len = s.file.len := max_eq_left hoff
    have hle := hlen.symm ▸ hg.le
    exact ⟨he.guarded hg hh hle (hlen.symm ▸ hg.len_le),he.kept hg hh hle (hlen.symm ▸ hg.len_le),hlen⟩

include hg hh in
lemma wlp_allocateDataCluster (backing : Option Reader) (g : ℕ) :
    (allocateDataCluster h maxLen backing g).wlp s
      (fun off s' => Grown h maxLen Z f₀ (· ≠ g/2^h.clusterBits) s s' ∧ (∀ p, Z p → p < off) ∧
        off+2^h.clusterBits ≤ maxLen)
      (fun _ => Grown h maxLen Z f₀ (· ≠ g/2^h.clusterBits) s) := by
  rw [allocateDataCluster,hh.clusterSize_eq,pure_bind,hh.l2Entries_eq,pure_bind,
    div_of_ne hh.l1Span_ne,pure_bind,wlp_bind,wlp_gets,wlp_ite,l1Index_eq hh.toReadable]
  generalize g/2^h.clusterBits = c
  refine ⟨fun _ => hg.kept.grown,fun hi => ?_⟩
  rw [wlp_bind]
  refine (wlp_l2TableAt hg hh (Nat.lt_of_not_le hi)).mono ?_ fun _ _ herr => herr
  rintro _ s₁ ⟨hgrown₁,rfl,hne₁⟩
  obtain ⟨B₁,hg₁⟩ := hgrown₁.guarded
  rw [rem_of_ne hh.l2Entries_ne,pure_bind,wlp_bind]
  refine (isQuery_readBE _ _).wlp_eq.mono ?_ fun _ s₂ hs₂ => hs₂ ▸ hgrown₁
  intro old s₂ hs₂
  rw [hs₂,wlp_bind]
  refine (wlp_allocateHostCluster hg₁ hh).mono ?_ fun _ _ herr => hgrown₁.trans herr.grown
  intro off s₃ hf
  rw [wlp_bind]
  refine (wlp_copyOnWrite hf.behind hh hf.inside backing old g).mono ?_
    fun _ _ herr => hgrown₁.trans (hf.toKept.trans herr).grown
  rintro _ s₄ ⟨hg₄,hk₄,hlen₄⟩
  have hk := hf.toKept.trans hk₄
  have htable : ∀ i, l2TableOf s₄ i = l2TableOf s₁ i := by
    intro i
    rw [l2TableOf,l2TableOf,hk.l1Table]
  rw [← htable,l2EntryOff_eq hh.toReadable _ _ (l2Index_lt hh.toReadable _),wlp_bind]
  refine wlp_writeBE (by decide) (fun _ => ?_) fun _ => hgrown₁.trans hk.grown
  have hgrown₅ := hg₄.publish_data hh (htable _ ▸ hne₁) (hlen₄ ▸ hf.inside) hf.aligned (hf.lt hh)
  exact ⟨(hgrown₁.trans hk.grown).trans hgrown₅,hf.behind.bound,hf.inside.trans hf.behind.len_le⟩

end Enlil.Devices.Storage
