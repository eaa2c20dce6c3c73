import Enlil.Devices.Storage.Qcow.Layout

/-! # Trimming -/

namespace Enlil.Devices.Storage
open Prog QcowImage List Word Option QcowBackend Nat
variable {h : QcowHeader} {s s' : QcowImage}

/-! ### Reading -/

/-- A guest cluster has the same L2 entry in two images and, if it is mapped, the same data. -/
structure SameCluster (h : QcowHeader) (s s' : QcowImage) (c : ℕ) : Prop where
  slot : slot h s' c = slot h s c
  data : ∀ entry, Storage.slot h s c = some entry → IsMapped entry → ∀ p < s.file.len,
    (entry &&& l2OffsetMask) ≤ p → p < (entry &&& l2OffsetMask)+2^h.clusterBits →
    s'.file.byte p = s.file.byte p

def exactOutcome (file : Buf) (pos n : ℕ) : Except QcowError (List UInt8) :=
  if pos < 2^63 then
    if n = 0 ∨ pos+n ≤ file.len then .ok (file.slice pos n) else .error .unexpectedEof
  else .error .invalidSeek

lemma readExact_eq (s : QcowImage) (pos n : ℕ) :
    readExact pos n s = some (exactOutcome s.file pos n,s) := by
  rw [exactOutcome]
  by_cases hseek : pos < 2^63
  · have hpure : seek pos = pure () := if_pos hseek
    rw [if_pos hseek,readExact,hpure,pure_bind]
    show (ensure (n = 0 ∨ pos+n ≤ s.file.len) QcowError.unexpectedEof >>= fun _ =>
      (pure (s.file.slice pos n) : QcowOp (List UInt8))) s = _
    rw [ensure]
    split <;> rfl
  · have hthrow : seek pos = Prog.throw QcowError.invalidSeek := if_neg hseek
    rw [if_neg hseek,readExact,hthrow]
    rfl

variable {pos n r hostOffset offset chunk fuel remaining c entry k : ℕ}

lemma agrees_readExact (hlen : s'.file.len = s.file.len)
    (hbyte : ∀ p < s.file.len, pos ≤ p → p < pos+n → s'.file.byte p = s.file.byte p) :
    (readExact pos n).Agrees s s' := by
  refine .inr ⟨_,readExact_eq s pos n,?_⟩
  rw [readExact_eq,exactOutcome,exactOutcome,hlen]
  by_cases hend : n = 0 ∨ pos+n ≤ s.file.len
  · have hslice : s'.file.slice pos n = s.file.slice pos n :=
      Buf.slice_congr fun p hp hp' => hbyte p (by omega) hp hp'
    rw [hslice]
  · rw [if_neg hend,if_neg hend]

lemma isMapped_of_locOf {slot : Option ℕ} (hloc : locOf slot r = .mapped hostOffset) :
    ∃ entry, slot = some entry ∧ IsMapped entry ∧ hostOffset = (entry &&& l2OffsetMask)+r := by
  cases slot with
  | none => cases hloc
  | some entry =>
    rw [locOf] at hloc
    split at hloc
    · cases hloc
    · split at hloc
      · cases hloc
      case _ hzero hhost =>
        cases hloc
        exact ⟨entry,rfl,⟨not_not.mp hzero,hhost⟩,rfl⟩

lemma agrees_readChunk (hr : h.Readable) (hs : Sound h s) (hs' : Sound h s')
    (hlen : s'.file.len = s.file.len) (backing : Option Reader)
    (hchunk : offset%2^h.clusterBits+chunk ≤ 2^h.clusterBits)
    (hsame : SameCluster h s s' (offset/2^h.clusterBits)) :
    (readChunk h backing offset chunk).Agrees s s' := by
  generalize hloc : locOf (slot h s (offset/2^h.clusterBits)) (offset%2^h.clusterBits) = loc
  have heq : ∀ t, Sound h t →
      slot h t (offset/2^h.clusterBits) = slot h s (offset/2^h.clusterBits) →
      readChunk h backing offset chunk t = readFrom backing offset chunk loc t := by
    intro t ht hslot
    have hresolve := ht.resolveCluster_eq hr offset
    rw [hslot,hloc] at hresolve
    exact bind_eq_of_ok hresolve
  rw [Agrees,heq s hs rfl,heq s' hs' hsame.slot]
  cases loc with
  | mapped hostOffset =>
    obtain ⟨entry,hslot,hmapped,rfl⟩ := isMapped_of_locOf hloc
    exact agrees_readExact hlen fun p hp hle hlt =>
      hsame.data entry hslot hmapped p hp (by omega) (by omega)
  | zero => exact agrees_pure _
  | unallocated =>
    cases backing with
    | none => exact agrees_pure _
    | some read => exact (agrees_ofOutcome _).bind fun _ => agrees_pure _

lemma agrees_readLoop (hr : h.Readable) (hs : Sound h s) (hs' : Sound h s')
    (hlen : s'.file.len = s.file.len) (backing : Option Reader)
    (hlt : offset+remaining < 2^64)
    (hsame : ∀ g, offset ≤ g → g < offset+remaining → SameCluster h s s' (g/2^h.clusterBits)) :
    (readLoop h backing fuel remaining offset).Agrees s s' := by
  induction fuel generalizing remaining offset with
  | zero => exact agrees_pure _
  | succ fuel ih =>
    rw [readLoop]
    by_cases hzero : remaining = 0
    · rw [if_pos hzero]
      exact agrees_pure _
    have hmod := mod_lt offset (Nat.two_pow_pos h.clusterBits)
    rw [if_neg hzero,hr.clusterSize_eq,pure_bind]
    refine (agrees_readChunk hr hs hs' hlen backing (by omega)
      (hsame offset le_rfl (by omega))).bind fun bytes => Agrees.bind ?_ fun _ => agrees_pure _
    rw [add64_of_lt (by omega)]
    exact ih (by omega) fun g hg hg' => hsame g (by omega) (by omega)

/-! ### Discarding a cluster -/

def MappedSlot (slot : Option ℕ) : Prop := ∃ entry, slot = some entry ∧ IsMapped entry

/-- What discarding the clusters of a set does: mapped ones get the zero flag, and all others keep
their entry and their data. -/
structure Discarded (h : QcowHeader) (s : QcowImage) (cs : ℕ → Prop) (s' : QcowImage) : Prop where
  sound : Sound h s'
  len : s'.file.len = s.file.len
  zeroed : ∀ c, cs c → MappedSlot (slot h s c) → slot h s' c = some oflagZero
  unmapped : ∀ c, cs c → ¬ MappedSlot (slot h s c) → slot h s' c = slot h s c
  kept : ∀ c, ¬ cs c → SameCluster h s s' c

variable {cs cs' : ℕ → Prop}

lemma Discarded.refl (hs : Sound h s) (hcs : ∀ c, cs c → ¬ MappedSlot (slot h s c)) :
    Discarded h s cs s where
  sound := hs
  len := rfl
  zeroed c hc hmapped := absurd hmapped (hcs c hc)
  unmapped _ _ _ := rfl
  kept _ _ := ⟨rfl,fun _ _ _ _ _ _ _ => rfl⟩

lemma Discarded.trans {s'' : QcowImage} (hd : Discarded h s cs s')
    (hd' : Discarded h s' cs' s'') (hdisjoint : ∀ c, cs c → ¬ cs' c) :
    Discarded h s (fun c => cs c ∨ cs' c) s'' where
  sound := hd'.sound
  len := hd'.len.trans hd.len
  zeroed c hc hmapped := by
    rcases hc with hc | hc
    · rw [(hd'.kept c (hdisjoint c hc)).slot]
      exact hd.zeroed c hc hmapped
    · have hslot := (hd.kept c fun hc' => hdisjoint c hc' hc).slot
      exact hd'.zeroed c hc (hslot ▸ hmapped)
  unmapped c hc hmapped := by
    rcases hc with hc | hc
    · rw [(hd'.kept c (hdisjoint c hc)).slot]
      exact hd.unmapped c hc hmapped
    · have hslot := (hd.kept c fun hc' => hdisjoint c hc' hc).slot
      rw [hd'.unmapped c hc (hslot ▸ hmapped),hslot]
  kept c hc := by
    have hfirst := hd.kept c fun hc' => hc (.inl hc')
    have hsecond := hd'.kept c fun hc' => hc (.inr hc')
    refine ⟨hsecond.slot.trans hfirst.slot,fun entry hslot hmapped p hp hle hlt => ?_⟩
    rw [hsecond.data entry (hfirst.slot.trans hslot) hmapped p (hd.len ▸ hp) hle hlt,
      hfirst.data entry hslot hmapped p hp hle hlt]

lemma span_of_slot (hr : h.Readable) (hslot : slot h s c = some entry) (hmapped : IsMapped entry) :
    (Region.data (c/(2^h.clusterBits/8)) (c%(2^h.clusterBits/8))).span h s =
      some ⟨entry &&& l2OffsetMask,2^h.clusterBits⟩ := by
  rw [slot] at hslot
  split at hslot
  · cases hslot
  case _ htable =>
    cases hslot
    exact span_data htable (l2Index_lt hr c) hmapped

variable {f : ℕ → UInt8}

lemma WritesIn.sameCluster {r : Region} (hw : WritesIn h s r pos n)
    (hs : Sound h s) (hr : h.Readable) (hslot : slot h (s.store pos n f) c = slot h s c) :
    SameCluster h s (s.store pos n f) c := by
  refine ⟨hslot,fun entry hentry hmapped p hp hle hlt => ?_⟩
  refine hw.byte_eq hs (fun heq => ?_) (span_of_slot hr hentry hmapped) hle hlt hp
  exact (heq ▸ hw.table : (Region.data _ _).IsTable)

lemma discarded_store (hs : Sound h s) (hr : h.Readable)
    (hw : WritesIn h s (.refcountBlock k) pos n) : Discarded h s (fun _ => False) (s.store pos n f) where
  sound := hs.of_span (hw.len_store hs) fun r sp hsp => by
    rwa [hw.span_eq hs hr nofun nofun] at hsp
  len := hw.len_store hs
  zeroed _ hc := hc.elim
  unmapped _ hc := hc.elim
  kept c _ := by
    refine hw.sameCluster hs hr ?_
    rw [slot,slot,l2TableOf_store]
    split
    · rfl
    case _ htable => rw [hw.l2EntryOf_eq hs hr nofun htable (l2Index_lt hr c)]

lemma not_isMapped_oflagZero : ¬ IsMapped oflagZero := by decide

lemma discarded_setSlot (hs : Sound h s) (hr : h.Readable)
    (hne : l2TableOf s (c/(2^h.clusterBits/8)) ≠ 0) (hmapped : MappedSlot (slot h s c)) :
    Discarded h s (· = c) (setSlot h s c oflagZero) where
  sound := by
    refine hs.of_span ((writesIn_setSlot hr hne).len_store hs) fun r sp hsp => ?_
    by_cases hdata : r = .data (c/(2^h.clusterBits/8)) (c%(2^h.clusterBits/8))
    · -- The cluster has no data region any more.
      have hslot := slot_setSlot_self (h := h) hne (show oflagZero < 2^64 by decide)
      have htable : l2TableOf (setSlot h s c oflagZero) (c/(2^h.clusterBits/8)) ≠ 0 := hne
      rw [slot_eq_some htable] at hslot
      rw [hdata,Region.span,some.inj hslot, if_neg fun hc => not_isMapped_oflagZero hc.2.2] at hsp
      cases hsp
    · rwa [span_setSlot hs hr hne hdata] at hsp
  len := (writesIn_setSlot hr hne).len_store hs
  zeroed := by
    rintro _ rfl -
    exact slot_setSlot_self hne (by decide)
  unmapped := by
    rintro _ rfl hunmapped
    exact absurd hmapped hunmapped
  kept c' hc' := (writesIn_setSlot hr hne).sameCluster hs hr (slot_setSlot_of_ne hs hr hne hc')

lemma Sound.wlp_discardCluster (hs : Sound h s) (hr : h.Readable) (maxLen c : ℕ) :
    (discardCluster h maxLen (c*2^h.clusterBits)).wlp s
      (fun _ s' => Discarded h s (· = c) s') (fun _ _ => True) := by
  have hunmapped : ¬ MappedSlot (slot h s c) → Discarded h s (· = c) s := fun hnot =>
    .refl hs fun _ hc => hc ▸ hnot
  rw [discardCluster,hr.clusterSize_eq,pure_bind,hr.l2Entries_eq,pure_bind,
    div_of_ne hr.l1Span_ne,pure_bind,l1Index_eq hr,
    Nat.mul_div_cancel _ (Nat.two_pow_pos _),wlp_bind,wlp_gets,wlp_ite]
  refine ⟨fun hlen => hunmapped ?_,fun _ => ?_⟩
  · have hlen' : s.l1Table.length ≤ c/(2^h.clusterBits/8) := hlen
    rw [slot_eq_none (l2TableOf_of_length_le hlen')]
    rintro ⟨_,⟨⟩,_⟩
  show (if l2TableOf s (c/(2^h.clusterBits/8)) = 0 then _ else _ : QcowOp Unit).wlp s _ _
  rw [wlp_ite]
  refine ⟨fun htable => hunmapped ?_,fun htable => ?_⟩
  · rw [slot_eq_none htable]
    rintro ⟨_,⟨⟩,_⟩
  rw [rem_of_ne hr.l2Entries_ne,pure_bind,wlp_bind]
  refine wlp.intro_ok (hs.readBE_l2Entry hr htable (l2Index_lt hr c)) ?_
  have hslot := slot_eq_some htable
  generalize hentry : l2EntryOf s _ _ = entry at hslot ⊢
  rw [wlp_ite]
  refine ⟨fun hflag => hunmapped ?_,fun hflag => ?_⟩
  · rw [hslot]
    rintro ⟨_,heq,hzero,hhost⟩
    cases heq
    exact hflag.elim (fun hne => hne hzero) hhost
  have hmapped : MappedSlot (slot h s c) :=
    ⟨entry,hslot,not_not.mp fun hne => hflag (.inl hne),fun hzero => hflag (.inr hzero)⟩
  rw [wlp_bind]
  refine (hs.wlp_readRefcount hr _).mono ?_ fun _ _ _ => trivial
  intro rc s₁ hs₁
  rw [hs₁,wlp_bind]
  refine (hs.wlp_writeRefcount hr maxLen _ _).mono ?_ fun _ _ _ => trivial
  rintro _ _ ⟨k,pos,n,f,hw,rfl⟩
  have hfirst := discarded_store (f := f) hs hr hw
  have hkept := (hfirst.kept c id).slot
  have htable' : l2TableOf (s.store pos n f) (c/(2^h.clusterBits/8)) ≠ 0 := by
    rw [l2TableOf_store]
    exact htable
  refine wlp_writeBE (by decide) (fun _ => ?_) fun _ => trivial
  have hsecond := discarded_setSlot hfirst.sound hr htable' (by rw [hkept]; exact hmapped)
  have hboth := hfirst.trans hsecond fun _ hc => hc.elim
  show Discarded h s (· = c) ((s.store pos n f).store (add64
    (l2TableOf s (c/(2^h.clusterBits/8))) (mul64 (c%(2^h.clusterBits/8)) 8)) 8 _)
  rw [l2EntryOff_eq hr s _ (l2Index_lt hr c)]
  rw [setSlot,l2TableOf_store] at hboth
  simpa only [false_or] using hboth

/-! ### The range -/

namespace QcowBackend
variable (q : QcowBackend)

def Inside (offset len c : ℕ) : Prop :=
  offset ≤ c*2^q.header.clusterBits ∧ (c+1)*2^q.header.clusterBits ≤ min (offset+len) q.header.size

def outcome (s : QcowImage) (offset len : ℕ) : Option (Except QcowError (List UInt8)) :=
  (q.readAt offset len s).map Prod.fst

def ReadsZero (s : QcowImage) (c : ℕ) : Prop :=
  q.outcome s (c*2^q.header.clusterBits) (2^q.header.clusterBits) =
    some (.ok (replicate (2^q.header.clusterBits) 0))

/-- The clusters inside the range read as zeros, and all else reads as before. -/
structure Trimmed (offset len : ℕ) (s s' : QcowImage) : Prop where
  zeroed : ∀ c, q.Inside offset len c → q.ReadsZero s' c
  kept : ∀ off n, (∀ g, off ≤ g → g < off+n → ¬ q.Inside offset len (g/2^q.header.clusterBits)) →
    q.outcome s' off n = q.outcome s off n

variable {q} {stop fuel first c offset len entry off n : ℕ}

lemma wlp_trimLoop (hr : q.header.Readable) (hs : Sound q.header s)
    (hstop : stop+2^q.header.clusterBits < 2^64)
    (hc : c*2^q.header.clusterBits+2^q.header.clusterBits < 2^64) (hfirst : first ≤ c)
    {s₀ : QcowImage} (hd : Discarded q.header s₀ (fun d => first ≤ d ∧ d < c) s)
    (hlast : ∀ d, first ≤ d → d < c → (d+1)*2^q.header.clusterBits ≤ stop) :
    (q.trimLoop (2^q.header.clusterBits) stop fuel (c*2^q.header.clusterBits)).wlp s
      (fun _ s' => Discarded q.header s₀
        (fun d => first ≤ d ∧ (d+1)*2^q.header.clusterBits ≤ stop) s')
      (fun _ _ => True) := by
  induction fuel generalizing s c with
  | zero => exact wlp.of_none rfl
  | succ fuel ih =>
    have hnext : (c+1)*2^q.header.clusterBits =
        c*2^q.header.clusterBits+2^q.header.clusterBits := succ_mul _ _
    rw [trimLoop,add64_of_lt (by omega),← hnext,wlp_ite]
    refine ⟨fun hmore => ?_,fun hend => ?_⟩
    · rw [wlp_bind]
      refine (hs.wlp_discardCluster hr q.maxLen c).mono ?_ fun _ _ _ => trivial
      intro _ s₁ hs₁
      have hboth := hd.trans hs₁ fun d hd' heq => by omega
      have hset : (fun d => (first ≤ d ∧ d < c) ∨ d = c) = fun d => first ≤ d ∧ d < c+1 := by
        funext d
        exact propext (by omega)
      rw [hset] at hboth
      refine ih hs₁.sound (by omega) (by omega) hboth fun d hle hlt => ?_
      rcases Nat.lt_succ_iff_lt_or_eq.mp hlt with hlt | rfl
      · exact hlast d hle hlt
      · exact hmore
    · have hset : (fun d => first ≤ d ∧ d < c) =
          fun d => first ≤ d ∧ (d+1)*2^q.header.clusterBits ≤ stop := by
        funext d
        refine propext (and_congr_right fun hle => ⟨hlast d hle,fun hstop => ?_⟩)
        by_contra hge
        have hmul : (c+1)*2^q.header.clusterBits ≤ (d+1)*2^q.header.clusterBits :=
          mul_le_mul_right _ (by omega)
        omega
      exact hset ▸ hd

lemma discardCluster_eq_none (hr : ¬ h.Readable) (maxLen g : ℕ) (s : QcowImage) :
    discardCluster h maxLen g s = none :=
  OpenedImage.l1Index_eq_none hr g s _

lemma inside_iff (hsize : q.header.size < 2^64) :
    q.Inside offset len c ↔ divCeil offset (2^q.header.clusterBits) ≤ c ∧
      (c+1)*2^q.header.clusterBits ≤ min (min (offset+len) (2^64-1)) q.header.size := by
  rw [Inside,divCeil_le_iff _ _ (Nat.two_pow_pos _)]
  exact and_congr_right fun _ => by omega

lemma discarded_of_trim (hw : q.writable = true) (hs : Sound q.header s)
    (hsize : q.header.size+2*2^q.header.clusterBits ≤ 2^64)
    (htrim : q.trim offset len s = some (.ok (),s')) :
    (s' = s ∧ ∀ c, ¬ q.Inside offset len c) ∨
      q.header.Readable ∧ Discarded q.header s (q.Inside offset len) s' := by
  have hcs := Nat.two_pow_pos q.header.clusterBits
  rw [trim] at htrim
  split at htrim
  case isTrue hnone =>
    refine .inl ⟨(Prod.mk.inj (some.inj htrim)).2.symm,fun c hc => ?_⟩
    obtain ⟨hle,hlt⟩ := hc
    rw [Nat.add_mul,Nat.one_mul] at hlt
    rcases hnone with hro | hlen | hoff
    · rw [hw] at hro
      cases hro
    all_goals omega
  case isFalse hsome =>
    have hoff : offset < q.header.size := by
      by_contra hge
      exact hsome (.inr (.inr (Nat.le_of_not_lt hge)))
    by_cases h64 : q.header.clusterBits < 64
    · have hclusterSize : q.header.clusterSize = pure (2^q.header.clusterBits) := oneShl_of_lt h64
      have hup := divCeil_mul_lt offset hcs
      have hfirst : mul64 (divCeil offset (2^q.header.clusterBits)) (2^q.header.clusterBits) =
          divCeil offset (2^q.header.clusterBits)*2^q.header.clusterBits :=
        mul64_of_lt (by omega)
      rw [hclusterSize,pure_bind,hfirst] at htrim
      have hset : q.Inside offset len = fun c =>
          divCeil offset (2^q.header.clusterBits) ≤ c ∧ (c+1)*2^q.header.clusterBits ≤
            min (min (offset+len) (2^64-1)) q.header.size :=
        funext fun c => propext (inside_iff (by omega))
      by_cases hr : q.header.Readable
      · refine .inr ⟨hr,?_⟩
        rw [hset]
        refine (wlp_trimLoop hr hs (by omega) (by omega) le_rfl ?_ fun d hle hlt => by omega).of_ok htrim
        exact .refl hs fun d hd => by omega
      · -- The first cluster would divide by zero.
        have hstuck : ∀ fuel g, q.trimLoop (2^q.header.clusterBits)
            (min (min (offset+len) (2^64-1)) q.header.size) (fuel+1) g s = some (.ok (),s') →
            s' = s ∧ ¬ add64 g (2^q.header.clusterBits) ≤
              min (min (offset+len) (2^64-1)) q.header.size := by
          intro fuel g hloop
          rw [trimLoop] at hloop
          split at hloop
          · rw [bind_eq_none (discardCluster_eq_none hr _ _ _)] at hloop
            cases hloop
          case _ hend => exact ⟨(Prod.mk.inj (some.inj hloop)).2.symm,hend⟩
        obtain ⟨heq,hend⟩ := hstuck _ _ htrim
        refine .inl ⟨heq,fun c hc => hend ?_⟩
        rw [hset] at hc
        have hmul := mul_le_mul_right (2^q.header.clusterBits) hc.1
        have hlast := hc.2
        rw [Nat.add_mul,Nat.one_mul] at hlast
        rw [add64_of_lt (by omega)]
        omega
    · rw [bind_eq_none (OpenedImage.clusterSize_eq_none h64 s)] at htrim
      cases htrim

lemma readAt_cluster (hr : q.header.Readable) (hc : (c+1)*2^q.header.clusterBits ≤ q.header.size) :
    q.readAt (c*2^q.header.clusterBits) (2^q.header.clusterBits) =
      readChunk q.header q.backing.reader (c*2^q.header.clusterBits) (2^q.header.clusterBits) >>=
        fun bytes => pure (bytes ++ []) := by
  have hcs := Nat.two_pow_pos q.header.clusterBits
  rw [Nat.add_mul,Nat.one_mul] at hc
  have hlen : min (2^q.header.clusterBits) (q.header.size-c*2^q.header.clusterBits) =
      2^q.header.clusterBits := by omega
  have hend : ∀ fuel offset, readLoop q.header q.backing.reader fuel 0 offset = pure [] := by
    intro fuel offset
    cases fuel <;> rfl
  obtain ⟨n,hn⟩ := exists_eq_succ_of_ne_zero hcs.ne'
  rw [readAt,Storage.readAt,if_neg (by omega),hlen]
  show readLoop q.header q.backing.reader (2^q.header.clusterBits) _ _ = _
  nth_rewrite 1 [hn]
  rw [readLoop,if_neg hcs.ne',hr.clusterSize_eq,pure_bind,mul_mod_left,Nat.sub_zero,Nat.min_self]
  simp only [Nat.sub_self,hend,pure_bind]

lemma readsZero_of_flag (hr : q.header.Readable) (hs : Sound q.header s)
    (hc : (c+1)*2^q.header.clusterBits ≤ q.header.size)
    (hslot : slot q.header s c = some entry) (hflag : entry &&& oflagZero ≠ 0) : q.ReadsZero s c := by
  have hresolve := hs.resolveCluster_eq hr (c*2^q.header.clusterBits)
  rw [Nat.mul_div_cancel _ (Nat.two_pow_pos _),hslot,locOf,if_pos hflag] at hresolve
  have hchunk : readChunk q.header q.backing.reader (c*2^q.header.clusterBits)
      (2^q.header.clusterBits) s = some (.ok (replicate (2^q.header.clusterBits) 0),s) :=
    bind_eq_of_ok hresolve
  rw [ReadsZero,outcome,readAt_cluster hr hc,bind_eq_of_ok hchunk]
  show some (Except.ok (_ ++ [])) = _
  rw [List.append_nil]

lemma outcome_eq (hr : q.header.Readable) (hs : Sound q.header s) (hs' : Sound q.header s')
    (hlen : s'.file.len = s.file.len) (hsize : q.header.size < 2^64)
    (hsame : ∀ g, off ≤ g → g < off+n → g < q.header.size →
      SameCluster q.header s s' (g/2^q.header.clusterBits)) :
    q.outcome s' off n = q.outcome s off n := by
  refine Agrees.outcome_eq ?_
  rw [readAt,Storage.readAt]
  split
  · exact agrees_pure _
  · exact agrees_readLoop hr hs hs' hlen _ (by omega) fun g hle hlt =>
      hsame g hle (by omega) (by omega)

lemma sameCluster_of_unmapped (hd : Discarded h s (q.Inside offset len) s')
    (hunmapped : ¬ MappedSlot (slot h s c)) : SameCluster h s s' c := by
  by_cases hc : q.Inside offset len c
  · exact ⟨hd.unmapped c hc hunmapped,fun entry hslot hmapped => absurd ⟨entry,hslot,hmapped⟩ hunmapped⟩
  · exact hd.kept c hc

/-- After a trim of a sound image, the clusters inside its range read as zeros and all else as before
just when those of them that are not allocated have read as zeros already. -/
theorem trim_iff (hw : q.writable = true) (hs : Sound q.header s)
    (hsize : q.header.size+2*2^q.header.clusterBits ≤ 2^64) {offset len : ℕ}
    (htrim : q.trim offset len s = some (.ok (),s')) :
    q.Trimmed offset len s s' ↔ ∀ c, q.Inside offset len c →
      resolveCluster q.header (c*2^q.header.clusterBits) s = some (.ok .unallocated,s) →
      q.ReadsZero s c := by
  have hcs := Nat.two_pow_pos q.header.clusterBits
  rcases discarded_of_trim hw hs hsize htrim with ⟨rfl,hnone⟩ | ⟨hr,hd⟩
  · exact ⟨fun _ c hc => absurd hc (hnone c),fun _ => ⟨fun c hc => absurd hc (hnone c),
      fun _ _ _ => rfl⟩⟩
  have hresolve : ∀ c, resolveCluster q.header (c*2^q.header.clusterBits) s =
      some (.ok (locOf (slot q.header s c) 0),s) := by
    intro c
    rw [hs.resolveCluster_eq hr,Nat.mul_div_cancel _ hcs,mul_mod_left]
  have hzero : ∀ c, ¬ MappedSlot (slot q.header s c) → (q.ReadsZero s' c ↔ q.ReadsZero s c) := by
    intro c hunmapped
    have heq : q.outcome s' (c*2^q.header.clusterBits) (2^q.header.clusterBits) =
        q.outcome s (c*2^q.header.clusterBits) (2^q.header.clusterBits) := by
      refine outcome_eq hr hs hd.sound hd.len (by omega) fun g hle hlt _ => ?_
      rw [show g/2^q.header.clusterBits = c from
        Nat.div_eq_of_lt_le hle (by rw [succ_mul]; exact hlt)]
      exact sameCluster_of_unmapped hd hunmapped
    rw [ReadsZero,ReadsZero,heq]
  constructor
  · intro htrimmed c hc hunallocated
    refine (hzero c ?_).mp (htrimmed.zeroed c hc)
    rintro ⟨entry,hslot,hflag,hhost⟩
    rw [hresolve,hslot,locOf,if_neg (not_not.mpr hflag),if_neg hhost] at hunallocated
    cases hunallocated
  · intro hcond
    refine ⟨fun c hc => ?_,fun off n hoff => ?_⟩
    · have hlast : (c+1)*2^q.header.clusterBits ≤ q.header.size :=
        hc.2.trans (min_le_right _ _)
      by_cases hmapped : MappedSlot (slot q.header s c)
      · exact readsZero_of_flag hr hd.sound hlast (hd.zeroed c hc hmapped) (by decide)
      · rw [hzero c hmapped]
        cases hslot : slot q.header s c with
        | none => exact hcond c hc (by rw [hresolve,hslot]; rfl)
        | some entry =>
          by_cases hflag : entry &&& oflagZero ≠ 0
          · exact readsZero_of_flag hr hs hlast hslot hflag
          · have hhost : entry &&& l2OffsetMask = 0 := by
              by_contra hne
              exact hmapped ⟨entry,hslot,not_not.mp hflag,hne⟩
            refine hcond c hc ?_
            rw [hresolve,hslot,locOf,if_neg hflag,if_pos hhost]
    · exact outcome_eq hr hs hd.sound hd.len (by omega) fun g hle hlt _ =>
        hd.kept _ (hoff g hle hlt)

end QcowBackend

/-! ### An overlay
-/

def emptyOverlay (backing : Backing) : QcowBackend :=
  ⟨⟨3,0,0,9,512,0,104,104,0,4⟩,true,backing,2^20⟩

def emptyImage : QcowImage := ⟨Buf.zeros 104,104,0,[]⟩

lemma sound_emptyImage (backing : Backing) : Sound (emptyOverlay backing).header emptyImage := by
  have hslots : rtSlots (emptyOverlay backing).header emptyImage = 0 := by
    simp [rtSlots,emptyImage]
  have hspan : ∀ (r : Region) (sp : Span), r.span (emptyOverlay backing).header emptyImage = some sp →
      r = .header ∧ sp = ⟨0,104⟩ ∨ r ≠ .header ∧ sp = ⟨104,0⟩ := by
    intro r sp hsp
    cases r with
    | header => exact .inl ⟨rfl,(some.inj hsp).symm⟩
    | l1Table => exact .inr ⟨by simp,(some.inj hsp).symm⟩
    | refcountTable =>
      rw [Region.span,hslots] at hsp
      exact .inr ⟨by simp,(some.inj hsp).symm⟩
    | refcountBlock k =>
      rw [Region.span,hslots,if_neg fun hc => not_lt_zero k hc.1] at hsp
      cases hsp
    | l2Table i =>
      rw [Region.span,if_neg fun hc => hc (l2TableOf_of_length_le (zero_le i))] at hsp
      cases hsp
    | data i j =>
      rw [Region.span,if_neg fun hc => hc.1 (l2TableOf_of_length_le (zero_le i))] at hsp
      cases hsp
  refine ⟨by decide,fun r sp _ hsp => ?_,fun r r' sp sp' hne _ hsp hsp' => ?_⟩
  · rcases hspan r sp hsp with ⟨-,rfl⟩ | ⟨-,rfl⟩ <;> decide
  · rcases hspan r sp hsp with ⟨hr,rfl⟩ | ⟨-,rfl⟩ <;>
      rcases hspan r' sp' hsp' with ⟨hr',rfl⟩ | ⟨-,rfl⟩
    · exact absurd (hr.trans hr'.symm) hne
    · exact .inl (by decide)
    · exact .inr (by decide)
    · exact .inl (by decide)

/-- With a backing image that has a seven in it, the seven is still there. -/
theorem not_trimmed_emptyImage : Sound (emptyOverlay (.raw (Buf.ofList [7]))).header emptyImage ∧
    (emptyOverlay (.raw (Buf.ofList [7]))).trim 0 512 emptyImage = some (.ok (),emptyImage) ∧
      ¬ (emptyOverlay (.raw (Buf.ofList [7]))).Trimmed 0 512 emptyImage emptyImage := by
  refine ⟨sound_emptyImage _,rfl,fun htrimmed => ?_⟩
  have hzero : (emptyOverlay (.raw (Buf.ofList [7]))).outcome emptyImage 0 512 =
      some (.ok (replicate 512 0)) :=
    htrimmed.zeroed 0 ⟨by decide,by decide⟩
  exact absurd hzero (by decide +kernel)

end Enlil.Devices.Storage
