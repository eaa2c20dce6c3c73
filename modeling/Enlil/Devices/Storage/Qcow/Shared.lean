import Enlil.Devices.Storage.Qcow.Alloc
import Enlil.Devices.Storage.Qcow.Trim

/-! # Writes and shared host clusters -/

namespace Enlil.Devices.Storage
open Prog QcowImage List Nat Option QcowBackend

def Shared (h : QcowHeader) (s : QcowImage) (index : ℕ) : Prop :=
  ∃ n, readRefcount h index s = some (.ok n,s) ∧ 1 < n

namespace QcowBackend
variable {q : QcowBackend} {B : ℕ} {Z : ℕ → Prop} {f₀ : ℕ → UInt8} {s : QcowImage}

def Free (q : QcowBackend) (Z : ℕ → Prop) (start stop : ℕ) (s : QcowImage) : Prop :=
  ∀ g, start ≤ g → g < stop → ∀ entry, slot q.header s (g/2^q.header.clusterBits) = some entry →
    IsMapped entry → ¬ Z ((entry &&& l2OffsetMask)+g%2^q.header.clusterBits)

variable {offset chunk maxLen l1Size : ℕ} {buf : List UInt8}

lemma wlp_targetOf (hh : Spacious q.header q.maxLen) (hg : Guarded q.header q.maxLen Z f₀ B s)
    (hchunk : offset%2^q.header.clusterBits+chunk ≤ 2^q.header.clusterBits)
    (hfree : q.Free Z offset (offset+chunk) s) :
    (q.targetOf offset).wlp s
      (fun host s' => Grown q.header q.maxLen Z f₀ (· ≠ offset/2^q.header.clusterBits) s s' ∧
        ∀ i < chunk, ¬ Z (host+i))
      (fun _ => Grown q.header q.maxLen Z f₀ (· ≠ offset/2^q.header.clusterBits) s) := by
  have hnew : (allocateDataCluster q.header q.maxLen q.backing.reader offset >>= fun dataOff =>
      q.header.clusterSize >>= fun cs => Prog.sub cs 1 >>= fun mask =>
        pure (Word.add64 dataOff (offset &&& mask))).wlp s
      (fun host s' => Grown q.header q.maxLen Z f₀ (· ≠ offset/2^q.header.clusterBits) s s' ∧
        ∀ i < chunk, ¬ Z (host+i))
      (fun _ => Grown q.header q.maxLen Z f₀ (· ≠ offset/2^q.header.clusterBits) s) := by
    rw [wlp_bind]
    refine (wlp_allocateDataCluster hg hh _ offset).mono ?_ fun _ _ herr => herr
    rintro off s₁ ⟨hgrown,hbehind,hle⟩
    have hmod := mod_lt offset (Nat.two_pow_pos q.header.clusterBits)
    have hmax := hh.maxLen_lt
    rw [hh.clusterSize_eq,Prog.pure_bind,sub_of_le Nat.one_le_two_pow,Prog.pure_bind,wlp_pure,
      and_two_pow_sub_one_eq_mod,Word.add64_of_lt (by omega)]
    refine ⟨hgrown,fun i _ hz => ?_⟩
    have := hbehind _ hz
    omega
  rw [targetOf,wlp_bind]
  refine wlp.intro_ok (hg.sound.resolveCluster_eq hh.toReadable offset) ?_
  cases hloc : locOf (slot q.header s (offset/2^q.header.clusterBits))
    (offset%2^q.header.clusterBits) with
  | zero => exact hnew
  | unallocated => exact hnew
  | mapped host =>
    obtain ⟨entry,hslot,hmapped,rfl⟩ := isMapped_of_locOf hloc
    refine ⟨hg.kept.grown,fun i hi => ?_⟩
    have hpos := Nat.two_pow_pos q.header.clusterBits
    have hdm := div_add_mod offset (2^q.header.clusterBits)
    have hdiv : (offset+i)/2^q.header.clusterBits = offset/2^q.header.clusterBits := by
      refine Nat.div_eq_of_lt_le ?_ ?_
      · rw [mul_comm]
        omega
      · rw [Nat.succ_mul,mul_comm]
        omega
    have hmod : (offset+i)%2^q.header.clusterBits = offset%2^q.header.clusterBits+i := by
      rw [mod_def,hdiv]
      omega
    have hbyte := hfree (offset+i) (Nat.le_add_right _ _) (by omega) entry (hdiv ▸ hslot) hmapped
    rwa [hmod,← add_assoc] at hbyte

def Avoids (Z : ℕ → Prop) (plan : List PlannedWrite) : Prop :=
  ∀ w ∈ plan, ∀ i < w.len, ¬ Z (w.hostOffset+i)

/-- The plan, by induction on the passes: the clusters that are still to come are mapped to where they
were before the pass. -/
lemma wlp_planWrites (hh : Spacious q.header q.maxLen) {writableLen fuel done offset : ℕ}
    (hg : Guarded q.header q.maxLen Z f₀ B s) (hend : offset+(writableLen-done) < 2^64)
    (hfree : q.Free Z offset (offset+(writableLen-done)) s) :
    (q.planWrites writableLen fuel done offset).wlp s
      (fun plan s' => (∃ B, Guarded q.header q.maxLen Z f₀ B s') ∧ Avoids Z plan)
      (fun _ s' => ∃ B, Guarded q.header q.maxLen Z f₀ B s') := by
  induction fuel generalizing done offset s B with
  | zero => exact ⟨⟨B,hg⟩,fun _ hw => absurd hw not_mem_nil⟩
  | succ fuel ih =>
    rw [planWrites,wlp_ite]
    refine ⟨fun _ => ⟨⟨B,hg⟩,fun _ hw => absurd hw not_mem_nil⟩,fun hdone => ?_⟩
    have hmod := mod_lt offset (Nat.two_pow_pos q.header.clusterBits)
    have hdm := div_add_mod offset (2^q.header.clusterBits)
    rw [hh.clusterSize_eq,Prog.pure_bind,wlp_bind]
    generalize hchunk : min (writableLen-done)
      (2^q.header.clusterBits-offset%2^q.header.clusterBits) = chunk
    have hchunk' : offset%2^q.header.clusterBits+chunk ≤ 2^q.header.clusterBits := by omega
    refine (wlp_targetOf hh hg hchunk' fun g hle hlt =>
      hfree g hle (by omega)).mono ?_ fun _ _ herr => herr.guarded
    rintro host s₁ ⟨hgrown,hhost⟩
    obtain ⟨B₁,hg₁⟩ := hgrown.guarded
    rw [Word.add64_of_lt (by omega),wlp_bind]
    refine (ih hg₁ (by omega) ?_).mono ?_ fun _ _ herr => herr
    · intro g hle hlt entry hslot hmapped
      -- a pass that is not the last ends at the end of its cluster
      have hnext : offset/2^q.header.clusterBits < g/2^q.header.clusterBits := by
        refine (Nat.le_div_iff_mul_le (Nat.two_pow_pos _)).mpr ?_
        rw [Nat.succ_mul,mul_comm]
        omega
      exact hfree g (by omega) (by omega) entry
        (hgrown.slot _ entry (by omega) hslot hmapped) hmapped
    · rintro rest s₂ ⟨hg₂,hrest⟩
      refine ⟨hg₂,fun w hw => ?_⟩
      rcases mem_cons.mp hw with rfl | hw
      · exact hhost
      · exact hrest w hw

/-- The bytes of `Z` are in the file, as they were. -/
def Frozen (Z : ℕ → Prop) (f₀ : ℕ → UInt8) (s : QcowImage) : Prop :=
  ∀ p, Z p → p < s.file.len ∧ s.file.byte p = f₀ p

lemma Frozen.of_guarded {h : QcowHeader} (hg : Guarded h maxLen Z f₀ B s) :
    Frozen Z f₀ s :=
  fun p hp => ⟨(hg.bound p hp).trans_le hg.le,hg.bytes p hp⟩

lemma wlp_applyWrites {plan : List PlannedWrite} (hs : Frozen Z f₀ s) (hplan : Avoids Z plan) :
    (q.applyWrites buf plan).wlp s (fun _ => Frozen Z f₀) (fun _ => Frozen Z f₀) := by
  induction plan generalizing s with
  | nil => exact hs
  | cons w rest ih =>
    have hrest : Avoids Z rest := fun w' hw' => hplan w' (mem_cons_of_mem w hw')
    rw [applyWrites,wlp_bind,wlp_assert]
    intro _
    rw [wlp_bind]
    by_cases hzero : w.len = 0
    · rw [hzero,writeAll,if_pos rfl]
      simp only [seek,wlp_bind,wlp_ensure,wlp_pure]
      exact ⟨fun _ => ih hs hrest,fun _ => hs⟩
    · refine wlp_writeAll (Nat.pos_of_ne_zero hzero) (fun _ => ih (fun p hp => ?_) hrest) fun _ => hs
      obtain ⟨hlt,hbyte⟩ := hs p hp
      have hout : p < w.hostOffset ∨ w.hostOffset+w.len ≤ p := by
        by_contra hmem
        refine hplan w mem_cons_self (p-w.hostOffset) (by omega) ?_
        rwa [show w.hostOffset+(p-w.hostOffset) = p by omega]
      have hkept := Buf.byte_store_of_not_mem (f := fun i => buf.getD (w.bufStart+i) 0) hlt hout
      exact ⟨lt_max_of_lt_left hlt,hkept.trans hbyte⟩

lemma wlp_writeAt (hh : Spacious q.header q.maxLen) (hsize : q.header.size < 2^64)
    (hg : Guarded q.header q.maxLen Z f₀ B s)
    (hfree : q.Free Z offset (min (offset+buf.length) q.header.size) s) :
    (q.writeAt offset buf).wlp s (fun _ => Frozen Z f₀) (fun _ => Frozen Z f₀) := by
  have hs : Frozen Z f₀ s := .of_guarded hg
  rw [writeAt,wlp_ite]
  refine ⟨fun _ => hs,fun _ => ?_⟩
  rw [wlp_ite]
  refine ⟨fun _ => hs,fun hin => ?_⟩
  rw [wlp_bind]
  refine (wlp_planWrites hh hg (by omega) fun g hle hlt => hfree g hle (by omega)).mono ?_ ?_
  · rintro plan s₁ ⟨⟨B₁,hg₁⟩,hplan⟩
    rw [wlp_bind]
    exact wlp_applyWrites (.of_guarded hg₁) hplan
  · rintro _ s₁ ⟨B₁,hg₁⟩
    exact .of_guarded hg₁

/-- The regions of the image are in its file, its tables overlap nothing and are not in shared
clusters. -/
structure Separate (q : QcowBackend) (s : QcowImage) : Prop where
  sound : Sound q.header s
  inside : ∀ (r : Region) (sp : Span), r.span q.header s = some sp → sp.start+sp.len ≤ s.file.len
  tables : ∀ (r : Region) (sp : Span), r.IsTable → r.span q.header s = some sp → ∀ p, sp.start ≤ p →
    p < sp.start+sp.len → ¬ Shared q.header s (p/2^q.header.clusterBits)

/-- No guest byte of a range is mapped to a shared cluster. -/
def Unshared (q : QcowBackend) (offset len : ℕ) (s : QcowImage) : Prop :=
  ∀ g, offset ≤ g → g < min (offset+len) q.header.size → ∀ host,
    resolveCluster q.header g s = some (.ok (.mapped host),s) →
    ¬ Shared q.header s (host/2^q.header.clusterBits)

def sharedByte (h : QcowHeader) (s : QcowImage) (p : ℕ) : Prop :=
  p < s.file.len ∧ Shared h s (p/2^h.clusterBits)

lemma Separate.guarded (hsep : q.Separate s) (hfits : Fits q.header q.maxLen l1Size 0 s) :
    Guarded q.header q.maxLen (sharedByte q.header s) s.file.byte s.file.len s where
  sound := hsep.sound
  le := le_rfl
  len_le := hfits.len_le
  rt_lt := hfits.rt_lt
  rt_ge := hfits.rt_ge
  inside := hsep.inside
  avoids r sp htable hsp p hp hlt hz := hsep.tables r sp htable hsp p hp hlt hz.2
  bound _ hp := hp.1
  bytes _ _ := rfl

lemma Unshared.free (hsep : q.Separate s) (hr : q.header.Readable) {offset len : ℕ}
    (hun : q.Unshared offset len s) :
    q.Free (sharedByte q.header s) offset (min (offset+len) q.header.size) s := by
  intro g hle hlt entry hslot hmapped hz
  refine hun g hle hlt _ ?_ hz.2
  rw [hsep.sound.resolveCluster_eq hr,hslot,locOf,if_neg (not_not.mpr hmapped.1),if_neg hmapped.2]

end QcowBackend

/-- A write keeps the bytes of all shared clusters if, in the state before it, the tables of the
image are not shared and no byte of its range is mapped to a shared cluster. -/
theorem OpenedImage.shared_unchanged {fs : FileSystem} {fuel : ℕ} {path : Path} {o : OpenedImage}
    (hopen : openImage fs fuel path = some (.ok o)) (hreg : o.Regular)
    (hh : Spacious o.header fs.maxLen) {calls : List StorageCall} {k offset : ℕ} {buf : List UInt8}
    (hk : calls[k]? = some (.writeAt offset buf)) {s s' : QcowImage}
    (hs : (o.backend true fs.maxLen).runAt o.image calls k = some s)
    (hs' : (o.backend true fs.maxLen).runAt o.image calls (k+1) = some s')
    (hsep : (o.backend true fs.maxLen).Separate s)
    (hun : (o.backend true fs.maxLen).Unshared offset buf.length s) :
    ∀ p < s.file.len, Shared o.header s (p/2^o.header.clusterBits) →
      s'.file.byte p = s.file.byte p := by
  have hq := hreg.backend fs true
  have hsize := hreg.size_le
  have hcs := Nat.two_pow_pos o.header.clusterBits
  obtain ⟨s₁,hsome,hfits⟩ := fits_runAt hq (fits_of_open hopen) calls k
  rw [hs] at hsome
  obtain rfl := Option.some.inj hsome
  have hstep : some s' =
      ((o.backend true fs.maxLen).call (.writeAt offset buf) s).map Prod.snd := by
    rw [← hs',runAt,Runs.foldl_take_succ hk]
    exact congrArg (fun x => Option.bind x _) hs
  have hwrite := wlp_writeAt hh (show o.header.size < 2^64 by omega)
    (hsep.guarded hfits) (hun.free hsep hh.toReadable)
  have hcall : ((o.backend true fs.maxLen).call (.writeAt offset buf)).wlp s
      (fun _ => QcowBackend.Frozen (sharedByte o.header s) s.file.byte)
      (fun _ => QcowBackend.Frozen (sharedByte o.header s) s.file.byte) := by
    rw [call,wlp_bind]
    exact hwrite.mono (fun _ _ hfrozen => hfrozen) fun _ _ hfrozen => hfrozen
  have hend : QcowBackend.Frozen (sharedByte o.header s) s.file.byte s' := by
    obtain ⟨⟨r,s₂⟩,hrun,hs₂⟩ := map_eq_some_iff.mp hstep.symm
    cases hs₂
    cases r with
    | ok a => exact hcall.of_ok hrun
    | error e => exact hcall.of_error hrun
  exact fun p hp hshared => (hend p ⟨hp,hshared⟩).2

/-- A disk of two clusters, each with a data cluster; the refcount of the first one is 2. -/
def snapshotImage : Buf :=
  [(0,4,qcow2Magic),(4,4,2),(20,4,9),(24,8,1024),(36,4,1),(40,8,1536),(48,8,512),
    (56,4,1),(512,8,1024),(1024,2,1),(1026,2,1),(1028,2,1),(1030,2,1),(1032,2,1),
    (1034,2,2),(1036,2,1),(1536,8,2048+2^63),(2048,8,2560),
    (2056,8,3072+2^63)].foldl (fun b w => b.writeBE w.1 w.2.1 w.2.2) (Buf.zeros 3584)

def snapshotFile : FileSystem where
  files := [(Path.new [0x61],snapshotImage)]
  maxLen := 2^20
  maxLen_lt := by decide
  len_le f hf := by
    rw [mem_singleton.mp hf]
    decide

def snapshotOpened : OpenedImage :=
  ⟨⟨2,0,0,9,1024,1,1536,512,1,4⟩,⟨snapshotImage,512,1,[2048+2^63]⟩,.none⟩

lemma open_snapshotFile :
    openImage snapshotFile 1 (Path.new [0x61]) = some (.ok snapshotOpened) := by
  have hfile : snapshotFile.openFile (Path.new [0x61]) = .ok snapshotImage := by
    simp [FileSystem.openFile,snapshotFile]
  have hheader : readHeader snapshotImage = .ok snapshotOpened.header := by decide +kernel
  have hl1 : readL1Table snapshotImage snapshotOpened.header = .ok [2048+2^63] := by decide +kernel
  exact openImage_standalone hfile hheader hl1 rfl

def snapshotRegions : List (Region × Span) :=
  [(.header,⟨0,104⟩),(.l1Table,⟨1536,8⟩),(.refcountTable,⟨512,512⟩),
    (.refcountBlock 0,⟨1024,512⟩),(.l2Table 0,⟨2048,512⟩),(.data 0 0,⟨2560,512⟩),
    (.data 0 1,⟨3072,512⟩)]

lemma mem_snapshotRegions {r : Region} {sp : Span}
    (hsp : r.span snapshotOpened.header snapshotOpened.image = some sp) : (r,sp) ∈ snapshotRegions := by
  have htable : ∀ i, i ≠ 0 → l2TableOf snapshotOpened.image i = 0 :=
    fun i hi => l2TableOf_of_length_le (one_le_iff_ne_zero.mpr hi)
  cases r with
  | header => cases hsp; decide
  | l1Table => cases hsp; decide
  | refcountTable => cases hsp; decide
  | refcountBlock k =>
    obtain ⟨⟨hk,hne⟩,heq⟩ := ite_none_right_eq_some.mp hsp
    have hnone : ∀ k < 64, k ≠ 0 → blockOf snapshotOpened.image k = 0 := by decide +kernel
    have hzero : k = 0 := by
      by_contra hk0
      exact hne (hnone k hk hk0)
    subst hzero
    have hblock : blockOf snapshotOpened.image 0 = 1024 := by decide +kernel
    rw [hblock] at heq
    cases heq
    decide
  | l2Table i =>
    obtain ⟨hne,heq⟩ := ite_none_right_eq_some.mp hsp
    have hzero : i = 0 := by
      by_contra hi
      exact hne (htable i hi)
    subst hzero
    cases heq
    decide
  | data i j =>
    obtain ⟨⟨hne,hj,hmapped⟩,heq⟩ := ite_none_right_eq_some.mp hsp
    have hzero : i = 0 := by
      by_contra hi
      exact hne (htable i hi)
    subst hzero
    have hnone : ∀ j < 64, j ≠ 0 → j ≠ 1 → ¬ IsMapped (l2EntryOf snapshotOpened.image 0 j) := by
      decide +kernel
    by_cases hj0 : j = 0
    · subst hj0
      have hentry : l2EntryOf snapshotOpened.image 0 0 &&& l2OffsetMask = 2560 := by decide +kernel
      rw [hentry] at heq
      cases heq
      decide
    · have hone : j = 1 := by
        by_contra hj1
        exact hnone j hj hj0 hj1 hmapped
      subst hone
      have hentry : l2EntryOf snapshotOpened.image 0 1 &&& l2OffsetMask = 3072 := by decide +kernel
      rw [hentry] at heq
      cases heq
      decide

lemma refcount_snapshot : ∀ index < 7, (readRefcount snapshotOpened.header index
    snapshotOpened.image).map Prod.fst = some (.ok (if index = 5 then 2 else 1)) := by
  decide +kernel

lemma not_shared_snapshot {index : ℕ} (hindex : index < 7) (hne : index ≠ 5) :
    ¬ Shared snapshotOpened.header snapshotOpened.image index := by
  rintro ⟨n,hread,hn⟩
  have hone := refcount_snapshot index hindex
  rw [hread,if_neg hne] at hone
  cases hone
  exact absurd hn (by decide)

lemma shared_snapshot : Shared snapshotOpened.header snapshotOpened.image 5 := by
  have htwo := refcount_snapshot 5 (by decide)
  obtain ⟨r,hr⟩ := isQuery_readRefcount (h := snapshotOpened.header)
    ⟨⟨by decide,by decide⟩,by decide,by decide⟩ 5 snapshotOpened.image
  rw [hr,if_pos rfl] at htwo
  cases htwo
  exact ⟨2,hr,by decide⟩

lemma separate_snapshot : (snapshotOpened.backend true (2^20)).Separate snapshotOpened.image where
  sound := by
    refine ⟨by decide,fun r sp _ hsp => ?_,fun r r' sp sp' hne htable hsp hsp' => ?_⟩
    · have hall : ∀ x ∈ snapshotRegions, x.2.start+x.2.len ≤ 3584 := by decide
      exact hall _ (mem_snapshotRegions hsp)
    · have hall : ∀ x ∈ snapshotRegions, ∀ y ∈ snapshotRegions, x.1 ≠ y.1 →
          x.2.start+x.2.len ≤ y.2.start ∨ y.2.start+y.2.len ≤ x.2.start := by decide
      exact hall _ (mem_snapshotRegions hsp) _ (mem_snapshotRegions hsp') hne
  inside r sp hsp := by
    have hall : ∀ x ∈ snapshotRegions, x.2.start+x.2.len ≤ 3584 := by decide
    exact hall _ (mem_snapshotRegions hsp)
  tables r sp htable hsp p hp hlt := by
    have hall : ∀ x ∈ snapshotRegions, x.2.start+x.2.len ≤ 2560 ∨ 2560 ≤ x.2.start ∧
        (x.1 = .data 0 0 ∨ x.1 = .data 0 1) := by decide
    rcases hall _ (mem_snapshotRegions hsp) with hle | ⟨-,rfl | rfl⟩
    · have hindex : p/2^9 < 5 := Nat.div_lt_of_lt_mul (by dsimp only at hle; omega)
      exact not_shared_snapshot (hindex.trans (by decide)) hindex.ne
    · exact absurd htable id
    · exact absurd htable id

lemma resolveCluster_snapshot : (resolveCluster snapshotOpened.header 512
    snapshotOpened.image).map Prod.fst = some (.ok (.mapped 3072)) := by
  decide +kernel

/-- A trim of the second cluster, which is mapped. -/
theorem trimmed_snapshot :
    ∃ s', (snapshotOpened.backend true (2^20)).trim 512 512 snapshotOpened.image = some (.ok (),s') ∧
      (snapshotOpened.backend true (2^20)).Trimmed 512 512 snapshotOpened.image s' := by
  have hsome : ((snapshotOpened.backend true (2^20)).trim 512 512 snapshotOpened.image).map Prod.fst =
      some (.ok ()) := by decide +kernel
  obtain ⟨⟨_,s'⟩,htrim,rfl⟩ := map_eq_some_iff.mp hsome
  refine ⟨s',htrim,(trim_iff rfl separate_snapshot.sound (by decide) htrim).mpr ?_⟩
  intro c hc hloc
  have hone : c = 1 := by
    have hle : 512 ≤ c*512 := hc.1
    have hlast : (c+1)*512 ≤ 1024 := hc.2
    omega
  subst hone
  cases resolveCluster_snapshot.symm.trans (congrArg (Option.map Prod.fst) hloc)

/-- A write into the second cluster keeps the shared one. -/
theorem shared_unchanged_snapshot :
    ∃ s', (snapshotOpened.backend true (2^20)).runAt snapshotOpened.image [.writeAt 512 [7]] 1 = some s' ∧
      Shared snapshotOpened.header snapshotOpened.image 5 ∧
      s'.file.byte 2560 = snapshotOpened.image.file.byte 2560 := by
  have hreg : snapshotOpened.Regular :=
    ⟨⟨⟨by decide,by decide⟩,by decide,by decide⟩,trivial,by decide⟩
  obtain ⟨s',hs',-⟩ := fits_runAt (hreg.backend snapshotFile true)
    (OpenedImage.fits_of_open open_snapshotFile) [.writeAt 512 [7]] 1
  refine ⟨s',hs',shared_snapshot,?_⟩
  refine OpenedImage.shared_unchanged open_snapshotFile hreg
    ⟨hreg.header,by decide,by decide,by decide⟩ (k := 0) rfl rfl hs' separate_snapshot ?_ 2560
    (by decide) shared_snapshot
  intro g hle hlt host hhost
  have hg : g = 512 := by
    have hlt' : g < min (512+1) 1024 := hlt
    omega
  subst hg
  cases resolveCluster_snapshot.symm.trans (congrArg (Option.map Prod.fst) hhost)
  exact not_shared_snapshot (by decide) (by decide)

/-- A write into the first cluster changes the shared one in place. -/
theorem not_shared_unchanged :
    openImage snapshotFile 1 (Path.new [0x61]) = some (.ok snapshotOpened) ∧
      Shared snapshotOpened.header snapshotOpened.image 5 ∧
      ((snapshotOpened.backend true (2^20)).runAt snapshotOpened.image [.writeAt 0 [7]] 1).map
        (fun s => s.file.byte 2560) = some 7 ∧ snapshotOpened.image.file.byte 2560 = 0 :=
  ⟨open_snapshotFile,shared_snapshot,by decide +kernel,by decide +kernel⟩

end Enlil.Devices.Storage
