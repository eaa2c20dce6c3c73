import Enlil.Lib.Le

/-! # Trimming an NVMe namespace: model of `storage/nvme.rs`, `deallocate` and `trim` -/

namespace Enlil.Devices.Storage

structure NvmePassthroughBackend where
  capacityBytes : ℕ
  capacityBytes_lt : capacityBytes < 2^64
  readonly : Bool
  oncsDsm : Bool

namespace NvmePassthroughBackend
variable {b : NvmePassthroughBackend} {lba n block remaining : ℕ} {d : List UInt8}

def descriptor (lba nlb : ℕ) : List UInt8 :=
  Le.bytes 8 lba ++ Le.bytes 4 nlb ++ [0,0,0,0]

def deallocate (b : NvmePassthroughBackend) (lba nblocks : ℕ) : List (List UInt8) :=
  if !b.oncsDsm then []
  else if 2^32 ≤ nblocks then []
  else [descriptor lba nblocks]

def trimLoop (b : NvmePassthroughBackend) (lba remaining : ℕ) : List (List UInt8) :=
  if remaining = 0 then []
  else
    let n := min remaining (2^32-1)
    b.deallocate lba n ++ b.trimLoop (lba+n) (remaining-n)
termination_by remaining
decreasing_by omega

def trim (b : NvmePassthroughBackend) (offset len : ℕ) : List (List UInt8) :=
  if b.readonly || len = 0 || offset%512 ≠ 0 || len%512 ≠ 0 then []
  else
    let stop := min (min (offset+len) (2^64-1)) b.capacityBytes
    if stop ≤ offset then []
    else b.trimLoop (offset/512) ((stop-offset)/512)

/-- The blocks of a range descriptor in the NVMe specification: a length in bytes 4 to 7 and a
starting block in bytes 8 to 15. -/
def Names (d : List UInt8) (block : ℕ) : Prop :=
  Le.toNat ((d.drop 8).take 8) ≤ block ∧
    block < Le.toNat ((d.drop 8).take 8)+Le.toNat ((d.drop 4).take 4)

def Covers (b : NvmePassthroughBackend) (offset len block : ℕ) : Prop :=
  offset ≤ 512*block ∧ 512*(block+1) ≤ min (offset+len) b.capacityBytes

def Exact (b : NvmePassthroughBackend) (offset len : ℕ) : Prop :=
  ∀ block, (∃ d ∈ b.trim offset len, Names d block) ↔ b.Covers offset len block

/-- The starting block is read as the length of the range, and its upper half as the length. -/
lemma names_descriptor (hn : n < 2^32) :
    Names (descriptor lba n) block ↔ n ≤ block ∧ block < n+lba/2^32%2^32 := by
  have hlength : ((descriptor lba n).drop 4).take 4 = Le.bytes 4 (lba/256/256/256/256) := rfl
  have hstart : Le.toNat (((descriptor lba n).drop 8).take 8) = n := by
    show Le.toNat (Le.bytes 4 n ++ [0,0,0,0]) = n
    simp only [Le.bytes,List.cons_append,List.nil_append,Le.toNat,UInt8.toNat_ofNat',
      UInt8.toNat_zero]
    omega
  rw [Names,hstart,hlength,Le.toNat_bytes]
  omega

lemma mem_trimLoop (hdsm : b.oncsDsm = true) (hd : d ∈ b.trimLoop lba remaining) :
    ∃ lba' n, d = descriptor lba' n ∧ n ≤ remaining ∧ lba'+n ≤ lba+remaining ∧
      (n = 2^32-1 ∨ n = remaining%(2^32-1)) := by
  induction remaining using Nat.strongRecOn generalizing lba with
  | ind remaining ih =>
    rw [trimLoop] at hd
    split at hd
    · cases hd
    · rename_i hne
      dsimp only at hd
      rw [deallocate,hdsm,if_neg (by decide),if_neg (by omega)] at hd
      rcases List.mem_append.mp hd with hd | hd
      · refine ⟨lba,_,List.mem_singleton.mp hd,by omega,by omega,?_⟩
        rcases Nat.lt_or_ge remaining (2^32-1) with hlt | hge
        · exact .inr (by rw [Nat.mod_eq_of_lt hlt,Nat.min_eq_left (Nat.le_of_lt hlt)])
        · exact .inl (Nat.min_eq_right hge)
      · obtain ⟨lba',n,rfl,hn,hle,hlast⟩ := ih _ (by omega) hd
        refine ⟨lba',n,rfl,by omega,by omega,hlast.imp_right fun heq => ?_⟩
        have hge : 2^32-1 ≤ remaining := by
          by_contra hlt
          rw [Nat.min_eq_left (by omega),Nat.sub_self,trimLoop,if_pos rfl] at hd
          cases hd
        rw [heq,Nat.min_eq_right hge,← Nat.mod_eq_sub_mod hge]

variable {offset len : ℕ}

lemma trim_eq (hwritable : b.readonly = false) (hoffset : offset%512 = 0) (hlen : len%512 = 0) :
    b.trim offset len =
      b.trimLoop (offset/512) ((min (offset+len) b.capacityBytes-offset)/512) := by
  have hstop : min (min (offset+len) (2^64-1)) b.capacityBytes =
      min (offset+len) b.capacityBytes := by
    have := b.capacityBytes_lt
    omega
  simp only [trim,hstop,hwritable,hoffset,hlen]
  split_ifs with hzero hempty
  · rw [trimLoop,if_pos]
    have : len = 0 := by simpa using hzero
    omega
  · rw [trimLoop,if_pos (by omega)]
  · rfl

lemma covers_iff (hoffset : offset%512 = 0) : b.Covers offset len block ↔ offset/512 ≤ block ∧
    block < offset/512+(min (offset+len) b.capacityBytes-offset)/512 := by
  unfold Covers
  omega

/-- The ranges of a trim are its blocks only if it has none. -/
theorem exact_iff (b : NvmePassthroughBackend) (offset len : ℕ) (hwritable : b.readonly = false)
    (hdsm : b.oncsDsm = true) (hoffset : offset%512 = 0) (hlen : len%512 = 0) :
    b.Exact offset len ↔ min (offset+len) b.capacityBytes < offset+512 := by
  have hcap := b.capacityBytes_lt
  simp only [Exact,trim_eq hwritable hoffset hlen,covers_iff hoffset]
  generalize hlba : offset/512 = lba
  generalize hblocks : (min (offset+len) b.capacityBytes-offset)/512 = blocks
  constructor
  · intro h
    by_contra hsome
    have hnamed : ∀ block, lba ≤ block → block < lba+blocks → ∃ lba' n, n ≤ blocks ∧
        lba'+n ≤ lba+blocks ∧ (n = 2^32-1 ∨ n = blocks%(2^32-1)) ∧ n ≤ block ∧
        block < n+lba'/2^32%2^32 ∧ lba ≤ n := by
      intro block hge hlt
      obtain ⟨d,hd,hnames⟩ := (h block).mpr ⟨hge,hlt⟩
      obtain ⟨lba',n,rfl,hn,hle,hlast⟩ := mem_trimLoop hdsm hd
      obtain ⟨hstart,hstop⟩ := (names_descriptor (by omega)).mp hnames
      have hfirst := (h n).mp ⟨_,hd,(names_descriptor (by omega)).mpr ⟨Nat.le_refl _,by omega⟩⟩
      exact ⟨lba',n,hn,hle,hlast,hstart,hstop,hfirst.1⟩
    generalize blocks%(2^32-1) = last at hnamed
    obtain ⟨lba₁,n₁,-,hle₁,hn₁,hstart₁,hstop₁,hfirst₁⟩ := hnamed lba (by omega) (by omega)
    rcases Nat.lt_or_ge blocks (2^32) with hlt | hge
    · omega
    · -- the ranges start at two blocks at most, and each is too short for three distant blocks
      obtain ⟨lba₂,n₂,-,hle₂,hn₂,hstart₂,hstop₂,hfirst₂⟩ :=
        hnamed (lba+2^24) (by omega) (by omega)
      obtain ⟨lba₃,n₃,-,hle₃,hn₃,hstart₃,hstop₃,hfirst₃⟩ :=
        hnamed (lba+2^25) (by omega) (by omega)
      omega
  · intro hnone block
    rw [trimLoop,if_pos (by omega)]
    constructor
    · rintro ⟨d,hd,-⟩
      cases hd
    · omega

theorem exact_beyond_end : (⟨2^20,by decide,false,true⟩ : NvmePassthroughBackend).Exact (2^20) 512 :=
  (exact_iff _ _ _ rfl rfl (by decide) (by decide)).mpr (by decide)

/-- Trimming one block at 2 TiB discards block 1 instead. -/
theorem not_exact_tebibytes : ∃ b : NvmePassthroughBackend, b.capacityBytes = 2^42 ∧
    b.trim (2^41) 512 = [descriptor (2^32) 1] ∧ Names (descriptor (2^32) 1) 1 ∧
    ¬Names (descriptor (2^32) 1) (2^32) ∧ ¬b.Covers (2^41) 512 1 := by
  refine ⟨⟨2^42,by decide,false,true⟩,rfl,?_,?_,?_,?_⟩
  · rw [trim_eq rfl (by decide) (by decide),trimLoop,if_neg (by decide)]
    dsimp only
    rw [trimLoop,if_pos (by decide)]
    rfl
  · exact (names_descriptor (by decide)).mpr (by decide)
  · exact mt (names_descriptor (by decide)).mp (by decide)
  · exact mt And.left (by decide)

end NvmePassthroughBackend
end Enlil.Devices.Storage
