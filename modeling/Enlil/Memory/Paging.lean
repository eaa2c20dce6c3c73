import Enlil.Hal.Npt.Builder

/-! # Identity-mapped page tables, and agreement with the nested-table builder -/

namespace Enlil.Paging
open Word Buf Prog Npt

abbrev pageSize : ℕ := 4096
abbrev pageBytes : ℕ := 4096
abbrev tableEntries : ℕ := 512
abbrev huge2mib : ℕ := 2*1024*1024

namespace Flags

def present : ℕ := 1 <<< 0
def writable : ℕ := 1 <<< 1
def user : ℕ := 1 <<< 2
def hugePage : ℕ := 1 <<< 7
def noExecute : ℕ := 1 <<< 63

end Flags

def tableAddrMask : ℕ := 0x000FFFFFFFFFF000

def huge2mibAddrMask : ℕ := 0x000FFFFFFFE00000

def pml4Index (virt : ℕ) : ℕ := virt >>> 39 &&& 0x1FF
def pdptIndex (virt : ℕ) : ℕ := virt >>> 30 &&& 0x1FF
def pdIndex (virt : ℕ) : ℕ := virt >>> 21 &&& 0x1FF
def ptIndex (virt : ℕ) : ℕ := virt >>> 12 &&& 0x1FF

def tableEntry (nextPhys flags : ℕ) : ℕ := (nextPhys &&& tableAddrMask) ||| flags

def huge2mibEntry (phys flags : ℕ) : ℕ := (phys &&& huge2mibAddrMask) ||| flags ||| Flags.hugePage

def pteEntry (phys flags : ℕ) : ℕ := (phys &&& tableAddrMask) ||| flags

structure PageTableLayout where
  cr3 : ℕ
  tableCount : ℕ
  bytes : ℕ
deriving DecidableEq, Repr

inductive PagingError where
  | emptyRegion
  | unalignedBase
  | mapTooLarge (numPd : ℕ)
  | tablesExceedMemory (needed have' : ℕ)
deriving DecidableEq, Repr

def writeEntry (off entry : ℕ) : Prog Buf PagingError Unit := Buf.storeLE off 8 entry

/-- The offsets `(base, region bytes, end)` of `tableCount` tables, if they fit. -/
def tableRegion (tablesBaseGpa tableCount memLen : ℕ) : Except PagingError (ℕ × ℕ × ℕ) :=
  let tooBig := PagingError.tablesExceedMemory (2^64-1) memLen
  match checkedMul64 tableCount pageBytes with
  | none => .error tooBig
  | some region =>
    match checkedAdd64 tablesBaseGpa region with
    | none => .error tooBig
    | some last =>
      if memLen < last then .error (.tablesExceedMemory last memLen)
      else .ok (tablesBaseGpa,region,last)

def buildIdentityMap2mibWith (tablesBaseGpa bytesToMap leafFlags tableFlags : ℕ) :
    Prog Buf PagingError PageTableLayout := do
  ensure (bytesToMap ≠ 0) .emptyRegion
  ensure (tablesBaseGpa &&& (pageSize-1) = 0) .unalignedBase
  let num2mib := divCeil bytesToMap huge2mib
  let numPd := divCeil num2mib tableEntries
  ensure (numPd ≤ tableEntries) (.mapTooLarge numPd)
  let tableCount := 2+numPd
  let mem ← gets id
  let (base,regionUsize,last) ← ofExcept (tableRegion tablesBaseGpa tableCount mem.len)
  Buf.storeZero base last
  let pdptGpa := add64 tablesBaseGpa pageSize
  let firstPdGpa := add64 tablesBaseGpa (2*pageSize)
  let pdptOff := base+pageBytes
  let firstPdOff := base+2*pageBytes
  writeEntry base (tableEntry pdptGpa tableFlags)
  forN numPd fun k =>
    let pdGpa := add64 firstPdGpa (k*pageSize)
    writeEntry (pdptOff+k*8) (tableEntry pdGpa tableFlags)
  let leaf := leafFlags ||| Flags.present
  forN num2mib fun page =>
    let k := page/512
    let j := page%512
    let pdOff := firstPdOff+k*pageBytes
    let phys := page*huge2mib
    writeEntry (pdOff+j*8) (huge2mibEntry phys leaf)
  pure ⟨tablesBaseGpa,tableCount,regionUsize⟩

def buildIdentityMap2mib (tablesBaseGpa bytesToMap leafFlags : ℕ) :
    Prog Buf PagingError PageTableLayout :=
  buildIdentityMap2mibWith tablesBaseGpa bytesToMap leafFlags (Flags.present ||| Flags.writable)

def buildNptIdentityMap2mib (tablesBaseGpa bytesToMap extraLeafFlags : ℕ) :
    Prog Buf PagingError PageTableLayout :=
  buildIdentityMap2mibWith tablesBaseGpa bytesToMap
    (extraLeafFlags ||| Flags.writable ||| Flags.user)
    (Flags.present ||| Flags.writable ||| Flags.user)

variable {mem : Buf} {base bytesToMap leafFlags tableFlags : ℕ}

@[simp]
lemma wp_writeEntry {off e : ℕ} {ok : Unit → Buf → Prop} {err : PagingError → Buf → Prop} :
    (writeEntry off e).wp mem ok err ↔ off+8 ≤ mem.len ∧ ok () (mem.writeLE off 8 e) :=
  wp_storeLE

lemma tableRegion_eq_ok {tableCount memLen : ℕ} {r : ℕ × ℕ × ℕ} (hmem : memLen < 2^64) :
    tableRegion base tableCount memLen = .ok r ↔ base+tableCount*4096 ≤ memLen ∧
        (base,tableCount*4096,base+tableCount*4096) = r := by
  simp only [tableRegion,checkedMul64,checkedAdd64]
  by_cases hmul : tableCount*4096 < 2^64
  · rw [if_pos hmul]
    by_cases hadd : base+tableCount*4096 < 2^64
    · simp only [if_pos hadd]
      by_cases hfit : memLen < base+tableCount*4096
      · simp only [if_pos hfit,reduceCtorEq,false_iff]
        omega
      · simp only [if_neg hfit,Except.ok.injEq]
        exact ⟨fun h => ⟨by omega,h⟩,fun h => h.2⟩
    · simp only [if_neg hadd,reduceCtorEq,false_iff]
      omega
  · simp only [if_neg hmul,reduceCtorEq,false_iff]
    omega

def identityImage (mem : Buf) (base leafFlags tableFlags num2mib numPd : ℕ) : Buf :=
  (((mem.zero base ((2+numPd)*4096)).writeLE base 8
      (tableEntry (add64 base pageSize) tableFlags)).writeAllLE 8
    (fun k => base+pageBytes+k*8)
    (fun k => tableEntry (add64 (add64 base (2*pageSize)) (k*pageSize)) tableFlags)
    numPd).writeAllLE 8
  (fun page => base+2*pageBytes+page/512*pageBytes+page%512*8)
  (fun page => huge2mibEntry (page*huge2mib) (leafFlags ||| Flags.present)) num2mib

structure Buildable (len base bytesToMap : ℕ) : Prop where
  nonempty : bytesToMap ≠ 0
  aligned : base &&& (pageSize-1) = 0
  reach : divCeil (divCeil bytesToMap huge2mib) tableEntries ≤ tableEntries
  fits : base+(2+divCeil (divCeil bytesToMap huge2mib) tableEntries)*4096 ≤ len

lemma buildIdentityMap2mibWith_wp (hmem : mem.len < 2^64) :
    (buildIdentityMap2mibWith base bytesToMap leafFlags tableFlags).wp mem
      (fun l m => Buildable mem.len base bytesToMap ∧
        l = ⟨base,2+divCeil (divCeil bytesToMap huge2mib) tableEntries,
          (2+divCeil (divCeil bytesToMap huge2mib) tableEntries)*4096⟩ ∧
        m = identityImage mem base leafFlags tableFlags (divCeil bytesToMap huge2mib)
          (divCeil (divCeil bytesToMap huge2mib) tableEntries))
      (fun _ m => ¬ Buildable mem.len base bytesToMap ∧ m = mem) := by
  have hcover : divCeil bytesToMap huge2mib ≤
      divCeil (divCeil bytesToMap huge2mib) tableEntries*512 :=
    divCeil_mul_ge _ (by decide)
  simp only [buildIdentityMap2mibWith,wp_bind,wp_ensure,wp_gets,
    wp_ofExcept,tableRegion_eq_ok hmem,wp_storeZero,wp_writeEntry,wp_pure,id]
  refine ⟨fun h1 => ⟨fun h2 => ⟨fun h3 => ⟨?_,fun e h4 => ?_⟩,fun h3 => ?_⟩,
    fun h2 => ?_⟩,fun h1 => ?_⟩
  · rintro _ ⟨hfit,rfl⟩
    dsimp only
    refine ⟨by omega,by simp only [len_zero]; omega,?_⟩
    refine (wp_forN_storeLE fun k hk => ?_).mono ?_ fun _ _ h => h
    · simp only [len_writeLE,len_zero]
      show base+4096+k*8+8 ≤ mem.len
      omega
    rintro _ _ rfl
    refine (wp_forN_storeLE fun page hpage => ?_).mono ?_ fun _ _ h => h
    · simp only [len_writeAllLE,len_writeLE,len_zero]
      have hoff := leafOffset_eq page
      show base+2*4096+page/512*4096+page%512*8+8 ≤ mem.len
      omega
    rintro _ _ rfl
    refine ⟨⟨h1,h2,h3,hfit⟩,rfl,?_⟩
    rw [identityImage,Nat.add_sub_cancel_left]
  · refine ⟨fun h => ?_,trivial⟩
    rw [(tableRegion_eq_ok hmem).mpr ⟨h.fits,rfl⟩] at h4
    cases h4
  · exact ⟨fun h => h3 h.reach,trivial⟩
  · exact ⟨fun h => h2 h.aligned,trivial⟩
  · exact ⟨fun h => h1 h.nonempty,trivial⟩

/-- The two leaf masks differ only in bits that are zero in a 2 MiB-aligned address. -/
lemma huge2mibEntry_eq_npt (page : ℕ) :
    huge2mibEntry (page*huge2mib) (0 ||| Flags.writable ||| Flags.user ||| Flags.present) =
      (page*2^21 &&& addrMask) ||| hugeLeafFlags := by
  have hmask : page*2^21 &&& huge2mibAddrMask = page*2^21 &&& addrMask := by
    have hhuge : page*2^21 &&& huge2mibAddrMask = _ := and_shifted_mask (page*2^21) 31 21
    rw [hhuge,and_addrMask]
    omega
  show (page*2^21 &&& huge2mibAddrMask) |||
    (0 ||| Flags.writable ||| Flags.user ||| Flags.present) ||| Flags.hugePage = _
  rw [hmask,Nat.or_assoc]
  rfl

lemma identityImage_eq_patch {num2mib numPd : ℕ} :
    identityImage mem base (0 ||| Flags.writable ||| Flags.user)
        (Flags.present ||| Flags.writable ||| Flags.user) num2mib numPd =
      mem.patch base (nptImage (mem.drop base) base 0 num2mib numPd) := by
  have hpdptOff : (fun k => base+pageBytes+k*8) = fun k => base+(4096+k*8) :=
    funext fun k => add_assoc _ _ _
  have hpdOff : (fun page => base+2*pageBytes+page/512*pageBytes+page%512*8) =
      fun page => base+(2*4096+page/512*4096+page%512*8) := by
    funext page
    rw [add_assoc,add_assoc,add_assoc]
  have hleaf : (fun page => huge2mibEntry (page*huge2mib)
        (0 ||| Flags.writable ||| Flags.user ||| Flags.present)) =
      fun page => (add64 0 (page*huge2mib) &&& addrMask) ||| hugeLeafFlags := by
    funext page
    rw [huge2mibEntry_eq_npt,add64_and (by decide),zero_add]
    rfl
  rw [nptImage,patch_writeAllLE,patch_writeAllLE,Buf.writeLE,patch_splice,
    Buf.zero,patch_splice,patch_drop,identityImage,hpdptOff,hpdOff,hleaf]
  rfl

/-- The two builders agree: on the slice from `base` on, the nested builder returns exactly when the
platform's does, with the same layout and the same bytes. -/
theorem identity_builders_agree (hmem : mem.len < 2^64) (hbase : base ≤ mem.len) : ∃ r r' mem' sub',
      buildNptIdentityMap2mib base bytesToMap 0 mem = some (r,mem') ∧
      Npt.buildIdentityNpt2mib base bytesToMap (mem.drop base) = some (r',sub') ∧
      mem' = mem.patch base sub' ∧
      ((∃ l l', r = .ok l ∧ r' = .ok l' ∧ l.cr3 = l'.ncr3 ∧ l.tableCount = l'.tableCount ∧
          l.bytes = l'.bytes) ∨
        (∃ e e', r = .error e ∧ r' = .error e' ∧ mem' = mem ∧ sub' = mem.drop base)) := by
  have hiff : Buildable mem.len base bytesToMap ↔
      Npt.Buildable (mem.drop base).len base 0 bytesToMap := by
    constructor
    · intro h
      have hfits := h.fits
      exact ⟨h.nonempty,h.aligned,rfl,h.reach,Nat.le_sub_of_add_le' hfits⟩
    · intro h
      have hfits := h.fits
      exact ⟨h.nonempty,h.base,h.reach,Nat.add_le_of_le_sub' hbase hfits⟩
  have hplat : (buildNptIdentityMap2mib base bytesToMap 0).wp mem _ _ :=
    buildIdentityMap2mibWith_wp hmem
  have hnpt : (buildIdentityNpt2mib base bytesToMap).wp (mem.drop base) _ _ :=
    buildNpt2mib_wp
  obtain ⟨l,mem',hrun,hok,rfl,rfl⟩ | ⟨e,mem',hrun,herr,rfl⟩ := hplat.exists
  · obtain ⟨l',sub',hrun',-,rfl,rfl⟩ | ⟨e',sub',-,herr',-⟩ := hnpt.exists
    · exact ⟨_,_,_,_,hrun,hrun',identityImage_eq_patch, Or.inl ⟨_,_,rfl,rfl,rfl,rfl,rfl⟩⟩
    · exact absurd (hiff.mp hok) herr'
  · obtain ⟨l',sub',-,hok',-⟩ | ⟨e',sub',hrun',-,rfl⟩ := hnpt.exists
    · exact absurd (hiff.mpr hok') herr
    · exact ⟨_,_,_,_,hrun,hrun',patch_drop.symm, Or.inr ⟨_,_,rfl,rfl,rfl,rfl⟩⟩

/-- A 2 MiB map whose tables start at the second page of a four-page image. -/
theorem identity_builders_agree_small : ∃ l l' mem' sub',
      buildNptIdentityMap2mib 4096 0x200000 0 ⟨4*4096,fun _ => 7⟩ = some (.ok l,mem') ∧
      Npt.buildIdentityNpt2mib 4096 0x200000 (Buf.drop ⟨4*4096,fun _ => 7⟩ 4096) =
        some (.ok l',sub') ∧
      mem' = Buf.patch ⟨4*4096,fun _ => 7⟩ 4096 sub' ∧ l.cr3 = l'.ncr3 := by
  have hrun : buildNptIdentityMap2mib 4096 0x200000 0 ⟨4*4096,fun _ => 7⟩ = some (.ok _,_) := rfl
  obtain ⟨r,r',mem',sub',h,h',hmem,hlay⟩ :=
    @identity_builders_agree ⟨4*4096,fun _ => 7⟩ 4096 0x200000 (by decide) (by decide)
  obtain ⟨l,l',rfl,rfl,hcr3,-⟩ | ⟨e,e',rfl,-⟩ := hlay
  · exact ⟨l,l',mem',sub',h,h',hmem,hcr3⟩
  · rw [hrun] at h
    cases h

end Enlil.Paging
