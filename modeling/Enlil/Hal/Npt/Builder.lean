import Enlil.Hal.Npt.Entries

/-! # Nested page tables: the 2 MiB builder and guest isolation -/

namespace Enlil.Npt
open Word Prog Buf
variable {buf buf' : Buf} {physBase spaBase bytesToMap num2mib numPd gpa spa : ℕ}

def nptImage (buf : Buf) (physBase spaBase num2mib numPd : ℕ) : Buf :=
  (((buf.zero 0 ((2+numPd)*4096)).writeLE 0 8
      ((add64 physBase pageSize &&& addrMask) ||| tableFlags)).writeAllLE 8
    (fun k => 4096+k*8)
    (fun k => (add64 (add64 physBase (2*pageSize)) (k*pageSize) &&& addrMask) ||| tableFlags)
    numPd).writeAllLE 8
  (fun page => 2*4096+page/512*4096+page%512*8)
  (fun page => (add64 spaBase (page*huge2mib) &&& addrMask) ||| hugeLeafFlags) num2mib

/-- What `buildNpt2mib` asks of its arguments. -/
structure Buildable (len physBase spaBase bytesToMap : ℕ) : Prop where
  nonempty : bytesToMap ≠ 0
  base : physBase &&& (pageSize-1) = 0
  spa : spaBase &&& (huge2mib-1) = 0
  reach : divCeil (divCeil bytesToMap huge2mib) tableEntries ≤ tableEntries
  fits : (2+divCeil (divCeil bytesToMap huge2mib) tableEntries)*4096 ≤ len

lemma leafOffset_eq (page : ℕ) :
    2*4096+page/512*4096+page%512*8 = 8192+page*8 := by
  omega

lemma buildNpt2mib_wp : (buildNpt2mib physBase spaBase bytesToMap).wp buf
      (fun l b => Buildable buf.len physBase spaBase bytesToMap ∧
        l = ⟨physBase,2+divCeil (divCeil bytesToMap huge2mib) tableEntries,
          (2+divCeil (divCeil bytesToMap huge2mib) tableEntries)*4096⟩ ∧
        b = nptImage buf physBase spaBase (divCeil bytesToMap huge2mib)
          (divCeil (divCeil bytesToMap huge2mib) tableEntries))
      (fun _ b => ¬ Buildable buf.len physBase spaBase bytesToMap ∧ b = buf) := by
  have hcover : divCeil bytesToMap huge2mib ≤
      divCeil (divCeil bytesToMap huge2mib) tableEntries*512 :=
    divCeil_mul_ge _ (by decide)
  simp only [buildNpt2mib,wp_bind,wp_ensure,wp_gets,wp_ofOption,
    checkedMul64_eq_some,wp_storeZero,wp_writeEntry,wp_pure,id]
  refine ⟨fun h1 => ⟨fun h2 => ⟨fun h3 => ⟨fun h4 => ⟨?_,fun h5 => ?_⟩,fun h4 => ?_⟩,
    fun h3 => ?_⟩,fun h2 => ?_⟩,fun h1 => ?_⟩
  · rintro _ ⟨-,rfl⟩
    refine ⟨fun h5 => ⟨by omega,by simp only [len_zero]; omega,?_⟩,fun h5 => ?_⟩
    · refine (wp_forN_storeLE fun k hk => ?_).mono ?_ fun _ _ h => h
      · simp only [len_writeLE,len_zero]
        omega
      rintro _ _ rfl
      refine (wp_forN_storeLE fun page hpage => ?_).mono ?_ fun _ _ h => h
      · simp only [len_writeAllLE,len_writeLE,len_zero,leafOffset_eq]
        omega
      rintro _ _ rfl
      exact ⟨⟨h1,h2,h3,h4,h5⟩,rfl,rfl⟩
    · exact ⟨fun h => h5 h.fits,trivial⟩
  · have hle : divCeil (divCeil bytesToMap huge2mib) tableEntries ≤ 512 := h4
    rw [checkedMul64,if_pos (by omega)] at h5
    cases h5
  · exact ⟨fun h => h4 h.reach,trivial⟩
  · exact ⟨fun h => h3 h.spa,trivial⟩
  · exact ⟨fun h => h2 h.base,trivial⟩
  · exact ⟨fun h => h1 h.nonempty,trivial⟩

section Image
variable {i k j : ℕ}

lemma nptImage_pml4 (hi : i < 512) : (nptImage buf physBase spaBase num2mib numPd).readLE (i*8) 8 =
      if i = 0 then (add64 physBase pageSize &&& addrMask) ||| tableFlags else 0 := by
  rw [nptImage,readLE_writeAllLE_of_disjoint (fun page _ => by rw [leafOffset_eq]; omega),
    readLE_writeAllLE_of_disjoint (fun k _ => by omega)]
  by_cases h0 : i = 0
  · rw [if_pos h0,h0,zero_mul]
    exact readLE_writeLE (entry_lt (by decide))
  · rw [if_neg h0,readLE_writeLE_of_disjoint (by omega)]
    exact readLE_zero_of_mem (by omega) (by omega)

lemma nptImage_pdpt (hi : i < 512) :
    (nptImage buf physBase spaBase num2mib numPd).readLE (4096+i*8) 8 =
      if i < numPd then
        (add64 physBase (8192+i*4096) &&& addrMask) ||| tableFlags
      else 0 := by
  rw [nptImage,readLE_writeAllLE_of_disjoint (fun page _ => by rw [leafOffset_eq]; omega)]
  by_cases hlt : i < numPd
  · rw [if_pos hlt,← add64_assoc]
    exact readLE_writeAllLE (j := i) hlt (entry_lt (by decide)) fun k _ _ => by omega
  · rw [if_neg hlt,readLE_writeAllLE_of_disjoint (fun k _ => by omega),
      readLE_writeLE_of_disjoint (by omega)]
    exact readLE_zero_of_mem (by omega) (by omega)

lemma nptImage_pd (hpd : numPd ≤ 512) (hk : k < numPd) (hj : j < 512) :
    (nptImage buf physBase spaBase num2mib numPd).readLE (8192+k*4096+j*8) 8 =
      if k*512+j < num2mib then
        (add64 spaBase ((k*512+j)*huge2mib) &&& addrMask) ||| hugeLeafFlags
      else 0 := by
  have hoff : 8192+k*4096+j*8 = 2*4096+(k*512+j)/512*4096 +
      (k*512+j)%512*8 := by
    rw [leafOffset_eq]
    omega
  rw [nptImage,hoff]
  by_cases hlt : k*512+j < num2mib
  · rw [if_pos hlt]
    refine readLE_writeAllLE (j := k*512+j) hlt (entry_lt (by decide)) ?_
    intro page _ hne
    rw [leafOffset_eq,leafOffset_eq]
    omega
  · rw [if_neg hlt,readLE_writeAllLE_of_disjoint,readLE_writeAllLE_of_disjoint,
      readLE_writeLE_of_disjoint (by omega)]
    · exact readLE_zero_of_mem (by omega) (by omega)
    · intro k' _
      omega
    · intro page _
      rw [leafOffset_eq,leafOffset_eq]
      omega

/-- A table pointer that the walker accepts points where it was meant to: masking can only
move it below `physBase`, where it is rejected. -/
lemma PointsAt.offset_eq {d off : ℕ} (hbase : physBase%4096 = 0) (hd : d%4096 = 0) (hlt : d < 2^52)
    (h : PointsAt buf physBase ((add64 physBase d &&& addrMask) ||| tableFlags) off) :
    off = d := by
  obtain ⟨-,-,hle,-,rfl⟩ := h
  have hmask : add64 physBase d &&& addrMask = (physBase+d)%2^52 := by
    rw [and_addrMask_of_aligned (by rw [add64]; omega),add64]
    omega
  rw [tableEntry_addr,hmask] at hle ⊢
  omega

end Image

lemma translateNpt_nptImage (hbase : physBase%4096 = 0) (hpd : numPd ≤ 512)
    (h : translateNpt (nptImage buf physBase spaBase num2mib numPd) physBase gpa = some spa) :
    ∃ page < num2mib,
      spa = (add64 spaBase (page*huge2mib) &&& addrMask) ||| (gpa &&& (huge2mib-1)) := by
  obtain ⟨pdptOff,pdOff,h1,h2,-,hpresent,hleaf⟩ := translateNpt_eq_some.mp h
  have hi4 : pml4Index gpa < 512 := by rw [pml4Index_eq]; omega
  have hi3 : pdptIndex gpa < 512 := by rw [pdptIndex_eq]; omega
  have hi2 : pdIndex gpa < 512 := by rw [pdIndex_eq]; omega
  -- The only present root entry is the first, and it leads to the second page.
  have h1' := (childOffset_eq_ok.mp h1).2
  rw [zero_add,nptImage_pml4 hi4] at h1'
  split at h1'
  case isFalse => exact absurd (Nat.zero_and _) h1'.1
  cases h1'.offset_eq hbase (by decide) (by decide)
  have h2' := (childOffset_eq_ok.mp h2).2
  rw [nptImage_pdpt hi3] at h2'
  split at h2'
  case isFalse => exact absurd (Nat.zero_and _) h2'.1
  rename_i hk
  cases h2'.offset_eq hbase (by omega) (by omega)
  rw [nptImage_pd hpd hk hi2] at hpresent hleaf
  split at hpresent
  case isFalse => exact absurd (Nat.zero_and _) hpresent
  rename_i hpage
  rw [if_pos hpage] at hleaf
  obtain ⟨-,rfl⟩ | ⟨ptOff,h3,-⟩ := hleaf
  · rw [hugeLeaf_addr]
    exact ⟨_,hpage,rfl⟩
  · have h3' := (childOffset_eq_ok.mp h3).2.2.1
    rw [nptImage_pd hpd hk hi2,if_pos hpage,hugeLeaf_huge] at h3'
    cases h3'

lemma leafFrame_eq {page : ℕ} (hspa : spaBase%2^21 = 0) (hlt : spaBase+page*2^21 < 2^52) :
    add64 spaBase (page*huge2mib) &&& addrMask = spaBase+page*2^21 := by
  show add64 spaBase (page*2^21) &&& addrMask = _
  rw [add64_of_lt (by omega),and_addrMask_of_aligned (by omega),Nat.mod_eq_of_lt hlt]

lemma translateNpt_mem_window {l : NptLayout}
    (hbuild : buildNpt2mib physBase spaBase bytesToMap buf = some (.ok l,buf'))
    (hlimit : spaBase+bytesToMap ≤ 2^52) (h : translateNpt buf' physBase gpa = some spa) :
    spaBase%2^21 = 0 ∧ ∃ page, page*2^21 < bytesToMap ∧
      spaBase+page*2^21 ≤ spa ∧ spa < spaBase+page*2^21+2^21 := by
  obtain ⟨hb,-,rfl⟩ := buildNpt2mib_wp.of_ok hbuild
  have hpb := hb.base
  have hspa := hb.spa
  rw [and_pageSize_sub_one] at hpb
  rw [and_huge2mib_sub_one] at hspa
  have hpos : 0 < bytesToMap := Nat.pos_of_ne_zero hb.nonempty
  obtain ⟨page,hpage,rfl⟩ := translateNpt_nptImage hpb hb.reach h
  have hlast : page*2^21 < bytesToMap := by
    have hlt := divCeil_sub_one_mul_lt (b := huge2mib) (by decide) hpos
    have hle : page*huge2mib ≤ (divCeil bytesToMap huge2mib-1)*huge2mib :=
      Nat.mul_le_mul_right _ (by omega)
    exact lt_of_le_of_lt hle hlt
  rw [leafFrame_eq hspa (by omega),and_huge2mib_sub_one gpa,
    frame_or_offset (k := 21) (by omega) (by omega)]
  exact ⟨hspa,page,hlast,by omega,by omega⟩

/-- Guest isolation: two guests with disjoint RAM windows never reach the same
system-physical address, at any guest-physical address of either. -/
theorem buildNpt2mib_isolated {bufA bufA' bufB bufB' : Buf} {lA lB : NptLayout}
    {physA physB spaA spaB bytesA bytesB : ℕ}
    (hA : buildNpt2mib physA spaA bytesA bufA = some (.ok lA,bufA'))
    (hB : buildNpt2mib physB spaB bytesB bufB = some (.ok lB,bufB'))
    (hlimA : spaA+bytesA ≤ 2^52) (hlimB : spaB+bytesB ≤ 2^52)
    (hdisj : spaA+bytesA ≤ spaB ∨ spaB+bytesB ≤ spaA) (gpaA gpaB spa : ℕ)
    (htA : translateNpt bufA' physA gpaA = some spa) :
    translateNpt bufB' physB gpaB ≠ some spa := by
  intro htB
  obtain ⟨hsA,pageA,hpA,hloA,hhiA⟩ := translateNpt_mem_window hA hlimA htA
  obtain ⟨hsB,pageB,hpB,hloB,hhiB⟩ := translateNpt_mem_window hB hlimB htB
  omega

/-- Two one-page guests, side by side above 16 MiB. -/
theorem buildNpt2mib_isolated_neighbours : ∃ lA lB bufA bufB,
      buildNpt2mib 0x10000 0x1000000 0x200000 ⟨3*4096,fun _ => 0⟩ = some (.ok lA,bufA) ∧
      buildNpt2mib 0x20000 0x1200000 0x200000 ⟨3*4096,fun _ => 0⟩ = some (.ok lB,bufB) ∧
      translateNpt bufA 0x10000 0x1234 = some 0x1001234 ∧
      translateNpt bufB 0x20000 0x1234 ≠ some 0x1001234 := by
  have hA : buildNpt2mib 0x10000 0x1000000 0x200000 ⟨3*4096,fun _ => 0⟩ = some (.ok _,_) :=
    rfl
  have hB : buildNpt2mib 0x20000 0x1200000 0x200000 ⟨3*4096,fun _ => 0⟩ = some (.ok _,_) :=
    rfl
  exact ⟨_,_,_,_,hA,hB,by decide +kernel,
    buildNpt2mib_isolated hA hB (by decide) (by decide) (by decide) 0x1234 0x1234 0x1001234
      (by decide +kernel)⟩

end Enlil.Npt
