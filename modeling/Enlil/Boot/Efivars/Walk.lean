import Enlil.Boot.Efivars.Defs

/-! # The walk of a variable store reads back what was encoded -/

namespace Enlil.Boot.Efivars
open List Nat Buf Le
variable {image image' : Buf} {store : Store} {pos next tail tail' : ℕ} {v w : Var}
  {vars more : List Var}

lemma le_align (n : ℕ) : n ≤ align n := by
  unfold align
  omega

lemma align_mod (n : ℕ) : align n%4 = 0 := mul_mod_left _ _

lemma align_add {n : ℕ} (h : pos%4 = 0) : align (pos+n) = pos+align n := by
  unfold align
  omega

lemma Store.fields_le (s : Store) :
    (8 ≤ s.nameAt ∧ s.nameAt+4 ≤ s.headerBytes) ∧ (8 ≤ s.dataAt ∧ s.dataAt+4 ≤ s.headerBytes) ∧
      16 ≤ s.guidAt ∧ s.guidAt+16 ≤ s.headerBytes := by
  unfold nameAt dataAt guidAt headerBytes
  split <;> decide

lemma le32At_eq_ok {off n : ℕ} :
    le32At image off = .ok n ↔ off+4 ≤ image.len ∧ n = toNat (image.slice off 4) := by
  unfold le32At
  split
  · next h => exact ⟨fun h' => (by cases h'),fun h' => absurd h'.1 (Nat.not_le.mpr h)⟩
  · next h =>
    rw [Except.ok.injEq]
    exact ⟨fun h' => ⟨Nat.not_lt.mp h,h'.symm⟩,fun h' => h'.2.symm⟩

lemma readVar_eq_ok : readVar image store pos = .ok (v,next) ↔ ∃ nameSize dataSize,
      le32At image (pos+store.nameAt) = .ok nameSize ∧
      le32At image (pos+store.dataAt) = .ok dataSize ∧
      next = align (pos+store.headerBytes+nameSize+dataSize) ∧ next ≤ store.stop ∧
      pos+store.headerBytes+nameSize ≤ store.stop ∧
      v = ⟨pos,image.byte (pos+2), decodeName (image.slice (pos+store.headerBytes) nameSize),
        image.slice (pos+store.guidAt) 16,pos+store.headerBytes+nameSize,dataSize⟩ := by
  unfold readVar
  constructor
  · intro h
    split at h
    · next nameSize dataSize hname hdata =>
      simp only at h
      split at h
      · cases h
      · next hfits =>
        cases h
        obtain ⟨hnext,hend⟩ := not_or.mp hfits
        exact ⟨nameSize,dataSize,hname,hdata,rfl,Nat.not_lt.mp hnext,Nat.not_lt.mp hend,rfl⟩
    · cases h
  · rintro ⟨nameSize,dataSize,hname,hdata,rfl,hnext,hend,rfl⟩
    rw [hname,hdata]
    simp only
    rw [if_neg (not_or.mpr ⟨Nat.not_lt.mpr hnext,Nat.not_lt.mpr hend⟩)]

def restate (image : Buf) (v : Var) : Var := { v with state := image.byte (v.pos+2) }

lemma readVar_congr (h : readVar image store pos = .ok (v,next)) (hlen : image'.len = image.len)
    (hagree : ∀ i, pos ≤ i → i < next → i ≠ pos+2 → image'.byte i = image.byte i) :
    readVar image' store pos = .ok (restate image' v,next) := by
  obtain ⟨nameSize,dataSize,hname,hdata,rfl,hnext,hend,rfl⟩ := readVar_eq_ok.mp h
  have hle := le_align (pos+store.headerBytes+nameSize+dataSize)
  obtain ⟨hn,hd,hg⟩ := store.fields_le
  have hslice : ∀ off n, pos+3 ≤ off → off+n ≤ pos+store.headerBytes+nameSize →
      image'.slice off n = image.slice off n := fun off n hoff hfits =>
    slice_congr fun i hi hi' => hagree i (by omega) (by omega) (by omega)
  have hle32 : ∀ {off n}, pos+3 ≤ off → off+4 ≤ pos+store.headerBytes →
      le32At image off = .ok n → le32At image' off = .ok n := by
    intro off n hoff hfits hok
    obtain ⟨hin,rfl⟩ := le32At_eq_ok.mp hok
    refine le32At_eq_ok.mpr ⟨by rw [hlen]; exact hin,?_⟩
    rw [hslice off 4 hoff (by omega)]
  refine readVar_eq_ok.mpr ⟨nameSize,dataSize,hle32 (by omega) (by omega) hname,
    hle32 (by omega) (by omega) hdata,rfl,hnext,hend,?_⟩
  rw [restate,hslice _ _ (by have := store.headerBytes_ge; omega) (le_refl _),
    hslice _ _ (by omega) (by omega)]

/-- The walk as a relation: the variables from `pos` on, and where free space begins. -/
inductive Walks (image : Buf) (store : Store) : ℕ → List Var → ℕ → Prop
  | stop {pos : ℕ} (h : store.stop < pos+store.headerBytes ∨ image.slice pos 2 ≠ varStartId) :
      Walks image store pos [] pos
  | var {pos next tail : ℕ} {v : Var} {vars : List Var}
      (hroom : pos+store.headerBytes ≤ store.stop) (hid : image.slice pos 2 = varStartId)
      (hread : readVar image store pos = .ok (v,next)) (rest : Walks image store next vars tail) :
      Walks image store pos (v :: vars) tail

lemma walk_eq_ok :
    walk image store pos = .ok (vars,tail) ↔ Walks image store pos vars tail := by
  constructor
  · intro h
    fun_induction walk image store pos generalizing vars tail with
    | case1 pos hroom hid =>
      cases h
      exact .stop (.inr hid)
    | case2 => cases h
    | case3 => cases h
    | case4 pos hroom hid v next hread vars' tail' hwalk ih =>
      cases h
      exact .var hroom (not_not.mp hid) hread (ih hwalk)
    | case5 pos hroom =>
      cases h
      exact .stop (.inl (Nat.not_le.mp hroom))
  · intro h
    induction h with
    | @stop pos h =>
      rw [walk]
      split
      · next hroom =>
        rw [if_pos (h.resolve_left (Nat.not_lt.mpr hroom))]
      · rfl
    | var hroom hid hread _ ih =>
      rw [walk,dif_pos hroom,if_neg (not_not.mpr hid)]
      split
      · next herr => cases herr.symm.trans hread
      · next v' next' hread' =>
        cases hread'.symm.trans hread
        rw [ih]

namespace Walks

lemma next_le (hread : readVar image store pos = .ok (v,next)) :
    pos+store.headerBytes ≤ v.dataOff ∧ v.dataOff+v.dataLen ≤ next ∧ v.pos = pos ∧
      v.state = image.byte (pos+2) ∧ next%4 = 0 ∧ next ≤ store.stop := by
  obtain ⟨nameSize,dataSize,-,-,rfl,hnext,-,rfl⟩ := readVar_eq_ok.mp hread
  exact ⟨Nat.le_add_right _ _,le_align _,rfl,rfl,align_mod _,hnext⟩

section
variable (h : Walks image store pos vars tail)
include h

lemma le : pos ≤ tail := by
  induction h with
  | stop => exact le_refl _
  | var _ _ hread _ ih =>
    have := next_le hread
    omega

lemma tail_mod (hpos : pos%4 = 0) : tail%4 = 0 := by
  induction h with
  | stop => exact hpos
  | var _ _ hread _ ih => exact ih (next_le hread).2.2.2.2.1

lemma tail_le (hpos : pos ≤ store.stop) :
    tail ≤ store.stop := by
  induction h with
  | stop => exact hpos
  | var _ _ hread _ ih => exact ih (next_le hread).2.2.2.2.2

end

structure Found (image : Buf) (store : Store) (lo hi : ℕ) (v : Var) : Prop where
  le_pos : lo ≤ v.pos
  header : v.pos+store.headerBytes ≤ v.dataOff
  data_le : v.dataOff+v.dataLen ≤ hi
  state_eq : v.state = image.byte (v.pos+2)
  start_eq : image.slice v.pos 2 = varStartId
  aligned : lo%4 = 0 → v.pos%4 = 0

section
variable (h : Walks image store pos vars tail) (hv : v ∈ vars)
include h hv

lemma found :
    Found image store pos tail v := by
  induction h with
  | stop => cases hv
  | var hroom hid hread rest ih =>
    obtain ⟨hheader,hdata,rfl,hstate,hmod,-⟩ := next_le hread
    rcases mem_cons.mp hv with rfl | hv
    · exact ⟨le_refl _,hheader,le_trans hdata rest.le,hstate,hid,id⟩
    · have hrest := ih hv
      exact ⟨le_trans (by omega) hrest.le_pos,hrest.header,hrest.data_le,hrest.state_eq,
        hrest.start_eq,fun _ => hrest.aligned hmod⟩

omit hv in
lemma nodup : vars.Nodup := by
  induction h with
  | stop => exact .nil
  | var hroom hid hread rest ih =>
    obtain ⟨hheader,hdata,hpos,-⟩ := next_le hread
    refine nodup_cons.mpr ⟨fun hmem => ?_,ih⟩
    have hle := (rest.found hmem).le_pos
    have hge := store.headerBytes_ge
    omega

lemma apart (hw : w ∈ vars) :
    v = w ∨ v.dataOff+v.dataLen ≤ w.pos ∨ w.dataOff+w.dataLen ≤ v.pos := by
  induction h with
  | stop => cases hv
  | var hroom hid hread rest ih =>
    obtain ⟨-,hdata,-⟩ := next_le hread
    rcases mem_cons.mp hv with rfl | hv'
    · rcases mem_cons.mp hw with rfl | hw'
      · exact .inl rfl
      · exact .inr (.inl (le_trans hdata (rest.found hw').le_pos))
    · rcases mem_cons.mp hw with rfl | hw'
      · exact .inr (.inr (le_trans hdata (rest.found hv').le_pos))
      · exact ih hv' hw'

lemma state_outside (hw : w ∈ vars) :
    v.pos+2 < w.dataOff ∨ w.dataOff+w.dataLen ≤ v.pos := by
  have hge := store.headerBytes_ge
  have hheaderv := (h.found hv).header
  have hheaderw := (h.found hw).header
  rcases h.apart hv hw with rfl | hbefore | hafter
  · omega
  · omega
  · exact .inr hafter

lemma eq_of_pos (hw : w ∈ vars)
    (heq : v.pos = w.pos) : v = w := by
  have hge := store.headerBytes_ge
  have hheaderv := (h.found hv).header
  have hheaderw := (h.found hw).header
  exact (h.apart hv hw).resolve_right (by omega)

end

lemma congr (h : Walks image store pos vars tail) (hlen : image'.len = image.len)
    (hagree : ∀ i, pos ≤ i → i < tail → (∀ v ∈ vars, i ≠ v.pos+2) → image'.byte i = image.byte i)
    (hmore : Walks image' store tail more tail') :
    Walks image' store pos (vars.map (restate image') ++ more) tail' := by
  have hge := store.headerBytes_ge
  induction h with
  | stop => exact hmore
  | @var pos next tail v vars hroom hid hread rest ih =>
    obtain ⟨hheader,hdata,hpos,-⟩ := next_le hread
    have hle := rest.le
    -- Up to the next variable only this one's state byte may differ.
    have hown : ∀ i, pos ≤ i → i < next → i ≠ pos+2 → image'.byte i = image.byte i := by
      intro i hi hi' hne
      refine hagree i hi (by omega) fun w hw => ?_
      rcases mem_cons.mp hw with rfl | hw
      · rwa [hpos]
      · have := (rest.found hw).le_pos
        omega
    refine .var hroom ?_ (readVar_congr hread hlen hown) (ih (fun i hi hi' hne => ?_) hmore)
    · rw [← hid]
      exact slice_congr fun i hi hi' => hown i hi (by omega) (by omega)
    · refine hagree i (by omega) hi' fun w hw => ?_
      rcases mem_cons.mp hw with rfl | hw
      · omega
      · exact hne w hw

end Walks
section Encode
variable {name : List Char} {guid data : List UInt8} {nameLen dataLen : ℕ}

lemma length_encodeHeader (hguid : guid.length = 16) :
    (encodeHeader store nameLen dataLen guid).length = store.headerBytes := by
  unfold encodeHeader Store.headerBytes
  cases store.auth <;> simp [hguid,varStartId]

lemma encodeHeader_fields (hguid : guid.length = 16) :
    (encodeHeader store nameLen dataLen guid).take 2 = varStartId ∧
    ((encodeHeader store nameLen dataLen guid).drop 2).take 1 = [varAdded] ∧
    ((encodeHeader store nameLen dataLen guid).drop store.nameAt).take 4 =
      bytes 4 (min nameLen (2^32-1)) ∧
    ((encodeHeader store nameLen dataLen guid).drop store.dataAt).take 4 =
      bytes 4 (min dataLen (2^32-1)) ∧
    ((encodeHeader store nameLen dataLen guid).drop store.guidAt).take 16 = guid := by
  have hall : guid.take 16 = guid := take_of_length_le (Nat.le_of_eq hguid)
  unfold encodeHeader Store.nameAt Store.dataAt Store.guidAt
  cases store.auth with
  | false => exact ⟨rfl,rfl,rfl,rfl,hall⟩
  | true => exact ⟨rfl,rfl,rfl,rfl,hall⟩

def newVar (store : Store) (pos : ℕ) (name : List Char) (guid data : List UInt8) : Var :=
  ⟨pos,varAdded,name,guid,pos+store.headerBytes+(utf16z name).length,data.length⟩

lemma length_encodeVariable (hguid : guid.length = 16) :
    (encodeVariable store name guid data).length =
      align (store.headerBytes+(utf16z name).length+data.length) := by
  have hle := le_align (store.headerBytes+(utf16z name).length+data.length)
  simp only [encodeVariable,length_append,length_encodeHeader hguid,length_replicate]
  omega

lemma encodeVariable_split (store : Store) (name : List Char) (guid data : List UInt8) :
    ∃ pad, encodeVariable store name guid data =
      encodeHeader store (utf16z name).length data.length guid ++
        (utf16z name ++ (data ++ pad)) := by
  let v := encodeHeader store (utf16z name).length data.length guid ++ utf16z name ++ data
  refine ⟨replicate (align v.length-v.length) erased,?_⟩
  simp only [encodeVariable,append_assoc,v]

lemma readVar_encode (hguid : guid.length = 16) (hname : decodeName (utf16z name) = name)
    (hpos : pos%4 = 0)
    (hslice : image.slice pos (encodeVariable store name guid data).length =
      encodeVariable store name guid data)
    (hfits : pos+(encodeVariable store name guid data).length ≤ store.stop)
    (hlen : store.stop ≤ image.len)
    (hsmall : (encodeVariable store name guid data).length < 2^32) :
    image.slice pos 2 = varStartId ∧ readVar image store pos = .ok (newVar store pos name guid data,
          pos+(encodeVariable store name guid data).length) ∧
      dataOf image (newVar store pos name guid data) = data := by
  have hitem : (encodeVariable store name guid data).length =
      align (store.headerBytes+(utf16z name).length+data.length) := length_encodeVariable hguid
  have hle := le_align (store.headerBytes+(utf16z name).length+data.length)
  have hheader : (encodeHeader store (utf16z name).length data.length guid).length =
      store.headerBytes := length_encodeHeader hguid
  obtain ⟨hstart,hstate,hnameLen,hdataLen,hguidAt⟩ :
      _ ∧ _ ∧ _ ∧ _ ∧ ((encodeHeader store (utf16z name).length data.length guid).drop
        store.guidAt).take 16 = guid := encodeHeader_fields hguid
  obtain ⟨hn,hd,hg⟩ := store.fields_le
  have hge := store.headerBytes_ge
  obtain ⟨pad,hsplit⟩ := encodeVariable_split store name guid data
  have hpart : ∀ i n, i+n ≤ (encodeVariable store name guid data).length →
      image.slice (pos+i) n = ((encodeVariable store name guid data).drop i).take n := by
    intro i n h
    rw [← drop_take_slice h,hslice]
  have hfield : ∀ i n, i+n ≤ store.headerBytes → image.slice (pos+i) n =
      ((encodeHeader store (utf16z name).length data.length guid).drop i).take n := by
    intro i n h
    rw [hpart i n (by omega),hsplit,drop_append_of_le_length (by omega),
      take_append_of_le_length (by rw [length_drop]; omega)]
  have hsize : ∀ {off n}, off+4 ≤ store.headerBytes → n < 2^32 →
      ((encodeHeader store (utf16z name).length data.length guid).drop off).take 4 =
        bytes 4 (min n (2^32-1)) → le32At image (pos+off) = .ok n := by
    intro off n hoff hn hbytes
    refine le32At_eq_ok.mpr ⟨by omega,?_⟩
    rw [hfield off 4 hoff,hbytes,toNat_bytes,Nat.min_eq_left (by omega)]
    exact (mod_eq_of_lt hn).symm
  have hnameSlice : image.slice (pos+store.headerBytes) (utf16z name).length = utf16z name := by
    rw [hpart _ _ (by omega),hsplit,drop_left' hheader,take_left' rfl]
  have hdataSlice : image.slice (pos+store.headerBytes+(utf16z name).length) data.length =
      data := by
    rw [add_assoc,hpart _ _ (by omega),hsplit,← append_assoc,
      drop_left' (by rw [length_append,hheader]),take_left' rfl]
  refine ⟨?_,readVar_eq_ok.mpr ⟨(utf16z name).length,data.length,
    hsize hn.2 (by omega) hnameLen,hsize hd.2 (by omega) hdataLen,?_,hfits,by omega,?_⟩,
    hdataSlice⟩
  · rw [← hstart]
    exact hfield 0 2 (by omega)
  · rw [hitem,← align_add hpos]
    congr 1
    omega
  · have hbyte : [image.byte (pos+2)] = [varAdded] := (hfield 2 1 (by omega)).trans hstate
    rw [newVar,hnameSlice,hname,hfield _ _ hg.2,hguidAt,(cons.inj hbyte).1]

end Encode
section Text

lemma units_append (u : ℕ) (rest : List UInt8) :
    units (bytes 2 u ++ rest) = u%2^16 :: units rest := by
  show toNat (bytes 2 u) :: units rest = _
  rw [toNat_bytes,show 256^2 = 2^16 from rfl]

lemma units_flatMap {l : List ℕ} (h : ∀ u ∈ l, u < 2^16) :
    units (l.flatMap (bytes 2)) = l := by
  induction l with
  | nil => rfl
  | cons u l ih =>
    obtain ⟨hu,hl⟩ := forall_mem_cons.mp h
    rw [flatMap_cons,units_append,mod_eq_of_lt hu,ih hl]

lemma units_lt (l : List UInt8) : ∀ u ∈ units l, u < 2^16 := by
  fun_induction units l with
  | case1 a b rest ih => exact forall_mem_cons.mpr ⟨toNat_lt [a,b],ih⟩
  | case2 => exact forall_mem_nil _

variable {u n a : ℕ}

lemma decodeUtf16_cons (us : List ℕ) (h : u < 0xD800) :
    decodeUtf16 (u :: us) = Char.ofNat u :: decodeUtf16 us := by
  cases us with
  | nil => exact if_pos (.inl h)
  | cons u' us => rw [decodeUtf16,if_pos (.inl h)]

/-- The characters that a name may have here: no zero, and none outside the first plane. -/
def Plain (s : List Char) : Prop := ∀ c ∈ s, 0 < c.toNat ∧ c.toNat < 0xD800

variable {s name : List Char}

lemma flatMap_utf16 (h : Plain s) : s.flatMap utf16 = s.map Char.toNat := by
  induction s with
  | nil => rfl
  | cons c s ih =>
    obtain ⟨hc,hs⟩ := forall_mem_cons.mp h
    rw [flatMap_cons,map_cons,ih hs,utf16,if_pos (by omega),singleton_append]

lemma decodeUtf16_map (h : Plain s) :
    decodeUtf16 ((s.map Char.toNat ++ [0]).takeWhile (· ≠ 0)) = s := by
  induction s with
  | nil => rfl
  | cons c s ih =>
    obtain ⟨hc,hs⟩ := forall_mem_cons.mp h
    rw [map_cons,cons_append,takeWhile_cons_of_pos (by
      simp only [decide_eq_true_eq]
      omega),decodeUtf16_cons _ hc.2,ih hs,Char.ofNat_toNat]

lemma decodeName_utf16z (h : Plain s) : decodeName (utf16z s) = s := by
  rw [decodeName,utf16z,units_flatMap,flatMap_utf16 h,decodeUtf16_map h]
  intro u hu
  rw [flatMap_utf16 h] at hu
  rcases mem_append.mp hu with hu | hu
  · obtain ⟨c,hc,rfl⟩ := mem_map.mp hu
    have := h c hc
    omega
  · rw [mem_singleton.mp hu]
    decide

lemma plain_of_all
    (h : s.all (fun c => decide (0 < c.toNat ∧ c.toNat < 0xD800)) = true) : Plain s :=
  fun c hc => of_decide_eq_true (all_eq_true.mp h c hc)

lemma plain_bootOrderName : Plain bootOrderName := plain_of_all (by decide)

lemma hexDigit_plain : ∀ d < 16, 0 < (hexDigit d).toNat ∧ (hexDigit d).toNat < 0xD800 := by decide

lemma hexVal_hexDigit : ∀ d < 16, hexVal (hexDigit d) = some d := by decide

lemma plain_bootName (n : ℕ) : Plain (bootName n) := by
  have hprefix : Plain bootPrefix := plain_of_all (by decide)
  have hdigit : ∀ k, 0 < (hexDigit (k%16)).toNat ∧ (hexDigit (k%16)).toNat < 0xD800 :=
    fun k => hexDigit_plain _ (mod_lt _ (by decide))
  intro c hc
  rcases mem_append.mp hc with hc | hc
  · exact hprefix c hc
  · simp only [mem_cons,not_mem_nil,or_false] at hc
    rcases hc with rfl | rfl | rfl | rfl <;> exact hdigit _

lemma bootNumber_bootName (h : n < 2^16) : bootNumber (bootName n) = some n := by
  have hdigit : ∀ k, hexVal (hexDigit (k%16)) = some (k%16) :=
    fun k => hexVal_hexDigit _ (mod_lt _ (by decide))
  have hdrop : (bootName n).drop 4 = [hexDigit (n/4096%16),hexDigit (n/256%16),
      hexDigit (n/16%16),hexDigit (n%16)] := rfl
  unfold bootNumber
  rw [if_pos (show (bootName n).take 4 = bootPrefix from rfl),hdrop]
  simp only [map_cons,map_nil,hdigit,Option.some.injEq]
  omega

lemma hexVal_lt {c : Char} (h : hexVal c = some a) : a < 16 := by
  unfold hexVal at h
  simp only at h
  split at h
  · cases h
    omega
  split at h
  · cases h
    omega
  split at h
  · cases h
    omega
  · cases h

lemma bootNumber_lt (h : bootNumber name = some n) : n < 2^16 := by
  unfold bootNumber at h
  split at h
  · split at h
    · next a b c d hdigits =>
      have hlt : ∀ x, some x ∈ (name.drop 4).map hexVal → x < 16 := by
        intro x hx
        obtain ⟨ch,-,hch⟩ := mem_map.mp hx
        exact hexVal_lt hch
      rw [hdigits] at hlt
      have ha := hlt a (by simp)
      have hb := hlt b (by simp)
      have hc := hlt c (by simp)
      have hd := hlt d (by simp)
      cases h
      omega
    · cases h
  · cases h

lemma bootName_ne_bootOrderName (n : ℕ) : bootName n ≠ bootOrderName := by
  intro h
  have hlen := congrArg length h
  cases hlen

end Text
section PutAll

lemma len_putAll (items : List (List UInt8)) : (putAll image pos items).len = image.len := by
  induction items generalizing image pos with
  | nil => rfl
  | cons item items ih =>
    rw [putAll,ih]
    rfl

lemma byte_putAll {i : ℕ} (items : List (List UInt8))
    (h : i < pos ∨ pos+(items.map length).sum ≤ i) :
    (putAll image pos items).byte i = image.byte i := by
  induction items generalizing image pos with
  | nil => rfl
  | cons item items ih =>
    rw [map_cons,sum_cons] at h
    rw [putAll,ih (by omega),byte_put_of_not_mem (by omega)]

abbrev Item := List Char × List UInt8

def encodeItem (store : Store) (it : Item) : List UInt8 :=
  encodeVariable store it.1 globalVariable it.2

def itemBytes (store : Store) (items : List Item) : ℕ :=
  ((items.map (encodeItem store)).map length).sum

lemma walks_putAll {items : List Item} (hpos : pos%4 = 0) (hlen : store.stop ≤ image.len)
    (hfits : pos+itemBytes store items ≤ store.stop) (hsmall : itemBytes store items < 2^32)
    (hnames : ∀ it ∈ items, Plain it.1)
    (hend : store.stop < pos+itemBytes store items+store.headerBytes ∨
      image.slice (pos+itemBytes store items) 2 ≠ varStartId) :
    ∃ added, Walks (putAll image pos (items.map (encodeItem store))) store pos added
        (pos+itemBytes store items) ∧
      added.map (fun v => (v.name,dataOf (putAll image pos (items.map (encodeItem store))) v)) =
        items ∧
      ∀ v ∈ added, v.state = varAdded ∧ v.guid = globalVariable := by
  induction items generalizing image pos with
  | nil => exact ⟨[],.stop hend,rfl,forall_mem_nil _⟩
  | cons it items ih =>
    obtain ⟨hname,hnames⟩ := forall_mem_cons.mp hnames
    have hbytes : itemBytes store (it :: items) =
        (encodeItem store it).length+itemBytes store items := sum_cons
    rw [hbytes,← add_assoc] at hfits hend ⊢
    have hmod : (pos+(encodeItem store it).length)%4 = 0 := by
      rw [encodeItem,length_encodeVariable rfl]
      have := align_mod (store.headerBytes+(utf16z it.1).length+it.2.length)
      omega
    have hfree : (image.put pos (encodeItem store it)).slice
        (pos+(encodeItem store it).length+itemBytes store items) 2 =
          image.slice (pos+(encodeItem store it).length+itemBytes store items) 2 :=
      slice_congr fun i hi _ => byte_put_of_not_mem (.inr (by omega))
    obtain ⟨added,hwalks,hviews,hadded⟩ :=
      @ih (image.put pos (encodeItem store it)) _ hmod hlen hfits (by omega) hnames (by rwa [hfree])
    -- The item is still there when all are written, for the later ones come after it.
    have hkept : (putAll image pos ((it :: items).map (encodeItem store))).slice pos
        (encodeItem store it).length = encodeItem store it := by
      have hput : (image.put pos (encodeItem store it)).slice pos (encodeItem store it).length =
          encodeItem store it := slice_put
      exact (slice_congr fun i _ hi => byte_putAll _ (.inl hi)).trans hput
    have hroom : pos+(encodeItem store it).length ≤ store.stop := by omega
    have hge : store.headerBytes ≤ (encodeItem store it).length := by
      rw [encodeItem,length_encodeVariable rfl]
      have := le_align (store.headerBytes+(utf16z it.1).length+it.2.length)
      omega
    obtain ⟨hid,hread,hdata⟩ := readVar_encode rfl (decodeName_utf16z hname) hpos hkept hroom
      (by rw [len_putAll]; exact hlen) (by rw [← encodeItem]; omega)
    refine ⟨_ :: added,.var (by omega) hid hread hwalks,?_,?_⟩
    · rw [map_cons]
      exact congrArg₂ cons (Prod.ext rfl hdata) hviews
    · exact forall_mem_cons.mpr ⟨⟨rfl,rfl⟩,hadded⟩

end PutAll
section Locate

lemma locate_ok (h : locate image = .ok store) :
    store.first = fvHeaderLen image+storeHeaderBytes ∧ store.first ≤ store.stop ∧
      store.stop ≤ image.len ∧ store.stop < store.first+2^32 ∧
      image.slice 40 4 = fvSignature := by
  unfold locate at h
  split at h
  · cases h
  next hsignature =>
  split at h
  · cases h
  simp only at h
  split at h
  · cases h
  split at h
  · cases h
  split at h
  · cases h
  split at h
  · cases h
  next hsize =>
  cases h
  obtain ⟨hmin,hmax⟩ := not_or.mp hsize
  have hlt := toNat_lt (image.slice (fvHeaderLen image+16) 4)
  rw [length_slice] at hlt
  refine ⟨rfl,?_,Nat.not_lt.mp hmax,?_,not_not.mp (not_or.mp hsignature).2⟩
  · show fvHeaderLen image+storeHeaderBytes ≤ fvHeaderLen image+_
    omega
  · show fvHeaderLen image+_ < fvHeaderLen image+storeHeaderBytes+2^32
    omega

lemma locate_congr (h : locate image = .ok store) (hlen : image'.len = image.len)
    (hagree : ∀ i, i < store.first ∨ (40 ≤ i ∧ i < 44) ∨ i = 48 ∨ i = 49 →
      image'.byte i = image.byte i) : locate image' = .ok store := by
  obtain ⟨hfirst,-⟩ := locate_ok h
  have hslice : ∀ off n, (∀ i, off ≤ i → i < off+n →
      i < store.first ∨ (40 ≤ i ∧ i < 44) ∨ i = 48 ∨ i = 49) →
      image'.slice off n = image.slice off n := fun off n hin =>
    slice_congr fun i hi hi' => hagree i (hin i hi hi')
  have hheader : fvHeaderLen image' = fvHeaderLen image := by
    rw [fvHeaderLen,fvHeaderLen,hslice 48 2 fun i _ _ => by omega]
  have hin : ∀ i, i < fvHeaderLen image+28 → i < store.first := fun i hi => hfirst ▸ hi
  have hsignature := hslice 40 4 fun i _ _ => by omega
  have hguid := hslice (fvHeaderLen image) 16 fun i _ _ => .inl (hin i (by omega))
  have hsize := hslice (fvHeaderLen image+16) 4 fun i _ _ => .inl (hin i (by omega))
  have hformatted := hagree (fvHeaderLen image+20) (.inl (hin _ (by omega)))
  have hhealthy := hagree (fvHeaderLen image+21) (.inl (hin _ (by omega)))
  rw [← h]
  simp only [locate,hheader,hlen,hsignature,hguid,hsize,hformatted,hhealthy]

end Locate
end Enlil.Boot.Efivars
