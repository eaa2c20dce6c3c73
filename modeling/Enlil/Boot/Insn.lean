import Enlil.Boot.Insn.Defs
import Enlil.Lib.BitReg

/-! # The decoder inverts the encoding -/

namespace Enlil.Boot.Insn
open Option UInt8
open BitVec (getLsbD_and getLsbD_append getLsbD_extractLsb' getLsbD_not getLsbD_or getLsbD_setWidth
  twoPow)

inductive Legacy where
  | opsize | addrsize | cs | ss | ds | es | fs | gs | lock | repne | rep
deriving DecidableEq

def Legacy.byte : Legacy → UInt8
  | .opsize => 0x66
  | .addrsize => 0x67
  | .cs => 0x2E
  | .ss => 0x36
  | .ds => 0x3E
  | .es => 0x26
  | .fs => 0x64
  | .gs => 0x65
  | .lock => 0xF0
  | .repne => 0xF2
  | .rep => 0xF3

structure Rex where
  w : Bool
  r : Bool
  x : Bool
  b : Bool

def Rex.byte (p : Rex) : UInt8 :=
  0x40 ||| (if p.w then 8 else 0) ||| (if p.r then 4 else 0) ||| (if p.x then 2 else 0) |||
    (if p.b then 1 else 0)

inductive Opcode where
  /-- `88`, `89`: store a register. -/
  | storeByte | store
  /-- `8A`, `8B`: load a register. -/
  | loadByte | load
  /-- `C6 /0`, `C7 /0`: store an immediate. -/
  | storeImmByte | storeImm
  /-- `0F B6`, `0F B7`, `0F BE`, `0F BF`: load and extend. -/
  | movzxByte | movzxWord | movsxByte | movsxWord
deriving DecidableEq

namespace Opcode

def bytes : Opcode → List UInt8
  | .storeByte => [0x88]
  | .store => [0x89]
  | .loadByte => [0x8A]
  | .load => [0x8B]
  | .storeImmByte => [0xC6]
  | .storeImm => [0xC7]
  | .movzxByte => [0x0F,0xB6]
  | .movzxWord => [0x0F,0xB7]
  | .movsxByte => [0x0F,0xBE]
  | .movsxWord => [0x0F,0xBF]

def memSize (opsize : ℕ) : Opcode → ℕ
  | .storeByte | .loadByte | .storeImmByte | .movzxByte | .movsxByte => 1
  | .movzxWord | .movsxWord => 2
  | .store | .load | .storeImm => opsize

def immLen (opsize : ℕ) : Opcode → ℕ
  | .storeImmByte => 1
  | .storeImm => min opsize 4
  | _ => 0

def IsImm : Opcode → Prop
  | .storeImmByte | .storeImm => True
  | _ => False

end Opcode

/-- A memory operand: a mode other than register-direct, with a SIB byte exactly if `rm` is 4. -/
structure MemOperand where
  mode : Fin 3
  rm : Fin 8
  sib : Option UInt8
  disp : List UInt8
  sib_iff : sib.isSome = decide (rm = 4)
  disp_len : disp.length =
    if mode = 1 then 1
    else if mode = 2 then 4
    -- Without a base register: relative to the instruction pointer, or a SIB with base 5.
    else if rm = 5 ∨ ∃ s ∈ sib, s &&& 7 = 5 then 4
    else 0

structure Head where
  prefixes : List Legacy
  rex : Option Rex
  opcode : Opcode
  reg : Fin 8
  operand : MemOperand

namespace Head
section
variable (h : Head)

def rexW : Bool := h.rex.any (·.w)

def rexR : Bool := h.rex.any (·.r)

def operandSize : ℕ :=
  if h.rexW then 8 else if h.prefixes.contains .opsize then 2 else 4

def memSize : ℕ := h.opcode.memSize h.operandSize

def register : UInt8 := UInt8.ofNat (h.reg+if h.rexR then 8 else 0)

def high8 : Bool :=
  (h.opcode = .storeByte ∨ h.opcode = .loadByte) ∧ h.rex.isNone ∧ 4 ≤ h.reg

def modrm : UInt8 := UInt8.ofNat (h.operand.mode*64+h.reg*8+h.operand.rm)

def bytes : List UInt8 :=
  h.prefixes.map Legacy.byte ++ (h.rex.toList.map Rex.byte ++ (h.opcode.bytes ++
    h.modrm :: (h.operand.sib.toList ++ h.operand.disp)))

end
end Head

/-- An instruction: the immediate has its length, and an immediate form has `reg` field 0. -/
structure Instr extends Head where
  imm : List UInt8
  imm_len : imm.length = opcode.immLen toHead.operandSize
  reg_zero : opcode.IsImm → reg = 0

namespace Instr

def encode (i : Instr) : List UInt8 := i.bytes ++ i.imm

def immediate (i : Instr) : BitVec 64 :=
  ((BitVec.ofNat (8*i.imm.length) (Le.toNat i.imm)).signExtend (8*i.memSize)).setWidth 64

def kind (i : Instr) : AccessKind :=
  match i.opcode with
  | .storeByte | .store => .store i.register i.high8
  | .loadByte => .load i.register i.high8 false 1
  | .load | .movzxByte | .movzxWord => .load i.register i.high8 false i.operandSize
  | .movsxByte | .movsxWord => .load i.register i.high8 true i.operandSize
  | .storeImmByte | .storeImm => .storeImm i.immediate

def access (i : Instr) : MemAccess := ⟨i.encode.length,i.memSize,i.kind⟩

end Instr
variable {pre post : List UInt8} {opsize : ℕ}

lemma getElem?_boundary (pre post : List UInt8) (b : UInt8) :
    (pre ++ b :: post)[pre.length]? = some b := by
  rw [List.getElem?_append_right (Nat.le_refl _),Nat.sub_self]
  rfl

lemma getElem?_boundary_succ (pre post : List UInt8) (b c : UInt8) :
    (pre ++ b :: c :: post)[pre.length+1]? = some c := by
  rw [List.getElem?_append_right (Nat.le_add_right _ _),Nat.add_sub_cancel_left]
  rfl

variable {b : UInt8}

lemma legacyLoop_append (ps : List Legacy) {rest : List UInt8} (hb : b ≠ 0x66)
    (hskip : isSkipped b = false) (i : ℕ) (o : Bool) :
    legacyLoop (ps.map Legacy.byte ++ b :: rest) i o =
      (i+ps.length,o || ps.contains .opsize) := by
  induction ps generalizing i o with
  | nil =>
    show legacyLoop (b :: rest) i o = _
    rw [legacyLoop,if_neg hb,hskip]
    simp
  | cons p ps ih =>
    have hstep : legacyLoop ((p :: ps).map Legacy.byte ++ b :: rest) i o =
        legacyLoop (ps.map Legacy.byte ++ b :: rest) (i+1)
          (o || decide (Legacy.opsize = p)) := by
      cases p <;> simp [legacyLoop,Legacy.byte,isSkipped]
    rw [hstep,← beq_eq_decide,ih,List.length_cons,List.contains_cons,Nat.add_assoc,Nat.add_comm 1,
      Bool.or_assoc]

lemma Opcode.bytes_eq (op : Opcode) : ∃ b rest, op.bytes = b :: rest ∧ b ≠ 0x66 ∧
    isSkipped b = false ∧ b &&& 0xF0 ≠ 0x40 := by
  cases op <;> exact ⟨_,_,rfl,by decide,by decide,by decide⟩

lemma Rex.byte_facts (p : Rex) : p.byte ≠ 0x66 ∧ isSkipped p.byte = false ∧
    p.byte &&& 0xF0 = 0x40 ∧ p.byte ≠ 0 ∧ decide (p.byte &&& 8 ≠ 0) = p.w ∧
    (p.byte &&& 4) <<< 1 = if p.r then 8 else 0 := by
  obtain ⟨w,r,x,b⟩ := p
  revert w r x b
  decide

namespace Head
variable (h : Head)

def decoded : Prefixes := ⟨h.prefixes.contains .opsize,(h.rex.map Rex.byte).getD 0⟩

lemma decoded_rexW : h.decoded.rexW = h.rexW := by
  cases hrex : h.rex with
  | none => simp [decoded,Prefixes.rexW,rexW,hrex]
  | some p => simpa [decoded,Prefixes.rexW,rexW,hrex] using p.byte_facts.2.2.2.2.1

lemma decoded_operandSize : h.decoded.operandSize = h.operandSize := by
  rw [Prefixes.operandSize,decoded_rexW]
  rfl

lemma decoded_register : ofNat h.reg ||| h.decoded.rexR = h.register := by
  have hor : ∀ (r : Fin 8) (b : Bool),
      ofNat r ||| (if b then 8 else 0) = ofNat (r+if b then 8 else 0) := by
    decide
  have hr : h.decoded.rexR = if h.rexR then 8 else 0 := by
    cases hrex : h.rex with
    | none => simp [decoded,Prefixes.rexR,rexR,hrex]
    | some p => simpa [decoded,Prefixes.rexR,rexR,hrex] using p.byte_facts.2.2.2.2.2
  rw [hr,hor,register]

lemma decoded_high :
    decide (h.decoded.rex = 0 ∧ 4 ≤ h.register ∧ h.register < 8) =
      (h.rex.isNone && decide (4 ≤ h.reg)) := by
  cases hrex : h.rex with
  | none =>
    have hreg : ∀ r : Fin 8, decide (4 ≤ ofNat (r+0) ∧ ofNat (r+0) < 8) =
        decide (4 ≤ r) := by
      decide
    simpa [decoded,register,rexR,hrex] using hreg h.reg
  | some p => simp [decoded,hrex,p.byte_facts.2.2.2.1]

end Head
section
variable (h : Head)

lemma parsePrefixes_append (post : List UInt8) :
    parsePrefixes (h.prefixes.map Legacy.byte ++ (h.rex.toList.map Rex.byte ++
      (h.opcode.bytes ++ post))) =
      (h.decoded,(h.prefixes.map Legacy.byte ++ h.rex.toList.map Rex.byte).length) := by
  obtain ⟨b,rest,hop,hb,hskip,hnot⟩ := h.opcode.bytes_eq
  have hlen : h.prefixes.length = (h.prefixes.map Legacy.byte).length := List.length_map _ |>.symm
  cases hrex : h.rex with
  | none =>
    simp only [toList_none,List.map_nil,List.nil_append,List.append_nil,hop,List.cons_append]
    rw [parsePrefixes,legacyLoop_append h.prefixes hb hskip]
    simp only [Nat.zero_add,Bool.false_or]
    rw [hlen,getElem?_boundary]
    simp [hnot,Head.decoded,hrex]
  | some p =>
    obtain ⟨hb',hskip',hyes,-⟩ := p.byte_facts
    simp only [toList_some,List.map_cons,List.map_nil,List.cons_append,List.nil_append]
    rw [parsePrefixes,legacyLoop_append h.prefixes hb' hskip']
    simp only [Nat.zero_add,Bool.false_or]
    rw [hlen,getElem?_boundary]
    simp [hyes,Head.decoded,hrex]

def Opcode.shape (opsize : ℕ) : Opcode → Shape
  | .storeByte | .store => .store
  | .loadByte => .load 1 false
  | .load | .movzxByte | .movzxWord => .load opsize false
  | .movsxByte | .movsxWord => .load opsize true
  | .storeImmByte => .imm 1
  | .storeImm => .imm (if opsize = 2 then 2 else 4)

lemma parseOpcode_append (op : Opcode) : parseOpcode (pre ++ (op.bytes ++ post)) pre.length opsize =
      some (op.memSize opsize,op.shape opsize,(pre ++ op.bytes).length) := by
  cases op <;>
    simp [parseOpcode,Opcode.bytes,Opcode.memSize,Opcode.shape]

lemma modrm_fields (m : Fin 3) (reg rm : Fin 8) :
    let b := ofNat (m*64+reg*8+rm)
    (b >>> 6 = ofNat m) ∧ (b &&& 7 = ofNat rm) ∧
      ((b >>> 3) &&& 7 = ofNat reg) := by
  revert m reg rm
  decide

lemma dispLen_eq (m : Fin 3) (P : Prop) [Decidable P] :
    (if m = 1 then 1 else if m = 2 then 4 else if m = 0 ∧ P then 4 else 0) =
      if m = 1 then 1 else if m = 2 then 4 else if P then 4 else 0 := by
  match m with
  | 0 | 1 | 2 => simp

lemma parseModrm_append :
    parseModrm (pre ++ (h.modrm :: (h.operand.sib.toList ++ post))) pre.length =
      some ((pre ++ h.modrm :: (h.operand.sib.toList ++ h.operand.disp)).length,
        ofNat h.reg) := by
  obtain ⟨hmode,hrm,hreg⟩ := modrm_fields h.operand.mode h.reg h.operand.rm
  have hmode' : ∀ (m : Fin 3), ofNat m ≠ 3 ∧ (ofNat m = 0 ↔ m = 0) ∧
      (ofNat m = 1 ↔ m = 1) ∧ (ofNat m = 2 ↔ m = 2) := by decide
  have hrm' : ∀ (r : Fin 8), (ofNat r = 4 ↔ r = 4) ∧ (ofNat r = 5 ↔ r = 5) := by
    decide
  obtain ⟨hne,h0,h1,h2⟩ := hmode' h.operand.mode
  obtain ⟨h4,h5⟩ := hrm' h.operand.rm
  have hsib := h.operand.sib_iff
  have hdisp := h.operand.disp_len
  rw [parseModrm,getElem?_boundary]
  simp only [Head.modrm,hmode,hrm,hreg,hne,if_false]
  cases hs : h.operand.sib with
  | none =>
    have hrm4 : h.operand.rm ≠ 4 := by simpa [hs] using hsib
    simp only [h4,h5,h0,h1,h2,if_neg hrm4,dispLen_eq]
    simp [hdisp,hs]
    omega
  | some sib =>
    have hrm4 : h.operand.rm = 4 := by simpa [hs] using hsib
    simp only [h4,h5,h0,h1,h2,if_pos hrm4,toList_some,List.cons_append,List.nil_append]
    rw [getElem?_boundary_succ]
    simp [hdisp,hs,hrm4,dispLen_eq]
    omega

def Head.lead : List UInt8 :=
  h.prefixes.map Legacy.byte ++ h.rex.toList.map Rex.byte

lemma plainByteLoad_iff :
    decide ((h.lead ++ (h.opcode.bytes ++ post))[h.lead.length]? = some 0x8A) =
      decide (h.opcode = .loadByte) := by
  cases h.opcode <;> simp [Opcode.bytes]

lemma Head.high8_eq :
    match h.opcode.shape h.operandSize with
    | .store => (decide (h.memSize = 1) && (h.rex.isNone && decide (4 ≤ h.reg))) = h.high8
    | .load .. =>
      (decide (h.opcode = .loadByte) && (h.rex.isNone && decide (4 ≤ h.reg))) = h.high8
    | .imm _ => True := by
  have hsize : h.operandSize ≠ 1 := by
    rw [Head.operandSize]
    split
    · decide
    · split <;> decide
  cases hop : h.opcode <;> cases hrex : h.rex <;>
    simp [Opcode.shape,Head.high8,Head.memSize,Opcode.memSize,hop,hrex,hsize]

def Head.front : List UInt8 :=
  h.lead ++ (h.opcode.bytes ++ h.modrm :: h.operand.sib.toList)

/-- The decoder up to the immediate. It does not look at the displacement. -/
lemma decodeMemAccess_front (post : List UInt8) : decodeMemAccess (h.front ++ post) =
      match h.opcode.shape h.operandSize with
      | .store => some ⟨h.bytes.length,h.memSize,.store h.register h.high8⟩
      | .load dest sign => some ⟨h.bytes.length,h.memSize,.load h.register h.high8 sign dest⟩
      | .imm immLen =>
        if h.reg ≠ 0 then none
        else
          (parseImm (h.front ++ post) h.bytes.length immLen h.rexW).map fun r =>
            ⟨r.2,h.memSize,.storeImm r.1⟩ := by
  have hbytes : h.front ++ post = h.lead ++ (h.opcode.bytes ++
      h.modrm :: (h.operand.sib.toList ++ post)) := by
    simp [Head.front]
  have hprefixes : parsePrefixes (h.front ++ post) = (h.decoded,h.lead.length) := by
    rw [hbytes,Head.lead,List.append_assoc]
    exact parsePrefixes_append h _
  have hopcode : parseOpcode (h.front ++ post) h.lead.length h.operandSize =
      some (h.memSize,h.opcode.shape h.operandSize,(h.lead ++ h.opcode.bytes).length) := by
    rw [hbytes]
    exact parseOpcode_append h.opcode
  have hmodrm : parseModrm (h.front ++ post) (h.lead ++ h.opcode.bytes).length =
      some (h.bytes.length,ofNat h.reg) := by
    rw [hbytes,← List.append_assoc,parseModrm_append]
    simp [Head.bytes,Head.lead,Nat.add_assoc]
  have hplain : decide ((h.front ++ post)[h.lead.length]? = some 0x8A) =
      decide (h.opcode = .loadByte) := by
    rw [hbytes]
    exact plainByteLoad_iff h
  have hreg : (ofNat h.reg ≠ 0) = (h.reg ≠ 0) := by
    have : ∀ r : Fin 8, ofNat r = 0 ↔ r = 0 := by decide
    simp only [ne_eq,this]
  have hhigh := h.high8_eq
  rw [decodeMemAccess,hprefixes]
  simp only [h.decoded_operandSize,hopcode,hmodrm,h.decoded_register,h.decoded_high,hplain,
    h.decoded_rexW,hreg]
  cases hshape : h.opcode.shape h.operandSize with
  | store =>
    rw [hshape] at hhigh
    simp only [hhigh]
  | load dest sign =>
    rw [hshape] at hhigh
    simp only [hhigh]
  | imm immLen =>
    simp only
    congr 1
    cases parseImm (h.front ++ post) h.bytes.length immLen h.rexW <;> rfl

lemma Head.bytes_eq : h.bytes = h.front ++ h.operand.disp := by
  simp [Head.bytes,Head.front,Head.lead]

end

lemma parseImm_append (imm : List UInt8) (rexW : Bool) :
    parseImm (pre ++ (imm ++ post)) pre.length imm.length rexW =
      some (if rexW ∧ imm.length = 4 then (BitVec.ofNat 32 (Le.toNat imm)).signExtend 64
        else BitVec.ofNat 64 (Le.toNat imm),(pre ++ imm).length) := by
  simp [parseImm]

variable {n k j size dest i : ℕ}

lemma setWidth_signExtend_self {l : List UInt8} (hl : l.length = n) :
    ((BitVec.ofNat (8*l.length) (Le.toNat l)).signExtend (8*n)).setWidth 64 =
      BitVec.ofNat 64 (Le.toNat l) := by
  subst hl
  rw [BitVec.signExtend_eq]
  refine BitVec.eq_of_toNat_eq ?_
  rw [BitVec.toNat_setWidth,BitVec.toNat_ofNat,BitVec.toNat_ofNat,Nat.mod_eq_of_lt (Le.toNat_lt l)]

namespace Instr
variable (i : Instr)

lemma immediate_eq (himm : i.opcode.IsImm) :
    i.immediate = if i.rexW ∧ i.imm.length = 4 then (BitVec.ofNat 32 (Le.toNat i.imm)).signExtend 64
      else BitVec.ofNat 64 (Le.toNat i.imm) := by
  have hlen := i.imm_len
  have hsize : i.operandSize = if i.rexW then 8 else
    if i.prefixes.contains .opsize then 2 else 4 := rfl
  rw [immediate,Head.memSize]
  cases hop : i.opcode with
  | storeImmByte =>
    rw [hop,Opcode.immLen] at hlen
    rw [if_neg (by omega)]
    exact setWidth_signExtend_self hlen
  | storeImm =>
    rw [hop,Opcode.immLen] at hlen
    cases hw : i.rexW with
    | true =>
      rw [hw,if_pos rfl] at hsize
      rw [hsize] at hlen ⊢
      rw [if_pos ⟨rfl,hlen⟩,Opcode.memSize,hlen]
      exact BitVec.setWidth_eq _
    | false =>
      rw [if_neg (by simp)]
      refine setWidth_signExtend_self (hlen.trans (Nat.min_eq_left ?_))
      rw [hsize,hw,if_neg Bool.false_ne_true]
      split <;> decide
  | _ => simp [hop,Opcode.IsImm] at himm

lemma decodeMemAccess_encode (rest : List UInt8) :
    decodeMemAccess (i.encode ++ rest) = some i.access := by
  have hlen := i.imm_len
  have hencode : i.encode.length = i.bytes.length+i.imm.length := List.length_append
  rw [encode,List.append_assoc,i.bytes_eq,List.append_assoc,decodeMemAccess_front]
  by_cases himm : i.opcode.IsImm
  · have hshape : i.opcode.shape i.operandSize = .imm i.imm.length := by
      rw [hlen]
      have hsize : i.operandSize = if i.rexW then 8 else
        if i.prefixes.contains .opsize then 2 else 4 := rfl
      cases hop : i.opcode <;> simp [hop,Opcode.IsImm] at himm
      · rfl
      · rw [Opcode.shape,Opcode.immLen,hsize]
        split
        · rfl
        · split <;> rfl
    have hkind : i.kind = .storeImm i.immediate := by
      rw [kind]
      cases hop : i.opcode <;> simp [hop,Opcode.IsImm] at himm <;> rfl
    rw [hshape]
    simp only [ne_eq,i.reg_zero himm,not_true_eq_false,if_false]
    rw [← List.append_assoc,← i.bytes_eq,parseImm_append,← i.immediate_eq himm,map_some,access,hkind,encode]
  · have hzero : i.imm.length = 0 := by
      rw [hlen]
      cases hop : i.opcode <;> simp [hop,Opcode.IsImm] at himm <;> rfl
    rw [access,hencode,hzero,Nat.add_zero,kind]
    cases hop : i.opcode <;> simp [hop,Opcode.IsImm] at himm <;> rfl

end Instr

/-- A byte or word keeps the rest of the register, a doubleword clears the upper half. -/
def writeReg (old : BitVec 64) (high8 : Bool) : (dest : ℕ) → BitVec (8*dest) → BitVec 64
  | 1, v =>
    if high8 then old.extractLsb' 16 48 ++ v ++ old.extractLsb' 0 8 else old.extractLsb' 8 56 ++ v
  | 2, v => old.extractLsb' 16 48 ++ v
  | 4, v => v.setWidth 64
  | 8, v => v
  | _, _ => old

/-- A `size`-byte memory operand, sign- or zero-extended to `dest` bytes. -/
def extended (size dest : ℕ) (sign : Bool) (mem : BitVec (8*size)) : BitVec (8*dest) :=
  if sign then mem.signExtend _ else mem.setWidth _

def Sized (n : ℕ) : Prop := n = 1 ∨ n = 2 ∨ n = 4 ∨ n = 8

lemma getLsbD_mask (hk : Sized k) (hj : j < 64) :
    (twoPow 64 (8*k)-1).getLsbD j = decide (j < 8*k) := by
  have h : ∀ j : Fin 64, (twoPow 64 8-1).getLsbD j = decide (j.1 < 8) ∧
      (twoPow 64 16-1).getLsbD j = decide (j.1 < 16) ∧
      (twoPow 64 32-1).getLsbD j = decide (j.1 < 32) ∧
      (twoPow 64 64-1).getLsbD j = decide (j.1 < 64) := by
    decide
  obtain ⟨h1,h2,h4,h8⟩ := h ⟨j,hj⟩
  rcases hk with rfl | rfl | rfl | rfl
  · exact h1
  · exact h2
  · exact h4
  · exact h8

lemma maskTo_eq (hsize : Sized size) (v : BitVec 64) :
    maskTo v size = v &&& (twoPow 64 (8*size)-1) := by
  rcases hsize with rfl | rfl | rfl | rfl
  · rfl
  · rfl
  · rfl
  · exact BitVec.and_allOnes.symm

lemma getLsbD_maskTo (hsize : Sized size) (hj : j < 64) (v : BitVec 64) :
    (maskTo v size).getLsbD j = (v.getLsbD j && decide (j < 8*size)) := by
  rw [maskTo_eq hsize,getLsbD_and,getLsbD_mask hsize hj]

lemma getLsbD_extended (sign : Bool) (hsize : Sized size) (v : BitVec 64) :
    (extended size dest sign (v.setWidth (8*size))).getLsbD j = (decide (j < 8*dest) &&
      if j < 8*size then v.getLsbD j else sign && v.getLsbD (8*size-1)) := by
  have hpos : 8*size-1 < 8*size := by
    rcases hsize with rfl | rfl | rfl | rfl <;> decide
  rw [extended]
  by_cases hj : j < 8*size
  · cases sign <;> simp [BitVec.getLsbD_signExtend,getLsbD_setWidth,hj]
  · cases sign <;>
      simp [BitVec.getLsbD_signExtend,getLsbD_setWidth,hj,BitVec.msb_eq_getLsbD_last,hpos]

lemma getLsbD_extend (sign : Bool) (hsize : Sized size) (hdest : Sized dest)
    (hj : j < 64) (v : BitVec 64) :
    (extend v size dest sign).getLsbD j = (decide (j < 8*dest) &&
      if j < 8*size then v.getLsbD j else sign && v.getLsbD (8*size-1)) := by
  have hbounds : size*8-1 < 64 ∧ size*8-1 < 8*size ∧ (¬ size < 8 → 64 ≤ 8*size) := by
    rcases hsize with rfl | rfl | rfl | rfl <;> decide
  obtain ⟨hlt,hpos,hwide⟩ := hbounds
  have hsign : maskTo v size &&& twoPow 64 (size*8-1) ≠ 0 ↔
      v.getLsbD (8*size-1) = true := by
    rw [BitReg.and_twoPow_ne_zero _ hlt,getLsbD_maskTo hsize hlt,decide_eq_true hpos,
      Bool.and_true,Nat.mul_comm]
  rw [extend,getLsbD_maskTo hdest hj,Bool.and_comm]
  congr 1
  simp only [hsign]
  by_cases hin : j < 8*size
  · rw [if_pos hin]
    split <;>
      simp only [getLsbD_or,getLsbD_not,getLsbD_maskTo hsize hj,hin,
        decide_true,Bool.and_true,Nat.mul_comm size 8,getLsbD_mask hsize hj,Bool.not_true,
        Bool.and_false,Bool.or_false]
  · have hnarrow : size < 8 := by
      by_contra hnot
      exact hin (Nat.lt_of_lt_of_le hj (hwide hnot))
    rw [if_neg hin]
    split
    · next hcond =>
      simp only [getLsbD_or,getLsbD_not,getLsbD_maskTo hsize hj,hin,
        Nat.mul_comm size 8,getLsbD_mask hsize hj,hj,hcond.1,hcond.2.2]
      simp
    · next hcond =>
      rw [getLsbD_maskTo hsize hj,decide_eq_false hin,Bool.and_false]
      cases sign with
      | false => rfl
      | true =>
        symm
        rw [Bool.true_and,Bool.eq_false_iff]
        exact fun hbit => hcond ⟨rfl,hnarrow,hbit⟩

lemma getLsbD_writeMasks (hj : j < 64) :
    (0xFF#64).getLsbD j = decide (j < 8) ∧ (0xFF00#64).getLsbD j = decide (8 ≤ j ∧ j < 16) ∧
      (0xFFFF#64).getLsbD j = decide (j < 16) ∧ (0xFFFFFFFF#64).getLsbD j = decide (j < 32) := by
  have h : ∀ j : Fin 64, (0xFF#64).getLsbD j = decide (j.1 < 8) ∧
      (0xFF00#64).getLsbD j = decide (8 ≤ j.1 ∧ j.1 < 16) ∧
      (0xFFFF#64).getLsbD j = decide (j.1 < 16) ∧
      (0xFFFFFFFF#64).getLsbD j = decide (j.1 < 32) := by
    decide
  exact h ⟨j,hj⟩

variable {old v m : BitVec 64}

lemma getLsbD_mergeLow {x : BitVec k} (hj : j < 64)
    (hm : m.getLsbD j = decide (j < k)) (hx : ∀ j < k, v.getLsbD j = x.getLsbD j) :
    ((old &&& ~~~m) ||| (v &&& m)).getLsbD j = if j < k then x.getLsbD j else old.getLsbD j := by
  rw [getLsbD_or,getLsbD_and,getLsbD_and,getLsbD_not,hm]
  by_cases hlow : j < k
  · simp [hlow,hx j hlow]
  · simp [hlow,hj]

lemma getLsbD_replaceLow (old : BitVec 64) (x : BitVec k) (hj : j < 64) (hn : n+k = 64) :
    (old.extractLsb' k n ++ x).getLsbD j = if j < k then x.getLsbD j else old.getLsbD j := by
  rw [getLsbD_append,getLsbD_extractLsb']
  by_cases hlow : j < k
  · simp [hlow]
  · have hk : j-k < n ∧ k+(j-k) = j := by omega
    simp [hlow,hk]

lemma mergeReg_eq (high8 : Bool) (hdest : Sized dest)
    {x : BitVec (8*dest)} (hx : ∀ j < 8*dest, v.getLsbD j = x.getLsbD j) :
    mergeReg old v dest high8 = writeReg old high8 dest x := by
  refine BitVec.eq_of_getLsbD_eq fun j hj => ?_
  obtain ⟨h8,hh,h16,h32⟩ := getLsbD_writeMasks hj
  rcases hdest with rfl | rfl | rfl | rfl
  · cases high8 with
    | false => exact (getLsbD_mergeLow hj h8 hx).trans (getLsbD_replaceLow old x hj rfl).symm
    | true =>
      show ((old &&& ~~~0xFF00#64) ||| ((v &&& 0xFF#64) <<< 8)).getLsbD j =
        (old.extractLsb' 16 48 ++ x ++ old.extractLsb' 0 8).getLsbD j
      rw [getLsbD_or,getLsbD_and,getLsbD_not,hh,BitVec.getLsbD_shiftLeft,
        getLsbD_and,getLsbD_append,getLsbD_append,
        getLsbD_extractLsb',getLsbD_extractLsb',
        (getLsbD_writeMasks (Nat.lt_of_le_of_lt (Nat.sub_le j 8) hj)).1]
      by_cases hlow : j < 8
      · simp [hlow,hj]
      · by_cases hmid : j < 16
        · have hmid' : j-8 < 8 := by omega
          simp [hlow,hmid,hmid',hj,Nat.not_lt.mp hlow,hx _ hmid']
        · have hhigh : ¬ j-8 < 8 ∧ j-8-8 < 48 ∧ 16+(j-8-8) = j := by omega
          simp [hlow,hmid,hj,hhigh]
  · exact (getLsbD_mergeLow hj h16 hx).trans (getLsbD_replaceLow old x hj rfl).symm
  · show (v &&& 0xFFFFFFFF#64).getLsbD j = (x.setWidth 64).getLsbD j
    rw [getLsbD_and,h32,getLsbD_setWidth,decide_eq_true hj,Bool.true_and]
    by_cases hlow : j < 32
    · rw [decide_eq_true hlow,Bool.and_true,hx j hlow]
    · rw [decide_eq_false hlow,Bool.and_false,BitVec.getLsbD_of_ge _ _ (Nat.not_lt.mp hlow)]
  · exact hx j hj

lemma mergeReg_extend (sign high8 : Bool) (hsize : Sized size)
    (hdest : Sized dest) (old v : BitVec 64) :
    mergeReg old (extend v size dest sign) dest high8 =
      writeReg old high8 dest (extended size dest sign (v.setWidth (8*size))) := by
  have hwidth : 8*dest ≤ 64 := by
    rcases hdest with rfl | rfl | rfl | rfl <;> decide
  refine mergeReg_eq high8 hdest fun j hj => ?_
  rw [getLsbD_extend sign hsize hdest (Nat.lt_of_lt_of_le hj hwidth),getLsbD_extended sign hsize]

lemma Head.operandSize_sized (h : Head) : Sized h.operandSize := by
  rw [Head.operandSize]
  split
  · exact .inr (.inr (.inr rfl))
  · split
    · exact .inr (.inl rfl)
    · exact .inr (.inr (.inl rfl))

lemma Head.memSize_sized (h : Head) : Sized h.memSize := by
  rw [Head.memSize]
  cases h.opcode with
  | store | load | storeImm => exact h.operandSize_sized
  | movzxWord | movsxWord => exact .inr (.inl rfl)
  | _ => exact .inl rfl

namespace Instr
variable (i : Instr)

lemma destSize_sized {reg : UInt8} {high8 sign : Bool} {dest : ℕ}
    (h : i.kind = .load reg high8 sign dest) : Sized dest := by
  unfold kind at h
  split at h
  all_goals first
    | cases h
      done
    | obtain ⟨-,-,-,rfl⟩ := AccessKind.load.inj h
      first | exact .inl rfl | exact i.operandSize_sized

/-- The decoder inverts the encoding, whatever follows the instruction, and a decoded load updates
its register as the processor does. -/
theorem decode_inverts_encode (rest : List UInt8) :
    decodeMemAccess (i.encode ++ rest) = some i.access ∧
      ∀ reg high8 sign dest, i.access.kind = .load reg high8 sign dest → ∀ old value : BitVec 64,
        mergeReg old (extend value i.access.size dest sign) dest high8 = writeReg old high8 dest
            (extended i.access.size dest sign (value.setWidth (8*i.access.size))) := by
  refine ⟨i.decodeMemAccess_encode rest,fun reg high8 sign dest hload old value => ?_⟩
  exact mergeReg_extend sign high8 i.memSize_sized (i.destSize_sized hload) old value

example : decodeMemAccess [0x48,0xC7,0x40,0x10,0xFF,0xFF,0xFF,0xFF,0x90] =
    some ⟨8,8,.storeImm (-1)⟩ := by
  decide

end Instr
variable {bytes : List UInt8}

lemma exists_legacy (h : b = 0x66 ∨ isSkipped b = true) : ∃ p, Legacy.byte p = b := by
  rw [isSkipped,decide_eq_true_iff] at h
  obtain rfl | rfl | rfl | rfl | rfl | rfl | rfl | rfl | rfl | rfl | rfl := h
  exacts [⟨.opsize,rfl⟩,⟨.addrsize,rfl⟩,⟨.cs,rfl⟩,⟨.ss,rfl⟩,⟨.ds,rfl⟩,⟨.es,rfl⟩,
    ⟨.fs,rfl⟩,⟨.gs,rfl⟩,⟨.lock,rfl⟩,⟨.repne,rfl⟩,⟨.rep,rfl⟩]

lemma exists_rex (h : b &&& 0xF0 = 0x40) : ∃ p, Rex.byte p = b := by
  refine ⟨⟨b &&& 8 ≠ 0,b &&& 4 ≠ 0,b &&& 2 ≠ 0,b &&& 1 ≠ 0⟩,?_⟩
  have hall : ∀ n : Fin 256, ofNat n &&& 0xF0 = 0x40 → Rex.byte ⟨ofNat n &&& 8 ≠ 0,
      ofNat n &&& 4 ≠ 0,ofNat n &&& 2 ≠ 0,ofNat n &&& 1 ≠ 0⟩ =
        ofNat n := by
    decide +kernel
  have hb := hall ⟨b.toNat,b.toNat_lt⟩
  rw [UInt8.ofNat_toNat] at hb
  exact hb h

lemma legacyLoop_split (bytes : List UInt8) (i : ℕ) (o : Bool) :
    ∃ (ps : List Legacy) (rest : List UInt8), bytes = ps.map Legacy.byte ++ rest ∧
      (legacyLoop bytes i o).1 = i+ps.length := by
  fun_induction legacyLoop bytes i o with
  | case1 i o => exact ⟨[],[],rfl,rfl⟩
  | case2 rest i o ih =>
    obtain ⟨ps,rest,rfl,hlen⟩ := ih
    exact ⟨.opsize :: ps,rest,rfl,by rw [hlen,List.length_cons]; omega⟩
  | case3 b rest i o _ hskip ih =>
    obtain ⟨ps,rest,rfl,hlen⟩ := ih
    obtain ⟨p,rfl⟩ := exists_legacy (.inr hskip)
    exact ⟨p :: ps,rest,rfl,by rw [hlen,List.length_cons]; omega⟩
  | case4 b rest i o => exact ⟨[],b :: rest,rfl,rfl⟩

lemma parsePrefixes_split (bytes : List UInt8) :
    ∃ (ps : List Legacy) (rex : Option Rex) (rest : List UInt8),
      bytes = (ps.map Legacy.byte ++ rex.toList.map Rex.byte) ++ rest ∧
        (parsePrefixes bytes).2 = (ps.map Legacy.byte ++ rex.toList.map Rex.byte).length := by
  obtain ⟨ps,rest,rfl,hlen⟩ := legacyLoop_split bytes 0 false
  rcases hloop : legacyLoop (ps.map Legacy.byte ++ rest) 0 false with ⟨i,o⟩
  obtain rfl : i = ps.length := by rw [hloop] at hlen; omega
  have hget : (ps.map Legacy.byte ++ rest)[ps.length]? = rest.head? := by
    rw [List.getElem?_append_right (by simp),List.length_map,Nat.sub_self,List.head?_eq_getElem?]
  simp only [parsePrefixes,hloop,hget]
  cases rest with
  | nil => exact ⟨ps,none,[],by simp,by simp⟩
  | cons b rest =>
    simp only [List.head?_cons]
    split
    case isTrue hb =>
      obtain ⟨p,rfl⟩ := exists_rex hb
      exact ⟨ps,some p,rest,by simp,by simp⟩
    case isFalse => exact ⟨ps,none,b :: rest,by simp,by simp⟩

lemma parseOpcode_split {shape : Shape}
    (h : parseOpcode (pre ++ bytes) pre.length opsize = some (size,shape,i)) :
    ∃ (op : Opcode) (post : List UInt8), bytes = op.bytes ++ post ∧
      i = (pre ++ op.bytes).length := by
  have hget : ∀ k, (pre ++ bytes)[pre.length+k]? = bytes[k]? := fun k => by
    rw [List.getElem?_append_right (Nat.le_add_right _ _),Nat.add_sub_cancel_left]
  have hfound : ∀ (op : Opcode) (post : List UInt8), bytes = op.bytes ++ post →
      ∃ (op : Opcode) (post : List UInt8), bytes = op.bytes ++ post ∧
        i = (pre ++ op.bytes).length := by
    intro op post hb
    rw [hb,parseOpcode_append] at h
    exact ⟨op,post,hb,by cases h; rfl⟩
  rw [parseOpcode,hget 1,show (pre ++ bytes)[pre.length]? = bytes[0]? from hget 0] at h
  rcases bytes with _ | ⟨b,rest⟩
  · cases h
  have hb : b = 0x88 ∨ b = 0x89 ∨ b = 0x8A ∨ b = 0x8B ∨ b = 0xC6 ∨ b = 0xC7 ∨ b = 0x0F := by
    by_contra hne
    simp only [not_or] at hne
    simp [hne] at h
  obtain rfl | rfl | rfl | rfl | rfl | rfl | rfl := hb
  · exact hfound .storeByte rest rfl
  · exact hfound .store rest rfl
  · exact hfound .loadByte rest rfl
  · exact hfound .load rest rfl
  · exact hfound .storeImmByte rest rfl
  · exact hfound .storeImm rest rfl
  rcases rest with _ | ⟨c,rest⟩
  · simp at h
  have hc : c = 0xB6 ∨ c = 0xB7 ∨ c = 0xBE ∨ c = 0xBF := by
    by_contra hne
    simp only [not_or] at hne
    simp [hne] at h
  obtain rfl | rfl | rfl | rfl := hc
  · exact hfound .movzxByte rest rfl
  · exact hfound .movzxWord rest rfl
  · exact hfound .movsxByte rest rfl
  · exact hfound .movsxWord rest rfl

lemma exists_modrm (h : b >>> 6 ≠ 3) :
    ∃ (m : Fin 3) (reg rm : Fin 8), b = ofNat (m*64+reg*8+rm) := by
  have hall : ∀ n : Fin 256, ofNat n >>> 6 ≠ 3 → n.val/64 < 3 := by decide +kernel
  have hb := hall ⟨b.toNat,b.toNat_lt⟩
  rw [UInt8.ofNat_toNat] at hb
  refine ⟨⟨b.toNat/64,hb h⟩,⟨b.toNat/8%8,Nat.mod_lt _ (by decide)⟩,
    ⟨b.toNat%8,Nat.mod_lt _ (by decide)⟩,?_⟩
  rw [show b.toNat/64*64+b.toNat/8%8*8+b.toNat%8 = b.toNat by omega,
    UInt8.ofNat_toNat]

lemma parseModrm_split {r : ℕ × UInt8} (h : parseModrm (pre ++ bytes) pre.length = some r) :
    ∃ (reg : Fin 8) (o : MemOperand) (post : List UInt8),
      bytes = ofNat (o.mode*64+reg*8+o.rm) :: (o.sib.toList ++ post) ∧
        o.disp = (post ++ List.replicate 4 0).take o.disp.length := by
  have hget : ∀ k, (pre ++ bytes)[pre.length+k]? = bytes[k]? := fun k => by
    rw [List.getElem?_append_right (Nat.le_add_right _ _),Nat.add_sub_cancel_left]
  rw [parseModrm,hget 1,show (pre ++ bytes)[pre.length]? = bytes[0]? from hget 0] at h
  rcases bytes with _ | ⟨b,rest⟩
  · cases h
  simp only [List.getElem?_cons_zero,List.getElem?_cons_succ] at h
  by_cases h3 : b >>> 6 = 3
  · rw [if_pos h3] at h
    cases h
  obtain ⟨m,reg,rm,rfl⟩ := exists_modrm h3
  have hfill : ∀ (sib : Option UInt8) (post : List UInt8), sib.isSome = decide (rm = 4) →
      ∃ o : MemOperand, o.mode = m ∧ o.rm = rm ∧ o.sib = sib ∧
        o.disp = (post ++ List.replicate 4 0).take o.disp.length := by
    intro sib post hsib
    refine ⟨⟨m,rm,sib,(post ++ List.replicate 4 0).take _,hsib,List.length_take_of_le ?_⟩,
      rfl,rfl,rfl,?_⟩
    · rw [List.length_append,List.length_replicate]
      split_ifs <;> omega
    · simp
  by_cases h4 : rm = 4
  · rcases rest with _ | ⟨sib,post⟩
    · obtain ⟨-,hrm,-⟩ := modrm_fields m reg rm
      rw [if_neg h3,if_pos (by rw [hrm,h4]; rfl)] at h
      cases h
    · obtain ⟨o,rfl,rfl,ho,hdisp⟩ := hfill (some sib) post (by simp [h4])
      exact ⟨reg,o,post,by rw [ho]; rfl,hdisp⟩
  · obtain ⟨o,rfl,rfl,ho,hdisp⟩ := hfill none rest (by simp [h4])
    exact ⟨reg,o,rest,by rw [ho]; rfl,hdisp⟩

lemma exists_front {m : MemAccess} (h : decodeMemAccess bytes = some m) :
    ∃ (i : Head) (post : List UInt8), bytes = i.front ++ post ∧
      i.operand.disp = (post ++ List.replicate 4 0).take i.operand.disp.length := by
  obtain ⟨ps,rex,rest,hbytes,hat⟩ := parsePrefixes_split bytes
  generalize hlead : ps.map Legacy.byte ++ rex.toList.map Rex.byte = lead at hbytes hat
  rcases hprefixes : parsePrefixes bytes with ⟨pfx,i⟩
  rw [hprefixes] at hat
  obtain rfl : i = lead.length := hat
  simp only [decodeMemAccess,hprefixes] at h
  rcases hopcode : parseOpcode bytes lead.length pfx.operandSize with _ | ⟨size,shape,i⟩
  · simp [hopcode] at h
  rw [hbytes] at hopcode
  obtain ⟨op,rest,rfl,rfl⟩ := parseOpcode_split hopcode
  rcases hmodrm : parseModrm bytes (lead ++ op.bytes).length with _ | r
  · rw [← hbytes] at hopcode
    simp only [hopcode,hmodrm] at h
    cases h
  rw [hbytes,← List.append_assoc] at hmodrm
  obtain ⟨reg,o,post,rfl,hdisp⟩ := parseModrm_split hmodrm
  refine ⟨⟨ps,rex,op,reg,o⟩,post,?_,hdisp⟩
  rw [hbytes,← hlead]
  simp [Head.front,Head.lead,Head.modrm]

lemma parseImm_local {rexW : Bool} {r : BitVec 64 × ℕ} (h : parseImm bytes i n rexW = some r) :
    i+n = r.2 ∧ r.2 ≤ bytes.length ∧ parseImm (bytes.take r.2) i n rexW = some r ∧
      ∀ rest, parseImm (bytes ++ rest) i n rexW = some r := by
  rw [parseImm] at h
  by_cases hlen : i+n ≤ bytes.length
  case neg =>
    rw [if_neg hlen] at h
    cases h
  rw [if_pos hlen] at h
  cases h
  refine ⟨rfl,hlen,?_,fun rest => ?_⟩
  · rw [parseImm,if_pos (by rw [List.length_take]; omega),List.drop_take,List.take_take]
    simp
  · rw [parseImm,if_pos (by rw [List.length_append]; omega),
      List.drop_append_of_le_length (by omega),List.take_append_of_le_length (by simp; omega)]

/-- The bytes are an instruction without an immediate that ends inside its displacement. -/
def CutDisplacement (bytes : List UInt8) : Prop :=
  ∃ i : Head, ¬ i.opcode.IsImm ∧ ∃ n < i.operand.disp.length, bytes = i.front ++ i.operand.disp.take n

lemma take_front {i : Head} (hn : i.front.length ≤ n) :
    (i.front ++ post).take n = i.front ++ post.take (n-i.front.length) := by
  rw [List.take_append,List.take_of_length_le hn]

lemma shape_of_not_isImm {op : Opcode} (h : ¬ op.IsImm) (opsize : ℕ) :
    op.shape opsize = .store ∨ ∃ dest sign, op.shape opsize = .load dest sign := by
  cases op <;> first | exact .inl rfl | exact .inr ⟨_,_,rfl⟩ | exact absurd trivial h

lemma shape_of_isImm {op : Opcode} (h : op.IsImm) (opsize : ℕ) :
    ∃ n, op.shape opsize = .imm n := by
  cases op <;> first | exact ⟨_,rfl⟩ | exact h.elim

lemma decode_of_not_isImm {i : Head} (h : ¬ i.opcode.IsImm) :
    ∃ m, m.len = i.bytes.length ∧ ∀ post, decodeMemAccess (i.front ++ post) = some m := by
  obtain hs | ⟨dest,sign,hs⟩ := shape_of_not_isImm h i.operandSize
  · exact ⟨_,rfl,fun post => by rw [decodeMemAccess_front,hs]⟩
  · exact ⟨_,rfl,fun post => by rw [decodeMemAccess_front,hs]⟩

/-- What is accepted does not depend on bytes after its end exactly if the bytes do not end inside a
displacement that no immediate follows. -/
theorem decode_complete_iff (bytes : List UInt8) :
    (∀ m, decodeMemAccess bytes = some m → m.len ≤ bytes.length ∧
      decodeMemAccess (bytes.take m.len) = some m ∧
      ∀ rest, decodeMemAccess (bytes ++ rest) = some m) ↔ ¬ CutDisplacement bytes := by
  constructor
  · rintro h ⟨i,himm,n,hn,rfl⟩
    obtain ⟨m,hlen,hdecode⟩ := decode_of_not_isImm himm
    have hle := (h m (hdecode _)).1
    rw [hlen,i.bytes_eq,List.length_append,List.length_append,List.length_take] at hle
    omega
  · intro hcut m hm
    obtain ⟨i,post,rfl,hdisp⟩ := exists_front hm
    have hlength : i.bytes.length = i.front.length+i.operand.disp.length := by
      rw [i.bytes_eq,List.length_append]
    by_cases himm : i.opcode.IsImm
    · obtain ⟨n,hshape⟩ := shape_of_isImm himm i.operandSize
      simp only [decodeMemAccess_front,hshape] at hm ⊢
      by_cases hreg : i.reg ≠ 0
      · rw [if_pos hreg] at hm
        cases hm
      rw [if_neg hreg,map_eq_some_iff] at hm
      obtain ⟨r,hr,rfl⟩ := hm
      obtain ⟨hend,hle,htake,happend⟩ := parseImm_local hr
      refine ⟨hle,?_,fun rest => ?_⟩
      · rw [take_front (by show _ ≤ r.2; omega)] at htake ⊢
        rw [decodeMemAccess_front,hshape]
        simp only [if_neg hreg,htake,map_some]
      · have hrest := happend rest
        rw [List.append_assoc] at hrest ⊢
        rw [decodeMemAccess_front,hshape]
        simp only [if_neg hreg,hrest,map_some]
    · obtain ⟨m',hlen,hdecode⟩ := decode_of_not_isImm himm
      obtain rfl : m' = m := Option.some.inj ((hdecode post).symm.trans hm)
      have hpost : i.operand.disp.length ≤ post.length := by
        by_contra hlt
        refine hcut ⟨i,himm,post.length,by omega,?_⟩
        rw [hdisp,List.take_take,Nat.min_eq_left (by omega),List.take_left' rfl]
      refine ⟨?_,?_,fun rest => ?_⟩
      · rw [hlen,hlength,List.length_append]
        omega
      · rw [take_front (by omega),hdecode]
      · rw [List.append_assoc,hdecode]

/-- A store with a 32-bit displacement of which no byte is there. -/
theorem decode_cut_displacement :
    (decodeMemAccess [0x89,0x05]).map (·.len) = some 6 ∧ [0x89,0x05].length = 2 := by
  decide

end Enlil.Boot.Insn
