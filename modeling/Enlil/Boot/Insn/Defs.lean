import Enlil.Lib.Le

/-! # The MMIO instruction decoder: model of `enlil-boot/src/insn.rs` -/

namespace Enlil.Boot.Insn

inductive AccessKind where
  | load (reg : UInt8) (high8 signExtend : Bool) (destSize : ℕ)
  | store (reg : UInt8) (high8 : Bool)
  | storeImm (value : BitVec 64)
deriving DecidableEq

structure MemAccess where
  len : ℕ
  size : ℕ
  kind : AccessKind
deriving DecidableEq

structure Prefixes where
  opsize16 : Bool
  /-- The REX byte, 0 if there is none. -/
  rex : UInt8

namespace Prefixes

def rexW (p : Prefixes) : Bool := p.rex &&& 8 ≠ 0

def rexR (p : Prefixes) : UInt8 := (p.rex &&& 4) <<< 1

def operandSize (p : Prefixes) : ℕ := if p.rexW then 8 else if p.opsize16 then 2 else 4

end Prefixes

def isSkipped (b : UInt8) : Bool :=
  b = 0x67 ∨ b = 0x2E ∨ b = 0x36 ∨ b = 0x3E ∨ b = 0x26 ∨ b = 0x64 ∨ b = 0x65 ∨ b = 0xF0 ∨
    b = 0xF2 ∨ b = 0xF3

def legacyLoop : List UInt8 → ℕ → Bool → ℕ × Bool
  | [], i, opsize16 => (i,opsize16)
  | b :: rest, i, opsize16 =>
    if b = 0x66 then legacyLoop rest (i+1) true
    else if isSkipped b then legacyLoop rest (i+1) opsize16
    else (i,opsize16)

def parsePrefixes (bytes : List UInt8) : Prefixes × ℕ :=
  let (i,opsize16) := legacyLoop bytes 0 false
  match bytes[i]? with
  | some b => if b &&& 0xF0 = 0x40 then (⟨opsize16,b⟩,i+1) else (⟨opsize16,0⟩,i)
  | none => (⟨opsize16,0⟩,i)

inductive Shape where
  | store
  | load (dest : ℕ) (sign : Bool)
  | imm (immLen : ℕ)

section
variable (bytes : List UInt8)

def parseOpcode (i opsize : ℕ) : Option (ℕ × Shape × ℕ) :=
  match bytes[i]? with
  | none => none
  | some opcode =>
    if opcode = 0x88 then some (1,.store,i+1)
    else if opcode = 0x89 then some (opsize,.store,i+1)
    else if opcode = 0x8A then some (1,.load 1 false,i+1)
    else if opcode = 0x8B then some (opsize,.load opsize false,i+1)
    else if opcode = 0xC6 then some (1,.imm 1,i+1)
    else if opcode = 0xC7 then some (opsize,.imm (if opsize = 2 then 2 else 4),i+1)
    else if opcode = 0x0F then
      match bytes[i+1]? with
      | none => none
      | some op2 =>
        if op2 = 0xB6 then some (1,.load opsize false,i+2)
        else if op2 = 0xB7 then some (2,.load opsize false,i+2)
        else if op2 = 0xBE then some (1,.load opsize true,i+2)
        else if op2 = 0xBF then some (2,.load opsize true,i+2)
        else none
    else none

def parseModrm (i : ℕ) : Option (ℕ × UInt8) :=
  match bytes[i]? with
  | none => none
  | some modrm =>
    let md := modrm >>> 6
    let rm := modrm &&& 7
    let reg := (modrm >>> 3) &&& 7
    let disp := fun (d : ℕ) => if md = 1 then 1 else if md = 2 then 4 else d
    if md = 3 then none
    else if rm = 4 then
      match bytes[i+1]? with
      | none => none
      -- Without a base register there is a 32-bit displacement.
      | some sib => some (i+2+disp (if md = 0 ∧ sib &&& 7 = 5 then 4 else 0),reg)
    else some (i+1+disp (if md = 0 ∧ rm = 5 then 4 else 0),reg)

def parseImm (i immLen : ℕ) (rexW : Bool) : Option (BitVec 64 × ℕ) :=
  if i+immLen ≤ bytes.length then
    let raw := (bytes.drop i).take immLen
    let value :=
      if rexW ∧ immLen = 4 then (BitVec.ofNat 32 (Le.toNat raw)).signExtend 64
      else BitVec.ofNat 64 (Le.toNat raw)
    some (value,i+immLen)
  else none

def decodeMemAccess : Option MemAccess :=
  let (pfx,opcodeAt) := parsePrefixes bytes
  match parseOpcode bytes opcodeAt pfx.operandSize with
  | none => none
  | some (size,shape,i) =>
    match parseModrm bytes i with
    | none => none
    | some (i,regField) =>
      let reg := regField ||| pfx.rexR
      -- Without REX, byte registers 4 to 7 are AH, CH, DH and BH.
      let byteRegsHigh : Bool := pfx.rex = 0 ∧ 4 ≤ reg ∧ reg < 8
      let isPlainByteLoad : Bool := bytes[opcodeAt]? = some 0x8A
      match shape with
      | .store => some ⟨i,size,.store reg (size = 1 && byteRegsHigh)⟩
      | .load dest sign => some ⟨i,size,.load reg (isPlainByteLoad && byteRegsHigh) sign dest⟩
      | .imm immLen =>
        if regField ≠ 0 then none
        else
          match parseImm bytes i immLen pfx.rexW with
          | none => none
          | some (value,stop) => some ⟨stop,size,.storeImm value⟩

end

def maskTo (value : BitVec 64) (size : ℕ) : BitVec 64 :=
  if size = 1 then value &&& 0xFF#64
  else if size = 2 then value &&& 0xFFFF#64
  else if size = 4 then value &&& 0xFFFFFFFF#64
  else value

def extend (value : BitVec 64) (size destSize : ℕ) (sign : Bool) : BitVec 64 :=
  let v := maskTo value size
  let v :=
    if sign ∧ size < 8 ∧ v &&& BitVec.twoPow 64 (size*8-1) ≠ 0 then
      v ||| ~~~(BitVec.twoPow 64 (size*8)-1)
    else v
  maskTo v destSize

def mergeReg (old value : BitVec 64) (destSize : ℕ) (high8 : Bool) : BitVec 64 :=
  if destSize = 1 then
    if high8 then (old &&& ~~~0xFF00#64) ||| ((value &&& 0xFF#64) <<< 8)
    else (old &&& ~~~0xFF#64) ||| (value &&& 0xFF#64)
  else if destSize = 2 then (old &&& ~~~0xFFFF#64) ||| (value &&& 0xFFFF#64)
  else if destSize = 4 then value &&& 0xFFFFFFFF#64
  else value

end Enlil.Boot.Insn
