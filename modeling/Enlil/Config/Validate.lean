import Enlil.Lib.Tally
import Mathlib.Algebra.GroupWithZero.Nat
import Mathlib.Data.Char
import Mathlib.Data.List.Lex
import Mathlib.Data.UInt

/-! # Validation of a configuration -/

namespace Enlil.Config
open List

abbrev Text := List Char

def isWhitespace (c : Char) : Bool :=
  (0x09 ≤ c.toNat && c.toNat ≤ 0x0d) || (0x2000 ≤ c.toNat && c.toNat ≤ 0x200a) ||
    c.toNat ∈ [0x20,0x85,0xa0,0x1680,0x2028,0x2029,0x202f,0x205f,0x3000]

def trim (s : Text) : Text :=
  ((s.dropWhile isWhitespace).reverse.dropWhile isWhitespace).reverse

inductive MacError
  | noSeparator
  | octets (found : ℕ)
  | octetLength (part : Text)
  | notHex (part : Text)
  | multicast
  | vendorOui (oui : List UInt8)
  deriving DecidableEq

def hypervisorOuis : List (List UInt8) :=
  [[0x52,0x54,0x00],[0x00,0x16,0x3e],[0x00,0x15,0x5d],[0x00,0x1c,0x42],
    [0x08,0x00,0x27],[0x0a,0x00,0x27],[0x00,0x05,0x69],[0x00,0x0c,0x29],
    [0x00,0x1c,0x14],[0x00,0x50,0x56]]

def hexDigit (c : Char) : Option UInt8 :=
  if '0' ≤ c ∧ c ≤ '9' then some (c.toUInt8-0x30)
  else if 'a' ≤ c ∧ c ≤ 'f' then some (c.toUInt8-0x57)
  else if 'A' ≤ c ∧ c ≤ 'F' then some (c.toUInt8-0x37)
  else none

/-- `u8::from_str_radix(part, 16)` of a text of two bytes; a plus sign may stand before a digit. -/
def fromStrRadix : Text → Option UInt8
  | ['+',d] => hexDigit d
  | [d,e] => do
    let high ← hexDigit d
    let low ← hexDigit e
    some (high*16+low)
  | _ => none

def parseOctet (part : Text) : Except MacError UInt8 :=
  if (part.map Char.utf8Size).sum ≠ 2 then .error (.octetLength part)
  else match fromStrRadix part with
    | some byte => .ok byte
    | none => .error (.notHex part)

def parseMac (s : Text) : Except MacError (List UInt8) := do
  let sep ← if ':' ∈ s then .ok ':' else if '-' ∈ s then .ok '-' else .error .noSeparator
  let parts := s.splitOn sep
  if parts.length ≠ 6 then .error (.octets parts.length)
  else parts.mapM parseOctet

def macRejectionReason (s : Text) : Option MacError :=
  match parseMac s with
  | .error e => some e
  | .ok mac =>
    if mac.headD 0 &&& 1 ≠ 0 then some .multicast
    else if mac.take 3 ∈ hypervisorOuis then some (.vendorOui (mac.take 3))
    else none

inductive SchedulingMode
  | dedicated
  | timeslice
  | auto
  deriving DecidableEq

structure DiskConfig (Path : Type) where
  path : Path
  readonly : Bool

structure GuestConfig (Path : Type) where
  name : Text
  cpus : List UInt32
  memoryMb : UInt64
  scheduling : SchedulingMode
  disks : List (DiskConfig Path)
  serialOutput : Text
  mac : Option Text

structure HypervisorConfig where
  reservedMemoryMb : UInt64
  totalMemoryMb : UInt64
  logLevel : Text
  managementPort : UInt16

structure EnlilConfig (Path : Type) where
  hypervisor : HypervisorConfig
  guest : AList fun _ : Text => GuestConfig Path

inductive IsolationError (Path : Type)
  | noCpus (id : Text)
  | duplicateCpu (id : Text) (cpu : UInt32)
  | cpuAssigned (id : Text) (cpu : UInt32)
  | cpuDedicated (id : Text) (cpu : UInt32) (owner : Text)
  | macRejected (id : Text) (reason : MacError)
  | macShared (mac : List UInt8) (ids : List Text)
  | emptyName (id : Text)
  | nameShared (name : Text) (ids : List Text)
  | diskShared (path : Path) (count : ℕ) (ids : List Text)
  deriving DecidableEq

inductive ConfigError (Path : Type)
  | isolation (e : IsolationError Path)
  | totalMemory (total : UInt64)
  | hostMemory (total guests reserved host : UInt64)
  | zeroMemory (id : Text)
  | lowMemory (id : Text) (memoryMb : UInt64)
  | logLevel (level : Text)
  | serialOutput (id output : Text)
  | managementPort
  | noGuests
  | other (message : Text)
  deriving DecidableEq

variable {Path : Type}

abbrev Guests (Path : Type) := List (Sigma fun _ : Text => GuestConfig Path)

def duplicateCpus (id : Text) (seen : List UInt32) : List UInt32 → List (IsolationError Path)
  | [] => []
  | cpu :: rest =>
    (if cpu ∈ seen then [.duplicateCpu id cpu] else []) ++ duplicateCpus id (cpu :: seen) rest

def claimCpus (id : Text) (owner : UInt32 → Option Text) :
    List UInt32 → (UInt32 → Option Text) × List (IsolationError Path)
  | [] => (owner,[])
  | cpu :: rest =>
    let later := claimCpus id (Function.update owner cpu (some id)) rest
    (later.1,(if (owner cpu).isSome then [.cpuAssigned id cpu] else []) ++ later.2)

def dedicatedCpus (g : GuestConfig Path) : List UInt32 :=
  if g.scheduling = .dedicated ∨ g.scheduling = .auto then g.cpus else []

def claimPass (owner : UInt32 → Option Text) :
    Guests Path → (UInt32 → Option Text) × List (IsolationError Path)
  | [] => (owner,[])
  | ⟨id,g⟩ :: rest =>
    let claimed := claimCpus id owner (dedicatedCpus g)
    let later := claimPass claimed.1 rest
    (later.1,(if g.cpus = [] then [.noCpus id] else []) ++ duplicateCpus id [] g.cpus ++
      claimed.2 ++ later.2)

def intrusions (owner : UInt32 → Option Text) (id : Text) (g : GuestConfig Path) :
    List (IsolationError Path) :=
  if g.scheduling ≠ .timeslice then [] else
    g.cpus.filterMap fun cpu => (owner cpu).bind fun o =>
      if o ≠ id then some (.cpuDedicated id cpu o) else none

def validateCpuIsolation (guests : Guests Path) : List (IsolationError Path) :=
  let claimed := claimPass (fun _ => none) guests
  claimed.2 ++ guests.flatMap fun e => intrusions claimed.1 e.1 e.2

def owners {κ : Type} [DecidableEq κ] (key : GuestConfig Path → Option κ) (guests : Guests Path) :
    AList fun _ : κ => List Text :=
  tally Prod.fst [] (fun ids x => ids ++ [x.2])
    (guests.filterMap fun e => (key e.2).map fun k => (k,e.1))

def sharedKeys {κ : Type} [DecidableEq κ] (o : HashOrder) (error : κ → List Text → IsolationError Path)
    (key : GuestConfig Path → Option κ) (guests : Guests Path) : List (IsolationError Path) :=
  (o.walk (owners key guests).entries).filterMap fun e =>
    if 2 ≤ e.2.length then some (error e.1 e.2.mergeSort) else none

def macBytes (g : GuestConfig Path) : Option (List UInt8) := g.mac.bind fun s => (parseMac s).toOption

section
variable (o : HashOrder) (guests : Guests Path)

def validateGuestMacs : List (IsolationError Path) :=
  (guests.filterMap fun e => (e.2.mac.bind macRejectionReason).map (.macRejected e.1)) ++
    sharedKeys o .macShared macBytes guests

def nameKey (g : GuestConfig Path) : Option Text := if trim g.name = [] then none else some (trim g.name)

def validateGuestNames : List (IsolationError Path) :=
  (guests.filterMap fun e => if trim e.2.name = [] then some (.emptyName e.1) else none) ++
    sharedKeys o .nameShared nameKey guests

def mounts (guests : Guests Path) : List (DiskConfig Path × Text) :=
  guests.flatMap fun e => e.2.disks.map fun d => (d,e.1)

def addMount (entry : ℕ × Bool × List Text) (mount : DiskConfig Path × Text) : ℕ × Bool × List Text :=
  (entry.1+1,entry.2.1 || !mount.1.readonly,entry.2.2 ++ [mount.2])

def validateDisks [DecidableEq Path] (o : HashOrder) (guests : Guests Path) :
    List (IsolationError Path) :=
  (o.walk (tally (fun m => m.1.path) (0,false,[]) addMount (mounts guests)).entries).filterMap
    fun ⟨path,count,writable,ids⟩ =>
      if 2 ≤ count ∧ writable then some (.diskShared path count ids.mergeSort) else none

end

def totalGuestMemory (guests : Guests Path) : UInt64 := (guests.map fun e => e.2.memoryMb).sum

def validateMemory (hypervisor : HypervisorConfig) (guests : Guests Path) : List (ConfigError Path) :=
  let total := totalGuestMemory guests+hypervisor.reservedMemoryMb
  (if total > 256*1024 then [.totalMemory total] else []) ++
    (if hypervisor.totalMemoryMb > 0 ∧ total > hypervisor.totalMemoryMb then
      [.hostMemory total (totalGuestMemory guests) hypervisor.reservedMemoryMb hypervisor.totalMemoryMb]
      else []) ++
    guests.flatMap fun e => (if e.2.memoryMb = 0 then [.zeroMemory e.1] else []) ++
      if e.2.memoryMb < 64 then [.lowMemory e.1 e.2.memoryMb] else []

def validLogLevels : List Text :=
  [['t', 'r', 'a', 'c', 'e'],['d', 'e', 'b', 'u', 'g'],['i', 'n', 'f', 'o'],['w', 'a', 'r', 'n'],
    ['e', 'r', 'r', 'o', 'r']]

def validateLogLevel (hypervisor : HypervisorConfig) : List (ConfigError Path) :=
  let level := trim hypervisor.logLevel
  if level.map Char.toLower ∈ validLogLevels then [] else [.logLevel level]

def validSerialOutput : Text → Bool
  | ['s', 't', 'd', 'o', 'u', 't'] | ['p', 't', 'y'] | ['n', 'u', 'l', 'l'] => true
  | 'f' :: 'i' :: 'l' :: 'e' :: ':' :: path => trim path ≠ []
  | _ => false

def validateSerial (guests : Guests Path) : List (ConfigError Path) :=
  guests.filterMap fun e => if validSerialOutput (trim e.2.serialOutput) then none
    else some (.serialOutput e.1 (trim e.2.serialOutput))

def validateConfig [DecidableEq Path] (o : HashOrder) (usb gpu firmware : List Text)
    (c : EnlilConfig Path) : List (ConfigError Path) :=
  let guests := o.walk c.guest.entries
  (validateCpuIsolation guests).map .isolation ++ usb.map .other ++ gpu.map .other ++
    validateMemory c.hypervisor guests ++ (validateGuestNames o guests).map .isolation ++
    validateLogLevel c.hypervisor ++ validateSerial guests ++
    (validateGuestMacs o guests).map .isolation ++ (validateDisks o guests).map .isolation ++
    (if c.hypervisor.managementPort = 0 then [.managementPort] else []) ++
    (if guests = [] then [.noGuests] else []) ++ firmware.map .other

def requestedMemory (c : EnlilConfig Path) : ℕ :=
  (c.guest.entries.map fun e => e.2.memoryMb.toNat).sum+c.hypervisor.reservedMemoryMb.toNat

lemma toNat_totalGuestMemory (guests : Guests Path) :
    (totalGuestMemory guests).toNat = (guests.map fun e => e.2.memoryMb.toNat).sum%2^64 := by
  induction guests with
  | nil => rfl
  | cons e rest ih =>
    rw [totalGuestMemory,map_cons,sum_cons,UInt64.toNat_add]
    rw [totalGuestMemory] at ih
    rw [ih,map_cons,sum_cons,Nat.add_mod_mod]

variable [DecidableEq Path] {o : HashOrder} {usb gpu firmware : List Text} {c : EnlilConfig Path}

/-- An accepted configuration fits iff its total does not wrap. -/
theorem accepted_fits_iff (h : validateConfig o usb gpu firmware c = []) :
    (requestedMemory c ≤ 256*1024 ∧ (c.hypervisor.totalMemoryMb ≠ 0 →
      requestedMemory c ≤ c.hypervisor.totalMemoryMb.toNat)) ↔ requestedMemory c < 2^64 := by
  have hsum : (totalGuestMemory (o.walk c.guest.entries)+c.hypervisor.reservedMemoryMb).toNat =
      requestedMemory c%2^64 := by
    rw [UInt64.toNat_add,toNat_totalGuestMemory,Nat.mod_add_mod,requestedMemory,
      ((o.perm _).map _).sum_nat]
  simp only [validateConfig,append_eq_nil_iff] at h
  have hmem : validateMemory c.hypervisor (o.walk c.guest.entries) = [] := h.1.1.1.1.1.1.1.1.2
  obtain ⟨hlimit,hhost⟩ := append_eq_nil_iff.mp (append_eq_nil_iff.mp hmem).1
  simp only [ite_eq_right_iff,reduceCtorEq,imp_false,not_and,gt_iff_lt,hsum,
    UInt64.lt_iff_toNat_lt] at hlimit hhost
  have hbound : (256*1024 : UInt64).toNat = 256*1024 := rfl
  constructor
  · intro hfit
    omega
  · intro hlt
    rw [Nat.mod_eq_of_lt hlt] at hlimit hhost
    refine ⟨by omega,fun hpinned => Nat.le_of_not_lt (hhost ?_)⟩
    exact Nat.pos_of_ne_zero fun hzero => hpinned (UInt64.toNat_inj.mp hzero)

def sampleConfig (a b : UInt64) : EnlilConfig Unit where
  hypervisor := ⟨512,4096,['i', 'n', 'f', 'o'],9100⟩
  guest := ((∅ : AList _).insert ['a'] ⟨['a'],[0],a,.timeslice,[],['p', 't', 'y'],none⟩).insert
    ['b'] ⟨['b'],[1],b,.timeslice,[],['p', 't', 'y'],none⟩

def inOrder : HashOrder := ⟨id,fun l => .refl l⟩

theorem accepted_fits_iff_sample : requestedMemory (sampleConfig 1024 2048) ≤ 4096 := by
  have h : validateConfig inOrder [] [] [] (sampleConfig 1024 2048) = [] := by decide +kernel
  exact ((accepted_fits_iff h).mpr (by decide)).2 (by decide)

/-- Two guests whose sizes wrap to zero are accepted. -/
theorem accepted_wraps : validateConfig inOrder [] [] [] (sampleConfig (2^63) (2^63)) = [] ∧
    requestedMemory (sampleConfig (2^63) (2^63)) = 2^64+512 := by
  decide +kernel

end Enlil.Config
