import Mathlib.Data.List.Basic

/-! # The MSI-X table: model of `pcie.rs`, `MsixTable` -/

namespace Enlil.Devices.Pcie

abbrev MsixMessage := BitVec 64 × BitVec 32

structure MsixEntry where
  addrLo : BitVec 32
  addrHi : BitVec 32
  data : BitVec 32
  vectorControl : BitVec 32
  deriving DecidableEq

namespace MsixEntry

def reset : MsixEntry := ⟨0,0,0,0x1⟩

def masked (e : MsixEntry) : Bool := e.vectorControl.getLsbD 0

def address (e : MsixEntry) : BitVec 64 := e.addrHi ++ e.addrLo

def message (e : MsixEntry) : MsixMessage := (e.address,e.data)

end MsixEntry

structure MsixTable where
  entries : List MsixEntry
  pending : List Bool
  deriving DecidableEq

namespace MsixTable

def new (numVectors : ℕ) : MsixTable :=
  let n := min (max numVectors 1) 2048
  ⟨List.replicate n .reset,List.replicate n false⟩

variable (t : MsixTable)

def writeTableU32 (offset : ℕ) (value : BitVec 32) : MsixTable :=
  if offset%4 ≠ 0 then t
  else
    { t with entries := t.entries.modify (offset/16) fun e =>
        match offset%16 with
        | 0 => { e with addrLo := value }
        | 4 => { e with addrHi := value }
        | 8 => { e with data := value }
        | _ => { e with vectorControl := value &&& 0x1 } }

def signal (vec : ℕ) (globallyMasked : Bool) : Option MsixMessage × MsixTable :=
  match t.entries[vec]? with
  | none => (none,t)
  | some e =>
    if globallyMasked || e.masked then (none,{ t with pending := t.pending.set vec true })
    else (some e.message,{ t with pending := t.pending.set vec false })

def ready (vec : ℕ) : Bool :=
  t.pending.getD vec false && !((t.entries[vec]?).map MsixEntry.masked).getD true

def takePending (globallyMasked : Bool) : List MsixMessage × MsixTable :=
  if globallyMasked then ([],t)
  else
    (List.range t.entries.length).foldl (fun r vec =>
      if r.2.ready vec then
        (r.1 ++ (r.2.entries[vec]?.map MsixEntry.message).toList,
          { r.2 with pending := r.2.pending.set vec false })
      else r) ([],t)

variable {e : MsixEntry} {p masked : Bool}

lemma writeTableU32_single (offset : ℕ) (value : BitVec 32) :
    ∃ e', writeTableU32 ⟨[e],[p]⟩ offset value = ⟨[e'],[p]⟩ := by
  rw [writeTableU32]
  split
  · exact ⟨e,rfl⟩
  · generalize offset/16 = vec
    cases vec with
    | zero => exact ⟨_,rfl⟩
    | succ n => exact ⟨e,by rw [List.modify_succ_cons,List.modify_nil]⟩

lemma signal_single : signal ⟨[e],[p]⟩ 0 masked =
    if masked || e.masked then (none,⟨[e],[true]⟩) else (some e.message,⟨[e],[false]⟩) := rfl

lemma takePending_single : takePending ⟨[e],[p]⟩ masked =
    if !masked && p && !e.masked then ([e.message],⟨[e],[false]⟩) else ([],⟨[e],[p]⟩) := by
  cases masked <;> cases p <;> cases h : e.masked <;> simp [takePending,ready,h,List.range_succ]

lemma raise_single (masked rises : Bool) :
    let r := if rises then signal ⟨[e],[p]⟩ 0 masked else (none,⟨[e],[p]⟩)
    (r.1.toList ++ (r.2.takePending masked).1,(r.2.takePending masked).2) =
      if !masked && !e.masked then
        (if rises || p then [e.message] else [],⟨[e],[false]⟩)
      else ([],⟨[e],[rises || p]⟩) := by
  cases rises <;> cases masked <;> cases h : e.masked <;> cases p <;>
    simp [signal_single,takePending_single,h]

end MsixTable
end Enlil.Devices.Pcie
