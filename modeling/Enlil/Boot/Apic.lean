import Mathlib.Tactic.IntervalCases
import Enlil.Boot.Apic.Defs

/-! # Interrupt routing over whole runs -/

namespace Enlil.Boot
open IoApic BitReg List BitVec

-- One pin

/-- What concerns one pin: its entry, its line, and the latched edge. -/
structure Pin where
  entry : BitVec 64
  line : Bool
  latch : Bool

inductive PinOp where
  | idle
  | drive (level : Bool)
  | write (v : BitVec 32) (high : Bool)
  | retire (vector : BitVec 8)

namespace Pin

def Masked (p : Pin) : Prop := p.entry &&& rMasked ≠ 0
def Level (p : Pin) : Prop := p.entry &&& rLevel ≠ 0
def RemoteIrr (p : Pin) : Prop := p.entry &&& rRemoteIrr ≠ 0

instance (p : Pin) : Decidable p.Masked := inferInstanceAs (Decidable (_ ≠ _))
instance (p : Pin) : Decidable p.Level := inferInstanceAs (Decidable (_ ≠ _))
instance (p : Pin) : Decidable p.RemoteIrr := inferInstanceAs (Decidable (_ ≠ _))

def Open (p : Pin) : Prop := ¬ p.Masked ∧ Routed p.entry

instance (p : Pin) : Decidable p.Open := inferInstanceAs (Decidable (_ ∧ _))

def service (p : Pin) : Pin × Option (BitVec 8) :=
  if p.Open then
    if p.Level then
      if p.line = true ∧ ¬ p.RemoteIrr then
        ({ p with entry := p.entry ||| rRemoteIrr },some (vectorOf p.entry))
      else (p,none)
    else if p.latch then ({ p with latch := false },some (vectorOf p.entry))
    else (p,none)
  else (p,none)

def drive (p : Pin) (level : Bool) : Pin :=
  { p with
    line := level
    latch := if p.Level then p.latch && level else p.latch || (level && !p.line) }

def rewrite (p : Pin) (v : BitVec 32) (high : Bool) : Pin :=
  { p with entry := if high then writeHigh p.entry v else writeLow p.entry v }

def apply (p : Pin) : PinOp → Pin × Option (BitVec 8)
  | .idle => (p,none)
  | .drive level => (p.drive level).service
  | .write v high => (p.rewrite v high).service
  | .retire vector =>
    if p.Level ∧ p.RemoteIrr ∧ vectorOf p.entry = vector then
      service { p with entry := p.entry &&& ~~~rRemoteIrr }
    else (p,none)

variable {p : Pin} {op : PinOp} {v : BitVec 32} {high : Bool}

lemma level_iff : p.Level ↔ p.entry.getLsbD 15 = true := and_twoPow_ne_zero _ (by decide)
lemma remoteIrr_iff : p.RemoteIrr ↔ p.entry.getLsbD 14 = true := and_twoPow_ne_zero _ (by decide)

lemma service_level : p.service.1.Level ↔ p.Level := by
  rw [service]
  split_ifs
  · rw [level_iff,level_iff]
    show (p.entry ||| rRemoteIrr).getLsbD 15 = true ↔ _
    rw [rRemoteIrr,getLsbD_or_twoPow _ _ (by decide)]
    simp
  all_goals rfl

structure Settled (p : Pin) : Prop where
  served : p.Open → p.Level → p.line = true → p.RemoteIrr
  empty : p.Open → ¬ p.Level → p.latch = false

lemma service_settled (p : Pin) : p.service.1.Settled := by
  rw [service]
  split_ifs with hopen hlevel hraise hlatch
  · refine ⟨fun _ _ _ => ?_,fun _ hedge => absurd ?_ hedge⟩
    · rw [remoteIrr_iff]
      show (p.entry ||| rRemoteIrr).getLsbD 14 = true
      rw [rRemoteIrr,getLsbD_or_twoPow _ _ (by decide)]
      simp
    · rw [level_iff] at hlevel ⊢
      show (p.entry ||| rRemoteIrr).getLsbD 15 = true
      rw [rRemoteIrr,getLsbD_or_twoPow _ _ (by decide),hlevel,Bool.true_or]
  · refine ⟨fun _ _ hline => ?_,fun _ hedge => absurd hlevel hedge⟩
    by_contra hirr
    exact hraise ⟨hline,hirr⟩
  · exact ⟨fun _ hl => absurd hl hlevel,fun _ _ => rfl⟩
  · exact ⟨fun _ hl => absurd hl hlevel,fun _ _ => Bool.eq_false_iff.mpr hlatch⟩
  · exact ⟨fun ho => absurd ho hopen,fun ho => absurd ho hopen⟩

lemma Settled.apply (h : p.Settled) : (p.apply op).1.Settled := by
  cases op with
  | idle => exact h
  | drive level => exact service_settled _
  | write v high => exact service_settled _
  | retire vector =>
    rw [Pin.apply]
    split_ifs
    · exact service_settled _
    · exact h

lemma service_of_remoteIrr (h : p.RemoteIrr) (hlevel : p.Level) : p.service = (p,none) := by
  rw [service]
  split_ifs with _ hraise
  · exact absurd h hraise.2
  · rfl
  · rfl

lemma service_raises (hlevel : p.Level) (h : p.service.2.isSome) : p.service.1.RemoteIrr := by
  have hsettled := service_settled p
  rw [service] at h ⊢
  split_ifs at h ⊢ with hopen hraise
  · rw [remoteIrr_iff]
    show (p.entry ||| rRemoteIrr).getLsbD 14 = true
    rw [rRemoteIrr,getLsbD_or_twoPow _ _ (by decide)]
    simp
  · cases h
  · cases h

section
variable (e : BitVec 64)

lemma writeLow_level : (writeLow e v).getLsbD 15 = v.getLsbD 15 := by
  simp only [writeLow]
  split_ifs <;>
    simp [rWritableLow,rVector,rDeliveryMode,rDestMode,rPolarityLow,rRemoteIrr,rLevel,rMasked]

lemma writeLow_remoteIrr :
    (writeLow e v).getLsbD 14 = (e.getLsbD 14 && v.getLsbD 15) := by
  have hlevel : ((e &&& ~~~rWritableLow) ||| (v.setWidth 64 &&& rWritableLow)) &&& rLevel ≠ 0 ↔
      v.getLsbD 15 = true := by
    refine (and_twoPow_ne_zero _ (by decide)).trans ?_
    simp [rWritableLow,rVector,rDeliveryMode,rDestMode,rPolarityLow,rLevel,rMasked]
  simp only [writeLow]
  split_ifs with hedge
  · have hv : v.getLsbD 15 = false := Bool.eq_false_iff.mpr fun h => hlevel.mpr h hedge
    rw [hv,Bool.and_false]
    simp [rRemoteIrr]
  · rw [hlevel.mp hedge,Bool.and_true]
    simp [rWritableLow,rVector,rDeliveryMode,rDestMode,rPolarityLow,rRemoteIrr,rLevel,rMasked]

lemma writeHigh_low {i : ℕ} (hi : i < 32) :
    (writeHigh e v).getLsbD i = e.getLsbD i := by
  have hmask : (0xFFFFFFFF#64).getLsbD i = true := by
    interval_cases i <;> rfl
  rw [writeHigh,getLsbD_or,getLsbD_and,getLsbD_and,getLsbD_shiftLeft,hmask,decide_eq_true hi]
  simp

lemma rewrite_remoteIrr (h : p.RemoteIrr) (hlevel : (p.rewrite v high).Level) :
    (p.rewrite v high).RemoteIrr := by
  rw [remoteIrr_iff] at h ⊢
  rw [level_iff] at hlevel
  cases high with
  | true =>
    show (writeHigh p.entry v).getLsbD 14 = true
    rw [writeHigh_low _ (by decide)]
    exact h
  | false =>
    change (writeLow p.entry v).getLsbD 15 = true at hlevel
    show (writeLow p.entry v).getLsbD 14 = true
    rw [writeLow_level] at hlevel
    rw [writeLow_remoteIrr,h,hlevel]
    rfl

lemma apply_level (hretire : op ≠ .retire (vectorOf p.entry)) (hlevel : (p.apply op).1.Level) :
    (p.RemoteIrr → (p.apply op).1.RemoteIrr ∧ (p.apply op).2 = none) ∧
      ((p.apply op).2.isSome → (p.apply op).1.RemoteIrr) := by
  -- An operation that ends in `service` behaves as the pin does before the service.
  have hservice : ∀ q : Pin, q.service.1.Level → (p.RemoteIrr → q.RemoteIrr) →
      (p.RemoteIrr → q.service.1.RemoteIrr ∧ q.service.2 = none) ∧
        (q.service.2.isSome → q.service.1.RemoteIrr) := by
    intro q hq hkeep
    have hql := service_level.mp hq
    refine ⟨fun hirr => ?_,service_raises hql⟩
    rw [service_of_remoteIrr (hkeep hirr) hql]
    exact ⟨hkeep hirr,rfl⟩
  cases op with
  | idle => exact ⟨fun h => ⟨h,rfl⟩,fun h => nomatch h⟩
  | drive level => exact hservice _ hlevel id
  | write v high =>
    exact hservice _ hlevel fun h => rewrite_remoteIrr h (service_level.mp hlevel)
  | retire vector =>
    have hne : ¬ (p.Level ∧ p.RemoteIrr ∧ vectorOf p.entry = vector) := by
      rintro ⟨-,-,rfl⟩
      exact hretire rfl
    rw [Pin.apply,if_neg hne]
    exact ⟨fun h => ⟨h,rfl⟩,fun h => nomatch h⟩

lemma apply_edge (hedge : ¬ p.Level) (hline : p.line = false) :
    (p.apply (.drive true)).2 = some (vectorOf p.entry) ∨
      (p.apply (.drive true)).1.latch = true := by
  have hlatch : (p.drive true).latch = true := by simp [drive,hedge,hline]
  have hedge' : ¬ (p.drive true).Level := hedge
  rw [Pin.apply,service]
  split_ifs
  · exact Or.inl rfl
  · exact Or.inr hlatch

lemma service_latched (hlatch : p.latch = true) (hedge : ¬ p.Level) :
    (p.service.1.Open → p.service.2 = some (vectorOf p.service.1.entry)) ∧
      (¬ p.service.1.Open → p.service.1.latch = true) := by
  rw [service]
  split_ifs with hopen
  · exact ⟨fun _ => rfl,fun h => absurd hopen h⟩
  · exact ⟨fun h => absurd h hopen,fun _ => hlatch⟩

lemma clear_and {m : BitVec 64} (hm : ~~~rRemoteIrr &&& m = m) :
    (e &&& ~~~rRemoteIrr) &&& m = e &&& m := by
  rw [BitVec.and_assoc,hm]

end

lemma apply_latched (hp : p.Settled) (hlatch : p.latch = true) (hedge : ¬ (p.apply op).1.Level) :
    ((p.apply op).1.Open → (p.apply op).2 = some (vectorOf (p.apply op).1.entry)) ∧
      (¬ (p.apply op).1.Open → (p.apply op).1.latch = true) := by
  have hidle : ¬ p.Level → (p.Open → (none : Option (BitVec 8)) = some (vectorOf p.entry)) ∧
      (¬ p.Open → p.latch = true) := by
    intro hlevel
    refine ⟨fun hopen => ?_,fun _ => hlatch⟩
    rw [hp.empty hopen hlevel] at hlatch
    cases hlatch
  cases op with
  | idle => exact hidle hedge
  | drive level =>
    have hlevel : ¬ (p.drive level).Level := fun h => hedge (service_level.mpr h)
    have hlevel' : ¬ p.Level := hlevel
    refine service_latched ?_ hlevel
    simp [drive,hlevel',hlatch]
  | write v high => exact service_latched hlatch fun h => hedge (service_level.mpr h)
  | retire vector =>
    by_cases hmatch : p.Level ∧ p.RemoteIrr ∧ vectorOf p.entry = vector
    · rw [Pin.apply,if_pos hmatch] at hedge
      refine absurd (service_level.mpr ?_) hedge
      rw [Level,clear_and _ (by decide)]
      exact hmatch.1
    · rw [Pin.apply,if_neg hmatch] at hedge ⊢
      exact hidle hedge

lemma apply_retire (hlevel : p.Level) (hirr : p.RemoteIrr) (hline : p.line = true)
    (hopen : p.Open) : (p.apply (.retire (vectorOf p.entry))).2 = some (vectorOf p.entry) := by
  have hopen' : Open { p with entry := p.entry &&& ~~~rRemoteIrr } := by
    refine ⟨fun hmasked => hopen.1 ?_,?_⟩
    · rw [Masked,clear_and _ (by decide)] at hmasked
      exact hmasked
    · show Routed (p.entry &&& ~~~rRemoteIrr)
      rw [Routed,clear_and _ (by decide)]
      exact hopen.2
  have hlevel' : Level { p with entry := p.entry &&& ~~~rRemoteIrr } := by
    rw [Level,clear_and _ (by decide)]
    exact hlevel
  have hclear : ¬ RemoteIrr { p with entry := p.entry &&& ~~~rRemoteIrr } := by
    rw [remoteIrr_iff]
    show ¬ (p.entry &&& ~~~rRemoteIrr).getLsbD 14 = true
    rw [rRemoteIrr,getLsbD_clear_twoPow _ _ (by decide)]
    simp
  rw [Pin.apply,if_pos ⟨hlevel,hirr,rfl⟩,service,if_pos hopen',if_pos hlevel',
    if_pos ⟨hline,hclear⟩,vectorOf,clear_and _ (by decide)]
  rfl

end Pin

-- The I/O APIC as 24 pins

namespace IoApic

def pin (io : IoApic) (k : ℕ) : Pin :=
  ⟨io.redir k,io.asserted k,io.irr &&& twoPow 32 k ≠ 0⟩

def raisedBy (k : ℕ) (raised : List Raise) : List (BitVec 8) :=
  (raised.filter fun e => e.1 = k).map Prod.snd

/-- `r` is `io` after `act` on pin `i`, which also raises what `act` says. -/
structure OnPin (io : IoApic) (i : ℕ) (act : Pin × Option (BitVec 8)) (r : IoApic × List Raise) :
    Prop where
  own : r.1.pin i = act.1
  raised : r.2 = act.2.toList.map fun v => (i,v)
  other : ∀ k < 32, k ≠ i → r.1.pin k = io.pin k

variable {io io' : IoApic} {i k : ℕ}

lemma asserted_eq (hk : k < 32) : io.asserted k = io.line.getLsbD k := by
  rw [Bool.eq_iff_iff,asserted,decide_eq_true_iff]
  exact and_twoPow_ne_zero _ hk

lemma pin_eq (hk : k < 32) :
    io.pin k = ⟨io.redir k,io.line.getLsbD k,io.irr.getLsbD k⟩ := by
  have hlatch : decide (io.irr &&& twoPow 32 k ≠ 0) = io.irr.getLsbD k := by
    rw [Bool.eq_iff_iff,decide_eq_true_iff]
    exact and_twoPow_ne_zero _ hk
  rw [pin,asserted_eq hk,hlatch]

lemma pin_update (e : BitVec 64) :
    pin { io with redir := Function.update io.redir i e } k =
      if k = i then { io.pin i with entry := e } else io.pin k := by
  split_ifs with h
  · subst h
    simp [pin,asserted]
  · simp [pin,asserted,h]

lemma pin_clearIrr (hi : i < 32) (hk : k < 32) :
    pin { io with irr := io.irr &&& ~~~twoPow 32 i } k =
      if k = i then { io.pin i with latch := false } else io.pin k := by
  rw [pin_eq hk,pin_eq hi,pin_eq hk]
  simp only [getLsbD_clear_twoPow _ _ hi]
  split_ifs with h
  · simp [h]
  · rw [decide_eq_true (Ne.symm h),Bool.and_true]

lemma service_onPin (io : IoApic) (hi : i < 32) : OnPin io i (io.pin i).service (io.service i) := by
  have hself : OnPin io i (io.pin i,none) (io,[]) := ⟨rfl,rfl,fun _ _ _ => rfl⟩
  by_cases hmask : io.redir i &&& rMasked ≠ 0
  · have hclosed : ¬ (io.pin i).Open := fun h => h.1 hmask
    rw [service,if_pos hmask,Pin.service,if_neg hclosed]
    exact hself
  by_cases hroute : Routed (io.redir i)
  swap
  · have hclosed : ¬ (io.pin i).Open := fun h => hroute h.2
    rw [service,if_neg hmask,if_pos hroute,Pin.service,if_neg hclosed]
    exact hself
  have hopen : (io.pin i).Open := ⟨hmask,hroute⟩
  rw [service,if_neg hmask,if_neg (not_not.mpr hroute),Pin.service,if_pos hopen]
  by_cases hlevel : (io.pin i).Level
  · have hlevel' : io.redir i &&& rLevel ≠ 0 := hlevel
    rw [if_pos hlevel',if_pos hlevel]
    by_cases hraise : io.asserted i = true ∧ io.redir i &&& rRemoteIrr = 0
    · have hraise' : (io.pin i).line = true ∧ ¬ (io.pin i).RemoteIrr :=
        ⟨hraise.1,not_not.mpr hraise.2⟩
      rw [if_pos hraise,if_pos hraise']
      refine ⟨?_,rfl,fun k _ hk => ?_⟩
      · rw [pin_update,if_pos rfl]
        rfl
      · rw [pin_update,if_neg hk]
    · have hraise' : ¬ ((io.pin i).line = true ∧ ¬ (io.pin i).RemoteIrr) :=
        fun h => hraise ⟨h.1,not_not.mp h.2⟩
      rw [if_neg hraise,if_neg hraise']
      exact hself
  · have hlevel' : ¬ io.redir i &&& rLevel ≠ 0 := hlevel
    rw [if_neg hlevel',if_neg hlevel]
    by_cases hlatch : io.irr &&& twoPow 32 i ≠ 0
    · have hlatch' : (io.pin i).latch = true := decide_eq_true hlatch
      rw [if_pos hlatch,if_pos hlatch']
      refine ⟨?_,rfl,fun k hk hki => ?_⟩
      · rw [pin_clearIrr hi hi,if_pos rfl]
      · rw [pin_clearIrr hi hk,if_neg hki]
    · have hlatch' : ¬ (io.pin i).latch = true := fun h => hlatch (of_decide_eq_true h)
      rw [if_neg hlatch,if_neg hlatch']
      exact hself

lemma OnPin.service {p : Pin} (hi : i < 32) (hown : io'.pin i = p)
    (hother : ∀ k < 32, k ≠ i → io'.pin k = io.pin k) : OnPin io i p.service (io'.service i) := by
  obtain ⟨h₁,h₂,h₃⟩ := service_onPin io' hi
  rw [hown] at h₁ h₂
  exact ⟨h₁,h₂,fun k hk hki => (h₃ k hk hki).trans (hother k hk hki)⟩

lemma setIrq_onPin (hi : i < pins) (level : Bool) :
    OnPin io i ((io.pin i).apply (.drive level)) (io.setIrq i level) := by
  have hi' : i < 32 := Nat.lt_trans hi (by decide)
  rw [setIrq,if_neg (Nat.not_le.mpr hi)]
  simp only [asserted_eq hi']
  refine OnPin.service hi' ?_ fun k hk hki => ?_
  · have hedge : (io.pin i).Level ↔ ¬ io.redir i &&& rLevel = 0 := Iff.rfl
    rw [Pin.drive,if_congr hedge rfl rfl,pin_eq hi',pin_eq hi']
    by_cases hlevel : io.redir i &&& rLevel = 0
    · simp only [if_pos hlevel,if_neg (not_not.mpr hlevel)]
      cases level <;> cases hwas : io.line.getLsbD i <;>
        simp [hwas,getLsbD_or_twoPow _ _ hi',getLsbD_clear_twoPow _ _ hi']
    · simp only [if_neg hlevel,if_pos hlevel]
      cases level <;> simp [getLsbD_or_twoPow _ _ hi',getLsbD_clear_twoPow _ _ hi']
  · rw [pin_eq hk,pin_eq hk]
    by_cases hlevel : io.redir i &&& rLevel = 0
    · simp only [if_pos hlevel]
      cases level <;> cases hwas : io.line.getLsbD i <;>
        simp [hwas,Ne.symm hki,getLsbD_or_twoPow _ _ hi',getLsbD_clear_twoPow _ _ hi']
    · simp only [if_neg hlevel]
      cases level <;>
        simp [Ne.symm hki,getLsbD_or_twoPow _ _ hi',getLsbD_clear_twoPow _ _ hi']

lemma writeRegister_onPin (v : BitVec 32) (hlo : 0x10 ≤ io.index.toNat)
    (hhi : io.index.toNat < 0x10+48) :
    OnPin io ((io.index.toNat-0x10)/2) ((io.pin ((io.index.toNat-0x10)/2)).apply
        (.write v ((io.index.toNat-0x10)%2 ≠ 0))) (io.writeRegister v) := by
  have hpin : (io.index.toNat-0x10)/2 < 32 := by omega
  rw [writeRegister]
  simp only
  rw [if_neg (by omega),if_pos ⟨hlo,hhi⟩]
  refine OnPin.service hpin ?_ fun k _ hk => ?_
  · rw [pin_update,if_pos rfl]
    by_cases hpar : (io.index.toNat-0x10)%2 = 0
    · simp [Pin.rewrite,hpar,pin]
    · simp [Pin.rewrite,hpar,pin]
  · rw [pin_update,if_neg hk]

lemma eoiPin_onPin (vector : BitVec 8) (s : IoApic × List Raise) (hi : i < 32) :
    ∃ raised, OnPin s.1 i ((s.1.pin i).apply (.retire vector)) ((eoiPin vector s i).1,raised) ∧
      (eoiPin vector s i).2 = s.2 ++ raised := by
  by_cases hmatch : s.1.redir i &&& rLevel ≠ 0 ∧ s.1.redir i &&& rRemoteIrr ≠ 0 ∧
      vectorOf (s.1.redir i) = vector
  · have hmatch' : (s.1.pin i).Level ∧ (s.1.pin i).RemoteIrr ∧
        vectorOf (s.1.pin i).entry = vector := hmatch
    rw [eoiPin,if_pos hmatch,Pin.apply,if_pos hmatch']
    refine ⟨_,OnPin.service hi ?_ fun k _ hk => ?_,rfl⟩
    · rw [pin_update,if_pos rfl]
      rfl
    · rw [pin_update,if_neg hk]
  · have hmatch' : ¬ ((s.1.pin i).Level ∧ (s.1.pin i).RemoteIrr ∧
        vectorOf (s.1.pin i).entry = vector) := hmatch
    rw [eoiPin,if_neg hmatch,Pin.apply,if_neg hmatch']
    exact ⟨[],⟨rfl,rfl,fun _ _ _ => rfl⟩,(append_nil _).symm⟩

lemma raisedBy_append (l l' : List Raise) :
    raisedBy k (l ++ l') = raisedBy k l ++ raisedBy k l' := by
  rw [raisedBy,filter_append,map_append]
  rfl

variable {r : IoApic × List Raise}

lemma OnPin.raisedBy {act : Pin × Option (BitVec 8)}
    (h : OnPin io i act r) : raisedBy k r.2 = if k = i then act.2.toList else [] := by
  rw [h.raised,IoApic.raisedBy]
  cases act.2 with
  | none => split_ifs <;> rfl
  | some v =>
    by_cases hk : k = i
    · simp [hk]
    · simp [hk,Ne.symm hk]

lemma OnPin.pin_or {o : PinOp} (h : OnPin io i ((io.pin i).apply o) r) (hk : k < 32) :
    r.1.pin k = ((io.pin k).apply (if i = k then o else .idle)).1 ∧
      IoApic.raisedBy k r.2 = ((io.pin k).apply (if i = k then o else .idle)).2.toList := by
  rw [h.raisedBy]
  by_cases hik : i = k
  · subst hik
    rw [if_pos rfl,if_pos rfl]
    exact ⟨h.own,rfl⟩
  · rw [if_neg hik,if_neg (Ne.symm hik)]
    exact ⟨h.other k hk (Ne.symm hik),rfl⟩

lemma eoi_pin {vector : BitVec 8} (hk : k < pins) :
    (io.eoi vector).1.pin k = ((io.pin k).apply (.retire vector)).1 ∧
      raisedBy k (io.eoi vector).2 = ((io.pin k).apply (.retire vector)).2.toList := by
  have hfold : ∀ n ≤ pins, ((List.range n).foldl (eoiPin vector) (io,[])).1.pin k =
          (if k < n then ((io.pin k).apply (.retire vector)).1 else io.pin k) ∧
        raisedBy k ((List.range n).foldl (eoiPin vector) (io,[])).2 =
          if k < n then ((io.pin k).apply (.retire vector)).2.toList else [] := by
    intro n hn
    induction n with
    | zero => exact ⟨rfl,rfl⟩
    | succ n ih =>
      obtain ⟨hpin,hraised⟩ := ih (by omega)
      have hk' : k < 32 := Nat.lt_trans hk (by decide)
      have hn' : n < 32 := Nat.lt_of_lt_of_le hn (by decide)
      rw [range_succ,foldl_append,foldl_cons,foldl_nil]
      obtain ⟨raised,hon,hall⟩ := eoiPin_onPin vector
        ((List.range n).foldl (eoiPin vector) (io,[])) hn'
      have hown := hon.raisedBy (k := k)
      rw [hall,raisedBy_append,hraised]
      by_cases hkn : k = n
      · subst hkn
        rw [if_neg (lt_irrefl k)] at hpin
        rw [if_pos rfl,hpin] at hown
        rw [if_neg (lt_irrefl k),if_pos (Nat.lt_succ_self k),if_pos (Nat.lt_succ_self k),
          nil_append,hon.own,hpin]
        exact ⟨rfl,hown⟩
      · rw [if_neg hkn] at hown
        have hlt : k < n+1 ↔ k < n := by omega
        rw [hon.other k hk' hkn,hpin,hown,append_nil,if_congr hlt rfl rfl,if_congr hlt rfl rfl]
        exact ⟨rfl,rfl⟩
  have h := hfold pins le_rfl
  rw [if_pos hk,if_pos hk] at h
  exact h

end IoApic

-- Runs of the platform

namespace Platform

inductive Op where
  | setGsi (pin : ℕ) (level : Bool)
  | ioapicWrite (off size : ℕ) (value : BitVec 64)
  | lapicWrite (off size : ℕ) (value : BitVec 64) (now : ℕ)
  | ack

section
variable (p : Platform)

def apply : Op → Platform × List Raise
  | .setGsi pin level => p.setGsi pin level
  | .ioapicWrite off size value => p.ioapicWrite off size value
  | .lapicWrite off size value now => p.lapicWrite off size value now
  | .ack => ({ p with lapic := p.lapic.ack.2 },[])

def pin (k : ℕ) : Pin := p.ioapic.pin k

def retired : Op → Option (BitVec 8)
  | .lapicWrite off size value now => (p.lapic.write off size value now).1
  | _ => none

def pinOp (k : ℕ) : Op → PinOp
  | .setGsi pin level => if pin = k then .drive level else .idle
  | .ioapicWrite off size value =>
    let i := p.ioapic.index.toNat
    if size = 4 ∧ off/16 = 1 ∧ 0x10 ≤ i ∧ i < 0x10+48 ∧ (i-0x10)/2 = k then
      .write (value.setWidth 32) ((i-0x10)%2 ≠ 0)
    else .idle
  | .lapicWrite off size value now =>
    match (p.lapic.write off size value now).1 with
    | some vector => .retire vector
    | none => .idle
  | .ack => .idle

end
variable {p q : Platform} {k : ℕ} {op : Op}

lemma apply_pin (p : Platform) (op : Op) (hk : k < pins) :
    (p.apply op).1.pin k = ((p.pin k).apply (p.pinOp k op)).1 ∧
      raisedBy k (p.apply op).2 = ((p.pin k).apply (p.pinOp k op)).2.toList := by
  have hk' : k < 32 := Nat.lt_trans hk (by decide)
  cases op with
  | setGsi pin level =>
    by_cases hpin : pin < pins
    · exact (setIrq_onPin hpin level).pin_or hk'
    · have hne : pin ≠ k := by
        rintro rfl
        exact hpin hk
      have hself : p.ioapic.setIrq pin level = (p.ioapic,[]) := if_pos (Nat.not_lt.mp hpin)
      simp only [apply,setGsi,deliver,hself,pinOp,if_neg hne]
      exact ⟨rfl,rfl⟩
  | ioapicWrite off size value =>
    by_cases hwin : size = 4 ∧ off/16 = 1
    · obtain ⟨rfl,hoff⟩ := hwin
      have hwrite : p.ioapic.write off 4 value = p.ioapic.writeRegister (value.setWidth 32) := by
        rw [IoApic.write,if_neg (by decide)]
        simp only [hoff,if_true]
        rfl
      by_cases hreg : 0x10 ≤ p.ioapic.index.toNat ∧ p.ioapic.index.toNat < 0x10+48
      · have h := (writeRegister_onPin (value.setWidth 32) hreg.1 hreg.2).pin_or hk'
        simp only [apply,ioapicWrite,deliver,hwrite,pinOp,hoff,hreg.1,hreg.2,true_and]
        exact h
      · have hself : (p.ioapic.writeRegister (value.setWidth 32)).2 = [] ∧
            (p.ioapic.writeRegister (value.setWidth 32)).1.pin k = p.ioapic.pin k := by
          rw [writeRegister]
          simp only [if_neg hreg]
          split_ifs <;> exact ⟨rfl,rfl⟩
        have hidle : p.pinOp k (.ioapicWrite off 4 value) = .idle := by
          simp only [pinOp]
          rw [if_neg]
          rintro ⟨-,-,h1,h2,-⟩
          exact hreg ⟨h1,h2⟩
        rw [hidle]
        simp only [apply,ioapicWrite,deliver,hwrite,hself.1]
        exact ⟨hself.2,rfl⟩
    · have hself : (p.ioapic.write off size value).2 = [] ∧
          (p.ioapic.write off size value).1.pin k = p.ioapic.pin k := by
        rw [IoApic.write]
        split_ifs with h1 h2 h3
        · exact ⟨rfl,rfl⟩
        · exact ⟨rfl,rfl⟩
        · exact absurd ⟨not_not.mp h1,h3⟩ hwin
        · exact ⟨rfl,rfl⟩
      have hidle : p.pinOp k (.ioapicWrite off size value) = .idle := by
        simp only [pinOp]
        rw [if_neg]
        rintro ⟨h1,h2,-⟩
        exact hwin ⟨h1,h2⟩
      rw [hidle]
      simp only [apply,ioapicWrite,deliver,hself.1]
      exact ⟨hself.2,rfl⟩
  | lapicWrite off size value now =>
    simp only [apply,lapicWrite,pinOp]
    cases (p.lapic.write off size value now).1 with
    | none => exact ⟨rfl,rfl⟩
    | some vector => exact eoi_pin hk
  | ack => exact ⟨rfl,rfl⟩

lemma deliver_requests {r : IoApic × List Raise} {e : Raise} (he : e ∈ r.2) :
    (p.deliver r).1.lapic.irr.getLsbD e.2.toNat = true := by
  have hset : ∀ (raised : List Raise) (l : Lapic), (l.irr.getLsbD e.2.toNat = true ∨ e ∈ raised) →
        (raised.foldl (fun l e => l.raise e.2) l).irr.getLsbD e.2.toNat = true := by
    intro raised
    induction raised with
    | nil => exact fun l h => h.resolve_right (by simp)
    | cons x raised ih =>
      intro l h
      refine ih (l.raise x.2) ?_
      rw [Lapic.raise,getLsbD_or_twoPow _ _ x.2.isLt]
      obtain h | h := h
      · exact Or.inl (by rw [h,Bool.true_or])
      · obtain rfl | h := mem_cons.mp h
        · exact Or.inl (by simp)
        · exact Or.inr h
  exact hset r.2 p.lapic (Or.inr he)

lemma apply_requests {e : Raise} (he : e ∈ (p.apply op).2) :
    (p.apply op).1.lapic.irr.getLsbD e.2.toNat = true := by
  cases op with
  | setGsi pin level => exact deliver_requests he
  | ioapicWrite off size value => exact deliver_requests he
  | lapicWrite off size value now =>
    simp only [apply,lapicWrite] at he ⊢
    split at he
    · exact deliver_requests he
    · cases he
  | ack => cases he

variable {raised : List Raise} {v : BitVec 8}

lemma mem_raisedBy :
    v ∈ raisedBy k raised ↔ (k,v) ∈ raised := by
  simp [raisedBy]

lemma mem_apply (hk : k < pins)
    (h : ((p.pin k).apply (p.pinOp k op)).2 = some v) : (k,v) ∈ (p.apply op).2 := by
  rw [← mem_raisedBy,(apply_pin _ _ hk).2,h]
  exact mem_singleton_self v

inductive Reachable : Platform → Prop
  | new (tscHz : ℕ) : Reachable (new tscHz)
  | step {p : Platform} (op : Op) : Reachable p → Reachable (p.apply op).1

lemma Reachable.settled (h : Reachable p) (hk : k < pins) : (p.pin k).Settled := by
  induction h with
  | new tscHz =>
    have hmasked : ¬ ((Platform.new tscHz).pin k).Open := fun hopen =>
      hopen.1 (by decide : rMasked &&& rMasked ≠ 0)
    exact ⟨fun h => absurd h hmasked,fun h => absurd h hmasked⟩
  | @step p op _ ih =>
    rw [(apply_pin _ _ hk).1]
    exact ih.apply

/-- A run whose steps all meet `C`, with the vectors raised on the way. -/
inductive Steps (C : Platform → Op → Prop) : Platform → List Raise → Platform → Prop
  | nil (p : Platform) : Steps C p [] p
  | snoc {p q : Platform} {raised : List Raise} {op : Op} : Steps C p raised q → C q op →
      Steps C p (raised ++ (q.apply op).2) (q.apply op).1

/-- The step leaves pin `k` in level mode and is no end of interrupt of its vector. -/
def StaysRaised (k : ℕ) (p : Platform) (op : Op) : Prop :=
  ((p.apply op).1.pin k).Level ∧ p.retired op ≠ some (vectorOf (p.pin k).entry)

/-- The step leaves pin `k` in edge mode, and masked or without a routed delivery mode. -/
def StaysClosed (k : ℕ) (p : Platform) (op : Op) : Prop :=
  ¬ ((p.apply op).1.pin k).Level ∧ ¬ ((p.apply op).1.pin k).Open

lemma pinOp_retire : p.pinOp k op = .retire v ↔ p.retired op = some v := by
  cases op with
  | setGsi pin level =>
    simp only [pinOp,retired]
    split_ifs <;> simp
  | ioapicWrite off size value =>
    simp only [pinOp,retired]
    split_ifs <;> simp
  | lapicWrite off size value now =>
    simp only [pinOp,retired]
    cases (p.lapic.write off size value now).1 <;> simp
  | ack => simp [pinOp,retired]

lemma Steps.raises_once (hk : k < pins) (h : Steps (StaysRaised k) p raised q) :
    ((p.pin k).RemoteIrr → (q.pin k).RemoteIrr ∧ raisedBy k raised = []) ∧
      (raisedBy k raised = [] ∨ ((q.pin k).RemoteIrr ∧ (raisedBy k raised).length = 1)) := by
  induction h with
  | nil => exact ⟨fun h => ⟨h,rfl⟩,Or.inl rfl⟩
  | @snoc q raised op _ hstep ih =>
    obtain ⟨hlevel,hret⟩ := hstep
    obtain ⟨hpin,hevents⟩ := apply_pin q op hk
    rw [hpin] at hlevel
    obtain ⟨hkeep,hraise⟩ := Pin.apply_level (fun h => hret (pinOp_retire.mp h)) hlevel
    rw [raisedBy_append,hevents,hpin]
    obtain ⟨hstart,hcount⟩ := ih
    refine ⟨fun h => ?_,?_⟩
    · obtain ⟨hirr,hnil⟩ := hstart h
      obtain ⟨hirr',hnone⟩ := hkeep hirr
      rw [hnil,hnone]
      exact ⟨hirr',rfl⟩
    · obtain hnil | ⟨hirr,hone⟩ := hcount
      · rw [hnil,nil_append]
        cases hv : ((q.pin k).apply (q.pinOp k op)).2 with
        | none => exact Or.inl rfl
        | some v => exact Or.inr ⟨hraise (by rw [hv]; rfl),rfl⟩
      · obtain ⟨hirr',hnone⟩ := hkeep hirr
        rw [hnone]
        exact Or.inr ⟨hirr',by simpa using hone⟩

lemma Steps.stays_latched (hk : k < pins) (hp : Reachable p)
    (h : Steps (StaysClosed k) p raised q) (hlatch : (p.pin k).latch = true) :
    Reachable q ∧ (q.pin k).latch = true := by
  induction h with
  | nil => exact ⟨hp,hlatch⟩
  | @snoc q raised op _ hstep ih =>
    obtain ⟨hedge,hclosed⟩ := hstep
    refine ⟨Reachable.step op ih.1,?_⟩
    rw [(apply_pin _ _ hk).1] at hedge hclosed ⊢
    exact (Pin.apply_latched (ih.1.settled hk) ih.2 hedge).2 hclosed

structure LosesNothing (p : Platform) : Prop where
  served : ∀ k < pins, (p.pin k).Open → (p.pin k).Level → (p.pin k).line = true →
    (p.pin k).RemoteIrr
  requested : ∀ op, ∀ e ∈ (p.apply op).2, (p.apply op).1.lapic.irr.getLsbD e.2.toNat = true
  once : ∀ k < pins, ∀ raised q, Steps (StaysRaised k) p raised q → (raisedBy k raised).length ≤ 1
  edge : ∀ k < pins, ¬ (p.pin k).Level → (p.pin k).line = false →
    (k,vectorOf (p.pin k).entry) ∈ (p.apply (.setGsi k true)).2 ∨
      ((p.apply (.setGsi k true)).1.pin k).latch = true
  waits : ∀ k < pins, (p.pin k).latch = true → ∀ raised q, Steps (StaysClosed k) p raised q →
    (q.pin k).latch = true
  opens : ∀ k < pins, (p.pin k).latch = true → ∀ op, ¬ ((p.apply op).1.pin k).Level →
    ((p.apply op).1.pin k).Open → (k,vectorOf ((p.apply op).1.pin k).entry) ∈ (p.apply op).2
  again : ∀ op v, p.retired op = some v → ∀ k < pins, (p.pin k).Level → (p.pin k).RemoteIrr →
    vectorOf (p.pin k).entry = v → (p.pin k).line = true → (p.pin k).Open → (k,v) ∈ (p.apply op).2

/-- In every reachable state nothing is lost. -/
theorem run_loses_nothing (h : Reachable p) : LosesNothing p := by
  refine ⟨?_,?_,?_,?_,?_,?_,?_⟩
  · exact fun k hk => (h.settled hk).served
  · exact fun op e he => apply_requests he
  · intro k hk raised q hsteps
    obtain hnil | ⟨-,hone⟩ := (hsteps.raises_once hk).2
    · rw [hnil]
      exact Nat.zero_le 1
    · exact hone.le
  · intro k hk hedge hline
    have hop : p.pinOp k (.setGsi k true) = .drive true := if_pos rfl
    refine (Pin.apply_edge hedge hline).imp (fun hraise => ?_) fun hlatch => ?_
    · refine mem_apply hk ?_
      rw [hop]
      exact hraise
    · rw [(apply_pin _ _ hk).1,hop]
      exact hlatch
  · exact fun k hk hlatch raised q hsteps => (hsteps.stays_latched hk h hlatch).2
  · intro k hk hlatch op hedge hopen
    rw [(apply_pin _ _ hk).1] at hedge hopen ⊢
    exact mem_apply hk ((Pin.apply_latched (h.settled hk) hlatch hedge).1 hopen)
  · rintro op v hret k hk hlevel hirr rfl hline hopen
    refine mem_apply hk ?_
    rw [pinOp_retire.mpr hret]
    exact Pin.apply_retire hlevel hirr hline hopen

def accepted : Platform :=
  let p := ((new 1).apply (.lapicWrite 0xF0 4 0x1FF 0)).1
  let p := (p.apply (.ioapicWrite 0x00 4 0x1A)).1
  let p := (p.apply (.ioapicWrite 0x10 4 0x8030)).1
  let p := (p.apply (.setGsi 5 true)).1
  (p.apply .ack).1

lemma accepted_reachable : Reachable accepted :=
  (((((Reachable.new 1).step _).step _).step _).step _).step _

theorem run_loses_nothing_accepted :
    accepted.retired (.lapicWrite 0xB0 4 0 0) = some 0x30 ∧ LosesNothing accepted :=
  ⟨by decide +kernel,run_loses_nothing accepted_reachable⟩

/-- An end of interrupt does not raise an unmasked, asserted level pin with Remote IRR set whose
delivery mode was changed to one that is not routed. -/
theorem eoi_skips_unrouted_pin : ∃ p, Reachable p ∧
    p.retired (.lapicWrite 0xB0 4 0 0) = some 0x30 ∧ (p.pin 5).Level ∧ (p.pin 5).RemoteIrr ∧
      ¬ (p.pin 5).Masked ∧ vectorOf (p.pin 5).entry = 0x30 ∧ (p.pin 5).line = true ∧
      (p.apply (.lapicWrite 0xB0 4 0 0)).2 = [] := by
  refine ⟨(accepted.apply (.ioapicWrite 0x10 4 0x8430)).1,accepted_reachable.step _,?_⟩
  decide +kernel

end Platform
end Enlil.Boot
