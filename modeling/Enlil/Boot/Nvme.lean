import Enlil.Boot.Nvme.Engine

/-! # The queues of the NVMe controller keep their order -/

namespace Enlil.Boot
open Nvme List Nat Function Option Le GuestMemory Command
namespace Nvme

def Sq.At (k : ℕ) (sq : Sq) : Prop := sq.head = k%sq.size

/-- The tail and the phase after `k` entries were posted: the phase is set on even laps. -/
def Cq.At (k : ℕ) (cq : Cq) : Prop :=
  cq.tail = k%cq.size ∧ cq.phase = decide (k/cq.size%2 = 0)

def Cq.waiting (cq : Cq) : ℕ := (cq.tail+cq.size-cq.head)%cq.size

def Cq.Unconsumed (cq : Cq) (slot : ℕ) : Prop :=
  (slot+cq.size-cq.head)%cq.size < cq.waiting

variable {base size cqid k : ℕ}

lemma Sq.at_new (h : 0 < size) : (Sq.new base size cqid h).At 0 :=
  (zero_mod size).symm

lemma Cq.at_new {ien : Bool} (h : 0 < size) : (Cq.new base size ien h).At 0 := by
  refine ⟨(zero_mod size).symm,?_⟩
  show true = decide (0/size%2 = 0)
  rw [Nat.zero_div]
  rfl

lemma Sq.At.fetch {sq : Sq} (h : sq.At k) : sq.fetch.At (k+1) := by
  show (sq.head+1)%sq.size = (k+1)%sq.size
  rw [show sq.head = k%sq.size from h,mod_add_mod]

lemma Cq.At.post {cq : Cq} (h : cq.At k) : cq.post.At (k+1) := by
  obtain ⟨htail,hphase⟩ := h
  have hpos : 0 < cq.size := zero_lt_of_lt cq.tail_lt
  have hk : k+1 = cq.size*(k/cq.size)+(cq.tail+1) := by
    have := div_add_mod k cq.size
    omega
  unfold Cq.post
  split
  · next hwrap =>
    have hnext : k+1 = cq.size*(k/cq.size+1) := by rw [hk,hwrap,Nat.mul_succ]
    refine ⟨?_,?_⟩
    · show 0 = (k+1)%cq.size
      rw [hnext,mul_mod_right]
    · show (!cq.phase) = decide ((k+1)/cq.size%2 = 0)
      rw [hnext,Nat.mul_div_cancel_left _ hpos,hphase,← decide_not,decide_eq_decide]
      omega
  · next hwrap =>
    have hlt : cq.tail+1 < cq.size := Nat.lt_of_le_of_ne cq.tail_lt hwrap
    refine ⟨?_,?_⟩
    · show cq.tail+1 = (k+1)%cq.size
      rw [hk,mul_add_mod,mod_eq_of_lt hlt]
    · show cq.phase = decide ((k+1)/cq.size%2 = 0)
      rw [hk,mul_add_div hpos,div_eq_of_lt hlt,add_zero,hphase]

/-- An entry that is posted while there is room is one more for the guest: no entry that it has
not consumed goes. -/
lemma Cq.waiting_post {cq : Cq} (h : cq.isFull = false) : cq.post.waiting = cq.waiting+1 := by
  have hhead := cq.head_lt
  have htail := cq.tail_lt
  have hroom : (cq.tail+1)%cq.size ≠ cq.head := of_decide_eq_false h
  unfold Cq.post
  split
  · next hwrap =>
    rw [hwrap,mod_self] at hroom
    show (0+cq.size-cq.head)%cq.size = (cq.tail+cq.size-cq.head)%cq.size+1
    rw [ring_distance hhead (by omega),ring_distance hhead htail]
    split_ifs <;> omega
  · next hwrap =>
    rw [mod_eq_of_lt (by omega)] at hroom
    show (cq.tail+1+cq.size-cq.head)%cq.size = (cq.tail+cq.size-cq.head)%cq.size+1
    rw [ring_distance hhead (by omega),ring_distance hhead htail]
    split_ifs <;> omega

def entrySqid (entry : List UInt8) : ℕ := Le.toNat ((entry.drop 10).take 2)

def entryCid (entry : List UInt8) : ℕ := Le.toNat ((entry.drop 12).take 2)

def entryPhase (entry : List UInt8) : Bool := (Le.toNat (entry.drop 14)).testBit 0

lemma Command.parse_cid_lt (raw : List UInt8) : (parse raw).cid < 2^16 := by
  have hlt := toNat_lt ((raw.drop 2).take 2)
  have hlen : ((raw.drop 2).take 2).length ≤ 2 := length_take_le _ _
  calc (parse raw).cid < 2^(8*((raw.drop 2).take 2).length) := hlt
    _ ≤ 2^16 := Nat.pow_le_pow_right (by decide) (by omega)

end Nvme
namespace NvmeDevice
section Entry
variable (qid sqHead cid : ℕ) (out : Outcome) (phase : Bool)

lemma length_completionEntry : (completionEntry qid sqHead cid out phase).length = 16 := by
  simp only [completionEntry,length_append,length_bytes]

lemma entrySqid_completionEntry (h : qid < 2^16) :
    entrySqid (completionEntry qid sqHead cid out phase) = qid := by
  rw [entrySqid,completionEntry,List.append_assoc,List.append_assoc,
    drop_left' (by simp only [length_append,length_bytes]),
    take_left' (length_bytes _ _),toNat_bytes]
  exact mod_eq_of_lt h

lemma entryCid_completionEntry (h : cid < 2^16) :
    entryCid (completionEntry qid sqHead cid out phase) = cid := by
  rw [entryCid,completionEntry,List.append_assoc,
    drop_left' (by simp only [length_append,length_bytes]),
    take_left' (length_bytes _ _),toNat_bytes]
  exact mod_eq_of_lt h

lemma testBit_statusField (code : ℕ) (dnr : Bool) : (statusField code dnr).testBit 0 = false := by
  cases dnr <;> simp [statusField]

lemma entryPhase_completionEntry :
    entryPhase (completionEntry qid sqHead cid out phase) = phase := by
  rw [entryPhase,completionEntry,
    drop_left' (by simp only [length_append,length_bytes]),toNat_bytes,
    show 256^2 = 2^16 from rfl,testBit_mod_two_pow,testBit_or,testBit_statusField]
  cases phase <;> rfl

end Entry
variable {β : Type} {d d' : NvmeDevice β}

/-- Commands taken from each submission queue and entries posted on each completion queue,
since the queue was created. -/
structure Counts where
  taken : ℕ → ℕ
  posted : ℕ → ℕ

def Counts.zero : Counts := ⟨fun _ => 0,fun _ => 0⟩

def Event.takes (q : ℕ) : Event β → ℕ
  | .wrote _ => 0
  | .ran st => if st.qid = q then 1 else 0

def Event.posts (c : ℕ) : Event β → ℕ
  | .wrote _ => 0
  | .ran st => st.posted.elim 0 fun p => if p.cqid = c then 1 else 0

def ifExists {α : Type} (o : Option α) (k : ℕ) : ℕ := o.elim 0 fun _ => k

def Counts.next (n : Counts) (e : Event β) : Counts where
  taken q := ifExists (e.after.sqs q) (n.taken q+e.takes q)
  posted c := ifExists (e.after.cqs c) (n.posted c+e.posts c)

def Counts.run (n : Counts) (log : List (Event β)) : Counts := log.foldl Counts.next n

/-- The counts say where the queues are, and every submission queue has its completion queue. -/
structure Tracks (taken posted : ℕ → ℕ) (sqs : ℕ → Option Sq) (cqs : ℕ → Option Cq) : Prop where
  linked : ∀ q sq, sqs q = some sq → q ≤ ioQueuesMax ∧ ∃ cq, cqs sq.cqid = some cq
  sq_none : ∀ q, sqs q = none → taken q = 0
  sq_at : ∀ q sq, sqs q = some sq → sq.At (taken q)
  cq_none : ∀ c, cqs c = none → posted c = 0
  cq_at : ∀ c cq, cqs c = some cq → cq.At (posted c)

section Tracks
variable {taken posted : ℕ → ℕ} {sqs sqs' : ℕ → Option Sq} {cqs cqs' : ℕ → Option Cq} {q c : ℕ}
  {sq : Sq} {cq : Cq}
section
variable (h : Tracks taken posted sqs cqs)
include h

lemma Tracks.setSq {k : ℕ} (hq : q ≤ ioQueuesMax)
    (hcq : ∃ cq, cqs sq.cqid = some cq) (hat : sq.At k) :
    Tracks (update taken q k) posted (update sqs q (some sq)) cqs where
  linked q' sq' hq' := by
    by_cases hne : q' = q
    · subst hne
      rw [update_self] at hq'
      cases hq'
      exact ⟨hq,hcq⟩
    · rw [update_of_ne hne] at hq'
      exact h.linked q' sq' hq'
  sq_none q' hq' := by
    by_cases hne : q' = q
    · subst hne
      rw [update_self] at hq'
      cases hq'
    · rw [update_of_ne hne] at hq' ⊢
      exact h.sq_none q' hq'
  sq_at q' sq' hq' := by
    by_cases hne : q' = q
    · subst hne
      rw [update_self] at hq' ⊢
      cases hq'
      exact hat
    · rw [update_of_ne hne] at hq' ⊢
      exact h.sq_at q' sq' hq'
  cq_none := h.cq_none
  cq_at := h.cq_at

lemma Tracks.setCq {k : ℕ} (hat : cq.At k) :
    Tracks taken (update posted c k) sqs (update cqs c (some cq)) where
  linked q sq hq := by
    obtain ⟨hle,cq',hcq'⟩ := h.linked q sq hq
    refine ⟨hle,?_⟩
    by_cases hne : sq.cqid = c
    · exact ⟨_,by rw [hne,update_self]⟩
    · exact ⟨cq',by rwa [update_of_ne hne]⟩
  sq_none := h.sq_none
  sq_at := h.sq_at
  cq_none c' hc' := by
    by_cases hne : c' = c
    · subst hne
      rw [update_self] at hc'
      cases hc'
    · rw [update_of_ne hne] at hc' ⊢
      exact h.cq_none c' hc'
  cq_at c' cq' hc' := by
    by_cases hne : c' = c
    · subst hne
      rw [update_self] at hc' ⊢
      cases hc'
      exact hat
    · rw [update_of_ne hne] at hc' ⊢
      exact h.cq_at c' cq' hc'

lemma Tracks.replaceSq (hq : q ≤ ioQueuesMax)
    (hcq : ∃ cq, cqs sq.cqid = some cq) (hat : sq.At (taken q)) :
    Tracks taken posted (update sqs q (some sq)) cqs := by
  have hset := h.setSq hq hcq hat
  rwa [update_eq_self] at hset

lemma Tracks.replaceCq (hat : cq.At (posted c)) :
    Tracks taken posted sqs (update cqs c (some cq)) := by
  have hset := h.setCq (c := c) hat
  rwa [update_eq_self] at hset

lemma Tracks.restart :
    Tracks (fun q => ifExists (sqs q) (taken q)) (fun c => ifExists (cqs c) (posted c)) sqs cqs := by
  have hexists : ∀ {α : Type} {o : Option α} {k : ℕ}, (o = none → k = 0) → ifExists o k = k := by
    intro α o k hk
    cases o with
    | none => exact (hk rfl).symm
    | some a => rfl
  rwa [show (fun q => ifExists (sqs q) (taken q)) = taken from
      funext fun q => hexists (h.sq_none q),
    show (fun c => ifExists (cqs c) (posted c)) = posted from
      funext fun c => hexists (h.cq_none c)]

lemma Tracks.changes (hc : Changes sqs cqs sqs' cqs') :
    Tracks (fun q => ifExists (sqs' q) (taken q)) (fun c => ifExists (cqs' c) (posted c))
      sqs' cqs' := by
  cases hc with
  | same => exact h.restart
  | createCq qid base size ien hpos hfree =>
    exact (h.replaceCq ((h.cq_none qid hfree).symm ▸ Cq.at_new hpos)).restart
  | createSq qid base size cqid hpos hqid hfree hcqid =>
    exact (h.replaceSq hqid (isSome_iff_exists.mp hcqid)
      ((h.sq_none qid hfree).symm ▸ Sq.at_new hpos)).restart
  | deleteSq qid hqid =>
    have hold : ∀ {q sq}, update sqs qid none q = some sq → sqs q = some sq := by
      intro q sq hsq
      by_cases hne : q = qid
      · subst hne
        rw [update_self] at hsq
        cases hsq
      · rwa [update_of_ne hne] at hsq
    refine ⟨fun q sq hsq => h.linked q sq (hold hsq),fun q hq => by rw [hq]; rfl,
      fun q sq hsq => ?_,h.restart.cq_none,h.restart.cq_at⟩
    rw [hsq]
    exact h.sq_at q sq (hold hsq)
  | deleteCq qid hqid hunused =>
    refine ⟨fun q sq hsq => ?_,h.restart.sq_none,h.restart.sq_at,fun c hc => by rw [hc]; rfl,
      fun c cq hcq => ?_⟩
    · obtain ⟨hle,cq',hcq'⟩ := h.linked q sq hsq
      exact ⟨hle,cq',by rwa [update_of_ne (hunused q hle sq hsq)]⟩
    · rw [hcq]
      by_cases hne : c = qid
      · subst hne
        rw [update_self] at hcq
        cases hcq
      · rw [update_of_ne hne] at hcq
        exact h.cq_at c cq hcq

end
end Tracks

/-- The counts fit the controller, and a controller that is not enabled has no queues. -/
structure Inv (n : Counts) (d : NvmeDevice β) : Prop where
  tracks : Tracks n.taken n.posted d.sqs d.cqs
  disabled : d.regs.cc &&& 1 = 0 → (∀ q, d.sqs q = none) ∧ ∀ c, d.cqs c = none

def Writable (m : GuestMemory) (addr : ℕ) : Prop :=
  addr+16 ≤ 2^64 ∧ m.ok addr 14 = true ∧ m.ok (addr+14) 2 = true

/-- What a guest can rely on when a command of queue `sq` runs, with completion queue `cq`. -/
structure Correct (n : Counts) (st : Step β) (sq : Sq) (cq : Cq) : Prop where
  sq_eq : st.before.sqs st.qid = some sq
  cq_eq : st.before.cqs sq.cqid = some cq
  head_eq : sq.head = n.taken st.qid%sq.size
  waiting : sq.head ≠ sq.tail
  fetched : st.fetched = (st.memBefore.read (Word.add64 sq.base (sq.head*64)) 64).map Command.parse
  held_iff : st.held = true ↔ st.before.Accepted st.qid st.fetched
  held : st.held = true → st.posted = none
  posted : st.held = false → ∃ entry, st.posted = some ⟨sq.cqid,cq.tail,entry⟩ ∧
    entrySqid entry = st.qid ∧
    entryCid entry = st.fetched.elim 0 (·.cid) ∧
    cq.tail = n.posted sq.cqid%cq.size ∧
    entryPhase entry = decide (n.posted sq.cqid/cq.size%2 = 0) ∧
    ¬ cq.Unconsumed cq.tail ∧
    st.after.cqs sq.cqid = some cq.post ∧
    cq.post.waiting = cq.waiting+1 ∧
    (Writable st.memBefore (cq.slotAddr cq.tail) →
      ∀ i < 16, st.mem.byte (cq.slotAddr cq.tail+i) = entry.getD i 0)

lemma byte_of_writes {m : GuestMemory} {addr : ℕ} {entry : List UInt8} (h : Writable m addr)
    (hlen : entry.length = 16) {i : ℕ} (hi : i < 16) :
    ((m.tryWrite addr (entry.take 14)).tryWrite (Word.add64 addr 14) (entry.drop 14)).byte
      (addr+i) = entry.getD i 0 := by
  obtain ⟨hle,hbody,hstatus⟩ := h
  have haddr : Word.add64 addr 14 = addr+14 := mod_eq_of_lt (by omega)
  have hlen14 : (entry.take 14).length = 14 := by rw [length_take]; omega
  have hlen2 : (entry.drop 14).length = 2 := by rw [length_drop]; omega
  rw [haddr,tryWrite,tryWrite,write,write,
    hlen14,if_pos hbody,getD_some,hlen2,if_pos hstatus,getD_some]
  by_cases hin : i < 14
  · simp only
    rw [if_neg (by omega),if_pos (by omega),Nat.add_sub_cancel_left,
      getD_eq_getElem _ _ (by omega),getElem_take,getD_eq_getElem _ _ (by omega)]
  · simp only
    rw [if_pos (by omega),show addr+i-(addr+14) = i-14 by omega,
      getD_eq_getElem _ _ (by omega),getElem_drop,getD_eq_getElem _ _ (by omega)]
    congr 1
    omega

variable [BlockBackend β] {n : Counts} {m m' : GuestMemory} {st : Step β} {qid : ℕ}

lemma fetched_cid_lt {r : Option (List UInt8)} : (r.map parse).elim 0 (·.cid) < 2^16 := by
  cases r with
  | none => decide
  | some raw => exact parse_cid_lt raw

lemma stepQueue_correct (hinv : Inv n d) (hq : qid ≤ ioQueuesMax)
    (h : d.stepQueue m qid = some st) :
    Inv (n.next (.ran st)) st.after ∧ ∃ sq cq, Correct n st sq cq := by
  obtain ⟨sq,cq,sqs,cqs,m₁,hst⟩ := stepQueue_spec hq h
  obtain ⟨rfl,hbefore,hmem,hsq,hcq,hwaiting,hroom,hfetched,hchanges,hkept,hok,hsqs,
    hregs,hheldIff,hheld,hdone⟩ := hst
  have hlinked : ∃ cq, d.cqs sq.fetch.cqid = some cq := (hinv.tracks.linked _ _ hsq).2
  have hfetch : sq.fetch.At (n.taken st.qid+1) := (hinv.tracks.sq_at _ _ hsq).fetch
  have htracks := (hinv.tracks.setSq hq hlinked hfetch).changes hchanges
  have hat := hinv.tracks.cq_at _ _ hcq
  have hdisabled : st.after.regs.cc &&& 1 = 0 →
      (∀ q, st.after.sqs q = none) ∧ ∀ c, st.after.cqs c = none := by
    intro hoff
    rw [hregs] at hoff
    rw [(hinv.disabled hoff).1] at hsq
    cases hsq
  have htaken : ∀ q, ifExists (st.after.sqs q) (n.taken q+if st.qid = q then 1 else 0) =
      ifExists (sqs q) (update n.taken st.qid (n.taken st.qid+1) q) := by
    intro q
    rw [hsqs]
    by_cases hne : q = st.qid
    · rw [if_pos hne.symm,hne,update_self]
    · rw [if_neg fun h => hne h.symm,update_of_ne hne,add_zero]
  cases hheldCase : st.held with
  | true =>
    obtain ⟨hposted,hcqs⟩ := hheld hheldCase
    refine ⟨⟨?_,hdisabled⟩,sq,cq,?_⟩
    · rw [hsqs,hcqs]
      convert htracks using 1
      · exact funext htaken
      · funext c
        show ifExists (st.after.cqs c) (n.posted c+st.posted.elim 0 _) = _
        rw [hcqs,hposted]
        rfl
    · subst hbefore hmem
      refine ⟨hsq,hcq,hinv.tracks.sq_at _ _ hsq,hwaiting,hfetched,hheldIff,
        fun _ => hposted,fun hf => ?_⟩
      rw [hheldCase] at hf
      cases hf
  | false =>
    obtain ⟨hcqs,sqHead,out,hposted,hwritten⟩ := hdone hheldCase
    refine ⟨⟨?_,hdisabled⟩,sq,cq,?_⟩
    · rw [hsqs,hcqs]
      convert htracks.setCq (c := sq.cqid) hat.post using 1
      · exact funext htaken
      · funext c
        show ifExists (st.after.cqs c) (n.posted c+st.posted.elim 0 _) = _
        rw [hcqs,hposted,elim_some]
        by_cases hne : c = sq.cqid
        · rw [hne,update_self,update_self,if_pos rfl]
          rfl
        · rw [update_of_ne hne,update_of_ne hne,if_neg fun h => hne h.symm,
            add_zero]
    · subst hbefore hmem
      refine ⟨hsq,hcq,hinv.tracks.sq_at _ _ hsq,hwaiting,hfetched,hheldIff,
        fun hf => ?_,fun _ => ⟨_,hposted,?_,?_,hat.1,?_,lt_irrefl _,?_,
          Cq.waiting_post hroom,fun hwritable i hi => ?_⟩⟩
      · rw [hheldCase] at hf
        cases hf
      · exact entrySqid_completionEntry _ _ _ _ _ (lt_of_le_of_lt hq (by decide))
      · refine entryCid_completionEntry _ _ _ _ _ ?_
        rw [hfetched]
        exact fetched_cid_lt
      · rw [entryPhase_completionEntry,hat.2]
      · rw [hcqs,update_self]
      · rw [hwritten]
        refine byte_of_writes ?_ (length_completionEntry _ _ _ _ _) hi
        rwa [Writable,hok]

def Good (n : Counts) : List (Event β) → Prop
  | [] => True
  | e :: log =>
    (∀ st, e = .ran st → st.qid ≤ ioQueuesMax ∧ ∃ sq cq, Correct n st sq cq) ∧
      Inv (n.next e) e.after ∧ Good (n.next e) log

/-- What happened to a controller was correct, and the counts follow it. -/
structure Sound (n : Counts) (log : List (Event β)) (d : NvmeDevice β) : Prop where
  good : Good n log
  inv : Inv (n.run log) d

omit [BlockBackend β] in
lemma Sound.append {log log' : List (Event β)} (h : Sound n log d)
    (h' : Sound (n.run log) log' d') : Sound n (log ++ log') d' := by
  refine ⟨?_,?_⟩
  · obtain ⟨hgood,-⟩ := h
    have hgood' := h'.good
    clear h'
    induction log generalizing n with
    | nil => exact hgood'
    | cons e log ih => exact ⟨hgood.1,hgood.2.1,ih hgood.2.2 hgood'⟩
  · rw [Counts.run,foldl_append]
    exact h'.inv

lemma Chain.sound {steps : List (Step β)} (h : Chain d m steps d' m') (hinv : Inv n d) :
    Sound n (steps.map .ran) d' := by
  induction h generalizing n with
  | nil => exact ⟨trivial,hinv⟩
  | cons hq hst _ ih =>
    obtain ⟨hnext,hcorrect⟩ := stepQueue_correct hinv hq hst
    obtain ⟨hgood,hrest⟩ := ih hnext
    refine ⟨⟨?_,hnext,hgood⟩,hrest⟩
    rintro st ⟨⟩
    obtain ⟨_,_,_,_,_,hspec⟩ := stepQueue_spec hq hst
    exact ⟨hspec.qid_eq ▸ hq,hcorrect⟩

section Registers
omit [BlockBackend β]

lemma Inv.wrote (htracks : Tracks n.taken n.posted d.sqs d.cqs)
    (hoff : d.regs.cc &&& 1 = 0 → (∀ q, d.sqs q = none) ∧ ∀ c, d.cqs c = none) :
    Inv (n.next (.wrote d)) d :=
  ⟨htracks.restart,hoff⟩

lemma Inv.of_none (hsqs : ∀ q, d.sqs q = none) (hcqs : ∀ c, d.cqs c = none) :
    Inv (n.next (.wrote d)) d := by
  have hnosq : ∀ {q sq}, d.sqs q ≠ some sq := fun {q _} h => nomatch (hsqs q).symm.trans h
  have hnocq : ∀ {c cq}, d.cqs c ≠ some cq := fun {c _} h => nomatch (hcqs c).symm.trans h
  exact ⟨⟨fun _ _ h => absurd h hnosq,fun _ hq => congrArg (ifExists · _) hq,
    fun _ _ h => absurd h hnosq,fun _ hc => congrArg (ifExists · _) hc,
    fun _ _ h => absurd h hnocq⟩,fun _ => ⟨hsqs,hcqs⟩⟩

lemma Inv.enable (hinv : Inv n d) (d' : NvmeDevice β) (hoff : d.regs.cc &&& 1 = 0)
    (hsqs : d'.sqs = d.sqs) (hcqs : d'.cqs = d.cqs) :
    Tracks n.taken n.posted d'.enable.sqs d'.enable.cqs ∧ d'.enable.regs.cc = d'.regs.cc := by
  obtain ⟨hnosq,hnocq⟩ := hinv.disabled hoff
  have htaken := hinv.tracks.sq_none 0 (hnosq 0)
  have hposted := hinv.tracks.cq_none 0 (hnocq 0)
  unfold NvmeDevice.enable
  simp only
  split
  · refine ⟨?_,rfl⟩
    have htracks := hinv.tracks
    rw [show d.sqs = fun _ => none from funext hnosq,
      show d.cqs = fun _ => none from funext hnocq] at htracks
    refine (htracks.replaceCq (hposted.symm ▸ Cq.at_new _)).replaceSq (zero_le _) ?_
      (htaken.symm ▸ Sq.at_new _)
    exact ⟨_,update_self _ _ _⟩
  · refine ⟨?_,rfl⟩
    rw [hsqs,hcqs]
    exact hinv.tracks

lemma Inv.writeCc (hinv : Inv n d) (v : ℕ) : Inv (n.next (.wrote (d.writeCc v))) (d.writeCc v) := by
  unfold NvmeDevice.writeCc
  simp only
  split
  · next hon =>
    obtain ⟨htracks,hcc⟩ := hinv.enable { d with regs := { d.regs with cc := v } }
      (not_not.mp hon.2) rfl rfl
    refine .wrote htracks fun hoff => ?_
    have hv : v &&& 1 = 0 := (congrArg (· &&& 1) hcc).symm.trans hoff
    exact absurd hv hon.1
  split
  · exact .of_none (fun _ => rfl) fun _ => rfl
  · next hon hoff =>
    exact .wrote hinv.tracks fun hv => hinv.disabled (by_contra fun hwas => hoff ⟨hv,hwas⟩)

lemma writeReg_cases (d : NvmeDevice β) (offset v : ℕ) : d.writeReg offset v = d.writeCc v ∨
      ∃ regs, d.writeReg offset v = { d with regs := regs } ∧ regs.cc = d.regs.cc := by
  generalize hd : d.writeReg offset v = d'
  rw [writeReg] at hd
  repeat' split at hd
  all_goals subst hd
  case isFalse.isFalse.isTrue => exact .inl rfl
  all_goals exact .inr ⟨_,rfl,rfl⟩

lemma Inv.writeReg (hinv : Inv n d) (offset v : ℕ) :
    Inv (n.next (.wrote (d.writeReg offset v))) (d.writeReg offset v) := by
  rcases writeReg_cases d offset v with h | ⟨regs,h,hcc⟩
  · rw [h]
    exact hinv.writeCc v
  · rw [h]
    exact .wrote hinv.tracks fun hoff => hinv.disabled (hcc ▸ hoff)

lemma Inv.moveIndex (hinv : Inv n d) (k index : ℕ) :
    Inv (n.next (.wrote (d.moveIndex k index))) (d.moveIndex k index) := by
  unfold NvmeDevice.moveIndex
  split
  · split
    · next sq hsq =>
      split
      · next hlt =>
        obtain ⟨hq,hcq⟩ := hinv.tracks.linked _ _ hsq
        have hat : sq.At (n.taken (k/2)) := hinv.tracks.sq_at _ _ hsq
        refine .wrote (hinv.tracks.replaceSq hq hcq hat) fun hoff => ?_
        rw [(hinv.disabled hoff).1] at hsq
        cases hsq
      · exact .wrote hinv.tracks hinv.disabled
    · exact .wrote hinv.tracks hinv.disabled
  · split
    · next cq hcq =>
      split
      · next hlt =>
        have hat : cq.At (n.posted (k/2)) := hinv.tracks.cq_at _ _ hcq
        refine .wrote (hinv.tracks.replaceCq hat) fun hoff => ?_
        rw [(hinv.disabled hoff).2] at hcq
        cases hcq
      · exact .wrote hinv.tracks hinv.disabled
    · exact .wrote hinv.tracks hinv.disabled

end Registers

lemma Inv.ring (hinv : Inv n d) (k index : ℕ) (m : GuestMemory) :
    Sound n (d.ring k index m).1 (d.ring k index m).2.1 := by
  unfold NvmeDevice.ring
  split
  · exact ⟨trivial,hinv⟩
  · have hmove := hinv.moveIndex k index
    have hsound := (runQueues_chain _ m).sound hmove
    exact ⟨⟨fun st hst => (by cases hst),hmove,hsound.good⟩,hsound.inv⟩

lemma Inv.writeDword (hinv : Inv n d) (offset v : ℕ) (m : GuestMemory) :
    Sound n (d.writeDword offset v m).1 (d.writeDword offset v m).2.1 := by
  unfold NvmeDevice.writeDword
  split
  · exact hinv.ring _ _ m
  · have hreg := hinv.writeReg offset v
    exact ⟨⟨fun st hst => (by cases hst),hreg,trivial⟩,hreg⟩

lemma Inv.mmioWrite (hinv : Inv n d) (offset size val : ℕ) (m : GuestMemory) :
    Sound n (d.mmioWrite offset size val m).1 (d.mmioWrite offset size val m).2.1 := by
  unfold NvmeDevice.mmioWrite
  split
  · exact hinv.writeDword _ _ m
  split
  · have hlow := hinv.writeDword offset (val%2^32) m
    exact hlow.append (hlow.inv.writeDword _ _ _)
  · exact ⟨trivial,hinv⟩

structure Access where
  offset : ℕ
  size : ℕ
  val : ℕ
  mem : GuestMemory

def session (d : NvmeDevice β) : List Access → List (Event β) × NvmeDevice β
  | [] => ([],d)
  | a :: accesses =>
    let r := d.mmioWrite a.offset a.size a.val a.mem
    let r' := session r.2.1 accesses
    (r.1 ++ r'.1,r'.2)

lemma Inv.session (hinv : Inv n d) (accesses : List Access) :
    Sound n (d.session accesses).1 (d.session accesses).2 := by
  induction accesses generalizing n d with
  | nil => exact ⟨trivial,hinv⟩
  | cons a accesses ih =>
    have hfirst := hinv.mmioWrite a.offset a.size a.val a.mem
    exact hfirst.append (ih hfirst.inv)

omit [BlockBackend β] in
lemma inv_new (backend : β) (identity : NvmeIdentity) (readOnly : Bool) :
    Inv .zero (new backend identity readOnly) :=
  ⟨⟨fun _ _ h => (by cases h),fun _ _ => rfl,fun _ _ h => (by cases h),fun _ _ => rfl,
    fun _ _ h => (by cases h)⟩,fun _ => ⟨fun _ => rfl,fun _ => rfl⟩⟩

/-- Every submission queue has its completion queue, and the indices are entries of the queues. -/
def QueuesOk (d : NvmeDevice β) : Prop :=
  (∀ q sq, d.sqs q = some sq →
    (∃ cq, d.cqs sq.cqid = some cq) ∧ sq.head < sq.size ∧ sq.tail < sq.size) ∧
  ∀ c cq, d.cqs c = some cq → cq.head < cq.size ∧ cq.tail < cq.size

/-- Every submission queue is empty or its completion queue is full. -/
def Idle (d : NvmeDevice β) : Prop :=
  ∀ q sq, d.sqs q = some sq → sq.head = sq.tail ∨ ∃ cq, d.cqs sq.cqid = some cq ∧ cq.isFull = true

omit [BlockBackend β] in
lemma Inv.queuesOk (hinv : Inv n d) : QueuesOk d :=
  ⟨fun q sq hsq => ⟨(hinv.tracks.linked q sq hsq).2,sq.head_lt,sq.tail_lt⟩,
    fun _ cq _ => ⟨cq.head_lt,cq.tail_lt⟩⟩

lemma Inv.runQueues_idle (hinv : Inv n d) (m : GuestMemory) : Idle (d.runQueues m).2.1 := by
  intro q sq hsq
  obtain ⟨hq,cq,hcq⟩ := ((runQueues_chain d m).sound hinv).inv.tracks.linked q sq hsq
  have hnone := NvmeDevice.runQueues_idle d m q hq
  by_contra hbusy
  obtain ⟨hwaiting,hroom⟩ := not_or.mp hbusy
  unfold stepQueue at hnone
  simp only [hsq,hcq,if_neg hwaiting] at hnone
  rw [if_neg fun hfull => hroom ⟨cq,hcq,hfull⟩] at hnone
  cases hnone

lemma Inv.ring_idle (hinv : Inv n d) (hready : d.ready = true) {k : ℕ} (hk : k/2 ≤ ioQueuesMax)
    (index : ℕ) (m : GuestMemory) : Idle (d.ring k index m).2.1 := by
  rw [NvmeDevice.ring,if_neg (not_or.mpr ⟨by rw [hready]; decide,Nat.not_lt.mpr hk⟩)]
  exact (hinv.moveIndex k index).runQueues_idle m

/-- The identifiers of the commands taken from a queue; an entry that cannot be read has identifier
0. -/
def submittedIds (q : ℕ) (log : List (Event β)) : List ℕ :=
  log.filterMap fun
    | .ran st => if st.qid = q ∧ st.held = false then some (st.fetched.elim 0 (·.cid)) else none
    | .wrote _ => none

def completedIds (q : ℕ) (log : List (Event β)) : List ℕ :=
  log.filterMap fun
    | .ran st => st.posted.bind fun p =>
      if entrySqid p.entry = q then some (entryCid p.entry) else none
    | .wrote _ => none

omit [BlockBackend β] in
lemma Good.completedIds_eq {log : List (Event β)} (h : Good n log) (q : ℕ) :
    completedIds q log = submittedIds q log := by
  induction log generalizing n with
  | nil => rfl
  | cons e log ih =>
    obtain ⟨hcorrect,-,hrest⟩ := h
    have htail := ih hrest
    cases e with
    | wrote d => exact htail
    | ran st =>
      obtain ⟨-,sq,cq,hst⟩ := hcorrect st rfl
      have hhead : (st.posted.bind fun p =>
          if entrySqid p.entry = q then some (entryCid p.entry) else none) =
          if st.qid = q ∧ st.held = false then some (st.fetched.elim 0 (·.cid)) else none := by
        cases hheld : st.held with
        | true =>
          rw [hst.held hheld,if_neg fun h => (by cases h.2)]
          rfl
        | false =>
          obtain ⟨entry,hposted,hsqid,hcid,-⟩ := hst.posted hheld
          rw [hposted,bind_some,hsqid,hcid]
          by_cases hq : st.qid = q
          · rw [if_pos hq,if_pos ⟨hq,rfl⟩]
          · rw [if_neg hq,if_neg fun h => hq h.1]
      unfold completedIds submittedIds at htail ⊢
      rw [filterMap_cons,filterMap_cons]
      simp only [hhead,htail]

omit [BlockBackend β] in
lemma Good.at {log pre post : List (Event β)} {e : Event β} (h : Good n log)
    (hlog : log = pre ++ e :: post) :
    (∀ st, e = .ran st → ∃ sq cq, Correct (n.run pre) st sq cq) ∧
      Inv ((n.run pre).next e) e.after := by
  induction pre generalizing n log with
  | nil =>
    subst hlog
    exact ⟨fun st hst => (h.1 st hst).2,h.2.1⟩
  | cons e' pre ih =>
    subst hlog
    exact ih h.2.2 rfl

/-- Whatever registers the guest writes: commands are taken in the order of their slots, each is
completed once, in order, in the next free slot and with the phase of the lap, and the engine
returns only when no command can complete. A doorbell of an enabled controller runs it. -/
theorem session_completes_in_order (backend : β) (identity : NvmeIdentity) (readOnly : Bool)
    (accesses : List Access) :
    let r := (new backend identity readOnly).session accesses
    (∀ s, (s = r.2 ∨ ∃ e ∈ r.1, s = e.after) →
      QueuesOk s ∧ (∀ m : GuestMemory, Idle (s.runQueues m).2.1) ∧
      (s.ready = true → ∀ offset, 0x1000 ≤ offset → (offset-0x1000)/4/2 ≤ ioQueuesMax →
        ∀ val m, Idle (s.mmioWrite offset 4 val m).2.1)) ∧
    (∀ pre st post, r.1 = pre ++ .ran st :: post →
      ∃ sq cq, Correct (Counts.zero.run pre) st sq cq) ∧
    ∀ q, completedIds q r.1 = submittedIds q r.1 := by
  intro r
  have hsound := (inv_new backend identity readOnly).session accesses
  refine ⟨fun s hs => ?_,fun pre st post hlog => (hsound.good.at hlog).1 st rfl,
    hsound.good.completedIds_eq⟩
  have hinv : ∃ n, Inv n s := by
    rcases hs with rfl | ⟨e,he,rfl⟩
    · exact ⟨_,hsound.inv⟩
    · obtain ⟨pre,post,hlog⟩ := append_of_mem he
      exact ⟨_,(hsound.good.at hlog).2⟩
  obtain ⟨n,hn⟩ := hinv
  refine ⟨hn.queuesOk,hn.runQueues_idle,
    fun hready offset hoffset hq val m => ?_⟩
  rw [NvmeDevice.mmioWrite,if_pos rfl,NvmeDevice.writeDword,if_pos hoffset]
  exact hn.ring_idle hready hq _ m

/-- A command with identifier 7 at `0x1000`. -/
def oneCommand : GuestMemory where
  ok gpa n := gpa+n ≤ 0x4000
  byte a := if a = 0x1002 then 7 else 0
  ok_le _ _ h := (of_decide_eq_true h).trans (by decide)

/-- The guest sets up the admin queues, enables the controller and rings the doorbell. -/
theorem session_completes_one : completedIds 0 ((new (⟨[]⟩ : RamDisk) ⟨0,0,[],[],[]⟩ false).session
    [⟨0x24,4,0x10001,oneCommand⟩,⟨0x28,8,0x1000,oneCommand⟩,⟨0x30,8,0x2000,oneCommand⟩,
      ⟨0x14,4,1,oneCommand⟩,⟨0x1000,4,1,oneCommand⟩]).1 = [7] :=
  ((session_completes_in_order _ _ _ _).2.2 0).trans (by decide +kernel)

end NvmeDevice
end Enlil.Boot
