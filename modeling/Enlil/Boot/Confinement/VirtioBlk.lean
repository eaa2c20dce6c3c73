import Enlil.Boot.Confinement.Disk
import Enlil.Boot.VirtioBlk.Defs

/-! # A virtio-blk device cannot tell related disks apart -/

namespace Enlil.Boot
namespace VirtioBlk
variable {β : Type} {R : β → β → Prop} {d d' : VirtioBlk β} {m : GuestMemory}

def withBackend (d : VirtioBlk β) (b : β) : VirtioBlk β := { d with backend := b }

def Rel (R : β → β → Prop) (d d' : VirtioBlk β) : Prop :=
  ∃ b', R d.backend b' ∧ d' = d.withBackend b'

lemma Rel.intro {b b' : β} (d : VirtioBlk β) (h : R b b') :
    Rel R (d.withBackend b) (d.withBackend b') :=
  ⟨b',h,rfl⟩

lemma Rel.map {f : VirtioBlk β → VirtioBlk β} (h : Rel R d d')
    (hf : ∀ d b, f (d.withBackend b) = (f d).withBackend b) : Rel R (f d) (f d') := by
  obtain ⟨b',hR,rfl⟩ := h
  have hbackend : (f d).backend = d.backend := by
    have hself := hf d d.backend
    rw [show d.withBackend d.backend = d from rfl] at hself
    rw [hself]
    rfl
  exact ⟨b',hbackend ▸ hR,hf d b'⟩

structure Agree {α : Type} (R : β → β → Prop) (r r' : α × VirtioBlk β × GuestMemory) : Prop where
  answer : r.1 = r'.1
  rel : Rel R r.2.1 r'.2.1
  mem : r.2.2 = r'.2.2

lemma Agree.ite {α : Type} {p : Prop} [Decidable p] {x y x' y' : α × VirtioBlk β × GuestMemory}
    (hx : Agree R x x') (hy : Agree R y y') :
    Agree R (if p then x else y) (if p then x' else y') := by
  split
  · exact hx
  · exact hy

lemma ite_withBackend {p : Prop} [Decidable p] {x y x' y' : VirtioBlk β} {b : β}
    (hx : x' = x.withBackend b) (hy : y' = y.withBackend b) :
    (if p then x' else y') = (if p then x else y).withBackend b := by
  split
  · exact hx
  · exact hy

lemma writeStatus_withBackend (val : ℕ) (d : VirtioBlk β) (b : β) :
    (d.withBackend b).writeStatus val = (d.writeStatus val).withBackend b :=
  ite_withBackend rfl rfl

section
variable (off size val : ℕ) (d : VirtioBlk β) (b : β)

lemma writeCommonField_withBackend : (d.withBackend b).writeCommonField off size val =
      (d.writeCommonField off size val).withBackend b :=
  ite_withBackend rfl (ite_withBackend rfl (ite_withBackend
    (ite_withBackend rfl (ite_withBackend rfl rfl)) (ite_withBackend
      (writeStatus_withBackend _ d b) (ite_withBackend rfl (ite_withBackend rfl (ite_withBackend
        (ite_withBackend rfl rfl) (ite_withBackend (ite_withBackend rfl rfl) (ite_withBackend rfl
          (ite_withBackend rfl (ite_withBackend rfl (ite_withBackend rfl (ite_withBackend rfl
            (ite_withBackend rfl (ite_withBackend rfl (ite_withBackend rfl (ite_withBackend rfl
              rfl))))))))))))))))

lemma writeCommon_withBackend :
    (d.withBackend b).writeCommon off size val = (d.writeCommon off size val).withBackend b := by
  unfold writeCommon
  rw [writeCommonField_withBackend]
  exact ite_withBackend rfl (ite_withBackend rfl rfl)

end
variable [BlockBackend β]

lemma execute_agree (hR : Bisim R) (h : Rel R d d') (kind sector : ℕ) (data : List Seg) :
    Agree R (d.execute m kind sector data) (d'.execute m kind sector data) := by
  obtain ⟨b',hb,rfl⟩ := h
  have hsame : ∀ {r : ℕ × ℕ} {m : GuestMemory}, Agree R (r,d,m) (r,d.withBackend b',m) :=
    ⟨rfl,⟨b',hb,rfl⟩,rfl⟩
  refine .ite (.ite hsame ?_) (.ite (.ite hsame ?_) (.ite ?_ (.ite hsame hsame)))
  · obtain ⟨result,b₁,b₁',hr,hr',hrel⟩ :=
      exists_of_agree (hR.read sector (data.map Seg.len).sum hb)
    simp only [withBackend,hr,hr']
    cases result with
    | error e => exact ⟨rfl,.intro d hrel,rfl⟩
    | ok buf =>
      simp only
      split <;> exact ⟨rfl,.intro d hrel,rfl⟩
  · cases hgather : gather m data with
    | none => exact hsame
    | some buf =>
      obtain ⟨result,b₁,b₁',hr,hr',hrel⟩ :=
        exists_of_agree (hR.write sector buf hb)
      simp only [withBackend,hr,hr']
      cases result with
      | error e => exact ⟨rfl,.intro d hrel,rfl⟩
      | ok _ => exact ⟨rfl,.intro d hrel,rfl⟩
  · obtain ⟨result,b₁,b₁',hr,hr',hrel⟩ :=
      exists_of_agree (hR.flush hb)
    simp only [withBackend,hr,hr']
    cases result with
    | error e => exact ⟨rfl,.intro d hrel,rfl⟩
    | ok _ => exact ⟨rfl,.intro d hrel,rfl⟩

lemma handleRequest_agree (hR : Bisim R) (h : Rel R d d') (head : ℕ) :
    Agree R (d.handleRequest m head) (d'.handleRequest m head) := by
  have hqueue : d'.queue = d.queue := by
    obtain ⟨b',-,rfl⟩ := h
    rfl
  unfold handleRequest
  rw [hqueue]
  split
  · exact ⟨rfl,h,rfl⟩
  · split
    · split
      · exact ⟨rfl,h,rfl⟩
      · simp only
        split
        · exact ⟨rfl,h,rfl⟩
        · obtain ⟨hanswer,hrel,hmem⟩ := execute_agree hR h (m := m) _ _ _
          refine ⟨?_,hrel,?_⟩
          · simp only [hanswer]
          · simp only [hanswer,hmem]
    · exact ⟨rfl,h,rfl⟩

structure RelLoop (R : β → β → Prop) (s s' : LoopState β) : Prop where
  rel : Rel R s.dev s'.dev
  eq : s' = { s with dev := s'.dev }

lemma processLoop_rel (hR : Bisim R) (q : Queue) (availIdx fuel : ℕ) {s s' : LoopState β}
    (h : RelLoop R s s') :
    RelLoop R (processLoop q availIdx fuel s) (processLoop q availIdx fuel s') := by
  induction fuel generalizing s s' with
  | zero => exact h
  | succ fuel ih =>
    obtain ⟨hrel,heq⟩ := h
    generalize s'.dev = dev' at hrel heq
    subst heq
    unfold processLoop
    simp only
    split
    · exact ⟨hrel,rfl⟩
    · split
      · exact ⟨hrel,rfl⟩
      · next head _ =>
        obtain ⟨hanswer,hreq,hmem⟩ := handleRequest_agree (m := s.mem) hR hrel head
        rw [← hanswer,← hmem]
        generalize GuestMemory.write _ _ _ = written
        cases written with
        | none => exact ⟨hreq,rfl⟩
        | some mem => exact ih ⟨hreq,rfl⟩

lemma process_agree (hR : Bisim R) (h : Rel R d d') : Agree R (d.process m) (d'.process m) := by
  obtain ⟨b',hb,rfl⟩ := h
  have hrel : Rel R d (d.withBackend b') := ⟨b',hb,rfl⟩
  have hfinish : ∀ {s s' : LoopState β}, RelLoop R s s' → ∀ gpa : ℕ, Agree R
        (if s.served.posted.isEmpty then (s.served,s.dev,s.mem)
          else (s.served,
            { s.dev with
              queue := { s.dev.queue with lastAvail := s.lastAvail, usedIdx := s.usedIdx },
              isr := s.dev.isr ||| 1 },
            s.mem.tryWrite gpa (Le.bytes 2 s.usedIdx)))
        (if s'.served.posted.isEmpty then (s'.served,s'.dev,s'.mem)
          else (s'.served,
            { s'.dev with
              queue := { s'.dev.queue with lastAvail := s'.lastAvail, usedIdx := s'.usedIdx },
              isr := s'.dev.isr ||| 1 },
            s'.mem.tryWrite gpa (Le.bytes 2 s'.usedIdx))) := by
    intro s s' hloop gpa
    obtain ⟨hdev,heq⟩ := hloop
    generalize s'.dev = dev' at hdev heq
    subst heq
    refine .ite ⟨rfl,hdev,rfl⟩ ⟨rfl,?_,rfl⟩
    obtain ⟨b₁,hb₁,rfl⟩ := hdev
    exact ⟨b₁,hb₁,rfl⟩
  unfold process
  refine .ite ⟨rfl,hrel,rfl⟩ ?_
  rw [show (d.withBackend b').queue = d.queue from rfl]
  split
  · exact ⟨rfl,hrel,rfl⟩
  · exact hfinish (processLoop_rel hR _ _ _ ⟨hrel,rfl⟩) _

lemma Rel.mmioRead (hR : Bisim R) (h : Rel R d d') (off size : ℕ) :
    (d.mmioRead off size).1 = (d'.mmioRead off size).1 ∧
      Rel R (d.mmioRead off size).2 (d'.mmioRead off size).2 := by
  obtain ⟨b',hb,rfl⟩ := h
  have hrel : Rel R d (d.withBackend b') := ⟨b',hb,rfl⟩
  have hdevice : (d.withBackend b').deviceImage = d.deviceImage := by
    simp only [deviceImage,withBackend,hR.sectors hb]
  have hcommon : (d.withBackend b').commonImage = d.commonImage := rfl
  unfold VirtioBlk.mmioRead
  rw [hdevice,hcommon]
  split
  · exact ⟨rfl,hrel⟩
  split
  · split
    · exact ⟨rfl,b',hb,rfl⟩
    · exact ⟨rfl,hrel⟩
  split
  · exact ⟨rfl,hrel⟩
  · exact ⟨rfl,hrel⟩

lemma Rel.mmioWrite (hR : Bisim R) (h : Rel R d d') (off size val : ℕ) (m : GuestMemory) :
    Agree R (d.mmioWrite off size val m) (d'.mmioWrite off size val m) :=
  .ite ⟨rfl,h.map (f := fun d => d.writeCommon off size val) (writeCommon_withBackend off size val),rfl⟩
    (.ite (process_agree hR h) ⟨rfl,h,rfl⟩)

end VirtioBlk
end Enlil.Boot
