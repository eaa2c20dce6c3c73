import Mathlib.Data.List.Nodup
import Mathlib.Data.List.Perm.Subperm

/-!
# Condition variables

A thread that waits draws a ticket and is entered among those that have not been notified.
-/

/-- The tickets that have not been notified, and the next ticket. -/
structure Condvar where
  waiting : List ℕ
  tickets : ℕ
  deriving DecidableEq, Repr

namespace Condvar
open List

def new : Condvar := ⟨[],0⟩

def wait (cv : Condvar) : Condvar := ⟨cv.waiting ++ [cv.tickets],cv.tickets+1⟩

/-- Notify one of those that wait, which `choice` selects. -/
def notifyOne (cv : Condvar) (choice : ℕ) : Condvar :=
  { cv with waiting := cv.waiting.eraseIdx (choice%cv.waiting.length) }

def notifyAll (cv : Condvar) : Condvar := { cv with waiting := [] }

/-- The thread with the ticket wakes up without a notification. -/
def spurious (cv : Condvar) (ticket : ℕ) : Condvar :=
  { cv with waiting := cv.waiting.erase ticket }

/-- The tickets of the threads that wait or were notified and have not gone on yet. -/
structure Tracks (cv : Condvar) (tickets : List ℕ) : Prop where
  nodup : tickets.Nodup
  fresh : ∀ t ∈ tickets, t < cv.tickets
  waiting_nodup : cv.waiting.Nodup
  subset : cv.waiting ⊆ tickets

/-- While somebody waits, those notified are enough for `need` beside `extra` other ones. -/
def Covers (cv : Condvar) (tickets : List ℕ) (need extra : ℕ) : Prop :=
  cv.waiting ≠ [] → need+cv.waiting.length ≤ tickets.length+extra

variable {cv cv' : Condvar} {tickets tickets' : List ℕ} {ticket choice need extra : ℕ}

lemma tracks_new : new.Tracks [] := ⟨.nil,nofun,.nil,nofun⟩

section
variable (h : cv.Tracks tickets)
include h

lemma Tracks.perm (hperm : tickets.Perm tickets') : cv.Tracks tickets' :=
  ⟨hperm.nodup_iff.mp h.nodup,fun t ht => h.fresh t (hperm.mem_iff.mpr ht),h.waiting_nodup,
    fun _ ht => hperm.mem_iff.mp (h.subset ht)⟩

lemma Tracks.length_le : cv.waiting.length ≤ tickets.length :=
  (h.waiting_nodup.subperm h.subset).length_le

lemma Tracks.exists_notified (hlt : cv.waiting.length < tickets.length) :
    ∃ t ∈ tickets, t ∉ cv.waiting := by
  by_contra! hall
  exact absurd (h.nodup.subperm hall).length_le (Nat.not_le.mpr hlt)

lemma Tracks.wait : cv.wait.Tracks (cv.tickets :: tickets) where
  nodup := nodup_cons.mpr ⟨fun hmem => Nat.lt_irrefl _ (h.fresh _ hmem),h.nodup⟩
  fresh t ht := by
    rcases mem_cons.mp ht with rfl | ht
    · exact Nat.lt_succ_self _
    · exact Nat.lt_succ_of_lt (h.fresh t ht)
  waiting_nodup := by
    refine (perm_append_singleton _ _).nodup_iff.mpr (nodup_cons.mpr ⟨fun hmem => ?_,?_⟩)
    · exact Nat.lt_irrefl _ (h.fresh _ (h.subset hmem))
    · exact h.waiting_nodup
  subset t ht := by
    rcases mem_append.mp ht with ht | ht
    · exact mem_cons_of_mem _ (h.subset ht)
    · rw [mem_singleton.mp ht]
      exact mem_cons_self

lemma Tracks.sublist (hsub : cv'.waiting.Sublist cv.waiting)
    (htickets : cv'.tickets = cv.tickets) : cv'.Tracks tickets :=
  ⟨h.nodup,fun t ht => htickets ▸ h.fresh t ht,hsub.nodup h.waiting_nodup,
    fun _ ht => h.subset (hsub.subset ht)⟩

lemma Tracks.notifyOne (choice : ℕ) :
    (cv.notifyOne choice).Tracks tickets := h.sublist (eraseIdx_sublist _ _) rfl

lemma Tracks.notifyAll : cv.notifyAll.Tracks tickets :=
  h.sublist (nil_sublist _) rfl

lemma Tracks.spurious (ticket : ℕ) :
    (cv.spurious ticket).Tracks tickets := h.sublist erase_sublist rfl

end

lemma Tracks.resume (h : cv.Tracks (ticket :: tickets)) (hout : ticket ∉ cv.waiting) :
    cv.Tracks tickets :=
  ⟨(nodup_cons.mp h.nodup).2,fun t ht => h.fresh t (mem_cons_of_mem _ ht),
    h.waiting_nodup,fun _ ht =>
      (mem_cons.mp (h.subset ht)).resolve_left fun heq => hout (heq ▸ ht)⟩

lemma covers_notifyAll : cv.notifyAll.Covers tickets need extra := fun h => absurd rfl h

lemma notifyOne_waiting_ne (h : (cv.notifyOne choice).waiting ≠ []) : cv.waiting ≠ [] := by
  intro hnil
  rw [notifyOne,hnil] at h
  exact h rfl

lemma length_notifyOne (h : cv.waiting ≠ []) (choice : ℕ) :
    (cv.notifyOne choice).waiting.length+1 = cv.waiting.length := by
  have hpos := length_pos_of_ne_nil h
  exact length_eraseIdx_add_one (Nat.mod_lt _ hpos)

section
variable (h : cv.Covers tickets need extra)
include h

lemma Covers.notifyOne (choice : ℕ) :
    (cv.notifyOne choice).Covers tickets (need+1) extra := by
  intro hne
  have hwas := h (notifyOne_waiting_ne hne)
  have := length_notifyOne (notifyOne_waiting_ne hne) choice
  omega

omit h in
lemma spurious_waiting_ne (h : (cv.spurious ticket).waiting ≠ []) : cv.waiting ≠ [] := by
  intro hnil
  rw [spurious,hnil] at h
  exact h rfl

lemma Covers.spurious (ticket : ℕ) :
    (cv.spurious ticket).Covers tickets need extra := by
  intro hne
  have hle : (cv.spurious ticket).waiting.length ≤ cv.waiting.length :=
    erase_sublist.length_le
  have hwas := h (spurious_waiting_ne hne)
  omega

lemma Covers.mono {need' : ℕ} (hle : need' ≤ need) :
    cv.Covers tickets need' extra := fun hne => by
  have := h hne
  omega

end

lemma Tracks.covers_resume (h : cv.Tracks tickets)
    (hcovers : cv.Covers (ticket :: tickets) need extra) : cv.Covers tickets (need-1) extra := by
  intro hne
  have hwas := hcovers hne
  have hle := h.length_le
  rw [length_cons] at hwas
  omega

lemma Tracks.covers_leave (h : cv.Tracks tickets)
    (hcovers : cv.Covers tickets need (extra+1)) : cv.Covers tickets (need-1) extra := by
  intro hne
  have hwas := hcovers hne
  have hle := h.length_le
  omega

lemma Tracks.covers_wait (h : cv.Tracks tickets) (extra : ℕ) :
    cv.wait.Covers (cv.tickets :: tickets) 0 extra := by
  intro _
  have := h.length_le
  rw [Condvar.wait,length_append,length_singleton,length_cons]
  omega

end Condvar
