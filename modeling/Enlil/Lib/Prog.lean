import Mathlib.Algebra.Group.Nat.Defs
import Mathlib.Tactic.Common

/-! # Programs with state, errors and panics -/

/-- A program over the state `σ`; `none` is a panic. -/
def Prog (σ ε α : Type) : Type := σ → Option (Except ε α × σ)

namespace Prog
variable {σ ε α β : Type}

instance : Monad (Prog σ ε) where
  pure a := fun s => some (.ok a,s)
  bind x f := fun s =>
    match x s with
    | none => none
    | some (.error e,s') => some (.error e,s')
    | some (.ok a,s') => f a s'

def throw (e : ε) : Prog σ ε α := fun s => some (.error e,s)

def panic : Prog σ ε α := fun _ => none

def gets (f : σ → α) : Prog σ ε α := fun s => some (.ok (f s),s)

def modify (f : σ → σ) : Prog σ ε Unit := fun s => some (.ok (),f s)

def ensure (c : Prop) [Decidable c] (e : ε) : Prog σ ε Unit := if c then pure () else throw e

def assert (c : Prop) [Decidable c] : Prog σ ε Unit := if c then pure () else panic

def ofExcept : Except ε α → Prog σ ε α
  | .ok a => pure a
  | .error e => throw e

def ofOption (e : ε) : Option α → Prog σ ε α
  | some a => pure a
  | none => throw e

/-- An outcome as a program that leaves the state alone. -/
def ofOutcome : Option (Except ε α) → Prog σ ε α
  | some r => ofExcept r
  | none => panic

/-! Machine arithmetic that panics: division by zero, a difference below zero, a shift by the word's
width or more. -/

def div (a b : ℕ) : Prog σ ε ℕ := assert (b ≠ 0) >>= fun _ => pure (a/b)

def rem (a b : ℕ) : Prog σ ε ℕ := assert (b ≠ 0) >>= fun _ => pure (a%b)

def sub (a b : ℕ) : Prog σ ε ℕ := assert (b ≤ a) >>= fun _ => pure (a-b)

def oneShl (w n : ℕ) : Prog σ ε ℕ := assert (n < w) >>= fun _ => pure (2^n)

/-- Run `x` and return its result, error or not, as a value. -/
def attempt (x : Prog σ ε α) : Prog σ ε (Except ε α) := fun s =>
  (x s).map fun (r,s') => (.ok r,s')

def focus {τ : Type} (get : σ → τ) (put : τ → σ → σ) (x : Prog τ ε α) : Prog σ ε α := fun s =>
  (x (get s)).map fun (r,t) => (r,put t s)

def forN : ℕ → (ℕ → Prog σ ε Unit) → Prog σ ε Unit
  | 0, _ => pure ()
  | n+1, body => forN n body >>= fun _ => body n

/-- Run `body 0`, ..., `body (n - 1)` in order, each on the value that the one before returns. -/
def foldN : ℕ → β → (ℕ → β → Prog σ ε β) → Prog σ ε β
  | 0, b, _ => pure b
  | n+1, b, body => foldN n b body >>= fun c => body n c

/-- `x` run on `s` does not panic; a returned value meets `ok` and an error meets `err`,
each together with the state left behind. -/
def wp (x : Prog σ ε α) (s : σ) (ok : α → σ → Prop) (err : ε → σ → Prop) : Prop :=
  match x s with
  | none => False
  | some (.ok a,s') => ok a s'
  | some (.error e,s') => err e s'

variable {x : Prog σ ε α} {s : σ} {ok ok' : α → σ → Prop} {err err' : ε → σ → Prop}

lemma wp.mono (h : x.wp s ok err) (hok : ∀ a s', ok a s' → ok' a s')
    (herr : ∀ e s', err e s' → err' e s') : x.wp s ok' err' := by
  simp only [wp] at h ⊢
  split at h
  · exact h.elim
  · exact hok _ _ h
  · exact herr _ _ h

lemma wp.intro_ok {a : α} {s' : σ} (hx : x s = some (.ok a,s')) (h : ok a s') :
    x.wp s ok err := by
  simp only [wp,hx]
  exact h

lemma wp.intro_error {e : ε} {s' : σ} (hx : x s = some (.error e,s')) (h : err e s') :
    x.wp s ok err := by
  simp only [wp,hx]
  exact h

lemma wp.of_ok {a : α} {s' : σ} (h : x.wp s ok err) (hx : x s = some (.ok a,s')) :
    ok a s' := by
  simp only [wp,hx] at h
  exact h

lemma wp.of_error {e : ε} {s' : σ} (h : x.wp s ok err) (hx : x s = some (.error e,s')) :
    err e s' := by
  simp only [wp,hx] at h
  exact h

lemma wp.exists (h : x.wp s ok err) : (∃ a s', x s = some (.ok a,s') ∧ ok a s') ∨
      ∃ e s', x s = some (.error e,s') ∧ err e s' := by
  simp only [wp] at h
  split at h
  · exact h.elim
  case _ a s' hx => exact .inl ⟨a,s',hx,h⟩
  case _ e s' hx => exact .inr ⟨e,s',hx,h⟩

@[simp]
lemma wp_pure (a : α) : (pure a : Prog σ ε α).wp s ok err ↔ ok a s := Iff.rfl

variable {y : Prog σ ε β} {f : β → Prog σ ε α} {r : Except ε α}

@[simp]
lemma wp_bind :
    (y >>= f).wp s ok err ↔ y.wp s (fun b s' => (f b).wp s' ok err) err := by
  simp only [wp,bind]
  cases y s with
  | none => rfl
  | some r =>
    obtain ⟨r,s'⟩ := r
    cases r <;> rfl

@[simp]
lemma wp_throw (e : ε) : (throw e : Prog σ ε α).wp s ok err ↔ err e s := Iff.rfl

@[simp]
lemma wp_gets (f : σ → α) : (gets f : Prog σ ε α).wp s ok err ↔ ok (f s) s := Iff.rfl

@[simp]
lemma wp_modify {ok : Unit → σ → Prop} (f : σ → σ) :
    (modify f : Prog σ ε Unit).wp s ok err ↔ ok () (f s) := Iff.rfl

@[simp]
lemma wp_attempt {ok : Except ε α → σ → Prop} :
    (attempt x).wp s ok err ↔ x.wp s (fun a s' => ok (.ok a) s') (fun e s' => ok (.error e) s') := by
  simp only [wp,attempt]
  cases x s with
  | none => rfl
  | some r =>
    obtain ⟨r,s'⟩ := r
    cases r <;> rfl

@[simp]
lemma wp_focus {τ : Type} {get : σ → τ} {put : τ → σ → σ} {y : Prog τ ε α} :
    (focus get put y).wp s ok err ↔
      y.wp (get s) (fun a t => ok a (put t s)) (fun e t => err e (put t s)) := by
  simp only [wp,focus]
  cases y (get s) with
  | none => rfl
  | some r =>
    obtain ⟨r,t⟩ := r
    cases r <;> rfl

lemma wp_ite {c : Prop} [Decidable c] {y : Prog σ ε α} :
    (if c then x else y).wp s ok err ↔ (c → x.wp s ok err) ∧ (¬ c → y.wp s ok err) := by
  by_cases h : c <;> simp [h]

@[simp]
lemma wp_ensure {c : Prop} [Decidable c] {e : ε} {ok : Unit → σ → Prop} :
    (ensure c e : Prog σ ε Unit).wp s ok err ↔ (c → ok () s) ∧ (¬ c → err e s) := by
  rw [ensure,wp_ite]
  simp

@[simp]
lemma wp_assert {c : Prop} [Decidable c] {ok : Unit → σ → Prop} :
    (assert c : Prog σ ε Unit).wp s ok err ↔ c ∧ ok () s := by
  by_cases h : c <;> simp [assert,h,wp,panic,pure]

@[simp]
lemma wp_ofExcept : (ofExcept r : Prog σ ε α).wp s ok err ↔
      (∀ a, r = .ok a → ok a s) ∧ (∀ e, r = .error e → err e s) := by
  cases r <;> simp [ofExcept]

@[simp]
lemma wp_ofOption {o : Option α} {e : ε} : (ofOption e o : Prog σ ε α).wp s ok err ↔
      (∀ a, o = some a → ok a s) ∧ (o = none → err e s) := by
  cases o <;> simp [ofOption]

variable {body : ℕ → Prog σ ε Unit} {n : ℕ}

lemma wp_forN (I : ℕ → σ → Prop) (h0 : I 0 s)
    (hstep : ∀ k s', k < n → I k s' → (body k).wp s' (fun _ => I (k+1)) err) :
    (forN n body).wp s (fun _ => I n) err := by
  induction n with
  | zero => exact h0
  | succ n ih =>
    rw [forN,wp_bind]
    refine (ih fun k s' hk => hstep k s' (by omega)).mono ?_ fun _ _ h => h
    intro _ s' hs'
    exact hstep n s' (by omega) hs'

lemma wp_foldN {b : β} {body : ℕ → β → Prog σ ε β} (I : ℕ → β → σ → Prop) (h0 : I 0 b s)
    (hstep : ∀ k c s', k < n → I k c s' → (body k c).wp s' (I (k+1)) err) :
    (foldN n b body).wp s (I n) err := by
  induction n with
  | zero => exact h0
  | succ n ih =>
    rw [foldN,wp_bind]
    refine (ih fun k c s' hk => hstep k c s' (by omega)).mono ?_ fun _ _ h => h
    intro c s' hs'
    exact hstep n c s' (by omega) hs'

lemma pure_bind {a : β} : ((pure a : Prog σ ε β) >>= f) = f a := rfl

lemma bind_eq_none (h : y s = none) :
    (y >>= f) s = none := by
  simp only [Bind.bind,h]

lemma assert_eq_panic {c : Prop} [Decidable c] (h : ¬ c) :
    (assert c : Prog σ ε Unit) s = none := by
  rw [assert,if_neg h]
  rfl

lemma div_of_ne {a b : ℕ} (h : b ≠ 0) : (div a b : Prog σ ε ℕ) = pure (a/b) := by
  rw [div,assert,if_pos h]
  rfl

lemma rem_of_ne {a b : ℕ} (h : b ≠ 0) : (rem a b : Prog σ ε ℕ) = pure (a%b) := by
  rw [rem,assert,if_pos h]
  rfl

lemma sub_of_le {a b : ℕ} (h : b ≤ a) : (sub a b : Prog σ ε ℕ) = pure (a-b) := by
  rw [sub,assert,if_pos h]
  rfl

lemma oneShl_of_lt {w n : ℕ} (h : n < w) : (oneShl w n : Prog σ ε ℕ) = pure (2^n) := by
  rw [oneShl,assert,if_pos h]
  rfl

/-- The program does not panic and leaves the state alone. -/
def IsQuery (x : Prog σ ε α) : Prop := ∀ s, ∃ r, x s = some (r,s)

lemma isQuery_pure (a : α) : (pure a : Prog σ ε α).IsQuery := fun _ => ⟨_,rfl⟩

lemma isQuery_throw (e : ε) : (throw e : Prog σ ε α).IsQuery := fun _ => ⟨_,rfl⟩

lemma isQuery_gets (f : σ → α) : (gets f : Prog σ ε α).IsQuery := fun _ => ⟨_,rfl⟩

lemma isQuery_ensure {c : Prop} [Decidable c] {e : ε} : (ensure c e : Prog σ ε Unit).IsQuery := by
  rw [ensure]
  split
  · exact isQuery_pure _
  · exact isQuery_throw e

lemma isQuery_ofOutcome {r : Option (Except ε α)} (h : r ≠ none) :
    (ofOutcome r : Prog σ ε α).IsQuery := by
  rcases r with _ | _ | _
  · exact absurd rfl h
  · exact isQuery_throw _
  · exact isQuery_pure _

lemma IsQuery.bind (hy : y.IsQuery)
    (hf : ∀ b, (f b).IsQuery) : (y >>= f).IsQuery := by
  intro s
  obtain ⟨r,hr⟩ := hy s
  cases r with
  | error e => exact ⟨.error e,by simp only [Bind.bind,hr]⟩
  | ok b =>
    obtain ⟨r',hr'⟩ := hf b s
    exact ⟨r',by simp only [Bind.bind,hr]; exact hr'⟩

lemma IsQuery.ite {c : Prop} [Decidable c] {y : Prog σ ε α} (hx : x.IsQuery) (hy : y.IsQuery) :
    (if c then x else y).IsQuery := by
  split
  · exact hx
  · exact hy

lemma IsQuery.wp (hx : x.IsQuery) (hok : ∀ a, x s = some (.ok a,s) → ok a s)
    (herr : ∀ e, x s = some (.error e,s) → err e s) : x.wp s ok err := by
  obtain ⟨r,hr⟩ := hx s
  cases r with
  | error e => exact wp.intro_error hr (herr e hr)
  | ok a => exact wp.intro_ok hr (hok a hr)

/-- From a state with `I` the program does not panic, and leaves one with `I`. -/
def Keeps (I : σ → Prop) (x : Prog σ ε α) : Prop :=
  ∀ s, I s → x.wp s (fun _ => I) (fun _ => I)

variable {I : σ → Prop}

lemma IsQuery.keeps (hx : x.IsQuery) : Keeps I x :=
  fun _ hs => hx.wp (fun _ _ => hs) fun _ _ => hs

lemma Keeps.bind (hy : Keeps I y)
    (hf : ∀ b, Keeps I (f b)) : Keeps I (y >>= f) := by
  intro s hs
  rw [wp_bind]
  exact (hy s hs).mono (fun b s' hs' => hf b s' hs') fun _ _ h => h

lemma Keeps.ite {c : Prop} [Decidable c] {y : Prog σ ε α} (hx : Keeps I x) (hy : Keeps I y) :
    Keeps I (if c then x else y) := by
  split
  · exact hx
  · exact hy

lemma Keeps.forN (h : ∀ k < n, Keeps I (body k)) : Keeps I (forN n body) :=
  fun _ hs => wp_forN (fun _ => I) hs fun k s' hk hs' => h k hk s' hs'

/-- If `x` run on `s` does not panic, a returned value meets `ok` and an error meets `err`, each
together with the state left behind. -/
def wlp (x : Prog σ ε α) (s : σ) (ok : α → σ → Prop) (err : ε → σ → Prop) : Prop :=
  match x s with
  | none => True
  | some (.ok a,s') => ok a s'
  | some (.error e,s') => err e s'

lemma wlp.mono (h : x.wlp s ok err) (hok : ∀ a s', ok a s' → ok' a s')
    (herr : ∀ e s', err e s' → err' e s') : x.wlp s ok' err' := by
  simp only [wlp] at h ⊢
  split at h
  · trivial
  · exact hok _ _ h
  · exact herr _ _ h

lemma wlp.of_ok {a : α} {s' : σ} (h : x.wlp s ok err) (hx : x s = some (.ok a,s')) :
    ok a s' := by
  simp only [wlp,hx] at h
  exact h

lemma wlp.of_error {e : ε} {s' : σ} (h : x.wlp s ok err) (hx : x s = some (.error e,s')) :
    err e s' := by
  simp only [wlp,hx] at h
  exact h

lemma wlp.intro_ok {a : α} {s' : σ} (hx : x s = some (.ok a,s')) (h : ok a s') :
    x.wlp s ok err := by
  simp only [wlp,hx]
  exact h

lemma wlp_true : x.wlp s (fun _ _ => True) (fun _ _ => True) := by
  rw [wlp]
  split <;> trivial

lemma wlp.of_none (hx : x s = none) : x.wlp s ok err := by
  simp only [wlp,hx]

lemma wp.wlp (h : x.wp s ok err) : x.wlp s ok err := by
  simp only [Prog.wp,Prog.wlp] at h ⊢
  split at h
  · trivial
  · assumption
  · assumption

lemma IsQuery.wlp_eq (hx : x.IsQuery) : x.wlp s (fun _ s' => s' = s) (fun _ s' => s' = s) := by
  obtain ⟨r,hr⟩ := hx s
  cases r <;> simp only [Prog.wlp,hr]

lemma wp.and_wlp (h : x.wp s ok err) (h' : x.wlp s ok' err') :
    x.wp s (fun a s' => ok a s' ∧ ok' a s') (fun e s' => err e s' ∧ err' e s') := by
  obtain ⟨a,s',hx,hok⟩ | ⟨e,s',hx,herr⟩ := h.exists
  · exact .intro_ok hx ⟨hok,h'.of_ok hx⟩
  · exact .intro_error hx ⟨herr,h'.of_error hx⟩

@[simp]
lemma wlp_pure (a : α) : (pure a : Prog σ ε α).wlp s ok err ↔ ok a s := Iff.rfl

@[simp]
lemma wlp_bind :
    (y >>= f).wlp s ok err ↔ y.wlp s (fun b s' => (f b).wlp s' ok err) err := by
  simp only [wlp,bind]
  cases y s with
  | none => rfl
  | some r =>
    obtain ⟨r,s'⟩ := r
    cases r <;> rfl

@[simp]
lemma wlp_throw (e : ε) : (throw e : Prog σ ε α).wlp s ok err ↔ err e s := Iff.rfl

@[simp]
lemma wlp_panic : (panic : Prog σ ε α).wlp s ok err ↔ True := Iff.rfl

@[simp]
lemma wlp_gets (f : σ → α) : (gets f : Prog σ ε α).wlp s ok err ↔ ok (f s) s := Iff.rfl

@[simp]
lemma wlp_modify {ok : Unit → σ → Prop} (f : σ → σ) :
    (modify f : Prog σ ε Unit).wlp s ok err ↔ ok () (f s) := Iff.rfl

lemma wlp_ite {c : Prop} [Decidable c] {y : Prog σ ε α} :
    (if c then x else y).wlp s ok err ↔ (c → x.wlp s ok err) ∧ (¬ c → y.wlp s ok err) := by
  by_cases h : c <;> simp [h]

@[simp]
lemma wlp_ensure {c : Prop} [Decidable c] {e : ε} {ok : Unit → σ → Prop} :
    (ensure c e : Prog σ ε Unit).wlp s ok err ↔ (c → ok () s) ∧ (¬ c → err e s) := by
  rw [ensure,wlp_ite]
  simp

@[simp]
lemma wlp_assert {c : Prop} [Decidable c] {ok : Unit → σ → Prop} :
    (assert c : Prog σ ε Unit).wlp s ok err ↔ (c → ok () s) := by
  by_cases h : c <;> simp [assert,h]

@[simp]
lemma wlp_ofOutcome {r : Option (Except ε α)} : (ofOutcome r : Prog σ ε α).wlp s ok err ↔
      (∀ a, r = some (.ok a) → ok a s) ∧ ∀ e, r = some (.error e) → err e s := by
  rcases r with _ | _ | _ <;> simp [ofOutcome,ofExcept]

@[simp]
lemma wlp_ofExcept : (ofExcept r : Prog σ ε α).wlp s ok err ↔
      (∀ a, r = .ok a → ok a s) ∧ ∀ e, r = .error e → err e s := by
  cases r <;> simp [ofExcept]

@[simp]
lemma wlp_ofOption {o : Option α} {e : ε} :
    (ofOption e o : Prog σ ε α).wlp s ok err ↔ (∀ a, o = some a → ok a s) ∧ (o = none → err e s) := by
  cases o <;> simp [ofOption]

@[simp]
lemma wlp_attempt {ok : Except ε α → σ → Prop} : (attempt x).wlp s ok err ↔
      x.wlp s (fun a s' => ok (.ok a) s') (fun e s' => ok (.error e) s') := by
  simp only [wlp,attempt]
  rcases x s with _ | ⟨_ | _,s'⟩ <;> rfl

@[simp]
lemma wlp_focus {τ : Type} {get : σ → τ} {put : τ → σ → σ} {y : Prog τ ε α} :
    (focus get put y).wlp s ok err ↔
      y.wlp (get s) (fun a t => ok a (put t s)) (fun e t => err e (put t s)) := by
  simp only [wlp,focus]
  rcases y (get s) with _ | ⟨_ | _,t⟩ <;> rfl

@[simp]
lemma wlp_div {a b : ℕ} {ok : ℕ → σ → Prop} :
    (div a b : Prog σ ε ℕ).wlp s ok err ↔ (b ≠ 0 → ok (a/b) s) := by
  simp [div]

@[simp]
lemma wlp_sub {a b : ℕ} {ok : ℕ → σ → Prop} :
    (sub a b : Prog σ ε ℕ).wlp s ok err ↔ (b ≤ a → ok (a-b) s) := by
  simp [sub]

lemma wlp_foldN {b : β} {body : ℕ → β → Prog σ ε β} (I : ℕ → β → σ → Prop) (h0 : I 0 b s)
    (hstep : ∀ k c s', k < n → I k c s' → (body k c).wlp s' (I (k+1)) err) :
    (foldN n b body).wlp s (I n) err := by
  induction n with
  | zero => exact h0
  | succ n ih =>
    rw [foldN,wlp_bind]
    refine (ih fun k c s' hk => hstep k c s' (by omega)).mono ?_ fun _ _ h => h
    intro c s' hs'
    exact hstep n c s' (by omega) hs'

lemma wlp_forN (I : ℕ → σ → Prop) (h0 : I 0 s)
    (hstep : ∀ k s', k < n → I k s' → (body k).wlp s' (fun _ => I (k+1)) err) :
    (forN n body).wlp s (fun _ => I n) err := by
  induction n with
  | zero => exact h0
  | succ n ih =>
    rw [forN,wlp_bind]
    refine (ih fun k s' hk => hstep k s' (by omega)).mono ?_ fun _ _ h => h
    intro _ s' hs'
    exact hstep n s' (by omega) hs'

/-- The program has the same outcome in both states, which it leaves alone. -/
def Agrees (x : Prog σ ε α) (s s' : σ) : Prop :=
  (x s = none ∧ x s' = none) ∨ ∃ r, x s = some (r,s) ∧ x s' = some (r,s')

variable {s' : σ}

lemma agrees_pure (a : α) : (pure a : Prog σ ε α).Agrees s s' := .inr ⟨_,rfl,rfl⟩

lemma agrees_throw (e : ε) : (throw e : Prog σ ε α).Agrees s s' := .inr ⟨_,rfl,rfl⟩

lemma agrees_ofOutcome (r : Option (Except ε α)) : (ofOutcome r : Prog σ ε α).Agrees s s' := by
  rcases r with _ | _ | _
  · exact .inl ⟨rfl,rfl⟩
  · exact agrees_throw _
  · exact agrees_pure _

lemma Agrees.bind (hy : y.Agrees s s')
    (hf : ∀ b, (f b).Agrees s s') : (y >>= f).Agrees s s' := by
  rcases hy with ⟨hs,hs'⟩ | ⟨r,hs,hs'⟩
  · exact .inl ⟨bind_eq_none hs,bind_eq_none hs'⟩
  · cases r with
    | error e => exact .inr ⟨.error e,by simp only [Bind.bind,hs],by simp only [Bind.bind,hs']⟩
    | ok b =>
      have heq : (y >>= f) s = f b s := by simp only [Bind.bind,hs]
      have heq' : (y >>= f) s' = f b s' := by simp only [Bind.bind,hs']
      rw [Agrees,heq,heq']
      exact hf b

lemma Agrees.outcome_eq (h : x.Agrees s s') : (x s').map Prod.fst = (x s).map Prod.fst := by
  rcases h with ⟨hs,hs'⟩ | ⟨r,hs,hs'⟩
  · rw [hs,hs']
  · rw [hs,hs']
    rfl

end Prog
