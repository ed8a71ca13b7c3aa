import Mathlib

/-!
Programs over a shared state that return a value or raise. A raise keeps the state reached
so far, as an exception of an imperative language does.

Two kinds of rules: inversion lemmas, which take a run of a sequence apart into the runs of
its parts, and `Keeps`, which carries a reflexive and transitive relation from the parts of a
program to the whole.
-/

namespace PumpGrok

lemma except_bind_ok_iff {ε α β : Type} {e : Except ε α} {f : α → Except ε β} {b : β} :
    (e >>= f) = .ok b ↔ ∃ a, e = .ok a ∧ f a = .ok b := by
  rcases e with x | a <;> simp [bind, Except.bind]

def Prog (σ ε α : Type) : Type := σ → Except ε α × σ

namespace Prog

variable {σ τ ε ε' α β : Type}

def bind (m : Prog σ ε α) (f : α → Prog σ ε β) : Prog σ ε β := fun s =>
  match m s with
  | (.ok a, s') => f a s'
  | (.error e, s') => (.error e, s')

instance : Monad (Prog σ ε) where
  pure a := fun s => (.ok a, s)
  bind := bind

def raise (e : ε) : Prog σ ε α := fun s => (.error e, s)

def read (f : σ → α) : Prog σ ε α := fun s => (.ok (f s), s)

def modify (f : σ → σ) : Prog σ ε Unit := fun s => (.ok (), f s)

/-- Raise `e` when `c` holds. -/
def raiseIf (c : Prop) [Decidable c] (e : ε) : Prog σ ε Unit := fun s =>
  if c then (.error e, s) else (.ok (), s)

/-- Compute a value or raise, and put the value into the state. -/
def resultOf (f : σ → Except ε α) (put : α → σ → σ) : Prog σ ε Unit := fun s =>
  match f s with
  | .ok a => (.ok (), put a s)
  | .error e => (.error e, s)

/-- Run `m`; a raise of it is handed to `h` in the state it left. -/
def catching (m : Prog σ ε α) (h : ε → Prog σ ε' α) : Prog σ ε' α := fun s =>
  match m s with
  | (.ok a, s') => (.ok a, s')
  | (.error e, s') => h e s'

/-- Run a program on a part of the state. -/
def on (get : σ → τ) (put : τ → σ → σ) (m : Prog τ ε α) : Prog σ ε α := fun s =>
  ((m (get s)).1, put (m (get s)).2 s)

section Runs

variable {m : Prog σ ε α} {f : α → Prog σ ε β} {s s' : σ}

lemma pure_run (a : α) (s : σ) : (pure a : Prog σ ε α) s = (.ok a, s) := rfl

@[simp] lemma raise_run (e : ε) (s : σ) : (raise e : Prog σ ε α) s = (.error e, s) := rfl

@[simp] lemma read_run (g : σ → α) (s : σ) : (read g : Prog σ ε α) s = (.ok (g s), s) := rfl

@[simp] lemma modify_run (g : σ → σ) (s : σ) : (modify g : Prog σ ε Unit) s = (.ok (), g s) := rfl

lemma bind_run_ok {a : α} (h : m s = (.ok a, s')) : (m >>= f) s = f a s' := by
  show bind m f s = _
  simp [bind, h]

lemma bind_run_error {e : ε} (h : m s = (.error e, s')) : (m >>= f) s = (.error e, s') := by
  show bind m f s = _
  simp [bind, h]

lemma bind_assoc {γ : Type} (m : Prog σ ε α) (f : α → Prog σ ε β) (g : β → Prog σ ε γ) :
    (m >>= f) >>= g = m >>= fun a => f a >>= g := by
  funext s
  rcases h : m s with ⟨e | a, s'⟩
  · rw [bind_run_error (bind_run_error h), bind_run_error h]
  · rw [bind_run_ok h]
    rcases hf : f a s' with ⟨e | b, t⟩
    · rw [bind_run_error ((bind_run_ok h).trans hf), bind_run_error hf]
    · rw [bind_run_ok ((bind_run_ok h).trans hf), bind_run_ok hf]

/-- A sequence returns exactly when both parts return. -/
lemma bind_ok_iff {b : β} :
    (m >>= f) s = (.ok b, s') ↔ ∃ a s₁, m s = (.ok a, s₁) ∧ f a s₁ = (.ok b, s') := by
  rcases h : m s with ⟨e | a, s₁⟩
  · rw [bind_run_error h]
    simp
  · rw [bind_run_ok h]
    simp

lemma raiseIf_ok_iff {c : Prop} [Decidable c] {e : ε} {u : Unit} :
    (raiseIf c e : Prog σ ε Unit) s = (.ok u, s') ↔ ¬ c ∧ s' = s := by
  unfold raiseIf
  split_ifs with h
  · simp [h]
  · simp [h, eq_comm]

lemma raiseIf_bind_run {c : Prop} [Decidable c] {e : ε} {g : Unit → Prog σ ε β} :
    (raiseIf c e >>= g) s = if c then (.error e, s) else g () s := by
  by_cases h : c
  · rw [if_pos h]
    exact bind_run_error (by simp [raiseIf, h])
  · rw [if_neg h]
    exact bind_run_ok (by simp [raiseIf, h])

end Runs

/-! ### Relations kept by a program -/

/-- Every run of `m`, returning or raising, relates the state before to the state after. -/
def Keeps (R : σ → σ → Prop) (m : Prog σ ε α) : Prop := ∀ s, R s (m s).2

/-- Two states agree on a measure. -/
def Same {β : Type} (f : σ → β) (s s' : σ) : Prop := f s' = f s

instance {β : Type} (f : σ → β) : IsPreorder σ (Same f) where
  refl _ := rfl
  trans _ _ _ h h' := h'.trans h

namespace Keeps

variable {R : σ → σ → Prop}

lemma run {m : Prog σ ε α} (h : Keeps R m) {s s' : σ} {r : Except ε α} (hr : m s = (r, s')) :
    R s s' := by
  have := h s
  rwa [hr] at this

lemma mono {S : σ → σ → Prop} {m : Prog σ ε α} (h : Keeps R m) (hrs : ∀ s t, R s t → S s t) :
    Keeps S m := fun s => hrs _ _ (h s)

lemma modify {f : σ → σ} (h : ∀ s, R s (f s)) : Keeps R (Prog.modify f : Prog σ ε Unit) := h

/-- A program on a part of the state. -/
lemma on {S : τ → τ → Prop} {get : σ → τ} {put : τ → σ → σ} {m : Prog τ ε α} (h : Keeps S m)
    (hp : ∀ s t, S (get s) t → R s (put t s)) : Keeps R (Prog.on get put m) :=
  fun s => hp s _ (h (get s))

lemma ite {c : Prop} [Decidable c] {m n : Prog σ ε α} (hm : Keeps R m) (hn : Keeps R n) :
    Keeps R (if c then m else n) := by
  split_ifs <;> assumption

variable [IsPreorder σ R]

lemma pure (a : α) : Keeps R (Pure.pure a : Prog σ ε α) := fun s => refl_of R s

lemma raise (e : ε) : Keeps R (Prog.raise e : Prog σ ε α) := fun s => refl_of R s

lemma read (g : σ → α) : Keeps R (Prog.read g : Prog σ ε α) := fun s => refl_of R s

lemma raiseIf (c : Prop) [Decidable c] (e : ε) :
    Keeps R (Prog.raiseIf c e : Prog σ ε Unit) := by
  intro s
  unfold Prog.raiseIf
  split_ifs <;> exact refl_of R s

lemma resultOf {f : σ → Except ε α} {put : α → σ → σ} (h : ∀ a s, R s (put a s)) :
    Keeps R (Prog.resultOf f put) := by
  intro s
  unfold Prog.resultOf
  split
  · exact h _ s
  · exact refl_of R s

/-- The second part may use what the first returned, and in which state. -/
lemma bind_of {m : Prog σ ε α} {f : α → Prog σ ε β} {s : σ} (hm : Keeps R m)
    (hf : ∀ a s', m s = (.ok a, s') → R s' (f a s').2) : R s ((m >>= f) s).2 := by
  rcases h : m s with ⟨e | a, s'⟩
  · rw [bind_run_error h]
    exact hm.run h
  · rw [bind_run_ok h]
    exact trans_of R (hm.run h) (hf a s' h)

lemma bind {m : Prog σ ε α} {f : α → Prog σ ε β} (hm : Keeps R m) (hf : ∀ a, Keeps R (f a)) :
    Keeps R (m >>= f) :=
  fun _ => hm.bind_of fun a s' _ => hf a s'

end Keeps

/-! ### Programs that differ in what they raise alone -/

/-- From every state both return the same value or both raise, and leave the same state. -/
def Alike (m m' : Prog σ ε α) : Prop :=
  ∀ s, (m s).1.toOption = (m' s).1.toOption ∧ (m s).2 = (m' s).2

lemma Alike.refl (m : Prog σ ε α) : Alike m m := fun _ => ⟨rfl, rfl⟩

lemma Alike.bind {m m' : Prog σ ε α} {f f' : α → Prog σ ε β} (h : Alike m m')
    (hf : ∀ a, Alike (f a) (f' a)) : Alike (m >>= f) (m' >>= f') := by
  intro s
  obtain ⟨hv, hs⟩ := h s
  rcases hm : m s with ⟨e | a, t⟩ <;> rcases hm' : m' s with ⟨e' | a', t'⟩
  · rw [bind_run_error hm, bind_run_error hm']
    rw [hm, hm'] at hs
    exact ⟨rfl, hs⟩
  · rw [hm, hm'] at hv
    exact nomatch hv
  · rw [hm, hm'] at hv
    exact nomatch hv
  · rw [hm, hm'] at hv hs
    obtain rfl : a = a' := Option.some.inj hv
    obtain rfl : t = t' := hs
    rw [bind_run_ok hm, bind_run_ok hm']
    exact hf a t

end Prog

end PumpGrok
