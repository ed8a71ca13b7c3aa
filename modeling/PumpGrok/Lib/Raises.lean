import PumpGrok.Lib.Prog

/-!
What a program may raise: a condition on exceptions, carried from the parts of a program to the
whole.
-/

namespace PumpGrok

namespace Prog

variable {σ τ ε ε' α β : Type}

/-- Whatever a program raises meets a condition. -/
def Raises (P : ε → Prop) (m : Prog σ ε α) : Prop := ∀ s x, (m s).1 = .error x → P x

namespace Raises

variable {P : ε → Prop} {Q : ε' → Prop}

lemma run {m : Prog σ ε α} (h : Raises P m) {s s' : σ} {x : ε} (hr : m s = (.error x, s')) :
    P x := h s x (by rw [hr])

lemma pure (a : α) : Raises P (Pure.pure a : Prog σ ε α) := fun _ _ h => nomatch h

lemma read (g : σ → α) : Raises P (Prog.read g : Prog σ ε α) := fun _ _ h => nomatch h

lemma modify (f : σ → σ) : Raises P (Prog.modify f : Prog σ ε Unit) := fun _ _ h => nomatch h

lemma raise {e : ε} (he : P e) : Raises P (Prog.raise e : Prog σ ε α) := by
  intro s x h
  obtain rfl := Except.error.inj h
  exact he

lemma raiseIf {c : Prop} [Decidable c] {e : ε} (he : P e) :
    Raises P (Prog.raiseIf c e : Prog σ ε Unit) := by
  intro s x h
  unfold Prog.raiseIf at h
  split_ifs at h
  obtain rfl := Except.error.inj h
  exact he

lemma resultOf {f : σ → Except ε α} {put : α → σ → σ} (hf : ∀ s x, f s = .error x → P x) :
    Raises P (Prog.resultOf f put) := by
  intro s x h
  unfold Prog.resultOf at h
  rcases hs : f s with e | a
  · rw [hs] at h
    obtain rfl := Except.error.inj h
    exact hf s e hs
  · rw [hs] at h
    exact nomatch h

/-- A program on a part of the state. -/
lemma on {get : σ → τ} {put : τ → σ → σ} {m : Prog τ ε α} (h : Raises P m) :
    Raises P (Prog.on get put m) := fun s x hx => h (get s) x hx

lemma bind {m : Prog σ ε α} {f : α → Prog σ ε β} (hm : Raises P m) (hf : ∀ a, Raises P (f a)) :
    Raises P (m >>= f) := by
  intro s x h
  rcases hs : m s with ⟨e | a, s'⟩
  · rw [bind_run_error hs] at h
    obtain rfl := Except.error.inj h
    exact hm.run hs
  · rw [bind_run_ok hs] at h
    exact hf a s' x h

lemma ite {c : Prop} [Decidable c] {m n : Prog σ ε α} (hm : Raises P m) (hn : Raises P n) :
    Raises P (if c then m else n) := by
  split_ifs <;> assumption

end Raises

end Prog

end PumpGrok
