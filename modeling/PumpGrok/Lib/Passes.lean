import PumpGrok.Lib.Prog

/-!
Relations a program keeps where it returns: what it does before it raises is left out of account,
so a program that raises keeps any.
-/

namespace PumpGrok

namespace Prog

variable {σ τ ε α β : Type}

/-- Every run of `m` that returns relates the state before to the state after. -/
def Passes (R : σ → σ → Prop) (m : Prog σ ε α) : Prop := ∀ s a s', m s = (.ok a, s') → R s s'

namespace Passes

variable {R : σ → σ → Prop}

lemma of_keeps {m : Prog σ ε α} (h : Keeps R m) : Passes R m := fun _ _ _ hr => h.run hr

lemma modify {f : σ → σ} (h : ∀ s, R s (f s)) : Passes R (Prog.modify f : Prog σ ε Unit) :=
  of_keeps (.modify h)

lemma raise (e : ε) : Passes R (Prog.raise e : Prog σ ε α) := by
  intro s a s' h
  cases h

lemma ite {c : Prop} [Decidable c] {m n : Prog σ ε α} (hm : Passes R m) (hn : Passes R n) :
    Passes R (if c then m else n) := by
  split_ifs <;> assumption

variable [IsPreorder σ R]

lemma pure (a : α) : Passes R (Pure.pure a : Prog σ ε α) := of_keeps (.pure a)

lemma read (g : σ → α) : Passes R (Prog.read g : Prog σ ε α) := of_keeps (.read g)

lemma raiseIf (c : Prop) [Decidable c] (e : ε) : Passes R (Prog.raiseIf c e : Prog σ ε Unit) :=
  of_keeps (.raiseIf c e)

lemma bind {m : Prog σ ε α} {f : α → Prog σ ε β} (hm : Passes R m) (hf : ∀ a, Passes R (f a)) :
    Passes R (m >>= f) := by
  intro s b s' h
  obtain ⟨a, s₁, h₁, h₂⟩ := bind_ok_iff.mp h
  exact trans_of R (hm s a s₁ h₁) (hf a s₁ b s' h₂)

end Passes

end Prog

end PumpGrok
