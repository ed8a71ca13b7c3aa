import Mathlib.Logic.Function.Basic
import PumpGrok.Lib.Runs

/-!
Things that are started, and then settled or lost once and for all, in a system that takes step
after step.
-/

namespace PumpGrok

inductive Phase where
  | live
  | settled
  | lost
  deriving DecidableEq

namespace Phase

variable {α : Type} [DecidableEq α]

/-- One step of a lifecycle: nothing, or one thing is started, settled, or lost for a reason. -/
inductive Turn (lose : α → Prop) (f f' : α → Option Phase) : Prop
  | same (h : f' = f)
  | start (x : α) (h : f x = none) (h' : f' = Function.update f x (some .live))
  | settle (x : α) (h : f x = some .live) (h' : f' = Function.update f x (some .settled))
  | lose (x : α) (hl : lose x) (h : f x = some .live)
      (h' : f' = Function.update f x (some .lost))

variable {lose : α → Prop} {f f' : α → Option Phase} {x : α} {z : Phase}

/-- What is settled or lost stays so. -/
lemma Turn.final (t : Turn lose f f') (hz : z ≠ .live) (h : f x = some z) : f' x = some z := by
  have hkeep : ∀ y s, f y = none ∨ f y = some .live → Function.update f y s x = f x := by
    intro y s hy
    refine Function.update_of_ne ?_ _ _
    rintro rfl
    rcases hy with hy | hy <;> rw [hy] at h
    · cases h
    · exact hz (Option.some.inj h).symm
  cases t with
  | same he => rw [he, h]
  | start y hy he => rw [he, hkeep y _ (.inl hy), h]
  | settle y hy he => rw [he, hkeep y _ (.inr hy), h]
  | lose y hl hy he => rw [he, hkeep y _ (.inr hy), h]

/-- What is lost was lost before, or is lost in this step. -/
lemma Turn.lost (t : Turn lose f f') (h : f' x = some .lost) : f x = some .lost ∨ lose x := by
  have hback : ∀ y s, s ≠ some .lost → f' = Function.update f y s → f x = some .lost := by
    intro y s hs he
    rw [he, Function.update_apply] at h
    split_ifs at h
    · exact absurd h hs
    · exact h
  cases t with
  | same he => exact .inl (he ▸ h)
  | start y hy he => exact .inl (hback y _ (by simp) he)
  | settle y hy he => exact .inl (hback y _ (by simp) he)
  | lose y hl hy he =>
    rw [he, Function.update_apply] at h
    split_ifs at h with hx
    · exact .inr (hx ▸ hl)
    · exact .inl h

/-! ### Whole runs -/

section Runs

variable {σ ι : Type} {step : σ → ι → σ} {s₀ : σ} {view : σ → α → Option Phase}
  {lose : σ → ι → α → Prop}
  (hstep : ∀ as a, Turn (lose (Runs.after step s₀ as) a) (view (Runs.after step s₀ as))
    (view (Runs.after step s₀ (as ++ [a]))))
include hstep

/-- **What is settled or lost** stays so in every continuation of a run. -/
theorem final_after (hz : z ≠ .live) {as : List ι} (h : view (Runs.after step s₀ as) x = some z)
    (bs : List ι) : view (Runs.after step s₀ (as ++ bs)) x = some z := by
  induction bs using List.reverseRecOn with
  | nil => simpa using h
  | append_singleton bs a ih =>
    rw [← List.append_assoc]
    exact (hstep (as ++ bs) a).final hz ih

/-- **What is lost** was lost in some step of the run. -/
theorem lost_traced (hstart : ∀ y, view s₀ y ≠ some .lost) {as : List ι}
    (h : view (Runs.after step s₀ as) x = some .lost) :
    ∃ bs a, bs ++ [a] <+: as ∧ lose (Runs.after step s₀ bs) a x := by
  induction as using List.reverseRecOn with
  | nil => exact absurd h (hstart x)
  | append_singleton as a ih =>
    rcases (hstep as a).lost h with hbefore | hnow
    · obtain ⟨bs, b, hp, hl⟩ := ih hbefore
      exact ⟨bs, b, hp.trans (List.prefix_append _ _), hl⟩
    · exact ⟨as, a, List.prefix_refl _, hnow⟩

end Runs

end Phase

end PumpGrok
