import Mathlib

/-!
Runs of a machine given by a step function, and the induction rule for its invariants.
-/

namespace PumpGrok

namespace Runs

variable {σ α : Type} (step : σ → α → σ)

/-- The state after a list of actions. -/
def after (s : σ) (as : List α) : σ := as.foldl step s

@[simp] lemma after_nil (s : σ) : after step s [] = s := rfl

@[simp] lemma after_cons (s : σ) (a : α) (as : List α) :
    after step s (a :: as) = after step (step s a) as := rfl

lemma after_append (s : σ) (as bs : List α) :
    after step s (as ++ bs) = after step (after step s as) bs := by
  simp [after, List.foldl_append]

@[simp] lemma after_snoc (s : σ) (as : List α) (a : α) :
    after step s (as ++ [a]) = step (after step s as) a := by
  simp [after]

/-- Every action of a run meets a condition on the state it is taken in. -/
def Along (C : σ → α → Prop) : σ → List α → Prop
  | _, [] => True
  | s, a :: as => C s a ∧ Along C (step s a) as

variable {step}

instance decidableAlong {C : σ → α → Prop} [∀ s a, Decidable (C s a)] :
    ∀ s as, Decidable (Along step C s as)
  | _, [] => .isTrue trivial
  | s, a :: as => @instDecidableAnd _ _ _ (decidableAlong (step s a) as)

lemma along_append {C : σ → α → Prop} {s : σ} {as bs : List α} :
    Along step C s (as ++ bs) ↔ Along step C s as ∧ Along step C (after step s as) bs := by
  induction as generalizing s with
  | nil => simp [Along]
  | cons a as ih => simp [Along, ih, and_assoc]

/-- A condition holds along a run when it holds at each of its cuts. -/
lemma along_iff_cuts {C : σ → α → Prop} {s : σ} {as : List α} :
    Along step C s as ↔ ∀ bs a, bs ++ [a] <+: as → C (after step s bs) a := by
  induction as generalizing s with
  | nil => simp [Along]
  | cons a as ih =>
    rw [Along, ih]
    constructor
    · rintro ⟨ha, hrest⟩ bs b hb
      rcases bs with - | ⟨c, bs⟩
      · obtain ⟨rfl, -⟩ := List.cons_prefix_cons.mp hb
        exact ha
      · obtain ⟨rfl, hbs⟩ := List.cons_prefix_cons.mp hb
        exact hrest bs b hbs
    · intro h
      refine ⟨h [] a ⟨as, rfl⟩, fun bs b hb => ?_⟩
      exact h (a :: bs) b (List.cons_prefix_cons.mpr ⟨rfl, hb⟩)

/-- **The invariant rule.** What the first state has and every step meeting the condition
preserves, every state of a run whose steps meet the condition has. -/
theorem invariant_along {C : σ → α → Prop} {I : σ → Prop}
    (hstep : ∀ s a, I s → C s a → I (step s a)) {s : σ} {as : List α} (hs : I s)
    (hc : Along step C s as) : I (after step s as) := by
  induction as generalizing s with
  | nil => exact hs
  | cons a as ih => exact ih (hstep s a hs hc.1) hc.2

theorem invariant {I : σ → Prop} (hstep : ∀ s a, I s → I (step s a)) {s : σ} (hs : I s)
    (as : List α) : I (after step s as) := by
  induction as generalizing s with
  | nil => exact hs
  | cons a as ih => exact ih (hstep s a hs)

/-- **The exact condition of a step property.** Where every step from a state with `J` has `P`
exactly when it meets the condition, and a step that has `P` keeps `J`, the runs all of whose steps
have `P` are the runs whose steps all meet the condition. -/
theorem along_iff_along {P C : σ → α → Prop} {J : σ → Prop} (hP : ∀ s a, J s → (P s a ↔ C s a))
    (hJ : ∀ s a, J s → P s a → J (step s a)) {s : σ} (hs : J s) (as : List α) :
    Along step P s as ↔ Along step C s as := by
  induction as generalizing s with
  | nil => exact Iff.rfl
  | cons a as ih =>
    constructor
    · rintro ⟨ha, hrest⟩
      exact ⟨(hP s a hs).mp ha, (ih (hJ s a hs ha)).mp hrest⟩
    · rintro ⟨ha, hrest⟩
      have ha' := (hP s a hs).mpr ha
      exact ⟨ha', (ih (hJ s a hs ha')).mpr hrest⟩

/-- **The exact condition of an invariant.** Where every step from a state with `P` keeps `P`
exactly when it meets the condition, the runs that have `P` throughout are the runs whose steps
all meet it. `J` holds in every state anyway. -/
theorem always_iff_along {C : σ → α → Prop} {J P : σ → Prop} (hJ : ∀ s a, J s → J (step s a))
    (hP : ∀ s a, J s → P s → (P (step s a) ↔ C s a)) {s : σ} (hs : J s) (hp : P s) (as : List α) :
    (∀ bs, bs <+: as → P (after step s bs)) ↔ Along step C s as := by
  induction as generalizing s with
  | nil =>
    refine ⟨fun _ => trivial, fun _ bs hbs => ?_⟩
    rw [List.prefix_nil.mp hbs]
    exact hp
  | cons a as ih =>
    constructor
    · intro h
      have ha : P (step s a) := h [a] ⟨as, rfl⟩
      refine ⟨(hP s a hs hp).mp ha, (ih (hJ s a hs) ha).mp fun bs hbs => ?_⟩
      exact h (a :: bs) (List.cons_prefix_cons.mpr ⟨rfl, hbs⟩)
    · rintro ⟨ha, hr⟩ bs hbs
      have ha' := (hP s a hs hp).mpr ha
      rcases bs with - | ⟨b, bs⟩
      · exact hp
      · obtain ⟨rfl, hbs'⟩ := List.cons_prefix_cons.mp hbs
        exact (ih (hJ s b hs) ha').mpr hr bs hbs'

/-- What every step relates, by a reflexive and transitive relation, a run relates. -/
theorem related {R : σ → σ → Prop} (hr : ∀ s, R s s) (ht : ∀ s t u, R s t → R t u → R s u)
    (hstep : ∀ s a, R s (step s a)) (s : σ) (as : List α) : R s (after step s as) := by
  induction as generalizing s with
  | nil => exact hr s
  | cons a as ih => exact ht _ _ _ (hstep s a) (ih (step s a))

end Runs

end PumpGrok
