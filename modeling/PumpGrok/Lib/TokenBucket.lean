import Mathlib

/-!
Token buckets. A bucket fills at a rate up to its capacity, and each grant takes one token. What
is granted in a window is then at most the capacity and what flows in over the window.
-/

namespace PumpGrok

variable {K : Type*} [Field K] [LinearOrder K] [IsStrictOrderedRing K]

/-- The tokens at a later time. -/
def refilled (rate capacity tokens updated now : K) : K :=
  min capacity (tokens + (now - updated) * rate)

/-- A bucket at its last update, with the times of its grants. -/
structure Metered (rate capacity tokens updated : K) (grants : List K) : Prop where
  nonneg : 0 ≤ tokens
  le_capacity : tokens ≤ capacity
  past : ∀ t ∈ grants, t ≤ updated
  since : ∀ a ≤ updated,
    (grants.countP fun t => a ≤ t : K) + tokens ≤ capacity + rate * (updated - a)
  windows : ∀ a b, a ≤ b →
    (grants.countP fun t => a ≤ t ∧ t ≤ b : K) ≤ capacity + rate * (b - a)

namespace Metered

variable {rate capacity tokens updated now : K} {grants : List K}

/-- A bucket starts full. -/
lemma start (hr : 0 ≤ rate) (hc : 0 ≤ capacity) (updated : K) :
    Metered rate capacity capacity updated [] where
  nonneg := hc
  le_capacity := le_rfl
  past t ht := by cases ht
  since a ha := by
    have := mul_nonneg hr (sub_nonneg.mpr ha)
    simpa using this
  windows a b hab := by
    have := mul_nonneg hr (sub_nonneg.mpr hab)
    simp only [List.countP_nil, Nat.cast_zero]
    linarith

/-- **A refill**: what flows in over the time since is all that the count of a window gains. -/
lemma refill (h : Metered rate capacity tokens updated grants) (hr : 0 ≤ rate)
    (hn : updated ≤ now) :
    Metered rate capacity (refilled rate capacity tokens updated now) now grants where
  nonneg := by
    have hflow := mul_nonneg (sub_nonneg.mpr hn) hr
    exact le_min (h.nonneg.trans h.le_capacity) (by linarith [h.nonneg])
  le_capacity := min_le_left _ _
  past t ht := (h.past t ht).trans hn
  since a ha := by
    rcases le_or_gt a updated with hold | hnew
    · have hle : refilled rate capacity tokens updated now ≤ tokens + (now - updated) * rate :=
        min_le_right _ _
      have hs := h.since a hold
      have hsplit : rate * (now - a) = rate * (updated - a) + (now - updated) * rate := by ring
      linarith
    · -- the window opens after the last update: nothing has been granted in it
      have hzero : grants.countP (fun t => a ≤ t) = 0 := by
        rw [List.countP_eq_zero]
        intro t ht
        simpa using (h.past t ht).trans_lt hnew
      have hle : refilled rate capacity tokens updated now ≤ capacity := min_le_left _ _
      have hflow := mul_nonneg hr (sub_nonneg.mpr ha)
      rw [hzero, Nat.cast_zero]
      linarith
  windows := h.windows

/-- **A grant** takes a token. -/
lemma grant (h : Metered rate capacity tokens updated grants) (hr : 0 ≤ rate)
    (ht : 1 ≤ tokens) : Metered rate capacity (tokens - 1) updated (grants ++ [updated]) where
  nonneg := sub_nonneg.mpr ht
  le_capacity := by linarith [h.le_capacity]
  past t htm := by
    rcases List.mem_append.mp htm with hold | hnew
    · exact h.past t hold
    · exact (List.mem_singleton.mp hnew).le
  since a ha := by
    have hs := h.since a ha
    rw [List.countP_append, List.countP_singleton, if_pos (by simpa using ha)]
    push_cast
    linarith
  windows a b hab := by
    rw [List.countP_append, List.countP_singleton]
    by_cases hin : a ≤ updated ∧ updated ≤ b
    · -- a grant inside the window is counted since its start
      have hs := h.since a hin.1
      have hcount : grants.countP (fun t => a ≤ t ∧ t ≤ b) ≤ grants.countP fun t => a ≤ t :=
        List.countP_mono_left fun t _ ht => by simp_all
      have hcast : (grants.countP (fun t => a ≤ t ∧ t ≤ b) : K) ≤
          grants.countP fun t => a ≤ t := by exact_mod_cast hcount
      have hflow := mul_le_mul_of_nonneg_left (sub_le_sub_right hin.2 a) hr
      rw [if_pos (by simpa using hin)]
      push_cast
      linarith
    · rw [if_neg (by simpa using hin), Nat.add_zero]
      exact h.windows a b hab

end Metered

/-- **A wait for the missing part of a token ends with a whole one.** -/
lemma one_le_refilled {rate capacity tokens updated now t : K} (hr : 0 < rate)
    (hc : 1 ≤ capacity) (hdue : updated + (1 - tokens) / rate = t) (hnow : t ≤ now) :
    1 ≤ refilled rate capacity tokens updated now := by
  apply le_min hc
  have hwait : (1 - tokens) / rate ≤ now - updated := by linarith
  have hflow : 1 - tokens ≤ (now - updated) * rate := (div_le_iff₀ hr).mp hwait
  linarith

end PumpGrok
