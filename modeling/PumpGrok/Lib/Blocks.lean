import Mathlib

/-!
A line cut at edges. Block `k` runs from edge `k`, included, to edge `k + 1`, excluded; edges that
go up put every point between the first and the last into exactly one block. The even cut of `m`
places into `n + 1` blocks has its edges at `j * m / (n + 1)`.
-/

namespace PumpGrok

namespace Blocks

section Edges

variable {α : Type} [LinearOrder α] {edge : ℕ → α}

lemma le_edge {n : ℕ} (h : ∀ k, 1 ≤ k → k ≤ n → edge k ≤ edge (k + 1)) : edge 1 ≤ edge (n + 1) := by
  induction n with
  | zero => exact le_rfl
  | succ n ih =>
    exact (ih fun k hk hkn => h k hk (by omega)).trans (h (n + 1) (by omega) le_rfl)

/-- **Every point is in one block.** -/
theorem countP_blocks {n : ℕ} (h : ∀ k, 1 ≤ k → k ≤ n → edge k ≤ edge (k + 1)) (t : α) :
    (List.range' 1 n).countP (fun k => edge k ≤ t && t < edge (k + 1)) =
      if edge 1 ≤ t ∧ t < edge (n + 1) then 1 else 0 := by
  induction n with
  | zero =>
    have hnot : ¬ (edge 1 ≤ t ∧ t < edge (0 + 1)) := fun hx => absurd hx.2 (not_lt.mpr hx.1)
    rw [if_neg hnot]
    rfl
  | succ n ih =>
    have hfirst := le_edge fun k hk (hkn : k ≤ n) => h k hk (by omega)
    have hlast := h (n + 1) (by omega) le_rfl
    rw [List.range'_concat, List.countP_append, ih fun k hk hkn => h k hk (by omega),
      List.countP_singleton, show 1 + 1 * n = n + 1 by omega]
    rcases lt_or_ge t (edge (n + 1)) with ht | ht
    · have hnext := ht.trans_le hlast
      simp [ht, hnext, not_le.mpr ht]
    · simp [not_lt.mpr ht, ht, hfirst.trans ht]

end Edges

/-! ### The even cut -/

/-- Edge `j` of `m` places in `n + 1` blocks. -/
def cut (m n j : ℕ) : ℕ := j * m / (n + 1)

variable {m n j : ℕ}

lemma cut_last : cut m n (n + 1) = m := by simp [cut]

/-- No block is empty while there are as many places as blocks. -/
lemma cut_lt_succ (h : n + 1 ≤ m) : cut m n j < cut m n (j + 1) := by
  unfold cut
  rw [Nat.add_one_mul j m, Nat.div_lt_iff_lt_mul (by omega)]
  have hdiv := Nat.div_add_mod (j * m + m) (n + 1)
  have hmod := Nat.mod_lt (j * m + m) (show 0 < n + 1 by omega)
  rw [mul_comm ((j * m + m) / (n + 1))]
  omega

lemma cut_lt (h : n + 1 ≤ m) (hj : j ≤ n) : cut m n j < m := by
  have hmono : cut m n j ≤ cut m n n := Nat.div_le_div_right (Nat.mul_le_mul_right m hj)
  have hlast := cut_lt_succ (j := n) h
  rw [cut_last] at hlast
  omega

end Blocks

end PumpGrok
