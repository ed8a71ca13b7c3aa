import Mathlib

/-!
Numerals of a fixed width, most significant digit first. Below `b ^ w` every number has a numeral
of its own, and over letters in increasing order the numerals are ordered as the numbers are.
-/

namespace PumpGrok

namespace Positional

variable {α : Type}

/-- The numeral of the last `w` digits of a number. -/
def numeral (letter : ℕ → α) (b : ℕ) : ℕ → ℕ → List α
  | 0, _ => []
  | w + 1, v => numeral letter b w (v / b) ++ [letter (v % b)]

variable {letter : ℕ → α} {b : ℕ}

@[simp] lemma length_numeral (w v : ℕ) : (numeral letter b w v).length = w := by
  induction w generalizing v with
  | zero => rfl
  | succ w ih => simp [numeral, ih]

lemma mem_numeral {w v : ℕ} (hb : 0 < b) {c : α} (h : c ∈ numeral letter b w v) :
    ∃ d < b, c = letter d := by
  induction w generalizing v with
  | zero => simp [numeral] at h
  | succ w ih =>
    rw [numeral, List.mem_append, List.mem_singleton] at h
    rcases h with h | rfl
    · exact ih h
    · exact ⟨v % b, Nat.mod_lt _ hb, rfl⟩

/-- Only the last digits are written. -/
lemma numeral_mod (w v : ℕ) : numeral letter b w (v % b ^ w) = numeral letter b w v := by
  induction w generalizing v with
  | zero => rfl
  | succ w ih =>
    have hdiv : v % b ^ (w + 1) / b = v / b % b ^ w := by
      rw [pow_succ', Nat.mod_mul_right_div_self]
    have hmod : v % b ^ (w + 1) % b = v % b := Nat.mod_mod_of_dvd _ (dvd_pow_self b (by omega))
    rw [numeral, numeral, hdiv, hmod, ih]

variable [LinearOrder α]

/-- Two lists of one length are compared at their last letters when the rest is equal. -/
lemma snoc_lt_snoc {l r : List α} (h : l.length = r.length) {x y : α} :
    l ++ [x] < r ++ [y] ↔ l < r ∨ l = r ∧ x < y := by
  induction l generalizing r with
  | nil =>
    obtain rfl : r = [] := List.eq_nil_of_length_eq_zero h.symm
    simp [List.cons_lt_cons_iff]
  | cons a l ih =>
    rcases r with - | ⟨c, r⟩
    · simp at h
    · have hl : l.length = r.length := by simpa using h
      rw [List.cons_append, List.cons_append, List.cons_lt_cons_iff, List.cons_lt_cons_iff, ih hl,
        List.cons.injEq]
      tauto

/-- **The order of numerals** is the order of numbers, as long as they fit. -/
theorem numeral_lt_iff (hletter : ∀ i j, i < b → j < b → (letter i < letter j ↔ i < j)) {w u v : ℕ}
    (hu : u < b ^ w) (hv : v < b ^ w) : numeral letter b w u < numeral letter b w v ↔ u < v := by
  induction w generalizing u v with
  | zero =>
    have : u = v := by simp only [pow_zero] at hu hv; omega
    simp [numeral, this]
  | succ w ih =>
    have hb : 0 < b := Nat.pos_of_ne_zero fun h => by simp [h] at hu
    have hu' : u / b < b ^ w := Nat.div_lt_of_lt_mul (by rwa [← pow_succ'])
    have hv' : v / b < b ^ w := Nat.div_lt_of_lt_mul (by rwa [← pow_succ'])
    have hle : ∀ {x y : ℕ}, x < b ^ w → y < b ^ w →
        (numeral letter b w x = numeral letter b w y ↔ x = y) := by
      intro x y hx hy
      refine ⟨fun h => ?_, fun h => h ▸ rfl⟩
      by_contra hne
      rcases Nat.lt_or_gt_of_ne hne with hlt | hlt
      · exact (lt_irrefl _ (h ▸ (ih hx hy).mpr hlt))
      · exact (lt_irrefl _ (h ▸ (ih hy hx).mpr hlt))
    rw [numeral, numeral, snoc_lt_snoc (by simp), ih hu' hv', hle hu' hv',
      hletter _ _ (Nat.mod_lt _ hb) (Nat.mod_lt _ hb)]
    have hdu := Nat.div_add_mod u b
    have hdv := Nat.div_add_mod v b
    constructor
    · rintro (h | ⟨h, h'⟩)
      · exact lt_of_not_ge fun hge => absurd (Nat.div_le_div_right hge) (not_le.mpr h)
      · rw [h] at hdu
        omega
    · intro h
      rcases (Nat.div_le_div_right (c := b) h.le).lt_or_eq with hlt | heq
      · exact .inl hlt
      · refine .inr ⟨heq, ?_⟩
        rw [heq] at hdu
        omega

/-- Below `b ^ w` a numeral stands for one number. -/
theorem numeral_inj (hletter : ∀ i j, i < b → j < b → (letter i < letter j ↔ i < j)) {w u v : ℕ}
    (hu : u < b ^ w) (hv : v < b ^ w) : numeral letter b w u = numeral letter b w v ↔ u = v := by
  refine ⟨fun h => ?_, fun h => h ▸ rfl⟩
  by_contra hne
  rcases Nat.lt_or_gt_of_ne hne with hlt | hlt
  · exact lt_irrefl _ (h ▸ (numeral_lt_iff hletter hu hv).mpr hlt)
  · exact lt_irrefl _ (h ▸ (numeral_lt_iff hletter hv hu).mpr hlt)

end Positional

end PumpGrok
