import Mathlib

/-!
Rounding halves up, and rounding to a number of significant decimal digits, halves to even: when a
quotient of integers below one is rounded up to one.
-/

namespace PumpGrok

namespace Decimals

/-- The nearest integer; of two, the even one. -/
def roundHalfEven (x : ℚ) : ℤ :=
  if x - ⌊x⌋ < 1 / 2 then ⌊x⌋
  else if 1 / 2 < x - ⌊x⌋ then ⌊x⌋ + 1
  else if ⌊x⌋ % 2 = 0 then ⌊x⌋
  else ⌊x⌋ + 1

/-- The nearest integer; of two, the one away from zero. -/
def roundHalfUp (x : ℚ) : ℤ := if 0 ≤ x then ⌊x + 1 / 2⌋ else ⌈x - 1 / 2⌉

lemma roundHalfUp_intCast (k : ℤ) : roundHalfUp k = k := by
  unfold roundHalfUp
  split_ifs
  · rw [Int.floor_eq_iff]
    constructor <;> linarith
  · rw [Int.ceil_eq_iff]
    constructor <;> linarith

lemma roundHalfUp_mono {x y : ℚ} (h : x ≤ y) : roundHalfUp x ≤ roundHalfUp y := by
  unfold roundHalfUp
  split_ifs with hx hy hy
  · exact Int.floor_le_floor (by linarith)
  · exact absurd (hx.trans h) hy
  · have hneg : ⌈x - 1 / 2⌉ ≤ 0 := Int.ceil_le.mpr (by push_cast; linarith)
    have hpos : 0 ≤ ⌊y + 1 / 2⌋ := Int.floor_nonneg.mpr (by linarith)
    exact hneg.trans hpos
  · exact Int.ceil_le_ceil (by linarith)

/-- `n` significant digits of a number. -/
def significant (n : ℕ) (q : ℚ) : ℚ :=
  roundHalfEven (q / 10 ^ (Int.log 10 |q| - (n - 1))) * 10 ^ (Int.log 10 |q| - (n - 1))

/-- An even integer is reached from a half below it. -/
lemma le_roundHalfEven_iff {k : ℤ} (hk : Even k) {x : ℚ} :
    k ≤ roundHalfEven x ↔ (k : ℚ) - 1 / 2 ≤ x := by
  have hlo : (⌊x⌋ : ℚ) ≤ x := Int.floor_le x
  have hhi : x < ⌊x⌋ + 1 := Int.lt_floor_add_one x
  have hcast : ∀ a b : ℤ, ((a : ℚ) ≤ b ↔ a ≤ b) ∧ ((a : ℚ) < b ↔ a < b) :=
    fun a b => ⟨Int.cast_le, Int.cast_lt⟩
  unfold roundHalfEven
  split_ifs with hbelow habove heven
  · constructor
    · intro h
      have := (hcast k ⌊x⌋).1.mpr h
      linarith
    · intro h
      have hlt : (k : ℚ) < ((⌊x⌋ + 1 : ℤ) : ℚ) := by
        push_cast
        linarith
      exact Int.lt_add_one_iff.mp ((hcast _ _).2.mp hlt)
  · constructor
    · intro h
      have := (hcast k (⌊x⌋ + 1)).1.mpr h
      push_cast at this
      linarith
    · intro h
      have hlt : (k : ℚ) < ((⌊x⌋ + 1 + 1 : ℤ) : ℚ) := by
        push_cast
        linarith
      exact Int.lt_add_one_iff.mp ((hcast _ _).2.mp hlt)
  all_goals have hx : x = ⌊x⌋ + 1 / 2 := by linarith
  · -- a half above an even integer: the even `k` is not the odd one above
    constructor
    · intro h
      have := (hcast k ⌊x⌋).1.mpr h
      linarith
    · intro h
      have hle : k ≤ ⌊x⌋ + 1 := by
        refine (hcast _ _).1.mp ?_
        push_cast
        linarith
      obtain ⟨j, hj⟩ := hk
      omega
  · constructor
    · intro h
      have := (hcast k (⌊x⌋ + 1)).1.mpr h
      push_cast at this
      linarith
    · intro h
      refine (hcast _ _).1.mp ?_
      push_cast
      linarith

lemma roundHalfEven_le {k : ℤ} {x : ℚ} (h : x ≤ k) : roundHalfEven x ≤ k := by
  have hlo : (⌊x⌋ : ℚ) ≤ x := Int.floor_le x
  have hfloor : ⌊x⌋ ≤ k := Int.cast_le.mp (hlo.trans h)
  have hstrict : ⌊x⌋ < x → ⌊x⌋ + 1 ≤ k := fun hlt => Int.cast_lt.mp (hlt.trans_le h)
  unfold roundHalfEven
  split_ifs with hbelow habove heven
  · exact hfloor
  · exact hstrict (by linarith)
  · exact hfloor
  · exact hstrict (by linarith)

lemma significant_nonpos (n : ℕ) {q : ℚ} (h : q ≤ 0) : significant n q ≤ 0 := by
  have hpos : ∀ z : ℤ, (0 : ℚ) < 10 ^ z := fun z => zpow_pos (by norm_num) z
  have hround := roundHalfEven_le (k := 0) (x := q / 10 ^ (Int.log 10 |q| - (n - 1)))
    (by simpa using div_nonpos_of_nonpos_of_nonneg h (hpos _).le)
  exact mul_nonpos_of_nonpos_of_nonneg (by exact_mod_cast hround) (hpos _).le

/-- **Up to one.** A number up to one has one as its `n` digits, or more, exactly when it is within
half a digit of one. -/
theorem one_le_significant {n : ℕ} (hn : 1 ≤ n) {q : ℚ} (h1 : q ≤ 1) :
    1 ≤ significant n q ↔ 1 ≤ q + 1 / (2 * 10 ^ n) := by
  have hten : (0 : ℚ) < 10 ^ n := by positivity
  have hhalf : 1 / (2 * (10 : ℚ) ^ n) ≤ 1 / 20 := by
    have : (10 : ℚ) ^ 1 ≤ 10 ^ n := pow_le_pow_right₀ (by norm_num) hn
    rw [div_le_div_iff₀ (by positivity) (by norm_num)]
    linarith
  rcases le_or_gt q 0 with h0 | h0
  · have hle := significant_nonpos n h0
    exact ⟨fun h => by linarith, fun h => by linarith⟩
  have hlt : ∀ z : ℤ, q < (10 : ℚ) ^ z ↔ Int.log 10 q < z := fun z => by
    simpa using Int.lt_zpow_iff_log_lt (b := 10) (by norm_num) (x := z) h0
  have hle : ∀ z : ℤ, (10 : ℚ) ^ z ≤ q ↔ z ≤ Int.log 10 q := fun z => by
    simpa using Int.zpow_le_iff_le_log (b := 10) (by norm_num) (x := z) h0
  unfold significant
  rw [abs_of_pos h0]
  rcases h1.eq_or_lt with rfl | h1
  · have hlog : Int.log 10 (1 : ℚ) = 0 := Int.log_one_right 10
    have hx : (1 : ℚ) / 10 ^ ((0 : ℤ) - (n - 1)) = ((10 ^ (n - 1) : ℤ) : ℚ) := by
      have hexp : (0 : ℤ) - ((n : ℤ) - 1) = -((n - 1 : ℕ) : ℤ) := by omega
      rw [hexp, zpow_neg, zpow_natCast]
      push_cast
      field_simp
    have hround : ∀ k : ℤ, roundHalfEven (k : ℚ) = k := fun k => by
      simp [roundHalfEven]
    rw [hlog, hx, hround, ← hx]
    have hne : (10 : ℚ) ^ ((0 : ℤ) - (n - 1)) ≠ 0 := (zpow_pos (by norm_num) _).ne'
    rw [div_mul_cancel₀ _ hne]
    exact ⟨fun _ => by linarith [show (0 : ℚ) ≤ 1 / (2 * 10 ^ n) by positivity], fun _ => le_rfl⟩
  · have hneg : Int.log 10 q < 0 := (hlt 0).mp (by simpa using h1)
    by_cases hsmall : q < 1 / 10
    · -- below a tenth: the digits stay below a tenth, or at it
      have hlog : Int.log 10 q < -1 := (hlt (-1)).mp (by simpa using hsmall)
      set e : ℤ := Int.log 10 q - (n - 1) with he
      have hepos : (0 : ℚ) < 10 ^ e := zpow_pos (by norm_num) _
      have hx : q / 10 ^ e ≤ ((10 ^ n : ℤ) : ℚ) := by
        rw [div_le_iff₀ hepos]
        have hq : q < 10 ^ (Int.log 10 q + 1) := (hlt _).mpr (by omega)
        calc q ≤ 10 ^ (Int.log 10 q + 1) := hq.le
          _ = ((10 ^ n : ℤ) : ℚ) * 10 ^ e := by
            push_cast
            rw [← zpow_natCast, ← zpow_add₀ (by norm_num : (10 : ℚ) ≠ 0), he]
            congr 1
            omega
      have hround : (roundHalfEven (q / 10 ^ e) : ℚ) ≤ ((10 ^ n : ℤ) : ℚ) :=
        Int.cast_le.mpr (roundHalfEven_le hx)
      have hval : (roundHalfEven (q / 10 ^ e) : ℚ) * 10 ^ e ≤ 1 / 10 := by
        calc (roundHalfEven (q / 10 ^ e) : ℚ) * 10 ^ e ≤ ((10 ^ n : ℤ) : ℚ) * 10 ^ e :=
              mul_le_mul_of_nonneg_right hround hepos.le
          _ = 10 ^ (Int.log 10 q + 1) := by
            push_cast
            rw [← zpow_natCast, ← zpow_add₀ (by norm_num : (10 : ℚ) ≠ 0), he]
            congr 1
            omega
          _ ≤ 10 ^ (-1 : ℤ) := zpow_le_zpow_right₀ (by norm_num) (by omega)
          _ = 1 / 10 := by norm_num
      constructor
      · intro h
        linarith
      · intro h
        linarith
    · have hlog : Int.log 10 q = -1 := by
        have : -1 ≤ Int.log 10 q := (hle (-1)).mp (by simpa using not_lt.mp hsmall)
        omega
      have hexp : (-1 : ℤ) - ((n : ℤ) - 1) = -(n : ℤ) := by omega
      have heven : Even ((10 : ℤ) ^ n) := (by decide : Even (10 : ℤ)).pow_of_ne_zero (by omega)
      rw [hlog, hexp, zpow_neg, zpow_natCast, div_inv_eq_mul, ← div_eq_mul_inv,
        le_div_iff₀ hten, one_mul]
      have hcast : (10 : ℚ) ^ n = ((10 ^ n : ℤ) : ℚ) := by push_cast; rfl
      rw [hcast, Int.cast_le, le_roundHalfEven_iff heven, ← hcast]
      have hsplit : (1 : ℚ) / (2 * 10 ^ n) * 10 ^ n = 1 / 2 := by field_simp
      constructor
      · intro h
        have : 1 * 10 ^ n ≤ (q + 1 / (2 * 10 ^ n)) * (10 : ℚ) ^ n := by
          rw [add_mul, hsplit]
          linarith
        exact le_of_mul_le_mul_right this hten
      · intro h
        have := mul_le_mul_of_nonneg_right h hten.le
        rw [add_mul, hsplit] at this
        linarith

/-- A quotient is rounded to one, or above, exactly when what it lacks is small against `s`. -/
theorem one_le_significant_div {n : ℕ} (hn : 1 ≤ n) {f s : ℤ} (hs : 0 < s) (hfs : f ≤ s) :
    1 ≤ significant n (f / s) ↔ 2 * 10 ^ n * (s - f) ≤ s := by
  have hs : (0 : ℚ) < s := by exact_mod_cast hs
  have hle : (f : ℚ) / s ≤ 1 := (div_le_one hs).mpr (by exact_mod_cast hfs)
  have hten : (0 : ℚ) < 2 * 10 ^ n := by positivity
  rw [one_le_significant hn hle, div_add_div _ _ hs.ne' hten.ne',
    le_div_iff₀ (mul_pos hs hten)]
  have hcast : (2 * 10 ^ n * (s - f) ≤ s) ↔ (2 * 10 ^ n * ((s : ℚ) - f) ≤ s) := by
    exact_mod_cast Iff.rfl
  rw [hcast]
  constructor <;> intro h <;> linarith

end Decimals

end PumpGrok
