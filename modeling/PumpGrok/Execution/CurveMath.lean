import PumpGrok.Core.Types

/-!
Constant-product curve arithmetic on virtual reserves, and the fees of one fill. Quotients
floor.
-/

namespace PumpGrok

def spot (sLamports tUnits : ℤ) : Except Exc ℚ :=
  if tUnits ≤ 0 then .error .valueError else .ok (sLamports / tUnits)

/-- Token units for `xLamports` in, net of the venue fee. -/
def buyOut (sLamports tUnits xLamports : ℤ) : Except Exc ℤ :=
  if sLamports ≤ 0 ∨ tUnits ≤ 0 then .error .valueError
  else if xLamports ≤ 0 then .error .valueError
  else .ok (tUnits * xLamports / (sLamports + xLamports))

/-- Lamports for `tUnitsIn` tokens in, gross of the venue fee. -/
def sellOut (sLamports tUnits tUnitsIn : ℤ) : Except Exc ℤ :=
  if sLamports ≤ 0 ∨ tUnits ≤ 0 then .error .valueError
  else if tUnitsIn ≤ 0 then .error .valueError
  else .ok (sLamports * tUnitsIn / (tUnits + tUnitsIn))

/-- Reserves after a buy fill of `xLamports`, net of the venue fee. -/
def postBuy (sLamports tUnits xLamports : ℤ) : Except Exc (ℤ × ℤ) := do
  return (sLamports + xLamports, tUnits - (← buyOut sLamports tUnits xLamports))

def postSell (sLamports tUnits tUnitsIn : ℤ) : Except Exc (ℤ × ℤ) := do
  return (sLamports - (← sellOut sLamports tUnits tUnitsIn), tUnits + tUnitsIn)

def impactBuy (sLamports xLamports : ℤ) : Except Exc ℚ :=
  if sLamports ≤ 0 then .error .valueError else .ok (xLamports / sLamports)

def impactSell (tUnits tUnitsIn : ℤ) : Except Exc ℚ :=
  if tUnits ≤ 0 then .error .valueError else .ok (tUnitsIn / (tUnits + tUnitsIn))

/-- A quotient of two integers as a decimal; it raises on a zero divisor. -/
def decimalDiv (a b : ℤ) : Except Exc ℚ :=
  if b = 0 then .error .divisionByZero else .ok (a / b)

lemma buyOut_ok_iff {s t x out : ℤ} :
    buyOut s t x = .ok out ↔ 0 < s ∧ 0 < t ∧ 0 < x ∧ out = t * x / (s + x) := by
  unfold buyOut
  split_ifs with h h'
  · simp only [false_iff]
    omega
  · simp only [false_iff]
    omega
  · simp only [Except.ok.injEq]
    constructor
    · rintro rfl
      exact ⟨by omega, by omega, by omega, rfl⟩
    · rintro ⟨-, -, -, rfl⟩
      rfl

lemma sellOut_ok_iff {s t x out : ℤ} :
    sellOut s t x = .ok out ↔ 0 < s ∧ 0 < t ∧ 0 < x ∧ out = s * x / (t + x) := by
  unfold sellOut
  split_ifs with h h'
  · simp only [false_iff]
    omega
  · simp only [false_iff]
    omega
  · simp only [Except.ok.injEq]
    constructor
    · rintro rfl
      exact ⟨by omega, by omega, by omega, rfl⟩
    · rintro ⟨-, -, -, rfl⟩
      rfl

lemma decimalDiv_ok_iff {a b : ℤ} {q : ℚ} : decimalDiv a b = .ok q ↔ b ≠ 0 ∧ q = a / b := by
  unfold decimalDiv
  split_ifs with h <;> simp [h, eq_comm]

lemma buyOut_nonneg {s t x out : ℤ} (h : buyOut s t x = .ok out) : 0 ≤ out := by
  obtain ⟨hs, ht, hx, rfl⟩ := buyOut_ok_iff.mp h
  exact Int.ediv_nonneg (by positivity) (by omega)

lemma sellOut_nonneg {s t x out : ℤ} (h : sellOut s t x = .ok out) : 0 ≤ out := by
  obtain ⟨hs, ht, hx, rfl⟩ := sellOut_ok_iff.mp h
  exact Int.ediv_nonneg (by positivity) (by omega)

/-! ### Fees -/

structure FeeModel where
  venueFeeBps : ℕ := 100
  baseFeeLamports : ℕ := 5000
  computeUnits : ℕ := 200000
  microLamportsPerCu : ℕ := 20000
  deriving DecidableEq

namespace FeeModel

variable (fees : FeeModel)

def venueFee (sizeLamports : ℤ) : ℤ := sizeLamports * fees.venueFeeBps / 10000

def priorityFee : ℤ := fees.microLamportsPerCu * fees.computeUnits / 1000000

/-- The cost of landing, or failing, one transaction. -/
def networkCost : ℤ := fees.baseFeeLamports + fees.priorityFee

/-- Lamports that enter the curve for a buy fill. -/
def buyNet (filledLamports : ℤ) : ℤ := filledLamports - fees.venueFee filledLamports

/-- Cash debited for a buy fill. -/
def buyDebit (filledLamports : ℤ) : ℤ := filledLamports + fees.networkCost

/-- Cash credited for a sell. -/
def sellProceeds (grossLamports : ℤ) : ℤ :=
  grossLamports - fees.venueFee grossLamports - fees.networkCost

lemma venueFee_nonneg {n : ℤ} (h : 0 ≤ n) : 0 ≤ fees.venueFee n :=
  Int.ediv_nonneg (by positivity) (by norm_num)

lemma networkCost_nonneg : 0 ≤ fees.networkCost := by
  unfold networkCost priorityFee
  positivity

end FeeModel

end PumpGrok
