import Mathlib

/-!
Pools of two positive reserves that quote by the floor of the constant-product rule. What a
swap gives is less than the reserve it comes from, the product never falls, and what goes out
of a pool and comes back never buys more than was paid.
-/

namespace PumpGrok

namespace ConstantProduct

/-- What a pool gives out of `r` for `x` paid into `q`. -/
def out (q r x : ℤ) : ℤ := r * x / (q + x)

variable {q r x : ℤ}

lemma out_nonneg (hq : 0 < q) (hr : 0 < r) (hx : 0 < x) : 0 ≤ out q r x :=
  Int.ediv_nonneg (by positivity) (by omega)

/-- The floor pays no more than the exact quotient. -/
lemma out_mul_le (hq : 0 < q) (hx : 0 < x) : out q r x * (q + x) ≤ r * x :=
  Int.ediv_mul_le _ (by omega)

lemma out_lt (hq : 0 < q) (hr : 0 < r) (hx : 0 < x) : out q r x < r := by
  refine Int.ediv_lt_of_lt_mul (by omega) ?_
  have hrq : 0 < r * q := by positivity
  calc r * x < r * q + r * x := by omega
    _ = r * (q + x) := by ring

lemma product_le (hq : 0 < q) (hx : 0 < x) : q * r ≤ (q + x) * (r - out q r x) := by
  have h := out_mul_le (r := r) hq hx
  calc q * r = (q + x) * r - r * x := by ring
    _ ≤ (q + x) * r - out q r x * (q + x) := by omega
    _ = (q + x) * (r - out q r x) := by ring

/-- Two positive reserves. -/
structure Pool where
  base : ℤ
  quote : ℤ
  base_pos : 0 < base
  quote_pos : 0 < quote

namespace Pool

def product (p : Pool) : ℤ := p.base * p.quote

/-- The pool after `x` of the base is paid in. -/
def payBase (p : Pool) (x : ℤ) (hx : 0 < x) : Pool where
  base := p.base + x
  quote := p.quote - out p.base p.quote x
  base_pos := by have := p.base_pos; omega
  quote_pos := by have := out_lt p.base_pos p.quote_pos hx; omega

/-- The pool after `x` of the quote is paid in. -/
def payQuote (p : Pool) (x : ℤ) (hx : 0 < x) : Pool where
  base := p.base - out p.quote p.base x
  quote := p.quote + x
  base_pos := by have := out_lt p.quote_pos p.base_pos hx; omega
  quote_pos := by have := p.quote_pos; omega

lemma product_payBase (p : Pool) (x : ℤ) (hx : 0 < x) :
    p.product ≤ (p.payBase x hx).product :=
  product_le p.base_pos hx

lemma product_payQuote (p : Pool) (x : ℤ) (hx : 0 < x) :
    p.product ≤ (p.payQuote x hx).product := by
  have h := product_le (r := p.base) p.quote_pos hx
  calc p.product = p.quote * p.base := mul_comm _ _
    _ ≤ (p.quote + x) * (p.base - out p.quote p.base x) := h
    _ = (p.payQuote x hx).product := mul_comm _ _

/-- A pool that holds no more of the quote than before, and whose product has not fallen, holds
no less of the base. -/
lemma base_le {p p' : Pool} (hk : p.product ≤ p'.product) (hq : p'.quote ≤ p.quote) :
    p.base ≤ p'.base := by
  by_contra hlt
  have hb : p'.base < p.base := by omega
  have : p'.product < p.product := calc
    p'.base * p'.quote ≤ p'.base * p.quote := by
      exact mul_le_mul_of_nonneg_left hq p'.base_pos.le
    _ < p.base * p.quote := mul_lt_mul_of_pos_right hb p.quote_pos
  omega

end Pool

end ConstantProduct

end PumpGrok
