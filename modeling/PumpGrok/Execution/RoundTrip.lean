import PumpGrok.Lib.ConstantProduct
import PumpGrok.Lib.Runs
import PumpGrok.Execution.CurveMath

/-!
Trades against one curve, in any order, and the way back: what was bought is sold again in any
number of pieces.
-/

namespace PumpGrok

open ConstantProduct

inductive Trade where
  | buy (xLamports : ℤ)
  | sell (tUnitsIn : ℤ)
  deriving DecidableEq

namespace Trade

/-- What a trade gives. -/
def out (r : ℤ × ℤ) : Trade → Except Exc ℤ
  | .buy x => buyOut r.1 r.2 x
  | .sell t => sellOut r.1 r.2 t

/-- The reserves it leaves. -/
def post (r : ℤ × ℤ) : Trade → Except Exc (ℤ × ℤ)
  | .buy x => postBuy r.1 r.2 x
  | .sell t => postSell r.1 r.2 t

/-- The reserve that what it gives is drawn from. -/
def drawnFrom (r : ℤ × ℤ) : Trade → ℤ
  | .buy _ => r.2
  | .sell _ => r.1

/-- A trade that raises leaves the reserves. -/
def step (r : ℤ × ℤ) (tr : Trade) : ℤ × ℤ :=
  match post r tr with
  | .ok r' => r'
  | .error _ => r

end Trade

/-- Selling units piece by piece: what each piece gives, and the reserves left. -/
def sellPieces : ℤ × ℤ → List ℤ → Except Exc (List ℤ × (ℤ × ℤ))
  | r, [] => .ok ([], r)
  | r, t :: ts => do
    let gross ← sellOut r.1 r.2 t
    let r' ← postSell r.1 r.2 t
    let (rest, r'') ← sellPieces r' ts
    return (gross :: rest, r'')

namespace ConstantProduct.Pool

/-- The reserves as the curve functions take them. -/
def reserves (p : Pool) : ℤ × ℤ := (p.base, p.quote)

variable (p : Pool) {x t : ℤ}

lemma buyOut_eq (hx : 0 < x) :
    buyOut p.reserves.1 p.reserves.2 x = .ok (ConstantProduct.out p.base p.quote x) :=
  buyOut_ok_iff.mpr ⟨p.base_pos, p.quote_pos, hx, rfl⟩

lemma sellOut_eq (ht : 0 < t) :
    sellOut p.reserves.1 p.reserves.2 t = .ok (ConstantProduct.out p.quote p.base t) :=
  sellOut_ok_iff.mpr ⟨p.base_pos, p.quote_pos, ht, rfl⟩

lemma postBuy_eq (hx : 0 < x) :
    postBuy p.reserves.1 p.reserves.2 x = .ok (p.payBase x hx).reserves := by
  rw [postBuy, p.buyOut_eq hx]
  rfl

lemma postSell_eq (ht : 0 < t) :
    postSell p.reserves.1 p.reserves.2 t = .ok (p.payQuote t ht).reserves := by
  rw [postSell, p.sellOut_eq ht]
  rfl

lemma postBuy_refused (hx : x ≤ 0) :
    postBuy p.reserves.1 p.reserves.2 x = .error .valueError := by
  simp [postBuy, buyOut, hx]

lemma postSell_refused (ht : t ≤ 0) :
    postSell p.reserves.1 p.reserves.2 t = .error .valueError := by
  simp [postSell, sellOut, ht]

/-- The pool after a trade. -/
def traded : Trade → Pool
  | .buy x => if hx : 0 < x then p.payBase x hx else p
  | .sell t => if ht : 0 < t then p.payQuote t ht else p

/-- The curve's step keeps the pool's invariant: both reserves stay positive. -/
lemma step_reserves (tr : Trade) : tr.step p.reserves = (p.traded tr).reserves := by
  cases tr with
  | buy x =>
    by_cases hx : 0 < x
    · simp [Trade.step, Trade.post, p.postBuy_eq hx, traded, hx]
    · simp [Trade.step, Trade.post, p.postBuy_refused (not_lt.mp hx), traded, hx]
  | sell t =>
    by_cases ht : 0 < t
    · simp [Trade.step, Trade.post, p.postSell_eq ht, traded, ht]
    · simp [Trade.step, Trade.post, p.postSell_refused (not_lt.mp ht), traded, ht]

lemma product_traded (tr : Trade) : p.product ≤ (p.traded tr).product := by
  cases tr with
  | buy x =>
    simp only [traded]
    split_ifs with hx
    · exact p.product_payBase x hx
    · exact le_rfl
  | sell t =>
    simp only [traded]
    split_ifs with ht
    · exact p.product_payQuote t ht
    · exact le_rfl

/-- What a trade gives is less than the reserve it comes from. -/
lemma out_lt_drawnFrom {tr : Trade} {o : ℤ} (h : tr.out p.reserves = .ok o) :
    o < tr.drawnFrom p.reserves := by
  cases tr with
  | buy x =>
    obtain ⟨-, -, hx, rfl⟩ := buyOut_ok_iff.mp h
    exact out_lt p.base_pos p.quote_pos hx
  | sell t =>
    obtain ⟨-, -, ht, rfl⟩ := sellOut_ok_iff.mp h
    exact out_lt p.quote_pos p.base_pos ht

/-- Units sold in pieces: the pieces all fill, the pool keeps its invariant and its product, and
the base falls by what they gave. -/
lemma sellPieces_eq : ∀ (ts : List ℤ) (p : Pool), (∀ t ∈ ts, 0 < t) →
    ∃ (grosses : List ℤ) (p' : Pool), sellPieces p.reserves ts = .ok (grosses, p'.reserves) ∧
      p.product ≤ p'.product ∧ p'.quote = p.quote + ts.sum ∧
      p'.base + grosses.sum = p.base ∧ ∀ g ∈ grosses, 0 ≤ g
  | [], p, _ => ⟨[], p, rfl, le_rfl, by simp, by simp, by simp⟩
  | t :: ts, p, hpos => by
    have ht : 0 < t := hpos t (by simp)
    obtain ⟨grosses, p', hsell, hk, hq, hb, hg⟩ :=
      sellPieces_eq ts (p.payQuote t ht) fun u hu => hpos u (by simp [hu])
    refine ⟨out p.quote p.base t :: grosses, p', ?_, ?_, ?_, ?_, ?_⟩
    · rw [sellPieces, p.sellOut_eq ht, p.postSell_eq ht]
      show (do let (rest, r'') ← sellPieces (p.payQuote t ht).reserves ts
               return (out p.quote p.base t :: rest, r'')) = _
      rw [hsell]
      rfl
    · exact (p.product_payQuote t ht).trans hk
    · simp only [List.sum_cons]
      rw [hq]
      simp only [payQuote]
      omega
    · simp only [List.sum_cons]
      have : (p.payQuote t ht).base = p.base - out p.quote p.base t := rfl
      omega
    · intro g hg'
      rcases List.mem_cons.mp hg' with rfl | hg'
      · exact out_nonneg p.quote_pos p.base_pos ht
      · exact hg g hg'

/-- **The way back.** Of the units a buy of `x` gave, sold in any pieces, no more than `x`
comes back. -/
theorem grosses_le {x : ℤ} (hx : 0 < x) {ts grosses : List ℤ} {r : ℤ × ℤ}
    (hpos : ∀ t ∈ ts, 0 < t) (hsum : ts.sum ≤ out p.base p.quote x)
    (hsell : sellPieces (p.payBase x hx).reserves ts = .ok (grosses, r)) :
    grosses.sum ≤ x ∧ ∀ g ∈ grosses, 0 ≤ g := by
  obtain ⟨gs, p', hsell', hk, hq, hb, hg⟩ := sellPieces_eq ts (p.payBase x hx) hpos
  rw [hsell] at hsell'
  simp only [Except.ok.injEq, Prod.mk.injEq] at hsell'
  obtain ⟨rfl, -⟩ := hsell'
  refine ⟨?_, hg⟩
  have hquote : p'.quote ≤ p.quote := by
    have : (p.payBase x hx).quote = p.quote - out p.base p.quote x := rfl
    omega
  have hbase : p.base ≤ p'.base := base_le ((p.product_payBase x hx).trans hk) hquote
  have : (p.payBase x hx).base = p.base + x := rfl
  omega

end ConstantProduct.Pool

namespace FeeModel

variable (fees : FeeModel)

lemma venueFee_pos_iff {n : ℤ} : 0 < fees.venueFee n ↔ 10000 ≤ n * fees.venueFeeBps := by
  unfold venueFee
  omega

lemma sellProceeds_le {g : ℤ} (h : 0 ≤ g) : fees.sellProceeds g ≤ g - fees.networkCost := by
  have := fees.venueFee_nonneg h
  unfold sellProceeds
  omega

/-- Every piece pays the network again. -/
lemma proceeds_sum_le {gs : List ℤ} (h : ∀ g ∈ gs, 0 ≤ g) :
    (gs.map fees.sellProceeds).sum ≤ gs.sum - gs.length * fees.networkCost := by
  induction gs with
  | nil => simp
  | cons g gs ih =>
    have h1 := fees.sellProceeds_le (h g (by simp))
    have h2 := ih fun g' hg' => h g' (by simp [hg'])
    calc ((g :: gs).map fees.sellProceeds).sum
        = fees.sellProceeds g + (gs.map fees.sellProceeds).sum := by simp
      _ ≤ g - fees.networkCost + (gs.sum - gs.length * fees.networkCost) := add_le_add h1 h2
      _ = (g :: gs).sum - (g :: gs).length * fees.networkCost := by
        simp only [List.sum_cons, List.length_cons, Nat.cast_add, Nat.cast_one]
        ring

end FeeModel

/-- What a trade may do to positive reserves: keep both positive, not lower their product, and
give less than the reserve it draws from. -/
structure Trade.Sound (r : ℤ × ℤ) (tr : Trade) : Prop where
  base_pos : 0 < (tr.step r).1
  quote_pos : 0 < (tr.step r).2
  product_le : r.1 * r.2 ≤ (tr.step r).1 * (tr.step r).2
  out_lt : ∀ o, tr.out r = .ok o → o < tr.drawnFrom r

lemma ConstantProduct.Pool.sound (p : Pool) (tr : Trade) : tr.Sound p.reserves where
  base_pos := by
    rw [p.step_reserves]
    exact (p.traded tr).base_pos
  quote_pos := by
    rw [p.step_reserves]
    exact (p.traded tr).quote_pos
  product_le := by
    rw [p.step_reserves]
    exact p.product_traded tr
  out_lt := fun _ h => p.out_lt_drawnFrom h

lemma ConstantProduct.Pool.along_sound (p : Pool) (trs : List Trade) :
    Runs.Along (fun r tr => Trade.step r tr) Trade.Sound p.reserves trs := by
  induction trs generalizing p with
  | nil => trivial
  | cons tr trs ih =>
    refine ⟨p.sound tr, ?_⟩
    show Runs.Along _ _ (Trade.step p.reserves tr) trs
    rw [p.step_reserves]
    exact ih (p.traded tr)

/-- **The curve keeps what it is paid.** From positive reserves every trade of any sequence is
sound. What a buy of `filled` gave, sold again in pieces, always fills and brings back no more
than was paid: gross no more than entered the curve, net no more than `filled`, and less than
it once a fee takes a lamport. -/
theorem curve_never_leaks (fees : FeeModel) {s t : ℤ} (hs : 0 < s) (ht : 0 < t) :
    (∀ trs : List Trade, Runs.Along (fun r tr => Trade.step r tr) Trade.Sound (s, t) trs) ∧
    ∀ filled : ℤ, 0 < filled → 0 < fees.buyNet filled →
      ∃ units r, buyOut s t (fees.buyNet filled) = .ok units ∧
        postBuy s t (fees.buyNet filled) = .ok r ∧
        ∀ pieces : List ℤ, (∀ u ∈ pieces, 0 < u) → pieces.sum ≤ units →
          ∃ grosses r', sellPieces r pieces = .ok (grosses, r') ∧
            grosses.sum ≤ fees.buyNet filled ∧
            (grosses.map fees.sellProceeds).sum ≤ filled ∧ filled ≤ fees.buyDebit filled ∧
            (10000 ≤ filled * fees.venueFeeBps ∨ 0 < fees.networkCost →
              (grosses.map fees.sellProceeds).sum < filled) := by
  let p : Pool := ⟨s, t, hs, ht⟩
  refine ⟨fun trs => p.along_sound trs, fun filled hf hx => ?_⟩
  refine ⟨_, _, p.buyOut_eq hx, p.postBuy_eq hx, fun pieces hpos hsum => ?_⟩
  obtain ⟨grosses, p', hsell, -⟩ := Pool.sellPieces_eq pieces (p.payBase _ hx) hpos
  obtain ⟨hle, hg⟩ := p.grosses_le hx hpos hsum hsell
  have hproceeds := fees.proceeds_sum_le hg
  have hnet : fees.buyNet filled = filled - fees.venueFee filled := rfl
  have hvenue := fees.venueFee_nonneg hf.le
  have hcost := fees.networkCost_nonneg
  have hpaid : 0 ≤ grosses.length * fees.networkCost := by positivity
  refine ⟨grosses, p'.reserves, hsell, hle, by omega, ?_, ?_⟩
  · unfold FeeModel.buyDebit
    omega
  rintro (hbps | hpos')
  · have := fees.venueFee_pos_iff.mpr hbps
    omega
  · -- with no piece sold nothing comes back; with one, the network takes its cost
    rcases grosses with - | ⟨g, gs⟩
    · simpa using hf
    · have hlen : (0 : ℤ) < (g :: gs).length := by
        rw [List.length_cons]
        positivity
      have : 0 < ((g :: gs).length : ℤ) * fees.networkCost := mul_pos hlen hpos'
      omega

theorem curve_never_leaks_first_launch :
    (Runs.Along (fun r tr => Trade.step r tr) Trade.Sound (30000000000, 1073000000000000)
      [.buy 990000000, .sell 1000000, .sell 0]) ∧
    ∃ units r, buyOut 30000000000 1073000000000000 990000000 = .ok units ∧
      postBuy 30000000000 1073000000000000 990000000 = .ok r ∧
      ∃ grosses r', sellPieces r [1, 34000000000] = .ok (grosses, r') ∧
        (grosses.map ({} : FeeModel).sellProceeds).sum < 1000000000 := by
  obtain ⟨hruns, hback⟩ := curve_never_leaks {} (s := 30000000000) (t := 1073000000000000)
    (by decide) (by decide)
  obtain ⟨units, r, hu, hr, hsell⟩ := hback 1000000000 (by decide) (by decide)
  have hunits : units = 34277831558567 := by
    have : buyOut 30000000000 1073000000000000 990000000 = .ok 34277831558567 := by decide
    exact Except.ok.inj (hu.symm.trans this)
  refine ⟨hruns _, units, r, hu, hr, ?_⟩
  obtain ⟨grosses, r', hs, -, -, -, hlt⟩ := hsell [1, 34000000000] (by decide) (by
    rw [hunits]
    decide)
  exact ⟨grosses, r', hs, hlt (by decide)⟩

end PumpGrok
