import PumpGrok.Desk.Books

/-!
What the guards of an order promise of its fill. A buy is capped by two checks and priced at two
readings; a sell is priced at two. Whatever runs between them, the recorded fill is within the
size asked for and both caps, and meets the threshold of the size it executed.
-/

namespace PumpGrok

/-- A buy fill against its order, the two decisions and the two readings. -/
structure BuyGuarded (cfg : DeskConfig) (r : OrderRequest) (cap recap : RiskDecision)
    (curve0 curve1 : CurveSnapshot) (p : FillRecorded) : Prop where
  side : r.side = .buy ∧ p.side = .buy
  order : p.decisionId = some r.decisionId ∧ p.mint = r.mint
  curves : p.curveBefore = (curve0.sLamports, curve0.tUnits) ∧
    p.curveAfter = (curve1.sLamports, curve1.tUnits)
  fee : p.venueFeeLamports = cfg.fees.venueFee p.filledLamports
  network : p.networkCostLamports = cfg.fees.networkCost
  out : buyOut curve1.sLamports curve1.tUnits (p.filledLamports - p.venueFeeLamports) =
    .ok p.filledUnits
  threshold : ∃ out0,
    buyOut curve0.sLamports curve0.tUnits (p.filledLamports - p.venueFeeLamports) = .ok out0 ∧
      out0 * (10000 - slippageBps cfg r) / 10000 ≤ p.filledUnits
  intended : ∃ n, r.sizeLamports = some n ∧ p.filledLamports ≤ n
  capped : ∃ n, cap.sizeLamports = some n ∧ p.filledLamports ≤ n
  recapped : ∃ n, recap.sizeLamports = some n ∧ p.filledLamports ≤ n
  debit : p.cashDeltaLamports = -(p.filledLamports + p.networkCostLamports)

/-- A sell fill against its order and the two readings. Its proceeds are net of the network cost,
which the threshold leaves out. -/
structure SellGuarded (cfg : DeskConfig) (r : OrderRequest) (curve0 curve1 : CurveSnapshot)
    (p : FillRecorded) : Prop where
  side : r.side = .sell ∧ p.side = .sell
  order : p.decisionId = some r.decisionId ∧ p.mint = r.mint
  curves : p.curveBefore = (curve0.sLamports, curve0.tUnits) ∧
    p.curveAfter = (curve1.sLamports, curve1.tUnits)
  network : p.networkCostLamports = cfg.fees.networkCost
  out : ∃ gross1, sellOut curve1.sLamports curve1.tUnits p.filledUnits = .ok gross1 ∧
    p.venueFeeLamports = cfg.fees.venueFee gross1 ∧
      p.filledLamports + p.networkCostLamports = gross1 - p.venueFeeLamports
  threshold : ∃ gross0, sellOut curve0.sLamports curve0.tUnits p.filledUnits = .ok gross0 ∧
    (gross0 - cfg.fees.venueFee gross0) * (10000 - slippageBps cfg r) / 10000 ≤
      p.filledLamports + p.networkCostLamports
  credit : p.cashDeltaLamports = p.filledLamports

/-! ### The second pricing -/

/-- A quote of the size it holds, at the first reading. -/
structure BuyPricedAt (cfg : DeskConfig) (r : OrderRequest) (seen : CurveSnapshot) (q : BuyQuote) :
    Prop where
  fee : q.venueFee = cfg.fees.venueFee q.filled
  net : q.xNet = q.filled - q.venueFee
  out : buyOut seen.sLamports seen.tUnits q.xNet = .ok q.out0
  threshold : q.threshold = q.out0 * (10000 - slippageBps cfg r) / 10000

section Pricing

variable {cfg : DeskConfig} {c : PlaceCall} {size : ℤ} {seen : CurveSnapshot} {quote q : BuyQuote}

lemma BuyQuoted.pricedAt (h : BuyQuoted cfg c size seen quote) :
    BuyPricedAt cfg c.request seen quote :=
  ⟨h.fee_eq, h.fee_eq ▸ h.net_eq, h.priced, h.bps_eq ▸ h.threshold_eq⟩

/-- The recap lowers the size to the cap, and prices it again at the first reading. -/
lemma buyRecap_spec {cap : Option ℤ} (hq : BuyQuoted cfg c size seen quote)
    (h : buyRecap cfg quote seen cap = .ok q) :
    q.filled ≤ quote.filled ∧ (∀ n ∈ cap, q.filled ≤ n) ∧ BuyPricedAt cfg c.request seen q := by
  unfold buyRecap at h
  rcases cap with - | n
  · obtain rfl := Except.ok.inj h
    exact ⟨le_rfl, by simp, hq.pricedAt⟩
  · simp only at h
    split_ifs at h with hn
    · obtain rfl := Except.ok.inj h
      exact ⟨le_rfl, by simpa using hn, hq.pricedAt⟩
    · obtain ⟨out0, hout, h⟩ := except_bind_ok_iff.mp h
      obtain ⟨fraction, -, h⟩ := except_bind_ok_iff.mp h
      obtain rfl := Except.ok.inj h
      exact ⟨(not_le.mp hn).le, by simp, rfl, rfl, hout, by rw [hq.bps_eq]⟩

/-- **A bought fill** is within its guards. -/
lemma bought_guarded {p : Placed} {curve : CurveSnapshot} {first dec : RiskDecision} {n m : ℤ}
    {out1 ts : ℤ} {ref : ℕ} (hside : c.request.side = .buy)
    (hq : BuyQuoted cfg c size p.curve0 quote) (hp : BuyPriced cfg p quote dec curve q out1)
    (hin : q.threshold ≤ out1) (hfirst : first.sizeLamports = some size)
    (hasked : c.request.sizeLamports = some m) (hm : size ≤ m) (hdec : dec.sizeLamports = some n)
    {f : FillRecorded}
    (hf : (buyFillRow cfg c (buyFigures p q curve out1 ref) ts).payload = .fillRecorded f) :
    BuyGuarded cfg c.request first dec p.curve0 curve f := by
  obtain ⟨hle, hcap, hat⟩ := buyRecap_spec hq hp.recap
  have hsize : q.filled ≤ size := hle.trans (hq.filled_eq ▸ min_le_left _ _)
  obtain rfl := Payload.fillRecorded.inj hf
  exact {
    side := ⟨hside, rfl⟩
    order := ⟨rfl, rfl⟩
    curves := ⟨rfl, rfl⟩
    fee := hat.fee
    network := rfl
    out := hat.net ▸ hp.priced
    threshold := ⟨q.out0, hat.net ▸ hat.out, hat.threshold ▸ hin⟩
    intended := ⟨m, hasked, hsize.trans hm⟩
    capped := ⟨size, hfirst, hsize⟩
    recapped := ⟨n, hdec, hcap n (by rw [hdec]; rfl)⟩
    debit := rfl }

/-- **A sold fill** is within its guard. -/
lemma sold_guarded {p : Placed} {plan : SellPlan} {curve : CurveSnapshot} {gross1 ts : ℤ} {ref : ℕ}
    (hside : c.request.side = .sell) (hq : SellQuoted cfg c p.curve0 plan)
    (hp : sellOut curve.sLamports curve.tUnits plan.filledUnits = .ok gross1)
    (hin : plan.threshold ≤ gross1 - cfg.fees.venueFee gross1) {f : FillRecorded}
    (hf : (sellFillRow cfg c p plan curve (sellFiguresOf cfg plan gross1 ref) ts).payload =
      .fillRecorded f) : SellGuarded cfg c.request p.curve0 curve f := by
  obtain ⟨gross0, hgross, hout⟩ := hq.priced
  have hthr : (gross0 - cfg.fees.venueFee gross0) * (10000 - slippageBps cfg c.request) / 10000 ≤
      gross1 - cfg.fees.venueFee gross1 := by
    rw [← hout, ← hq.threshold_eq]
    exact hin
  have hsum : gross1 - cfg.fees.venueFee gross1 - cfg.fees.networkCost + cfg.fees.networkCost =
      gross1 - cfg.fees.venueFee gross1 := sub_add_cancel _ _
  obtain rfl := Payload.fillRecorded.inj hf
  exact {
    side := ⟨hside, rfl⟩
    order := ⟨rfl, rfl⟩
    curves := ⟨rfl, rfl⟩
    network := rfl
    out := ⟨gross1, hp, rfl, hsum⟩
    threshold := ⟨gross0, hgross, hsum ▸ hthr⟩
    credit := rfl }

end Pricing

/-! ### Where a run's fills come from -/

namespace LedgerStore

/-- The recorded fills meet a condition. -/
def FillsMeet (P : FillRecorded → Prop) (st : LedgerStore) : Prop :=
  ∀ e ∈ st.read, ∀ f, e.payload = .fillRecorded f → P f

variable {P : FillRecorded → Prop} {st st' : LedgerStore}

lemma FillsMeet.commit {rows : List Row} (h : st.FillsMeet P)
    (hr : ∀ r ∈ rows, ∀ f, r.payload = .fillRecorded f → P f) : (st.commit rows).FillsMeet P := by
  intro e he f hf
  rw [read_commit] at he
  rcases List.mem_append.mp he with he | he
  · exact h e he f hf
  · have hmem : e.payload ∈ (stamp (st.count + 1) rows).map (·.payload) := List.mem_map_of_mem he
    rw [stamp_payloads] at hmem
    obtain ⟨r, hrow, heq⟩ := List.mem_map.mp hmem
    exact hr r hrow f (heq.trans hf)

lemma FillsMeet.aside {F : Row → Prop} (h : st.FillsMeet P) (hg : st.Grows (AsideBatch F) st') :
    st'.FillsMeet P := by
  refine hg.invariant (I := FillsMeet P) (fun _ _ h => h) (fun st rows h _ ha => ?_) h
  cases ha with
  | mk row hrow hn =>
    refine h.commit fun r hr f hf => ?_
    obtain rfl := List.mem_singleton.mp hr
    have := hrow.payload
    simp [hf, Payload.ofOrder] at this

lemma FillsMeet.engine (h : st.FillsMeet P) (hg : st.Grows EngineRow st') : st'.FillsMeet P :=
  h.aside (hg.mono fun _ _ => EngineRow.alone)

end LedgerStore

namespace Sys

section History

variable (cfg : DeskConfig) (s₀ : Sys)

/-- A check passed in the state an action of a run was taken in. -/
def CheckedAt (as : List Action) (a : Action) (call : CheckCall) (dec : RiskDecision) : Prop :=
  ∃ bs, bs ++ [a] <+: as ∧
    ∃ d, check cfg call (Runs.after (step cfg) s₀ bs).world.desk = (.ok dec, d) ∧ dec.passed = true

/-- Where a fill of a run comes from. A forced close has no order, and no threshold. -/
inductive FillOrigin (as : List Action) (f : FillRecorded) : Prop
  | bought (c : PlaceCall) (i : ℕ) (cap recap : RiskDecision) (curve0 curve1 : CurveSnapshot)
      (latency : ℤ) (dropped : Bool)
      (asked : CheckedAt cfg s₀ as (.startPlace c) (c.checkCall cfg .accepted) cap)
      (submitting : .curve0 i (some curve0) latency dropped ∈ as)
      (confirming :
        CheckedAt cfg s₀ as (.curve1 i (some curve1)) (c.checkCall cfg .confirming) recap)
      (h : BuyGuarded cfg c.request cap recap curve0 curve1 f) : FillOrigin as f
  | sold (c : PlaceCall) (i : ℕ) (cap recap : RiskDecision) (curve0 curve1 : CurveSnapshot)
      (latency : ℤ) (dropped : Bool)
      (asked : CheckedAt cfg s₀ as (.startPlace c) (c.checkCall cfg .accepted) cap)
      (submitting : .curve0 i (some curve0) latency dropped ∈ as)
      (confirming :
        CheckedAt cfg s₀ as (.curve1 i (some curve1)) (c.checkCall cfg .confirming) recap)
      (h : SellGuarded cfg c.request curve0 curve1 f) : FillOrigin as f
  | forced (hside : f.side = .sell) (horder : f.decisionId = none) : FillOrigin as f

/-- What a waiting order remembers of its first check and its first reading. -/
structure Waits (as : List Action) (s : Sys) : Prop where
  fills : s.store.FillsMeet (FillOrigin cfg s₀ as)
  asked : ∀ i c size, s.waiting i = some (c, .curve0 size) →
    ∃ dec, CheckedAt cfg s₀ as (.startPlace c) (c.checkCall cfg .accepted) dec ∧
      size = dec.sizeLamports.getD 0
  quoted : ∀ i c p q, s.Holds i c p q →
    ∃ dec latency dropped, CheckedAt cfg s₀ as (.startPlace c) (c.checkCall cfg .accepted) dec ∧
      .curve0 i (some p.curve0) latency dropped ∈ as ∧
      QuotedOk cfg c (dec.sizeLamports.getD 0) p.curve0 q

end History

section Steps

variable {cfg : DeskConfig} {s₀ s s' : Sys} {as : List Action} {a : Action}

lemma CheckedAt.later {b : Action} {call : CheckCall} {dec : RiskDecision}
    (h : CheckedAt cfg s₀ as a call dec) : CheckedAt cfg s₀ (as ++ [b]) a call dec := by
  obtain ⟨bs, hbs, hc⟩ := h
  exact ⟨bs, hbs.trans (List.prefix_append _ _), hc⟩

lemma FillOrigin.later {f : FillRecorded} (h : FillOrigin cfg s₀ as f) :
    FillOrigin cfg s₀ (as ++ [a]) f := by
  cases h with
  | bought c i cap recap curve0 curve1 latency dropped asked submitting confirming h =>
    exact .bought c i cap recap curve0 curve1 latency dropped asked.later
      (List.mem_append_left _ submitting) confirming.later h
  | sold c i cap recap curve0 curve1 latency dropped asked submitting confirming h =>
    exact .sold c i cap recap curve0 curve1 latency dropped asked.later
      (List.mem_append_left _ submitting) confirming.later h
  | forced hside horder => exact .forced hside horder

lemma Waits.later (h : Waits cfg s₀ as s) : Waits cfg s₀ (as ++ [a]) s where
  fills e he f hf := (h.fills e he f hf).later
  asked i c size hi := by
    obtain ⟨dec, hdec, hsize⟩ := h.asked i c size hi
    exact ⟨dec, hdec.later, hsize⟩
  quoted i c p q hi := by
    obtain ⟨dec, latency, dropped, hdec, hread, hq⟩ := h.quoted i c p q hi
    exact ⟨dec, latency, dropped, hdec.later, List.mem_append_left _ hread, hq⟩

lemma Waits.same (h : Waits cfg s₀ as s) (hf : s'.store.FillsMeet (FillOrigin cfg s₀ as))
    (hw : s'.waiting = s.waiting) : Waits cfg s₀ as s' where
  fills := hf
  asked i c size hi := h.asked i c size (by rwa [← hw])
  quoted i c p q hi := h.quoted i c p q (by unfold Holds at *; rwa [← hw])

lemma Waits.over {i : ℕ} (h : Waits cfg s₀ as s) (hf : s'.store.FillsMeet (FillOrigin cfg s₀ as))
    (hw : s'.waiting = Function.update s.waiting i none) : Waits cfg s₀ as s' where
  fills := hf
  asked j c size hj := by
    rcases curve0_update hw hj with ⟨-, ho⟩ | ⟨-, hj'⟩
    · simp at ho
    · exact h.asked j c size hj'
  quoted j c p q hj := by
    rcases holds_update hw hj with ⟨-, ho⟩ | ⟨-, hj'⟩
    · simp at ho
    · exact h.quoted j c p q hj'

/-- A call that goes on waiting remembers what its wait has to. -/
lemma Waits.moved {i : ℕ} {c : PlaceCall} {w : Wait} (h : Waits cfg s₀ as s)
    (hf : s'.store.FillsMeet (FillOrigin cfg s₀ as))
    (hw : s'.waiting = Function.update s.waiting i (some (c, w)))
    (hasked : ∀ size, w = .curve0 size →
      ∃ dec, CheckedAt cfg s₀ as (.startPlace c) (c.checkCall cfg .accepted) dec ∧
        size = dec.sizeLamports.getD 0)
    (hquoted : ∀ p q, w = .sleep p q ∨ w = .curve1 p q →
      ∃ dec latency dropped, CheckedAt cfg s₀ as (.startPlace c) (c.checkCall cfg .accepted) dec ∧
        .curve0 i (some p.curve0) latency dropped ∈ as ∧
        QuotedOk cfg c (dec.sizeLamports.getD 0) p.curve0 q) : Waits cfg s₀ as s' where
  fills := hf
  asked j c' size hj := by
    rcases curve0_update hw hj with ⟨-, ho⟩ | ⟨-, hj'⟩
    · obtain ⟨rfl, hwait⟩ := Prod.mk.inj (Option.some.inj ho)
      exact hasked size hwait
    · exact h.asked j c' size hj'
  quoted j c' p q hj := by
    rcases holds_update hw hj with ⟨rfl, ho⟩ | ⟨-, hj'⟩
    · simp only [Option.some.injEq, Prod.mk.injEq] at ho
      rcases ho with ⟨rfl, hwait⟩ | ⟨rfl, hwait⟩
      · exact hquoted p q (.inl hwait)
      · exact hquoted p q (.inr hwait)
    · exact h.quoted j c' p q hj'

/-- The fills after a commit on a desk consulted before it, and quiet changes after it. -/
lemma fills_committed {P : FillRecorded → Prop} {call : CheckCall} {d d₁ : Desk} {rows : List Row}
    (h : s.store.FillsMeet P) (hd : s.world.desk.Consulted cfg call d)
    (hq : d₁.Quietly s'.world.desk) (hst : d₁.store = d.store.commit rows)
    (hr : ∀ r ∈ rows, ∀ f, r.payload = .fillRecorded f → P f) : s'.store.FillsMeet P :=
  (hst ▸ (h.engine hd.store).commit hr : d₁.store.FillsMeet P).engine hq.store

/-- A passed check of a buy sized it, within what was asked for. -/
lemma CheckedAt.sized {call : CheckCall} {dec : RiskDecision}
    (hb : ∀ bs, (Runs.after (step cfg) s₀ bs).Books cfg) (h : CheckedAt cfg s₀ as a call dec)
    (hside : call.order.side = .buy) :
    ∃ n m, dec.sizeLamports = some n ∧ call.order.sizeLamports = some m ∧ 0 < n ∧ n ≤ m := by
  obtain ⟨bs, -, d, hc, hp⟩ := h
  obtain ⟨call₀, d₀, hdec, -⟩ := check_decided (hb bs).cache (hb bs).legal.solid hc
  have horder : orderHashFor call₀.order = orderHashFor call.order :=
    congrArg CacheKey.orderHash hdec.key
  have hside₀ : call₀.order.side = .buy := (congrArg OrderHash.side horder).trans hside
  have heval : evaluate cfg call₀ (keyedDesk d₀) = (.ok dec, _) := Prod.ext hdec.decided rfl
  obtain ⟨n, hn, hmin⟩ := passed_size heval hp hside₀
  obtain ⟨⟨m, hm, hle⟩, -⟩ := passed_sizing heval hp hside₀ hn
  have hpos : 0 < n := by have := cfg.limits.min_ge; omega
  exact ⟨n, m, hn, (congrArg OrderHash.sizeLamports horder).symm.trans hm, hpos, hle⟩

/-! ### The fills that a step records -/

lemma placedRows_fill {c : PlaceCall} {dec : RiskDecision} {o : ℕ} {ts : ℤ} {r : Row}
    {f : FillRecorded} (hr : r ∈ placedRows cfg c dec o ts) : r.payload ≠ .fillRecorded f := by
  intro hf
  unfold placedRows orderRows at hr
  split at hr
  · obtain rfl := List.mem_singleton.mp hr
    simp [orderPlacedRow] at hf
  · fin_cases hr
    · simp [consumeRow] at hf
    · simp [orderPlacedRow] at hf

lemma forceCloseRows_origin {fc : ForceClose} {v : PositionView} {order ref : ℕ} {ts : ℤ} {r : Row}
    {f : FillRecorded} (hr : r ∈ forceCloseRows fc v order ref ts)
    (hf : r.payload = .fillRecorded f) : FillOrigin cfg s₀ as f := by
  fin_cases hr
  · obtain rfl := Payload.fillRecorded.inj hf
    exact .forced rfl rfl
  · simp [forceClosePositionRow] at hf
  · simp [forceCloseEscalationRow] at hf

/-- The one fill among the rows of a filled buy. -/
lemma boughtRows_fillRow {c : PlaceCall} {p : Placed} {q : BuyQuote} {curve : CurveSnapshot}
    {out1 : ℤ} {d : Desk} {r : Row} {f : FillRecorded} (hr : r ∈ boughtRows cfg c p q curve out1 d)
    (hf : r.payload = .fillRecorded f) :
    r = buyFillRow cfg c (buyFigures p q curve out1 d.nextId) d.now := by
  unfold boughtRows buyFillRows at hr
  split_ifs at hr
  · exact List.mem_singleton.mp hr
  · fin_cases hr
    · rfl
    · simp [buyPositionRow] at hf

lemma soldRows_fillRow {c : PlaceCall} {p : Placed} {plan : SellPlan} {curve : CurveSnapshot}
    {v : PositionView} {gross1 : ℤ} {d : Desk} {r : Row} {f : FillRecorded}
    (hr : r ∈ soldRows cfg c p plan curve v gross1 d) (hf : r.payload = .fillRecorded f) :
    r = sellFillRow cfg c p plan curve (sellFiguresOf cfg plan gross1 d.nextId) d.now := by
  unfold soldRows sellRows at hr
  simp only at hr
  split_ifs at hr
  · fin_cases hr
    · rfl
    · simp [positionClosedRow] at hf
  · exact List.mem_singleton.mp hr

/-- A filled buy comes from its first check, its first reading and its second check. -/
lemma Waits.bought_origin (hb : ∀ bs, (Runs.after (step cfg) s₀ bs).Books cfg)
    (h : Waits cfg s₀ as s) {i : ℕ} {c : PlaceCall} {p : Placed} {quote q : BuyQuote}
    {curve : CurveSnapshot} {dec : RiskDecision} {out1 : ℤ} {d : Desk}
    (hi : s.waiting i = some (c, .curve1 p (.buy quote)))
    (hrecap : CheckedAt cfg s₀ as (.curve1 i (some curve)) (c.checkCall cfg .confirming) dec)
    (hp : BuyPriced cfg p quote dec curve q out1) (hin : q.threshold ≤ out1) {r : Row}
    {f : FillRecorded} (hr : r ∈ boughtRows cfg c p q curve out1 d)
    (hf : r.payload = .fillRecorded f) : FillOrigin cfg s₀ as f := by
  obtain ⟨first, latency, dropped, hfirst, hread, hquoted⟩ := h.quoted i c p _ (.inr hi)
  rw [boughtRows_fillRow hr hf] at hf
  cases hquoted with
  | buy _ hside hbuy =>
    obtain ⟨n₀, m₀, hn₀, hm₀, -, hle⟩ := hfirst.sized hb hside
    obtain ⟨n, m, hn, -⟩ := hrecap.sized hb hside
    rw [hn₀, Option.getD_some] at hbuy
    exact .bought c i first dec p.curve0 curve latency dropped hfirst hread hrecap
      (bought_guarded hside hbuy hp hin hn₀ hm₀ hle hn hf)

lemma Waits.sold_origin (h : Waits cfg s₀ as s) {i : ℕ} {c : PlaceCall} {p : Placed}
    {plan : SellPlan} {curve : CurveSnapshot} {dec : RiskDecision} {v : PositionView} {gross1 : ℤ}
    {d : Desk} (hi : s.waiting i = some (c, .curve1 p (.sell plan)))
    (hrecap : CheckedAt cfg s₀ as (.curve1 i (some curve)) (c.checkCall cfg .confirming) dec)
    (hp : sellOut curve.sLamports curve.tUnits plan.filledUnits = .ok gross1)
    (hin : plan.threshold ≤ gross1 - cfg.fees.venueFee gross1) {r : Row} {f : FillRecorded}
    (hr : r ∈ soldRows cfg c p plan curve v gross1 d) (hf : r.payload = .fillRecorded f) :
    FillOrigin cfg s₀ as f := by
  obtain ⟨first, latency, dropped, hfirst, hread, hquoted⟩ := h.quoted i c p _ (.inr hi)
  rw [soldRows_fillRow hr hf] at hf
  cases hquoted with
  | sell _ hside hsell =>
    exact .sold c i first dec p.curve0 curve latency dropped hfirst hread hrecap
      (sold_guarded hside hsell hp hin hf)

/-- **One step** keeps where the fills come from. -/
theorem Waits.step (hb : ∀ bs, (Runs.after (step cfg) s₀ bs).Books cfg)
    (hs : s = Runs.after (Sys.step cfg) s₀ as) (h : Waits cfg s₀ as s) (m : Move cfg s a s') :
    Waits cfg s₀ (as ++ [a]) s' := by
  have hl : Waits cfg s₀ (as ++ [a]) s := h.later
  have hnow : ∀ {call : CheckCall} {dec : RiskDecision} {d : Desk},
      check cfg call s.world.desk = (.ok dec, d) → dec.passed = true →
      CheckedAt cfg s₀ (as ++ [a]) a call dec := fun hc hp =>
    ⟨as, List.prefix_refl _, _, hs ▸ hc, hp⟩
  cases m with
  | beside hw hbeside => exact hl.same (hl.fills.aside hbeside.desk.store) hw
  | edited intact hw hworld =>
    refine hl.same ?_ hw
    unfold store
    rw [hworld]
    exact hl.fills
  | forced f v hw hm hv hf hd =>
    refine hl.same ?_ hw
    unfold store
    rw [hd]
    exact hl.fills.commit fun r hr g hg => forceCloseRows_origin hr hg
  | cancelled o ho => exact hl.same hl.fills rfl
  | @asked _ c dec hn hc hp hm hw =>
    have hcons := check_consulted cfg (c.checkCall cfg .accepted) s.world.desk
    rw [hc] at hcons
    refine hl.moved (hl.fills.engine hcons.store) hw (fun size hsize => ?_) (by simp)
    obtain rfl := Wait.curve0.inj hsize
    exact ⟨dec, hnow hc hp, rfl⟩
  | ended i c hi hd hm hw => exact hl.over (hl.fills.engine hd.store) hw
  | refused i c reason detail hi hd ht hq hm hw =>
    refine hl.over (fills_committed hl.fills hd hq rfl fun r hr f hf => ?_) hw
    obtain rfl := List.mem_singleton.mp hr
    simp [acceptedRefusal, rejectRow] at hf
  | @placed _ i c size dec seen quoted latency drop d hi hq hwr hworld hw =>
    have hfills := fills_committed hl.fills (written_consulted hwr).1 (.refl s'.world.desk)
      (by rw [hworld]) fun r hr f hf => absurd hf (placedRows_fill hr)
    refine hl.moved hfills hw (by simp) fun p q hpq => ?_
    obtain ⟨rfl, rfl⟩ : _ = p ∧ quoted = q := by simpa using hpq
    obtain ⟨first, hfirst, rfl⟩ := hl.asked i c size hi
    exact ⟨first, latency, drop, hfirst, List.mem_append_right _ List.mem_cons_self, hq⟩
  | woke i c p q hi hc hworld hw =>
    have hfills : s'.store.FillsMeet (FillOrigin cfg s₀ (as ++ [.wake i false])) := by
      unfold store
      rw [hworld]
      exact hl.fills
    refine hl.moved hfills hw (by simp) fun p' q' hpq => ?_
    obtain ⟨rfl, rfl⟩ : p = p' ∧ q = q' := by simpa using hpq
    exact hl.quoted i c p q (.inl hi)
  | rejected i c p q reason detail fig hi hd hid hfee ht hq hm hw =>
    refine hl.over (fills_committed hl.fills hd hq rfl fun r hr f hf => ?_) hw
    obtain rfl := List.mem_singleton.mp hr
    simp [confirmingRefusal, rejectRow] at hf
  | dropped i c p q hi hd hm hw why => exact hl.over (hl.fills.engine hd.store) hw
  | bought i c p quote curve1 curve dec q out1 hi hcurve hdec hp hin hne hf hq hm hw =>
    obtain ⟨rfl, -⟩ := hcurve
    exact hl.over (fills_committed hl.fills (confirmed_consulted hdec) hq rfl fun r hr f hpay =>
      hl.bought_origin hb hi (hnow hdec.checked hdec.passed) hp hin hr hpay) hw
  | sold i c p plan curve1 curve dec v gross1 hi hcurve hdec hv hheld hp hin hf hq hm hw =>
    obtain ⟨rfl, -⟩ := hcurve
    exact hl.over (fills_committed hl.fills (confirmed_consulted hdec) hq rfl fun r hr f hpay =>
      hl.sold_origin hi (hnow hdec.checked hdec.passed) hp hin hr hpay) hw

end Steps

lemma waits_start (cfg : DeskConfig) (now e₀ : ℤ) (killswitch : KillSwitch) :
    Waits cfg (start now e₀ killswitch) [] (start now e₀ killswitch) where
  fills e he := by
    simp [store, start, LedgerStore.read] at he
  asked i c size h := by
    simp [waiting, start] at h
  quoted := by
    rintro i c p q (h | h) <;> simp [waiting, start] at h

lemma waits_after (cfg : DeskConfig) (now e₀ : ℤ) (killswitch : KillSwitch) (as : List Action) :
    Waits cfg (start now e₀ killswitch) as
      (Runs.after (step cfg) (start now e₀ killswitch) as) := by
  induction as using List.reverseRecOn with
  | nil => exact waits_start cfg now e₀ killswitch
  | append_singleton as a ih =>
    rw [Runs.after_snoc]
    exact ih.step (books_after cfg now e₀ killswitch) rfl (step_move cfg _ a)

/-- **Every recorded fill of every run** is within its guards: a buy fill executes no more than was
asked for and either check allowed, meets the threshold of the size it executed, and is debited
that size and the network cost; the proceeds of a sell fill, before the network cost, meet its
threshold, whatever the exit reason. Forced closes alone have no threshold. -/
theorem fills_guarded (cfg : DeskConfig) (now e₀ : ℤ) (killswitch : KillSwitch) (as : List Action)
    {e : Event} (he : e ∈ (Runs.after (step cfg) (start now e₀ killswitch) as).store.read)
    {f : FillRecorded} (hf : e.payload = .fillRecorded f) :
    FillOrigin cfg (start now e₀ killswitch) as f :=
  (waits_after cfg now e₀ killswitch as).fills e he f hf

/-- The first fill of the sample trades. -/
def sampleFill : FillRecorded where
  orderId := 1
  decisionId := some 1
  side := .buy
  mint := sampleMint 'a'
  filledLamports := 100000000
  filledUnits := 3529253463570
  filledFraction := 1
  priceAvg := 1100000 / 39213927373
  venueFeeLamports := 1000000
  networkCostLamports := 9000
  cashDeltaLamports := -100009000
  venueTxRef := 3
  curveBefore := (30000000000, 1073000000000000)
  curveAfter := (30000000000, 1073000000000000)

theorem fills_guarded_sample : FillOrigin sampleConfig sampleStart sampleTrades sampleFill :=
  fills_guarded sampleConfig 0 10000000000 {} sampleTrades
    (List.get_mem (sampleAfter sampleTrades).store.read ⟨1, by decide +kernel⟩)
    (show ((sampleAfter sampleTrades).store.read.get ⟨1, by decide +kernel⟩).payload =
      .fillRecorded sampleFill by decide +kernel)

/-- A sell's recorded proceeds meet the threshold of its first reading. -/
def ProceedsMeet (cfg : DeskConfig) (r : OrderRequest) (f : FillRecorded) : Prop :=
  ∀ gross0, sellOut f.curveBefore.1 f.curveBefore.2 f.filledUnits = .ok gross0 →
    (gross0 - cfg.fees.venueFee gross0) * (10000 - slippageBps cfg r) / 10000 ≤ f.filledLamports

/-- The sample buy, then a sale of few units at the same reserves. -/
def sampleDust : List Action :=
  sampleReserves :: samplePlace 0 (sampleBuy 'a' 1) ++
    samplePlace 1 (sampleSell 'a' 2 1000000000 (by norm_num))

/-- Of a small sale the network cost takes more than the slippage allowed. -/
theorem dust_below_threshold :
    ∃ f, (sampleAfter sampleDust).store.read.getLast?.map (·.payload) = some (.fillRecorded f) ∧
      f.side = .sell ∧
      ¬ ProceedsMeet sampleConfig (sampleSell 'a' 2 1000000000 (by norm_num)).request f := by
  refine ⟨{ sampleFill with
    orderId := 5
    decisionId := some 2
    side := .sell
    filledLamports := 18679
    filledUnits := 1000000000
    priceAvg := 13979 / 500000000
    venueFeeLamports := 279
    cashDeltaLamports := 18679
    venueTxRef := 7 }, by decide +kernel, rfl, fun h => ?_⟩
  have := h 27958 (by decide +kernel)
  revert this
  decide +kernel

end Sys

end PumpGrok
