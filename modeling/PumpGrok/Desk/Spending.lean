import PumpGrok.Desk.Books
import PumpGrok.Desk.Orders
import PumpGrok.Ledger.Days

/-!
What buys take from the cash. A buy is sized by fractions of an equity that counts the open
positions, and pays the network on top, so what it takes can be more than there is.
-/

namespace PumpGrok

/-! ### Caps -/

/-- Two desks with the same rows fold to the same state, up to the day. -/
lemma fold_same_rows {cfg : DeskConfig} {d d' : Desk} (ht : d.store.txns = d'.store.txns)
    (he : d.store.initialEquity = d'.store.initialEquity) :
    ∃ day, d.fold cfg = (d'.fold cfg).onDay day := by
  unfold Desk.fold LedgerStore.read
  rw [ht, he]
  exact replay_day (initialState _ (utcDay d'.now)) (utcDay d.now) _

lemma spendCap_day (cfg : DeskConfig) (s : LedgerState) (day : ℤ) (mint : Mint) :
    spendCap cfg (s.onDay day) mint = spendCap cfg s mint := rfl

/-- A check that passed a buy sized it within the caps of the ledger as it is, cached or not. -/
lemma checked_caps {cfg : DeskConfig} {call : CheckCall} {d d' : Desk} {dec : RiskDecision}
    (hc : CacheOk cfg d) (hs : d.store.Solid) (h : check cfg call d = (.ok dec, d'))
    (hp : dec.passed = true) (hb : call.order.side = .buy) {n : ℤ}
    (hn : dec.sizeLamports = some n) : n ≤ spendCap cfg (d.fold cfg) call.order.mint := by
  obtain ⟨call₀, d₀, hdec, htxns⟩ := check_decided hc hs h
  have hside : call₀.order.side = .buy :=
    (congrArg (fun k => k.orderHash.side) hdec.key).trans hb
  have hmint : call₀.order.mint = call.order.mint :=
    congrArg (fun k => k.orderHash.mint) hdec.key
  have hcap := passed_caps (Prod.ext hdec.decided rfl) hp hside hn
  have hrows : (keyedDesk d₀).store.txns = d.store.txns := htxns
  obtain ⟨day, hfold⟩ : ∃ day, (keyedDesk d₀).fold cfg = (d.fold cfg).onDay day :=
    fold_same_rows hrows hdec.equity
  rw [hfold, spendCap_day, hmint] at hcap
  exact hcap

/-- A recapped quote fills no more than the quote, or than the cap. -/
lemma buyRecap_le {cfg : DeskConfig} {quote q : BuyQuote} {seen : CurveSnapshot} {n : ℤ}
    (h : buyRecap cfg quote seen (some n) = .ok q) : q.filled ≤ min quote.filled n := by
  unfold buyRecap at h
  simp only at h
  split_ifs at h with hle
  · obtain rfl := Except.ok.inj h
    exact le_min le_rfl hle
  · obtain ⟨out0, -, h⟩ := except_bind_ok_iff.mp h
    obtain ⟨fraction, -, h⟩ := except_bind_ok_iff.mp h
    obtain rfl := Except.ok.inj h
    exact le_min (not_le.mp hle).le le_rfl

/-! ### The rows of a fill -/

def Payload.isBuyFill : Payload → Bool
  | .fillRecorded p => p.side = .buy
  | _ => false

lemma isBuyFill_iff {p : Payload} :
    p.isBuyFill = true ↔ ∃ q, p = .fillRecorded q ∧ q.side = .buy := by
  cases p <;> simp [Payload.isBuyFill]

/-- After every buy fill there is cash left, or none is owed. -/
def Covered (e₀ day : ℤ) (es : List Event) : Prop :=
  ∀ front e, front ++ [e] <+: es → e.payload.isBuyFill = true →
    0 ≤ (replay (initialState e₀ day) (front ++ [e])).cashLamports

/-- A batch leaves cash: it holds no buy fill, or starts with the only one. -/
inductive CoveredBatch (e₀ day : ℤ) (st : LedgerStore) : List Row → Prop
  | aside {rows : List Row} (h : ∀ r ∈ rows, r.payload.isBuyFill = false) :
      CoveredBatch e₀ day st rows
  | fill {r : Row} {rest : List Row} {p : FillRecorded} (hp : r.payload = .fillRecorded p)
      (hc : 0 ≤ (replay (initialState e₀ day) st.read).cashLamports + p.cashDeltaLamports)
      (hr : ∀ r ∈ rest, r.payload.isBuyFill = false) : CoveredBatch e₀ day st (r :: rest)

variable {e₀ day : ℤ} {st : LedgerStore}

lemma Covered.aside {es fs : List Event} (h : Covered e₀ day es)
    (hf : ∀ e ∈ fs, e.payload.isBuyFill = false) : Covered e₀ day (es ++ fs) := by
  induction fs using List.reverseRecOn with
  | nil => simpa using h
  | append_singleton fs e ih =>
    intro front x hp hx
    rw [← List.append_assoc] at hp
    rcases List.prefix_concat_iff.mp hp with heq | hp
    · obtain ⟨-, hxe⟩ := List.append_inj' heq rfl
      rw [List.singleton_inj.mp hxe, hf e (by simp)] at hx
      cases hx
    · exact ih (fun y hy => hf y (List.mem_append_left _ hy)) front x hp hx

lemma Covered.concat {es : List Event} {e : Event} {p : FillRecorded} (h : Covered e₀ day es)
    (hp : e.payload = .fillRecorded p)
    (hc : 0 ≤ (replay (initialState e₀ day) es).cashLamports + p.cashDeltaLamports) :
    Covered e₀ day (es ++ [e]) := by
  intro front x hpre hx
  rcases List.prefix_concat_iff.mp hpre with heq | hpre
  · rw [heq, replay_append, replay_cons, replay_nil, reduce_cash, hp]
    have hfill : ∀ s : LedgerState, (handle s e.ts (.fillRecorded p)).cashLamports =
        s.cashLamports + p.cashDeltaLamports := by
      intro s
      simp only [handle, onFill, trackPeak_cash]
      split
      · rfl
      · split_ifs <;> rfl
    rw [hfill]
    exact hc
  · exact h front x hpre hx

/-- Stamping keeps what a batch's payloads are. -/
lemma stamp_aside {n : ℕ} {rows : List Row} (h : ∀ r ∈ rows, r.payload.isBuyFill = false)
    {e : Event}
    (he : e ∈ LedgerStore.stamp n rows) : e.payload.isBuyFill = false := by
  have hmem : e.payload ∈ (LedgerStore.stamp n rows).map (·.payload) := List.mem_map_of_mem he
  rw [LedgerStore.stamp_payloads] at hmem
  obtain ⟨r, hr, heq⟩ := List.mem_map.mp hmem
  rw [← heq]
  exact h r hr

lemma covered_grows {st' : LedgerStore} (hg : st.Grows (CoveredBatch e₀ day) st')
    (h : Covered e₀ day st.read) : Covered e₀ day st'.read := by
  refine hg.invariant (I := fun st => Covered e₀ day st.read) (fun _ _ h => h) ?_ h
  intro st rows h _ hb
  rw [LedgerStore.read_commit]
  cases hb with
  | aside hr => exact h.aside fun e he => stamp_aside hr he
  | @fill r rest p hp hc hr =>
    have hfirst := h.concat (e := { r with seq := st.count + 1 }) hp hc
    have hrest : ∀ e ∈ LedgerStore.stamp (st.count + 1 + 1) rest, e.payload.isBuyFill = false :=
      fun e he => stamp_aside hr he
    have hall := hfirst.aside hrest
    rw [List.append_assoc] at hall
    exact hall

lemma AsideBatch.covered {F : Row → Prop} {rows : List Row} (h : AsideBatch F st rows) :
    CoveredBatch e₀ day st rows := by
  cases h with
  | mk row ha hn =>
    refine .aside fun r hr => ?_
    obtain rfl := List.mem_singleton.mp hr
    have hp := ha.payload
    cases hr : r.payload <;> simp_all [Payload.ofOrder, Payload.isBuyFill]

/-- Rows of the engine leave the cash. -/
lemma cash_engine {st' : LedgerStore} (hg : st.Grows EngineRow st') (s : LedgerState) :
    (replay s st'.read).cashLamports = (replay s st.read).cashLamports := by
  refine hg.invariant (I := fun x => (replay s x.read).cashLamports =
    (replay s st.read).cashLamports) (fun _ _ h => h) ?_ rfl
  intro st rows h _ hb
  cases hb with
  | mk row hp hk hn =>
    rw [LedgerStore.read_commit, replay_append, ← h]
    show (handle _ _ row.payload).cashLamports = _
    cases hr : row.payload <;> simp_all [Payload.isEngine, handle, onHaltSet, onKillSet,
      onBreakerTripped, onBreakerReset]

lemma asideRows_covered {rows : List Row} (h : ∀ r ∈ rows, r.payload.isBuyFill = false) :
    CoveredBatch e₀ day st rows := .aside h

lemma initialCash_day (e₀ day day' : ℤ) (es : List Event) :
    (replay (initialState e₀ day) es).cashLamports =
      (replay (initialState e₀ day') es).cashLamports := by
  obtain ⟨day'', h⟩ := replay_day (initialState e₀ day') day es
  rw [show initialState e₀ day = (initialState e₀ day').onDay day from rfl, h]
  rfl

namespace Sys

/-- The buys that can be paid for: what one is about to fill, at the caps of the ledger as it is,
with the network's cost, is not more than the cash. -/
def Affords (cfg : DeskConfig) (s : Sys) : Action → Prop
  | .curve1 i (some _) =>
    match s.waiting i with
    | some (c, .curve1 p (.buy quote)) =>
      p.dropped = false →
        min quote.filled (spendCap cfg (s.world.desk.fold cfg) c.request.mint) +
          cfg.fees.networkCost ≤ (s.world.desk.fold cfg).cashLamports
    | _ => True
  | _ => True

instance (cfg : DeskConfig) (s : Sys) (a : Action) : Decidable (s.Affords cfg a) := by
  unfold Affords
  split
  · split <;> infer_instance
  · infer_instance

variable {cfg : DeskConfig} {s s' : Sys}

/-- A buy that can be paid for leaves cash: it executes no more than its cap at the ledger it is
checked against. -/
lemma boughtRows_covered {i : ℕ} {c : PlaceCall} {p : Placed} {quote q : BuyQuote}
    {curve1 : Option CurveSnapshot} {curve : CurveSnapshot} {dec : RiskDecision} {out1 : ℤ}
    {d : Desk} (h : s.Books cfg) (he : s.store.initialEquity = some e₀)
    (ha : s.Affords cfg (.curve1 i curve1)) (day : ℤ)
    (hi : s.waiting i = some (c, .curve1 p (.buy quote))) (hcurve : CurveTaken c curve1 curve)
    (hdec : Confirmed cfg c p s.world dec d) (hp : BuyPriced cfg p quote dec curve q out1) :
    CoveredBatch e₀ day d.store (boughtRows cfg c p q curve out1 d) := by
  obtain ⟨hside, -⟩ := h.quoted i c p quote (.inr hi)
  obtain ⟨n, hn, -⟩ := checked_size h.cache h.legal.solid hdec.checked hdec.passed hside
  have hcap : n ≤ spendCap cfg (s.world.desk.fold cfg) c.request.mint :=
    checked_caps h.cache h.legal.solid hdec.checked hdec.passed hside hn
  have hfilled : q.filled ≤ min quote.filled n := by
    have hrecap := hp.recap
    rw [hn] at hrecap
    exact buyRecap_le hrecap
  have hafford : min quote.filled (spendCap cfg (s.world.desk.fold cfg) c.request.mint) +
      cfg.fees.networkCost ≤ (s.world.desk.fold cfg).cashLamports := by
    rw [hcurve.1] at ha
    simp only [Affords, hi] at ha
    exact ha hdec.kept
  have hcash : (s.world.desk.fold cfg).cashLamports =
      (replay (initialState e₀ day) d.store.read).cashLamports := by
    rw [cash_engine (confirmed_consulted hdec).store, Desk.fold]
    rw [show s.world.desk.store.initialEquity = some e₀ from he]
    exact initialCash_day ..
  have hleft : 0 ≤ (replay (initialState e₀ day) d.store.read).cashLamports +
      -(q.filled + cfg.fees.networkCost) := by omega
  unfold boughtRows buyFillRows
  split_ifs
  · exact .fill rfl hleft (by simp)
  · exact .fill rfl hleft (by simp [buyPositionRow, Payload.isBuyFill])

/-- No row of a sell is a buy. -/
lemma soldRows_covered {c : PlaceCall} {p : Placed} {plan : SellPlan} {curve : CurveSnapshot}
    {v : PositionView} {gross1 : ℤ} {d : Desk} (day : ℤ) :
    CoveredBatch e₀ day d.store (soldRows cfg c p plan curve v gross1 d) := by
  refine asideRows_covered fun r hr => ?_
  simp only [soldRows, sellRows] at hr
  split_ifs at hr
  · simp only [List.mem_cons, List.not_mem_nil, or_false] at hr
    rcases hr with rfl | rfl <;> rfl
  · rw [List.mem_singleton.mp hr]
    rfl

/-- **A step** whose buys can be paid for appends batches that leave cash. -/
theorem Move.covered {a : Action} (h : s.Books cfg) (he : s.store.initialEquity = some e₀)
    (ha : s.Affords cfg a) (day : ℤ) (m : Move cfg s a s') :
    ∃ st b, s.store.Grows (CoveredBatch e₀ day) st ∧ s'.store = { st with intact := b } := by
  have hquiet : ∀ {d d' : Desk}, d.Quietly d' → d.store.Grows (CoveredBatch e₀ day) d'.store :=
    fun hq => hq.store.mono fun _ _ hb => (EngineRow.alone hb).covered
  have hcons : ∀ {call : CheckCall} {d d' : Desk}, d.Consulted cfg call d' →
      d.store.Grows (CoveredBatch e₀ day) d'.store :=
    fun hd => hd.store.mono fun _ _ hb => (EngineRow.alone hb).covered
  have hone : ∀ {d : Desk}, s.store.Grows (CoveredBatch e₀ day) d.store → ∀ {rows : List Row},
      d.store.Fresh rows → CoveredBatch e₀ day d.store rows →
      ∀ {u : Desk}, u.store = d.store.commit rows → u.Quietly s'.world.desk →
      ∃ st b, s.store.Grows (CoveredBatch e₀ day) st ∧ s'.store = { st with intact := b } := by
    intro d hg rows hf hb u hst hq
    refine ⟨s'.store, s'.store.intact, (hg.commit hf hb).trans ?_, rfl⟩
    rw [← hst]
    exact hquiet hq
  cases m with
  | beside hw hb =>
    exact ⟨_, s'.store.intact, hb.desk.store.mono fun _ _ hb => hb.covered, rfl⟩
  | edited intact hw hs =>
    refine ⟨s.store, intact, .refl, ?_⟩
    unfold store
    rw [hs]
    rfl
  | forced f v hw hm hv hf hd =>
    refine hone (d := s.world.desk) .refl hf ?_ (u := s'.world.desk) (by rw [hd]; rfl) (.refl _)
    exact asideRows_covered fun r hr => by
      simp only [forceCloseRows, List.mem_cons, List.not_mem_nil, or_false] at hr
      rcases hr with rfl | rfl | rfl <;> rfl
  | cancelled o ho => exact ⟨_, s.store.intact, .refl, rfl⟩
  | asked c dec hn hc hp hm hw =>
    have hd := check_consulted cfg (c.checkCall cfg .accepted) s.world.desk
    rw [hc] at hd
    exact ⟨_, s'.store.intact, hcons hd, rfl⟩
  | ended i c hi hd hm hw => exact ⟨_, s'.store.intact, hcons hd, rfl⟩
  | refused i c reason detail hi hd ht hq hm hw =>
    refine hone (hcons hd) (LedgerStore.fresh_singleton.mpr ht.2) ?_ rfl hq
    exact asideRows_covered fun r hr => by rw [List.mem_singleton.mp hr]; rfl
  | @placed _ i c size dec seen quoted latency drop d hi hq hwr hs hw =>
    obtain ⟨hd, -⟩ := written_consulted hwr
    refine hone (hcons hd) hwr.fresh ?_ (u := s'.world.desk) (by rw [hs]) (.refl _)
    exact asideRows_covered fun r hr => by
      rcases LedgerStore.mem_placedRows hr with rfl | ⟨approval, id, rfl⟩ <;> rfl
  | woke i c p q hi hc hs hw =>
    exact ⟨s.store, s.store.intact, .refl, congrArg (·.desk.store) hs⟩
  | rejected i c p q reason detail fig hi hd hid hfee ht hq hm hw =>
    refine hone (hcons hd) (LedgerStore.fresh_singleton.mpr ht.2) ?_ rfl hq
    exact asideRows_covered fun r hr => by rw [List.mem_singleton.mp hr]; rfl
  | dropped i c p q hi hd hm hw why => exact ⟨_, s'.store.intact, hcons hd, rfl⟩
  | bought i c p quote curve1 curve dec q out1 hi hcurve hdec hp hin hne hf hq hm hw =>
    exact hone (hcons (confirmed_consulted hdec)) hf
      (boughtRows_covered h he ha day hi hcurve hdec hp) rfl hq
  | sold i c p plan curve1 curve dec v gross1 hi hcurve hdec hv hheld hp hin hf hq hm hw =>
    exact hone (hcons (confirmed_consulted hdec)) hf (soldRows_covered day) rfl hq

/-- **Cash covers the buys** in a run whose buys can be paid for: after every buy fill the folded
cash is not below zero. -/
theorem cash_covers (cfg : DeskConfig) (now e₀ day : ℤ) (killswitch : KillSwitch)
    (as : List Action) (hc : Runs.Along (step cfg) (Affords cfg) (start now e₀ killswitch) as)
    (front : List Event) (e : Event) (p : FillRecorded)
    (hp : front ++ [e] <+: (Runs.after (step cfg) (start now e₀ killswitch) as).store.read)
    (he : e.payload = .fillRecorded p) (hb : p.side = .buy) :
    0 ≤ (replay (initialState e₀ day) (front ++ [e])).cashLamports := by
  have hinv : ∀ s : Sys, s.Books cfg ∧ s.store.initialEquity = some e₀ ∧
      Covered e₀ day s.store.read → ∀ a, s.Affords cfg a → (s.step cfg a).Books cfg ∧
        (s.step cfg a).store.initialEquity = some e₀ ∧
          Covered e₀ day (s.step cfg a).store.read := by
    rintro s ⟨hbooks, hequity, hcov⟩ a ha
    have hmove := step_move cfg s a
    obtain ⟨st, b, hg, hst⟩ := hmove.covered hbooks hequity ha day
    rw [hst]
    refine ⟨hmove.books hbooks, hg.initialEquity_eq.trans hequity, ?_⟩
    show Covered e₀ day st.read
    exact covered_grows hg hcov
  have hstart : Covered e₀ day (start now e₀ killswitch).store.read := by
    intro front e hp
    have hnil : (start now e₀ killswitch).store.read = [] := rfl
    rw [hnil, List.prefix_nil] at hp
    simp at hp
  obtain ⟨-, -, hcov⟩ := Runs.invariant_along (I := fun s : Sys => s.Books cfg ∧
    s.store.initialEquity = some e₀ ∧ Covered e₀ day s.store.read) (C := Affords cfg)
    (fun s a h ha => hinv s h a ha) ⟨books_start cfg now e₀ killswitch, rfl, hstart⟩ hc
  exact hcov front e hp (by simp [he, Payload.isBuyFill, hb])

/-- The buy of the sample trades can be paid for, and leaves cash. -/
theorem cash_covers_sample :
    ∃ front e p, front ++ [e] <+:
        (Runs.after (step sampleConfig) (start 0 10000000000 {}) sampleTrades).store.read ∧
      e.payload = .fillRecorded p ∧ p.side = .buy ∧
      0 ≤ (replay (initialState 10000000000 0) (front ++ [e])).cashLamports := by
  have hread : (Runs.after (step sampleConfig) (start 0 10000000000 {}) sampleTrades).store.read.any
      (fun e => e.payload.isBuyFill) = true := by decide +kernel
  obtain ⟨e, hmem, hfill⟩ := List.any_eq_true.mp hread
  obtain ⟨front, rest, hsplit⟩ := List.append_of_mem hmem
  have hpre : front ++ [e] <+:
      (Runs.after (step sampleConfig) (start 0 10000000000 {}) sampleTrades).store.read :=
    ⟨rest, by rw [hsplit, List.append_assoc, List.singleton_append]⟩
  obtain ⟨p, hp, hside⟩ := isBuyFill_iff.mp hfill
  exact ⟨front, e, p, hpre, hp, hside, cash_covers sampleConfig 0 10000000000 0 {} sampleTrades
    (by decide +kernel) front e p hpre hp hside⟩

/-- A desk that may put its whole equity into one trade, or one token. -/
def wholeConfig : DeskConfig :=
  { sampleConfig with
    budget :=
      { wholeBudget with
        paperEquityLamports := 100000000
        equity_ge := by norm_num } }

/-- A buy of all there is. -/
def sampleWhole : List Action := sampleReserves :: samplePlace 0 (sampleBuy 'a' 1)

/-- Nothing keeps the network's cost back: a buy of the whole equity overdraws the cash. -/
theorem cash_overdrawn :
    ¬ ∀ (cfg : DeskConfig) (now e₀ day : ℤ) (killswitch : KillSwitch) (as : List Action)
      (front : List Event) (e : Event) (p : FillRecorded),
      front ++ [e] <+: (Runs.after (step cfg) (start now e₀ killswitch) as).store.read →
        e.payload = .fillRecorded p → p.side = .buy →
          0 ≤ (replay (initialState e₀ day) (front ++ [e])).cashLamports := by
  intro h
  have hrow :
      ((Runs.after (step wholeConfig) (start 0 100000000 {}) sampleWhole).store.read[1]?).any
      (fun e => e.payload.isBuyFill && decide ((replay (initialState 100000000 0)
        ((Runs.after (step wholeConfig) (start 0 100000000 {}) sampleWhole).store.read.take 1 ++
          [e])).cashLamports < 0)) = true := by decide +kernel
  obtain ⟨e, he, hrow⟩ := (Option.any_eq_true _ _).mp hrow
  obtain ⟨hfill, hcash⟩ := Bool.and_eq_true_iff.mp hrow
  obtain ⟨p, hp, hside⟩ := isBuyFill_iff.mp hfill
  have hcov := h wholeConfig 0 100000000 0 {} sampleWhole _ e p (LedgerStore.read_upto he) hp hside
  exact not_lt.mpr hcov (of_decide_eq_true hcash)

end Sys

end PumpGrok
