import PumpGrok.Desk.Moves
import PumpGrok.Ledger.Accounting
import PumpGrok.Ledger.Units

/-!
The books of the system. Every batch of every run is one of the trading path or of another
writer, next to the positions it is appended to; conservation of cash and of units follows for
whole ledgers.
-/

namespace PumpGrok

namespace LedgerStore

/-- Every batch was in order next to the positions it was appended to. -/
def Legal (st : LedgerStore) : Prop :=
  ∀ bs b, bs ++ [b] <+: st.txns → BatchOk (positionsOf bs.flatten) (b.map (·.payload))

variable {st st' : LedgerStore}

lemma Legal.commit {rows : List Row} (h : st.Legal) (hb : TradeBatch st rows) :
    (st.commit rows).Legal := by
  intro bs b hp
  rw [txns_commit] at hp
  rcases List.prefix_concat_iff.mp hp with he | hp'
  · obtain ⟨rfl, he'⟩ := List.append_inj' he rfl
    rw [List.singleton_inj.mp he', stamp_payloads]
    exact hb
  · exact h bs b hp'

lemma Legal.grow (h : st.Legal) (hg : st.Grows TradeBatch st') : st'.Legal :=
  hg.invariant (fun _ _ h => h) (fun _ _ h _ ha => h.commit ha) h

/-- An opening prefix of a legal ledger. -/
lemma Legal.prefix_step {bs : List (List Event)} {b : List Event} (h : st.Legal)
    (hp : bs ++ [b] <+: st.txns) :
    bs <+: st.txns ∧ BatchOk (positionsOf bs.flatten) (b.map (·.payload)) :=
  ⟨(List.prefix_append bs [b]).trans hp, h bs b hp⟩

/-- After every batch each open position holds units. -/
lemma Legal.allHeld_early (h : st.Legal) {bs : List (List Event)} (hp : bs <+: st.txns) :
    AllHeld (positionsOf bs.flatten) := by
  induction bs using List.reverseRecOn with
  | nil =>
    intro m v hv
    simp [positionsOf, initialState] at hv
  | append_singleton bs b ih =>
    obtain ⟨hbs, hb⟩ := h.prefix_step hp
    have hpa := BatchOk.positionsAfter (s := replay (initialState 0 0) bs.flatten) (ih hbs) hb
    rw [List.flatten_append, List.flatten_singleton, ← positionsOf_append bs.flatten b
      (replay (initialState 0 0) bs.flatten) rfl]
    exact hpa.allHeld (ih hbs)

lemma Legal.allHeld (h : st.Legal) : AllHeld (positionsOf st.read) :=
  h.allHeld_early (List.prefix_refl _)

lemma batchOk_ne_nil {P : Dict Mint PositionView} {ps : List Payload} (h : BatchOk P ps) :
    ps ≠ [] := by
  cases h <;> simp

lemma Legal.solid (h : st.Legal) : st.Solid := by
  rintro b hb rfl
  obtain ⟨bs, cs, hs⟩ := List.append_of_mem hb
  have hp : bs ++ [[]] <+: st.txns := ⟨cs, by simp [hs]⟩
  exact batchOk_ne_nil (h bs [] hp) rfl

/-- **Conservation over a legal ledger.** After every batch, from any initial equity. -/
theorem Legal.balanced (h : st.Legal) (e₀ day : ℤ) {bs : List (List Event)}
    (hp : bs <+: st.txns) : Balanced (initialState e₀ day) bs.flatten := by
  induction bs using List.reverseRecOn with
  | nil => simp [Balanced, slicesRealized, closesRealized, rejectionFees]
  | append_singleton bs b ih =>
    obtain ⟨hbs, hb⟩ := h.prefix_step hp
    rw [List.flatten_append, List.flatten_singleton]
    have hpos := replay_initial_positions e₀ day bs.flatten
    refine (ih hbs).append (BatchOk.balanced ?_ ?_)
    · rw [hpos]
      exact h.allHeld_early hbs
    · rw [hpos]
      exact hb

/-- The rows of a ledger prefix, as payloads. -/
def payloads (bs : List (List Event)) : List Payload := bs.flatten.map (·.payload)

/-- What one more batch does to the positions of a legal ledger. -/
lemma Legal.positionsAfter (h : st.Legal) {bs : List (List Event)} {b : List Event}
    (hp : bs ++ [b] <+: st.txns) :
    PositionsAfter (positionsOf bs.flatten) (b.map (·.payload))
      (positionsOf (bs ++ [b]).flatten) := by
  obtain ⟨hbs, hb⟩ := h.prefix_step hp
  have hpa := BatchOk.positionsAfter (s := replay (initialState 0 0) bs.flatten)
    (h.allHeld_early hbs) hb
  rw [List.flatten_append, List.flatten_singleton, ← positionsOf_append bs.flatten b
    (replay (initialState 0 0) bs.flatten) rfl]
  exact hpa

/-- Units held are the net of all fills. -/
lemma Legal.units (h : st.Legal) (m : Mint) {bs : List (List Event)} (hp : bs <+: st.txns) :
    unitsHeld (positionsOf bs.flatten) m = netUnits m (payloads bs) := by
  induction bs using List.reverseRecOn with
  | nil => rfl
  | append_singleton bs b ih =>
    obtain ⟨hbs, -⟩ := h.prefix_step hp
    have hu := (h.positionsAfter hp).units m
    rw [ih hbs] at hu
    rw [hu, payloads, payloads, List.flatten_append, List.flatten_singleton, List.map_append,
      netUnits_append]

/-- Units held are the net of the fills since the mint was last closed. -/
lemma Legal.life (h : st.Legal) (m : Mint) {bs : List (List Event)} (hp : bs <+: st.txns) :
    unitsHeld (positionsOf bs.flatten) m = netUnits m (lifeOf m (payloads bs)) := by
  induction bs using List.reverseRecOn with
  | nil => rfl
  | append_singleton bs b ih =>
    obtain ⟨hbs, -⟩ := h.prefix_step hp
    have hl := (h.positionsAfter hp).life m (payloads bs) (ih hbs)
    rw [hl, payloads, payloads, List.flatten_append, List.flatten_singleton, List.map_append]

end LedgerStore

/-! ### Batches of the system -/

lemma AsideBatch.trade {F : Row → Prop} {st : LedgerStore} {rows : List Row}
    (h : AsideBatch F st rows) : TradeBatch st rows := by
  obtain ⟨row, ha, -⟩ := h
  have hp := ha.payload
  unfold TradeBatch
  rw [List.map_singleton]
  rcases hr : row.payload with p | p | p | p | p | p | p | p | p | p | p | p | p | - | - | p | p | p
  case markToMarket => exact .marked _
  all_goals first | exact .aside _ rfl | simp [hr, Payload.ofOrder] at hp

lemma EngineRow.trade {st : LedgerStore} {rows : List Row} (h : EngineRow st rows) :
    TradeBatch st rows := h.alone.trade

/-- The desk's own rows leave the positions. -/
lemma positions_engine {st st' : LedgerStore} (h : st.Grows EngineRow st') :
    positionsOf st'.read = positionsOf st.read := by
  refine h.invariant (I := fun st' => positionsOf st'.read = positionsOf st.read)
    (fun _ _ h => h) (fun st' rows hst _ hrows => ?_) rfl
  cases hrows with
  | mk row hp hk hn hh =>
    rw [LedgerStore.read_commit, ← positionsOf_append _ _ (replay (initialState 0 0) st'.read) rfl,
      ← hst]
    have haside : row.payload.isTrade = false := by
      cases hpay : row.payload <;> simp_all [Payload.isEngine, Payload.isTrade]
    exact (handle_aside _ row.ts haside).1

lemma acceptedRefusal_trade (cfg : DeskConfig) (c : PlaceCall) (reason : Reason) (detail : Detail)
    (ts : ℤ) (st : LedgerStore) : TradeBatch st [acceptedRefusal cfg c reason detail ts] :=
  .rejected _ le_rfl

lemma confirmingRefusal_trade {cfg : DeskConfig} {c : PlaceCall} {reason : Reason}
    {detail : Detail} {fig : RejectFigures} (hfee : 0 ≤ fig.fees) (ts : ℤ) (st : LedgerStore) :
    TradeBatch st [confirmingRefusal cfg c reason detail fig ts] := .rejected _ hfee

lemma placedRows_trade (cfg : DeskConfig) (c : PlaceCall) (dec : RiskDecision) (order : ℕ) (ts : ℤ)
    (st : LedgerStore) : TradeBatch st (placedRows cfg c dec order ts) := by
  unfold TradeBatch placedRows orderRows
  split
  · exact .placed _
  · exact .consumed _ _

section Fills

variable {cfg : DeskConfig} {c : PlaceCall} {d : Desk}

/-- A position the desk holds, among the positions of its rows. -/
lemma held_get {m : Mint} {v : PositionView} (h : heldPosition (d.fold cfg) m = some v) :
    (positionsOf d.store.read).get m = some v ∧ 0 < v.tokenUnits := by
  rw [← replay_initial_positions]
  exact heldPosition_some.mp h

lemma not_held_get (hh : AllHeld (positionsOf d.store.read)) {m : Mint}
    (h : heldPosition (d.fold cfg) m = none) : (positionsOf d.store.read).get m = none := by
  by_contra hne
  obtain ⟨v, hv⟩ := Option.ne_none_iff_exists'.mp hne
  have hs : heldPosition (d.fold cfg) m = some v := by
    refine heldPosition_some.mpr ⟨?_, hh m v hv⟩
    rw [← hv]
    exact congrArg (·.get m) (replay_initial_positions _ _ _)
  simp [hs] at h

lemma boughtRows_trade {p : Placed} {q : BuyQuote} {curve : CurveSnapshot} {out1 : ℤ}
    (hh : AllHeld (positionsOf d.store.read)) (hq : 0 ≤ q.filled) (ho : 0 < out1) :
    TradeBatch d.store (boughtRows cfg c p q curve out1 d) := by
  have hn := cfg.fees.networkCost_nonneg
  have hdebit : -(buyFigures p q curve out1 d.nextId).cashDebit cfg ≤ 0 := by
    simp only [BuyFigures.cashDebit, buyFigures]
    omega
  unfold TradeBatch boughtRows buyFillRows
  rcases hv : heldPosition (d.fold cfg) c.request.mint with - | v
  · refine .opened _ _ rfl c.request.mint_ne (not_held_get hh hv) ho hdebit rfl rfl ?_
    simp
  · exact .added _ v rfl (held_get hv).1 ho hdebit

lemma soldRows_trade {p : Placed} {plan : SellPlan} {curve : CurveSnapshot} {v : PositionView}
    {gross1 : ℤ} (hv : heldPosition (d.fold cfg) c.request.mint = some v)
    (hl : plan.filledUnits ≤ v.tokenUnits) (hu : 0 < plan.filledUnits) :
    TradeBatch d.store (soldRows cfg c p plan curve v gross1 d) := by
  obtain ⟨hget, hpos⟩ := held_get hv
  unfold TradeBatch soldRows sellRows
  simp only
  split_ifs with hall
  · exact .closed _ v _ [] rfl hget hu (le_antisymm hl hall.2) rfl rfl (by simp)
  · refine .reduced _ v rfl hget hu ?_
    have : ¬ v.tokenUnits ≤ plan.filledUnits := fun h => hall ⟨hpos, h⟩
    show plan.filledUnits < v.tokenUnits
    omega

lemma forceCloseRows_trade {f : ForceClose} {v : PositionView} {order ref : ℕ} {ts : ℤ}
    (hv : heldPosition (d.fold cfg) f.mint = some v) :
    TradeBatch d.store (forceCloseRows f v order ref ts) := by
  obtain ⟨hget, hpos⟩ := held_get hv
  exact .closed _ v _ [.escalation _] rfl hget hpos rfl rfl rfl (by simp [Payload.isTrade])

end Fills

/-- A passed check of a buy sized it, whether it was evaluated now or cached. -/
lemma checked_size {cfg : DeskConfig} {call : CheckCall} {d d' : Desk} {dec : RiskDecision}
    (hc : CacheOk cfg d) (hs : d.store.Solid) (h : check cfg call d = (.ok dec, d'))
    (hp : dec.passed = true) (hb : call.order.side = .buy) :
    ∃ n, dec.sizeLamports = some n ∧ 0 < n := by
  obtain ⟨call₀, d₀, hdec, -⟩ := check_decided hc hs h
  have hside : call₀.order.side = .buy := by
    have := congrArg (fun k => k.orderHash.side) hdec.key
    exact this.trans hb
  obtain ⟨n, hn, hmin⟩ := passed_size (Prod.ext hdec.decided rfl) hp hside
  exact ⟨n, hn, lt_of_lt_of_le (by linarith [cfg.limits.min_ge]) hmin⟩

/-- A recapped quote spends no less than nothing. -/
lemma buyRecap_filled {cfg : DeskConfig} {quote q : BuyQuote} {seen : CurveSnapshot}
    {cap : Option ℤ} (h : buyRecap cfg quote seen cap = .ok q) (hq : 0 ≤ quote.filled)
    (hc : ∀ n ∈ cap, 0 < n) : 0 ≤ q.filled := by
  unfold buyRecap at h
  rcases cap with - | n
  · obtain rfl := Except.ok.inj h
    exact hq
  · simp only at h
    split_ifs at h
    · obtain rfl := Except.ok.inj h
      exact hq
    · obtain ⟨out0, -, h⟩ := except_bind_ok_iff.mp h
      obtain ⟨fraction, -, h⟩ := except_bind_ok_iff.mp h
      obtain rfl := Except.ok.inj h
      exact (hc n rfl).le

lemma BuyQuoted.filled_nonneg {cfg : DeskConfig} {c : PlaceCall} {size : ℤ} {seen : CurveSnapshot}
    {q : BuyQuote} (h : BuyQuoted cfg c size seen q) (hs : 0 < size) : 0 ≤ q.filled := by
  have hcurve : 0 < seen.sLamports := (buyOut_ok_iff.mp h.priced).1
  have hcap : 0 ≤ fillCap cfg seen.sLamports := by
    unfold fillCap truncInt
    have hnum : 0 ≤ ((seen.sLamports : ℚ) * cfg.budget.partialFillFraction).num := by
      rw [Rat.num_nonneg]
      have := cfg.budget.partial_pos
      positivity
    exact Int.tdiv_nonneg hnum (Int.natCast_nonneg _)
  rw [h.filled_eq]
  exact le_min hs.le hcap

/-! ### The invariant -/

namespace Sys

/-- The books are in order: every batch was, every cached decision was evaluated, and the buys
under way are sized. -/
structure Books (cfg : DeskConfig) (s : Sys) : Prop where
  legal : s.store.Legal
  cache : CacheOk cfg s.world.desk
  sized : ∀ i c size, s.waiting i = some (c, .curve0 size) → c.request.side = .buy → 0 < size
  quoted : ∀ i c p q, s.Holds i c p (.buy q) → c.request.side = .buy ∧ 0 ≤ q.filled

lemma books_start (cfg : DeskConfig) (now e₀ : ℤ) (killswitch : KillSwitch) :
    (start now e₀ killswitch).Books cfg where
  legal := by
    intro bs b hp
    have : (start now e₀ killswitch).store.txns = [] := rfl
    rw [this, List.prefix_nil] at hp
    simp at hp
  cache := by
    intro k dec hk
    have : (start now e₀ killswitch).world.desk.decisions = ∅ := rfl
    simp [this] at hk
  sized := by
    intro i c size h
    simp [waiting, start] at h
  quoted := by
    rintro i c p q (h | h) <;> simp [waiting, start] at h

section Steps

variable {cfg : DeskConfig} {s s' : Sys}

lemma holds_update {f : ℕ → Option (PlaceCall × Wait)} {i j : ℕ} {c : PlaceCall} {p : Placed}
    {q : Quoted} {o : Option (PlaceCall × Wait)} (hf : f = Function.update s.waiting i o)
    (h : f j = some (c, .sleep p q) ∨ f j = some (c, .curve1 p q)) :
    (j = i ∧ (o = some (c, .sleep p q) ∨ o = some (c, .curve1 p q))) ∨
      (j ≠ i ∧ s.Holds j c p q) := by
  subst hf
  by_cases hj : j = i
  · subst hj
    simp only [Function.update_self] at h
    exact .inl ⟨rfl, h⟩
  · rw [Function.update_of_ne hj] at h
    exact .inr ⟨hj, h⟩

lemma curve0_update {f : ℕ → Option (PlaceCall × Wait)} {i j : ℕ} {c : PlaceCall} {size : ℤ}
    {o : Option (PlaceCall × Wait)} (hf : f = Function.update s.waiting i o)
    (h : f j = some (c, .curve0 size)) :
    (j = i ∧ o = some (c, .curve0 size)) ∨ (j ≠ i ∧ s.waiting j = some (c, .curve0 size)) := by
  subst hf
  by_cases hj : j = i
  · subst hj
    rw [Function.update_self] at h
    exact .inl ⟨rfl, h⟩
  · rw [Function.update_of_ne hj] at h
    exact .inr ⟨hj, h⟩

/-- The books with the same calls waiting. -/
lemma Books.same (h : s.Books cfg) (hl : s'.store.Legal) (hc : CacheOk cfg s'.world.desk)
    (hw : s'.waiting = s.waiting) : s'.Books cfg where
  legal := hl
  cache := hc
  sized i c size hi := h.sized i c size (by rwa [← hw])
  quoted i c p q hi := h.quoted i c p q (by unfold Holds at *; rwa [← hw])

/-- The books once a call has ended. -/
lemma Books.over {i : ℕ} (h : s.Books cfg) (hl : s'.store.Legal) (hc : CacheOk cfg s'.world.desk)
    (hw : s'.waiting = Function.update s.waiting i none) : s'.Books cfg where
  legal := hl
  cache := hc
  sized j c size hj hb := by
    rcases curve0_update hw hj with ⟨-, ho⟩ | ⟨-, hj'⟩
    · simp at ho
    · exact h.sized j c size hj' hb
  quoted j c p q hj := by
    rcases holds_update hw hj with ⟨-, ho⟩ | ⟨-, hj'⟩
    · simp at ho
    · exact h.quoted j c p q hj'

/-- The books once a call waits for something else. -/
lemma Books.moved {i : ℕ} {c : PlaceCall} {w : Wait} (h : s.Books cfg) (hl : s'.store.Legal)
    (hc : CacheOk cfg s'.world.desk)
    (hw : s'.waiting = Function.update s.waiting i (some (c, w)))
    (hsized : ∀ size, w = .curve0 size → c.request.side = .buy → 0 < size)
    (hquoted : ∀ p q, w = .sleep p (.buy q) ∨ w = .curve1 p (.buy q) →
      c.request.side = .buy ∧ 0 ≤ q.filled) : s'.Books cfg where
  legal := hl
  cache := hc
  sized j c' size hj hb := by
    rcases curve0_update hw hj with ⟨-, ho⟩ | ⟨-, hj'⟩
    · obtain ⟨rfl, hwait⟩ := Prod.mk.inj (Option.some.inj ho)
      exact hsized size hwait hb
    · exact h.sized j c' size hj' hb
  quoted j c' p q hj := by
    rcases holds_update hw hj with ⟨-, ho⟩ | ⟨-, hj'⟩
    · simp only [Option.some.injEq, Prod.mk.injEq] at ho
      rcases ho with ⟨rfl, hwait⟩ | ⟨rfl, hwait⟩
      · exact hquoted p q (.inl hwait)
      · exact hquoted p q (.inr hwait)
    · exact h.quoted j c' p q hj'

/-- A commit on a desk consulted before it, and quiet changes after it. -/
lemma Books.committed {call : CheckCall} {d d₁ : Desk} {rows : List Row} (h : s.Books cfg)
    (hd : s.world.desk.Consulted cfg call d) (hq : d₁.Quietly s'.world.desk)
    (hst : d₁.store = d.store.commit rows) (hdec : d₁.decisions = d.decisions)
    (hr : d.store.Legal → TradeBatch d.store rows) :
    s'.store.Legal ∧ CacheOk cfg s'.world.desk := by
  have hl : d.store.Legal := h.legal.grow (hd.store.mono fun _ _ => EngineRow.trade)
  have hl₁ : d₁.store.Legal := hst ▸ hl.commit (hr hl)
  refine ⟨hl₁.grow (hq.store.mono fun _ _ => EngineRow.trade), ?_⟩
  refine ((hd.cacheOk h.cache).extend hdec ?_ ?_).quietly hq
  · rw [hst, LedgerStore.txns_commit]
    exact List.prefix_append _ _
  · rw [hst, LedgerStore.initialEquity_commit]

/-- **One step** keeps the books in order. -/
theorem Move.books {a : Action} (h : s.Books cfg) (m : Move cfg s a s') : s'.Books cfg := by
  cases m with
  | beside hw hb =>
    refine h.same (h.legal.grow (hb.desk.store.mono fun _ _ => AsideBatch.trade)) ?_ hw
    exact h.cache.extend hb.desk.decisions hb.desk.store.txns_extends hb.desk.store.initialEquity_eq
  | edited intact hw hs =>
    refine h.same ?_ ?_ hw
    · unfold store at *
      rw [hs]
      exact h.legal
    · rw [hs]
      exact h.cache.extend rfl (List.prefix_refl _) rfl
  | forced f v hw hm hv hf hd =>
    refine h.same ?_ ?_ hw
    · unfold store at *
      rw [hd]
      exact h.legal.commit (forceCloseRows_trade hv)
    · rw [hd]
      exact h.cache.extend rfl (List.prefix_append _ _) rfl
  | cancelled o ho => exact h.same h.legal h.cache rfl
  | asked c dec hn hc hp hm hw =>
    have hcons := check_consulted cfg (c.checkCall cfg .accepted) s.world.desk
    rw [hc] at hcons
    refine h.moved (h.legal.grow (hcons.store.mono fun _ _ => EngineRow.trade))
      (hcons.cacheOk h.cache) hw (fun size hsize hb => ?_) (by simp)
    obtain rfl := Wait.curve0.inj hsize
    obtain ⟨n, hn, hpos⟩ := checked_size h.cache h.legal.solid hc hp hb
    simpa [hn] using hpos
  | ended i c hi hd hm hw =>
    exact h.over (h.legal.grow (hd.store.mono fun _ _ => EngineRow.trade)) (hd.cacheOk h.cache) hw
  | refused i c reason detail hi hd ht hq hm hw =>
    obtain ⟨hl, hc⟩ := h.committed hd hq rfl rfl fun _ => acceptedRefusal_trade _ _ _ _ _ _
    exact h.over hl hc hw
  | @placed _ i c size dec seen quoted latency drop d hi hq hwr hs hw =>
    have hcons := check_consulted cfg (c.checkCall cfg .accepted)
      (s.world.withDesk (drawnDesk s.world.desk)).desk
    rw [hwr.checked] at hcons
    have hdrawn : s.world.desk.Consulted cfg (c.checkCall cfg .accepted) (drawnDesk s.world.desk) :=
      Desk.Quietly.consulted ⟨.refl, rfl, Nat.le_add_right _ _, rfl, rfl, rfl, rfl, rfl⟩
    obtain ⟨hl, hc⟩ := h.committed (hdrawn.trans hcons) (.refl s'.world.desk) (by rw [hs])
      (by rw [hs]) fun _ => placedRows_trade cfg c dec s.world.desk.nextId d.now _
    refine h.moved hl hc hw (by simp) fun p q' hpq => ?_
    obtain ⟨-, rfl⟩ : _ = p ∧ quoted = .buy q' := by simpa using hpq
    cases hq with
    | buy q hb hq => exact ⟨hb, hq.filled_nonneg (h.sized i c size hi hb)⟩
  | woke i c p q hi hc hs hw =>
    have hl : s'.store.Legal := by
      unfold store
      rw [hs]
      exact h.legal
    refine h.moved hl (by rw [hs]; exact h.cache) hw (by simp) fun p' q' hpq => ?_
    obtain ⟨rfl, rfl⟩ : p = p' ∧ q = .buy q' := by simpa using hpq
    exact h.quoted i c p q' (.inl hi)
  | rejected i c p q reason detail fig hi hd hid hfee ht hq hm hw =>
    obtain ⟨hl, hc⟩ := h.committed hd hq rfl rfl fun _ => confirmingRefusal_trade hfee _ _
    exact h.over hl hc hw
  | dropped i c p q hi hd hm hw why =>
    exact h.over (h.legal.grow (hd.store.mono fun _ _ => EngineRow.trade)) (hd.cacheOk h.cache) hw
  | @bought _ i c p quote curve1 curve dec q out1 d hi hcurve hdec hp hin hne hf hq hm hw =>
    have hcons := check_consulted cfg (c.checkCall cfg .confirming) s.world.desk
    rw [hdec.checked] at hcons
    obtain ⟨hside, hquote⟩ := h.quoted i c p quote (.inr hi)
    have hfilled : 0 ≤ q.filled := by
      refine buyRecap_filled hp.recap hquote fun n hn => ?_
      obtain ⟨m, hm, hpos⟩ := checked_size h.cache h.legal.solid hdec.checked hdec.passed hside
      obtain rfl : n = m := by rw [hm] at hn; exact (Option.some.inj hn).symm
      exact hpos
    have hout : 0 < out1 := lt_of_le_of_ne (buyOut_nonneg hp.priced) (Ne.symm hne)
    obtain ⟨hl, hc⟩ := h.committed hcons hq rfl rfl fun hl =>
      boughtRows_trade hl.allHeld hfilled hout
    exact h.over hl hc hw
  | @sold _ i c p plan curve1 curve dec v gross1 d hi hcurve hdec hv hheld hp hin hf hq hm hw =>
    have hcons := check_consulted cfg (c.checkCall cfg .confirming) s.world.desk
    rw [hdec.checked] at hcons
    have hu : 0 < plan.filledUnits := (sellOut_ok_iff.mp hp).2.2.1
    obtain ⟨hl, hc⟩ := h.committed hcons hq rfl rfl fun _ => soldRows_trade hv hheld hu
    exact h.over hl hc hw

end Steps

/-- **Every run** keeps the books in order. -/
theorem books_after (cfg : DeskConfig) (now e₀ : ℤ) (killswitch : KillSwitch)
    (as : List Action) : (Runs.after (step cfg) (start now e₀ killswitch) as).Books cfg :=
  Runs.invariant (I := Books cfg) (fun s a h => (step_move cfg s a).books h)
    (books_start cfg now e₀ killswitch) as

/-! ### Conservation -/

/-- **Cash and basis.** After every batch of every run from an empty book, cash and the cost basis
of the open positions are the initial equity, with the slices the fold realized and the profits
of the closing rows, less the fees of refused orders. -/
theorem cash_and_basis (cfg : DeskConfig) (now e₀ day : ℤ) (killswitch : KillSwitch)
    (as : List Action) (bs : List (List Event))
    (hp : bs <+: (Runs.after (step cfg) (start now e₀ killswitch) as).store.txns) :
    (replay (initialState e₀ day) bs.flatten).cashLamports +
        openBasis (replay (initialState e₀ day) bs.flatten) =
      e₀ + slicesRealized (initialState e₀ day) bs.flatten + closesRealized bs.flatten -
        rejectionFees bs.flatten := by
  have hb := (books_after cfg now e₀ killswitch as).legal.balanced e₀ day hp
  unfold Balanced at hb
  have h₀ : openBasis (initialState e₀ day) = 0 := rfl
  have h₁ : (initialState e₀ day).cashLamports = e₀ := rfl
  rw [hb, h₀, h₁, add_zero]

theorem cash_and_basis_sample :
    (replay (initialState 10000000000 0)
      (sampleAfter sampleTrades).store.txns.flatten).cashLamports +
        openBasis
          (replay (initialState 10000000000 0) (sampleAfter sampleTrades).store.txns.flatten) =
      10000000000 +
          slicesRealized (initialState 10000000000 0)
            (sampleAfter sampleTrades).store.txns.flatten +
          closesRealized (sampleAfter sampleTrades).store.txns.flatten -
        rejectionFees (sampleAfter sampleTrades).store.txns.flatten :=
  cash_and_basis sampleConfig 0 10000000000 0 {} sampleTrades _ (List.prefix_refl _)

/-- **Units.** After every batch of every run the units held of a mint are those bought less those
sold, in all and since the mint was last closed; they are never negative; and the batch holds a
closing row of the mint, one, exactly when it takes the units held to zero. -/
theorem units_conserved (cfg : DeskConfig) (now e₀ : ℤ) (killswitch : KillSwitch)
    (as : List Action) (m : Mint) (bs : List (List Event)) (b : List Event)
    (hp : bs ++ [b] <+: (Runs.after (step cfg) (start now e₀ killswitch) as).store.txns) :
    let before := unitsHeld (positionsOf bs.flatten) m
    let after := unitsHeld (positionsOf (bs ++ [b]).flatten) m
    after = netUnits m (LedgerStore.payloads (bs ++ [b])) ∧
      after = netUnits m (lifeOf m (LedgerStore.payloads (bs ++ [b]))) ∧ 0 ≤ after ∧
      (b.map (·.payload)).countP (closes m) = if 0 < before ∧ after = 0 then 1 else 0 := by
  have hl := (books_after cfg now e₀ killswitch as).legal
  have hbs : bs <+: _ := (List.prefix_append bs [b]).trans hp
  refine ⟨hl.units m hp, hl.life m hp, unitsHeld_nonneg (hl.allHeld_early hp) m, ?_⟩
  exact (hl.positionsAfter hp).closings (hl.allHeld_early hbs) m

/-- The last batch of the sample trades sells the rest and closes the mint. -/
theorem units_conserved_sample :
    (((sampleAfter sampleTrades).store.txns.getLast?.getD []).map (·.payload)).countP
      (closes (sampleMint 'a')) = 1 := by
  have hp : (sampleAfter sampleTrades).store.txns.dropLast ++
      [(sampleAfter sampleTrades).store.txns.getLast?.getD []] <+:
        (sampleAfter sampleTrades).store.txns := by decide +kernel
  rw [(units_conserved sampleConfig 0 10000000000 {} sampleTrades (sampleMint 'a') _ _ hp).2.2.2]
  decide +kernel

end Sys

end PumpGrok
