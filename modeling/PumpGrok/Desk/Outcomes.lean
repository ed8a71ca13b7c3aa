import PumpGrok.Desk.Orders
import PumpGrok.Risk.CheckRaises

/-!
How an order ends and what its ledger row says of it. Whatever stretch of its call ends it, the
refusal raised or the fill returned is the one its row tells, or no outcome of an order at all.
-/

namespace PumpGrok

open World

/-- What a refusal says, but for its text. -/
def Exc.refusal : Exc → Option (Bool × Reason × Stage × ℤ)
  | .orderRejected e => some (false, e.reason, e.stage, e.feesLamports)
  | .orderUnknown e => some (true, e.reason, e.stage, e.feesLamports)
  | _ => none

/-- An order on the ledger with no outcome yet. -/
structure Awaits (c : PlaceCall) (order : ℕ) (d : Desk) : Prop where
  inOrder : d.store.InOrder d.nextId
  placed : d.store.PlacedUnder c.key order
  pending : d.store.endings order = 0

/-- A row of the ledger tells a refusal. -/
def RefusalTold (order : ℕ) (x : Exc) (st : LedgerStore) : Prop :=
  ∃ e ∈ st.read, ∃ y, outcomeOf order e = some (.error y) ∧ x.refusal = y.refusal

/-- A row of the ledger tells a fill of `f` of `n`. The status is in no row. -/
def FillTold (order : ℕ) (f n : ℤ) (fill : Fill) (st : LedgerStore) : Prop :=
  ∃ e ∈ st.read, ∃ p, e.payload = .fillRecorded p ∧ p.orderId = order ∧
    p.filledFraction = f / n ∧
    fill = { fillOf e p order with status := if f = n then .filled else .partially }

/-- A program that returns what meets `Q`, or raises a refusal its row tells, or what is no outcome
of an order. -/
def Ends {α : Type} (order : ℕ) (Q : α → World → Prop) (r : Except Exc α × World) : Prop :=
  match r.1 with
  | .ok a => Q a r.2
  | .error x => x.Inner ∨ RefusalTold order x r.2.desk.store

namespace Ends

variable {α β : Type} {order : ℕ} {Q : α → World → Prop} {S : β → World → Prop} {w : World}

lemma bind {m : Prog World Exc α} {f : α → Prog World Exc β} (hm : Ends order Q (m w))
    (hf : ∀ a w', Q a w' → Ends order S (f a w')) : Ends order S ((m >>= f) w) := by
  unfold Ends at hm
  rcases h : m w with ⟨x | a, w'⟩
  · rw [Prog.bind_run_error h]
    rw [h] at hm
    exact hm
  · rw [Prog.bind_run_ok h]
    rw [h] at hm
    exact hf a w' hm

lemma ofExcept {e : Except Exc α} (hx : ∀ x, e = .error x → x.Inner)
    (hq : ∀ a, e = .ok a → Q a w) : Ends order Q (World.ofExcept e w) := by
  rcases e with x | a
  · exact .inl (hx x rfl)
  · exact hq a rfl

end Ends

/-! ### What the arithmetic raises -/

section Arithmetic

variable {x : Exc}

lemma decimalDiv_inner {a b : ℤ} (h : decimalDiv a b = .error x) : x.Inner := by
  unfold decimalDiv at h
  split_ifs at h
  exact Except.error.inj h ▸ rfl

lemma buyOut_inner {s t n : ℤ} (h : buyOut s t n = .error x) : x.Inner := by
  unfold buyOut at h
  split_ifs at h
  all_goals exact Except.error.inj h ▸ rfl

lemma sellOut_inner {s t n : ℤ} (h : sellOut s t n = .error x) : x.Inner := by
  unfold sellOut at h
  split_ifs at h
  all_goals exact Except.error.inj h ▸ rfl

lemma buyRecap_inner {cfg : DeskConfig} {q : BuyQuote} {curve0 : CurveSnapshot} {cap : Option ℤ}
    (h : buyRecap cfg q curve0 cap = .error x) : x.Inner := by
  unfold buyRecap at h
  rcases cap with - | cap
  · exact nomatch h
  · dsimp only at h
    split_ifs at h
    rcases hb : buyOut curve0.sLamports curve0.tUnits (cap - cfg.fees.venueFee cap) with y | out0
    · rw [hb] at h
      exact Except.error.inj h ▸ buyOut_inner hb
    · rcases hd : decimalDiv cap q.size with y | fraction
      · rw [hb, hd] at h
        exact Except.error.inj h ▸ decimalDiv_inner hd
      · rw [hb, hd] at h
        exact nomatch h

end Arithmetic

/-! ### Refusals -/

section Refusals

variable {cfg : DeskConfig} {c : PlaceCall} {order : ℕ} {w : World} {α : Type}

lemma Awaits.consulted {d d' : Desk} {call : CheckCall} (h : Awaits c order d)
    (hd : d.Consulted cfg call d') : Awaits c order d' := by
  have hadds : d.store.Adds d'.store d.nextId d'.nextId [] :=
    .of_aside (hd.store.mono fun _ _ => EngineRow.alone) hd.ids
  refine ⟨hadds.inOrder h.inOrder, h.placed.mono hadds.grown, ?_⟩
  rw [hadds.endings, h.pending]
  rfl

/-- A refusal of a waiting order, where its key is free: recorded, or the store takes no row. -/
lemma reject_awaits (h : Awaits c order w.desk) (reason : Reason) (detail : Detail)
    (fig : RejectFigures) :
    (∃ x : Exc, x.Inner ∧
      reject c.request reason detail .confirming fig (c.ledgerSource cfg) w = (.error x, w)) ∨
    reject c.request reason detail .confirming fig (c.ledgerSource cfg) w =
      (.ok (.orderRejected
        { reason := reason, detail := detail, stage := .confirming, feesLamports := fig.fees }),
        w.commit [confirmingRefusal cfg c reason detail fig w.desk.now]) := by
  have hfree := (h.inOrder.keys_free h.placed h.pending).1 reason
  have hfresh : w.desk.store.Fresh [confirmingRefusal cfg c reason detail fig w.desk.now] :=
    LedgerStore.fresh_singleton.mpr hfree
  unfold reject Prog.catching
  rcases ha : LedgerStore.append
    (rejectRow c.request reason detail .confirming fig (c.ledgerSource cfg) w.desk.now)
      w.desk.store with ⟨x | e, st⟩
  · obtain ⟨rfl, ⟨-, rfl⟩ | ⟨-, hf, -⟩⟩ := LedgerStore.append_error_iff.mp ha
    · refine .inl ⟨.ledgerInconsistent, rfl, ?_⟩
      dsimp only
      rw [Prog.bind_run_error (onStore_run ha)]
      rfl
    · exact absurd hfresh hf
  · obtain ⟨-, -, -, rfl⟩ := LedgerStore.append_ok_iff.mp ha
    right
    dsimp only
    rw [Prog.bind_run_ok (onStore_run ha)]
    rfl

/-- The row of a refusal tells it. -/
lemma refusal_told (reason : Reason) (detail : Detail) {fig : RejectFigures}
    (hid : fig.orderId = some order) {x : Exc}
    (hx : x.refusal =
      some (decide (reason = .confirmationTimeout), reason, .confirming, fig.fees)) :
    RefusalTold order x
      (w.commit [confirmingRefusal cfg c reason detail fig w.desk.now]).desk.store := by
  have hmem : confirmingRefusal cfg c reason detail fig w.desk.now ∈
      [confirmingRefusal cfg c reason detail fig w.desk.now] := List.mem_cons_self
  obtain ⟨e, he, hrow⟩ := w.desk.store.exists_stamped hmem
  have hpay : e.payload = (confirmingRefusal cfg c reason detail fig w.desk.now).payload :=
    congrArg Row.payload hrow
  refine ⟨e, he, rejectionFromRow e
    { reason := reason, detail := .stored detail c.request.ticketId c.request.mint,
      stage := .confirming, feesLamports := fig.fees }, ?_, ?_⟩
  · unfold outcomeOf
    rw [hpay]
    simp only [confirmingRefusal, rejectRow, hid, if_true]
  · unfold rejectionFromRow
    rw [hpay, hx]
    simp only [confirmingRefusal, rejectRow]
    split_ifs with hr <;> simp [Exc.refusal, hr]

lemma refuse_ends (h : Awaits c order w.desk) {reason : Reason}
    (hr : reason ≠ .confirmationTimeout) (detail : Detail) {fig : RejectFigures}
    (hid : fig.orderId = some order) (Q : α → World → Prop) :
    Ends order Q ((refuse c.request reason detail .confirming fig (c.ledgerSource cfg) :
      Prog World Exc α) w) := by
  unfold refuse
  rcases @reject_awaits cfg c order w h reason detail fig with ⟨x, hx, hrun⟩ | hrun
  · rw [Prog.bind_run_error hrun]
    exact .inl hx
  · rw [Prog.bind_run_ok hrun]
    exact .inr (refusal_told reason detail hid (by simp [Exc.refusal, hr]))

lemma confirmRefuse_ends (h : Awaits c order w.desk) {reason : Reason}
    (hr : reason ≠ .confirmationTimeout) (detail : Detail) (Q : α → World → Prop) :
    Ends order Q ((confirmRefuse cfg c order reason detail : Prog World Exc α) w) := by
  unfold confirmRefuse
  rw [Prog.bind_run_ok (discardInflight_run order w)]
  have h' : Awaits c order (w.away order).desk := h
  exact refuse_ends h' hr detail rfl Q

/-- The timeout raises the unknown outcome, which its row tells. -/
lemma confirmTimeout_ends (h : Awaits c order w.desk) (latency : ℤ) (Q : α → World → Prop) :
    Ends order Q ((confirmTimeout cfg c order latency : Prog World Exc α) w) := by
  unfold confirmTimeout
  rw [Prog.bind_run_ok (discardInflight_run order w)]
  have h' : Awaits c order (w.away order).desk := h
  rcases @reject_awaits cfg c order _ h' .confirmationTimeout
    (.confirmWait latency cfg.limits.confirmTimeout) { orderId := some order } with
    ⟨x, hx, hrun⟩ | hrun
  · rw [Prog.bind_run_error hrun]
    exact .inl hx
  · rw [Prog.bind_run_ok hrun]
    exact .inr (refusal_told _ _ rfl rfl)

end Refusals

/-! ### The stretches of a placed order -/

section Stretches

variable {cfg : DeskConfig} {c : PlaceCall} {p : Placed} {w : World}

lemma placeWake_ends (h : Awaits c p.orderId w.desk) (quoted : Quoted) (overran : Bool) :
    Ends p.orderId (fun next _ => ∃ wait, next = .wait wait)
      (placeWake cfg c p quoted overran w) := by
  unfold placeWake
  split_ifs with ho
  · exact confirmTimeout_ends h _ _
  · refine Ends.bind (Q := fun _ _ => True) ?_ fun _ _ _ => ⟨_, rfl⟩
    unfold confirmCancelCheck
    split_ifs with hc
    · have h' : Awaits c p.orderId
          { w with mem := { awayMemory p.orderId w.mem with
            cancelled := w.mem.cancelled.erase p.orderId } }.desk := h
      exact refuse_ends h' (by simp) _ rfl _
    · trivial

/-- The second reading, taken from the world as it is, or refused. -/
lemma confirmCurve_ends (h : Awaits c p.orderId w.desk) (curve1 : Option CurveSnapshot) :
    Ends p.orderId (fun _ w' => w' = w) (confirmCurve cfg c p.orderId curve1 w) := by
  unfold confirmCurve
  rcases curve1 with - | curve
  · exact confirmRefuse_ends h (by simp) _ _
  · dsimp only
    split_ifs
    · exact confirmRefuse_ends h (by simp) _ _
    · exact confirmRefuse_ends h (by simp) _ _
    · rfl

lemma confirmRecheck_ends (h : Awaits c p.orderId w.desk)
    (hreason : ∀ dec d, check cfg (c.checkCall cfg .confirming) w.desk = (.ok dec, d) →
      dec.reason ≠ .confirmationTimeout) :
    Ends p.orderId (fun dec w' => ∃ d, w' = w.withDesk d ∧
      check cfg (c.checkCall cfg .confirming) w.desk = (.ok dec, d) ∧ dec.passed = true ∧
        Awaits c p.orderId d)
      (confirmRecheck cfg c p.orderId p.dropped w) := by
  have hcons := check_consulted cfg (c.checkCall cfg .confirming) w.desk
  unfold confirmRecheck
  rcases hc : check cfg (c.checkCall cfg .confirming) w.desk with ⟨x | dec, d⟩
  · rw [Prog.bind_run_error (onDesk_run hc)]
    exact .inl ((raises_check cfg _).run hc)
  · rw [hc] at hcons
    have h' : Awaits c p.orderId (w.withDesk d).desk := h.consulted hcons
    rw [Prog.bind_run_ok (onDesk_run hc)]
    split_ifs with hp hd
    · exact confirmRefuse_ends h' (hreason dec d hc) _ _
    · exact confirmRefuse_ends h' (by simp) _ _
    · exact ⟨d, rfl, rfl, by simpa using hp, h'⟩

/-- What the second check leaves of a quote. -/
def confirmed (cfg : DeskConfig) (c : PlaceCall) (d : Desk) : Quoted → ℤ
  | .sell plan => plan.filledUnits
  | .buy quote =>
    match (check cfg (c.checkCall cfg .confirming) d).1 with
    | .error _ => quote.filled
    | .ok dec => (dec.sizeLamports.map (min quote.filled)).getD quote.filled

/-- What a quote is asked for. -/
def Quoted.asked : Quoted → ℤ
  | .sell plan => plan.units
  | .buy quote => quote.size

/-- A quote's fraction is what it fills of what it is asked for. -/
def Quoted.Fractioned : Quoted → Prop
  | .sell plan => plan.fraction = plan.filledUnits / plan.units
  | .buy quote => quote.fraction = quote.filled / quote.size

lemma buyRecap_fraction {quote q : BuyQuote} {curve0 : CurveSnapshot} {cap : Option ℤ}
    (hq : quote.fraction = quote.filled / quote.size)
    (h : buyRecap cfg quote curve0 cap = .ok q) :
    q.size = quote.size ∧ q.fraction = q.filled / q.size ∧
      q.filled = (cap.map (min quote.filled)).getD quote.filled := by
  unfold buyRecap at h
  rcases cap with - | n
  · obtain rfl := Except.ok.inj h
    exact ⟨rfl, hq, rfl⟩
  · dsimp only at h
    split_ifs at h with hn
    · obtain rfl := Except.ok.inj h
      exact ⟨rfl, hq, (min_eq_left hn).symm⟩
    · obtain ⟨out0, -, h⟩ := except_bind_ok_iff.mp h
      obtain ⟨fraction, hd, h⟩ := except_bind_ok_iff.mp h
      obtain rfl := Except.ok.inj h
      exact ⟨rfl, (decimalDiv_ok_iff.mp hd).2, (min_eq_right (not_le.mp hn).le).symm⟩

/-- The rows of a fill, appended whole, and what is made of the first of them; or the store takes
none. -/
lemma appendRows_ends {α : Type} {order : ℕ} {row : Row} {rest : List Row} {d : Desk}
    {f : List Event → Prog World Exc α} {Q : α → World → Prop}
    (hf : ∀ e es st, e.toRow = row → e ∈ st.read →
      Ends order Q (f (e :: es) (w.withDesk { d with store := st }))) :
    Ends order Q ((do
      let stored ← onStore (LedgerStore.appendBatch (row :: rest))
      f stored : Prog World Exc α) (w.withDesk d)) := by
  rcases ha : LedgerStore.appendBatch (row :: rest) d.store with ⟨x | es, st⟩
  · obtain ⟨-, rfl, hx⟩ := LedgerStore.appendBatch_error_iff.mp ha
    have hrun := onStore_run (w := w.withDesk d) ha
    rw [Prog.bind_run_error hrun]
    rcases hx with ⟨-, rfl⟩ | ⟨-, -, rfl⟩ <;> exact .inl rfl
  · obtain ⟨hnil, -⟩ | ⟨-, -, -, rfl, rfl⟩ := LedgerStore.appendBatch_ok_iff.mp ha
    · cases hnil
    · have hrun := onStore_run (w := w.withDesk d) ha
      rw [Prog.bind_run_ok hrun]
      refine hf _ _ _ rfl ?_
      rw [LedgerStore.read_commit]
      exact List.mem_append_right _ List.mem_cons_self

lemma buySettle_ends {q : BuyQuote} (hq : q.fraction = q.filled / q.size) (curve : CurveSnapshot)
    (out1 : ℤ) (d : Desk) :
    Ends p.orderId (fun fill w' => FillTold p.orderId q.filled q.size fill w'.desk.store)
      (buySettle cfg c p q curve out1 (w.withDesk d)) := by
  by_cases hne : out1 = 0
  · have hdiv : decimalDiv q.xNet out1 = .error .divisionByZero := by simp [decimalDiv, hne]
    have hs : buySettle cfg c p q curve out1 (w.withDesk d) =
        (.error .divisionByZero, w.withDesk d) := by
      unfold buySettle
      rw [hdiv]
      rfl
    rw [hs]
    exact .inl rfl
  · have hdiv : decimalDiv q.xNet out1 = .ok (q.xNet / out1) := by simp [decimalDiv, hne]
    have hs : buySettle cfg c p q curve out1 (w.withDesk d) = (do
        let stored ← onStore (LedgerStore.appendBatch (boughtRows cfg c p q curve out1 d))
        settleMemory p.orderId c.request.mint curve
        pure (buyFill cfg c (buyFigures p q curve out1 d.nextId) stored) : Prog World Exc Fill)
          (w.withDesk (refDesk d)) := by
      unfold buySettle
      rw [hdiv]
      rfl
    obtain ⟨rest, hrows⟩ : ∃ rest, boughtRows cfg c p q curve out1 d =
        buyFillRow cfg c (buyFigures p q curve out1 d.nextId) d.now :: rest := by
      unfold boughtRows buyFillRows
      split_ifs
      · exact ⟨[], rfl⟩
      · exact ⟨_, rfl⟩
    rw [hs, hrows]
    refine appendRows_ends fun e es st hrow he => ?_
    rw [Prog.bind_run_ok (settleMemory_run _ _ _ _)]
    exact ⟨e, he, _, congrArg Row.payload hrow, rfl, hq, rfl⟩

lemma sellSettle_ends {plan : SellPlan} (hplan : plan.fraction = plan.filledUnits / plan.units)
    (curve : CurveSnapshot) (pos : Option PositionView) (gross1 out1 : ℤ) :
    Ends p.orderId
      (fun fill w' => FillTold p.orderId plan.filledUnits plan.units fill w'.desk.store)
      ((do
        let f ← sellFigures cfg plan gross1 out1
        sellSettle cfg c p plan curve pos f : Prog World Exc Fill) w) := by
  have hfigures : Ends p.orderId (fun f w' => f.fraction = plan.fraction ∧ ∃ d, w' = w.withDesk d)
      (sellFigures cfg plan gross1 out1 w) := by
    refine Ends.bind (Q := fun _ w' => w' = w) ?_ fun priceAvg w' hw => ?_
    · exact .ofExcept (fun x hx => decimalDiv_inner hx) fun _ _ => rfl
    · obtain rfl := hw
      rw [Prog.bind_run_ok (ulid_run w')]
      exact ⟨rfl, _, rfl⟩
  refine hfigures.bind ?_
  rintro f - ⟨hf, d, rfl⟩
  obtain ⟨rest, hrows⟩ : ∃ rest, sellRows cfg c p plan curve pos f d.now =
      sellFillRow cfg c p plan curve f d.now :: rest := by
    unfold sellRows
    rcases pos with - | v
    · exact ⟨[], rfl⟩
    · dsimp only
      split_ifs
      · exact ⟨_, rfl⟩
      · exact ⟨[], rfl⟩
  have hs : sellSettle cfg c p plan curve pos f (w.withDesk d) = (do
      let stored ← onStore (LedgerStore.appendBatch (sellRows cfg c p plan curve pos f d.now))
      settleMemory p.orderId c.request.mint curve
      pure (sellFill c p plan f stored) : Prog World Exc Fill) (w.withDesk d) := rfl
  rw [hs, hrows]
  refine appendRows_ends fun e es st hrow he => ?_
  rw [Prog.bind_run_ok (settleMemory_run _ _ _ _)]
  exact ⟨e, he, _, congrArg Row.payload hrow, rfl, hf.trans hplan, rfl⟩

lemma buyConfirm_ends (h : Awaits c p.orderId w.desk)
    (hreason : ∀ dec d, check cfg (c.checkCall cfg .confirming) w.desk = (.ok dec, d) →
      dec.reason ≠ .confirmationTimeout) {quote : BuyQuote}
    (hq : quote.fraction = quote.filled / quote.size) (curve1 : Option CurveSnapshot) :
    Ends p.orderId
      (fun fill w' => FillTold p.orderId (confirmed cfg c w.desk (.buy quote)) quote.size fill
        w'.desk.store)
      (buyConfirm cfg c p quote curve1 w) := by
  refine (confirmCurve_ends h curve1).bind ?_
  intro curve w' hw
  obtain rfl := hw.symm
  refine (confirmRecheck_ends h hreason).bind ?_
  rintro dec - ⟨d, rfl, hc, hp, h'⟩
  refine Ends.bind (Q := fun q w' => w' = _ ∧
    buyRecap cfg quote p.curve0 dec.sizeLamports = .ok q)
    (.ofExcept (fun x hx => buyRecap_inner hx) fun q hrecap => ⟨rfl, hrecap⟩) ?_
  rintro q - ⟨rfl, hrecap⟩
  refine Ends.bind (Q := fun _ w' => w' = _) (.ofExcept (fun x hx => buyOut_inner hx)
    fun _ _ => rfl) ?_
  rintro out1 - rfl
  refine Ends.bind (Q := fun _ w' => w' = w.withDesk d) ?_ ?_
  · unfold buyGuardSlippage
    split_ifs
    · rfl
    · rw [Prog.bind_run_ok (discardInflight_run _ _)]
      have h'' : Awaits c p.orderId ((w.withDesk d).away p.orderId).desk := h'
      exact refuse_ends h'' (by simp) _ rfl _
  · rintro - - rfl
    obtain ⟨hsize, hfraction, hfilled⟩ := buyRecap_fraction hq hrecap
    have hf : confirmed cfg c w.desk (.buy quote) = q.filled := by
      simp only [confirmed, hc, hfilled]
    rw [hf, ← hsize]
    exact buySettle_ends hfraction curve out1 d

lemma sellConfirm_ends (h : Awaits c p.orderId w.desk)
    (hreason : ∀ dec d, check cfg (c.checkCall cfg .confirming) w.desk = (.ok dec, d) →
      dec.reason ≠ .confirmationTimeout) {plan : SellPlan}
    (hq : plan.fraction = plan.filledUnits / plan.units) (curve1 : Option CurveSnapshot) :
    Ends p.orderId
      (fun fill w' => FillTold p.orderId plan.filledUnits plan.units fill w'.desk.store)
      (sellConfirm cfg c p plan curve1 w) := by
  refine (confirmCurve_ends h curve1).bind ?_
  intro curve w' hw
  obtain rfl := hw.symm
  refine (confirmRecheck_ends h hreason).bind ?_
  rintro dec - ⟨d, rfl, hc, hp, h'⟩
  refine Ends.bind (Q := fun _ w' => w' = w.withDesk d) ?_ ?_
  · unfold sellHolding
    rw [Prog.bind_run_ok (fold_run cfg _)]
    split_ifs
    · have h'' : Awaits c p.orderId (w.withDesk d).desk := h'
      exact confirmRefuse_ends h'' (by simp) _ _
    · rfl
  · rintro pos - rfl
    refine Ends.bind (Q := fun _ w' => w' = w.withDesk d) ?_ ?_
    · refine Ends.bind (Q := fun _ w' => w' = w.withDesk d)
        (.ofExcept (fun x hx => sellOut_inner hx) fun _ _ => rfl) ?_
      rintro gross1 - rfl
      dsimp only
      split_ifs
      · rw [Prog.bind_run_ok (discardInflight_run _ _)]
        have h'' : Awaits c p.orderId ((w.withDesk d).away p.orderId).desk := h'
        exact refuse_ends h'' (by simp) _ rfl _
      · rfl
    · rintro ⟨gross1, out1⟩ - rfl
      exact sellSettle_ends hq curve pos gross1 out1

/-- **From the second reading to the end**: a fill or a refusal, told by its row. -/
lemma placeCurve1_ends (h : Awaits c p.orderId w.desk)
    (hreason : ∀ dec d, check cfg (c.checkCall cfg .confirming) w.desk = (.ok dec, d) →
      dec.reason ≠ .confirmationTimeout) {quoted : Quoted} (hq : quoted.Fractioned)
    (curve1 : Option CurveSnapshot) :
    Ends p.orderId
      (fun next w' => ∃ fill, next = .done fill ∧
        FillTold p.orderId (confirmed cfg c w.desk quoted) quoted.asked fill w'.desk.store)
      (placeCurve1 cfg c p quoted curve1 w) := by
  unfold placeCurve1
  cases quoted with
  | buy quote =>
    refine (buyConfirm_ends h hreason hq curve1).bind fun fill w' hf => ?_
    exact ⟨fill, rfl, hf⟩
  | sell plan =>
    refine (sellConfirm_ends h hreason hq curve1).bind fun fill w' hf => ?_
    exact ⟨fill, rfl, hf⟩

end Stretches

end PumpGrok
