import PumpGrok.Desk.FillGuards

/-!
A human approval binds what is traded: the order it matches is of its side, ticket, mint and
slippage, and what the adapter quotes and fills of that order is no more than it approved.
-/

namespace PumpGrok

namespace ApprovalRecord

/-- What a record says of the order it binds. -/
structure Binds (a : ApprovalRecord) (r : OrderRequest) : Prop where
  unconsumed : a.consumed = false
  side : orderSide a.kind = some r.side
  ticket : a.ticketId = some r.ticketId
  mint : a.mint = some r.mint
  slippage : a.maxSlippageBps = some r.maxSlippageBps

/-- The amounts a record approves: lamports for a buy, units for a sell stated in units, and for a
sell stated in lamports what they come to in units at the decision curve. -/
def Allows (a : ApprovalRecord) (curve : CurveSnapshot) (lamports units : ℤ) : Side → Prop
  | .buy => ∃ n, a.sizeLamports = some n ∧ lamports ≤ n
  | .sell =>
    match a.tokenUnits with
    | some n => units ≤ n
    | none => ∃ n, a.sizeLamports = some n ∧ 0 < curve.sLamports ∧
        units ≤ n * curve.tUnits / curve.sLamports

section Matching

variable {a : ApprovalRecord} {r : OrderRequest}

lemma binds_of_matches (hm : a.matches r = true) : Binds a r ∧ a.sizeMatches r = true := by
  unfold «matches» at hm
  split_ifs at hm with h₁ h₂ h₃
  · obtain ⟨hc, hside⟩ := not_or.mp h₁
    obtain ⟨hticket, hmint⟩ := not_or.mp h₂
    exact ⟨⟨by simpa using hc, not_not.mp hside, not_not.mp hticket, not_not.mp hmint,
      not_not.mp h₃⟩, hm⟩

/-- A human approval of a buy states the size the order asks for. -/
lemma buy_size (hvalid : a.valid = true) (hm : a.matches r = true) (hside : r.side = .buy) :
    a.sizeLamports = r.sizeLamports := by
  obtain ⟨hb, hs⟩ := binds_of_matches hm
  have hkind : a.kind = .humanBuy := by
    have := hb.side
    rw [hside] at this
    unfold orderSide at this
    split at this <;> simp_all
  have hsome : a.sizeLamports.isSome = true := by
    simp only [valid, hkind, isHumanKind, if_true, Bool.and_eq_true] at hvalid
    simpa using hvalid.2.1.1.2
  simp only [sizeMatches, hside, true_or, if_true, Bool.and_eq_true, Bool.or_eq_true,
    decide_eq_true_eq] at hs
  rcases hs.1 with h | h
  · simp [Option.isNone_iff_eq_none.mp h] at hsome
  · exact h

/-- A human approval of a sell stated in units states the units the order carries. -/
lemma sell_units (hvalid : a.valid = true) (hm : a.matches r = true) (hside : r.side = .sell) :
    a.tokenUnits = r.tokenUnits ∧ (a.tokenUnits = none → a.sizeLamports = r.sizeLamports ∧
      a.sizeLamports.isSome = true) := by
  obtain ⟨hb, hs⟩ := binds_of_matches hm
  have hkind : a.kind = .humanSell ∨ a.kind = .exitRule := by
    have := hb.side
    rw [hside] at this
    unfold orderSide at this
    split at this <;> simp_all
  rcases hkind with hkind | hkind
  · have hsome : a.sizeLamports.isSome = true ∨ a.tokenUnits.isSome = true := by
      simp only [valid, hkind, isHumanKind, if_true, Bool.and_eq_true] at hvalid
      simpa using hvalid.2.1.2
    simp only [sizeMatches, hkind, or_true, if_true, Bool.and_eq_true, Bool.or_eq_true,
      decide_eq_true_eq] at hs
    obtain ⟨hsize, hunits⟩ := hs
    cases htoken : a.tokenUnits with
    | none =>
      simp only [htoken, Option.isSome_none, Bool.false_eq_true, if_false] at hunits hsome
      have hsome : a.sizeLamports.isSome = true := by simpa using hsome
      refine ⟨(Option.isNone_iff_eq_none.mp hunits).symm, fun _ => ⟨?_, hsome⟩⟩
      rcases hsize with h | h
      · simp [Option.isNone_iff_eq_none.mp h] at hsome
      · exact h
    | some n => exact ⟨by simpa [htoken] using hunits, by simp⟩
  · have hsome : a.tokenUnits.isSome = true := by
      simp only [valid, hkind, isHumanKind, if_true, Bool.and_eq_true] at hvalid
      simpa using hvalid.2.2.1.1
    refine ⟨?_, fun h => ?_⟩
    · simpa [sizeMatches, hkind, hside] using hs
    · simp [h] at hsome

/-- No more than what a quoted sell asks for is what the approval allows. -/
lemma allows_sell (hvalid : a.valid = true) (hm : a.matches r = true) (hside : r.side = .sell)
    {curve : CurveSnapshot} (hpos : 0 < sellUnits r curve) {units : ℤ} (lamports : ℤ)
    (hle : units ≤ sellUnits r curve) : a.Allows curve lamports units .sell := by
  obtain ⟨hunits, hsize⟩ := sell_units hvalid hm hside
  unfold sellUnits at hpos hle
  unfold Allows
  cases htoken : a.tokenUnits with
  | some n =>
    rw [← hunits, htoken] at hle
    exact hle
  | none =>
    obtain ⟨hsize, hsome⟩ := hsize htoken
    obtain ⟨n, hn⟩ := Option.isSome_iff_exists.mp hsome
    rw [← hunits, htoken] at hpos hle
    rw [← hsize, hn] at hpos hle
    dsimp only [Option.getD_some] at hpos hle
    split_ifs at hpos hle with hzero
    · exact absurd hpos (lt_irrefl 0)
    · exact ⟨n, hn, by omega, hle⟩

end Matching

end ApprovalRecord

namespace Sys

/-- The amounts of a quote. -/
def quotedLamports : Quoted → ℤ
  | .buy q => q.filled
  | .sell _ => 0

def quotedUnits : Quoted → ℤ
  | .buy _ => 0
  | .sell plan => plan.filledUnits

/-- A step records a fill of the order of call `i`, of what was quoted or less. -/
structure Confirms (s : Sys) (a : Action) (i : ℕ) (c : PlaceCall) (p : Placed) (quoted : Quoted)
    (f : FillRecorded) : Prop where
  step : ∃ curve1, a = .curve1 i curve1
  waits : s.waiting i = some (c, .curve1 p quoted)
  order : f.orderId = p.orderId ∧ f.decisionId = some c.request.decisionId
  mint : f.mint = c.request.mint
  curve : f.curveBefore = (p.curve0.sLamports, p.curve0.tUnits)
  amount : match quoted with
    | .buy q => f.side = .buy ∧ f.filledLamports ≤ q.filled
    | .sell plan => f.side = .sell ∧ f.filledUnits = plan.filledUnits

section Steps

variable {cfg : DeskConfig} {s s' : Sys} {a : Action}

/-- **What a step fills**: the order of one call, at its second reading, or a forced close. -/
lemma Move.fills (m : Move cfg s a s')
    (hquote : ∀ i c p quote, s.Holds i c p (.buy quote) →
      ∃ size, BuyQuoted cfg c size p.curve0 quote) :
    s'.store.FillsMeet fun f => (∃ e ∈ s.store.read, e.payload = .fillRecorded f) ∨
      f.decisionId = none ∨ ∃ i c p quoted, Confirms s a i c p quoted f := by
  have hold : s.store.FillsMeet fun f => (∃ e ∈ s.store.read, e.payload = .fillRecorded f) ∨
      f.decisionId = none ∨ ∃ i c p quoted, Confirms s a i c p quoted f :=
    fun e he f hf => .inl ⟨e, he, hf⟩
  cases m with
  | beside hw hbeside => exact hold.aside hbeside.desk.store
  | edited intact hw hworld =>
    unfold store
    rw [hworld]
    exact hold
  | forced f v hw hm hv hf hd =>
    unfold store
    rw [hd]
    refine hold.commit fun r hr g hg => ?_
    fin_cases hr
    · obtain rfl := Payload.fillRecorded.inj hg
      exact .inr (.inl rfl)
    · simp [forceClosePositionRow] at hg
    · simp [forceCloseEscalationRow] at hg
  | cancelled o ho => exact hold
  | @asked _ c dec hn hc hp hm hw =>
    have hcons := check_consulted cfg (c.checkCall cfg .accepted) s.world.desk
    rw [hc] at hcons
    exact hold.engine hcons.store
  | ended i c hi hd hm hw => exact hold.engine hd.store
  | refused i c reason detail hi hd ht hq hm hw =>
    refine fills_committed hold hd hq rfl fun r hr f hf => ?_
    obtain rfl := List.mem_singleton.mp hr
    simp [acceptedRefusal, rejectRow] at hf
  | @placed _ i c size dec seen quoted latency drop d hi hq hwr hworld hw =>
    refine fills_committed hold (written_consulted hwr).1 (.refl s'.world.desk)
      (by rw [hworld]) fun r hr f hf => ?_
    unfold placedRows orderRows at hr
    split at hr
    · obtain rfl := List.mem_singleton.mp hr
      simp [orderPlacedRow] at hf
    · fin_cases hr
      · simp [consumeRow] at hf
      · simp [orderPlacedRow] at hf
  | woke i c p q hi hc hworld hw =>
    unfold store
    rw [hworld]
    exact hold
  | rejected i c p q reason detail fig hi hd hid hfee ht hq hm hw =>
    refine fills_committed hold hd hq rfl fun r hr f hf => ?_
    obtain rfl := List.mem_singleton.mp hr
    simp [confirmingRefusal, rejectRow] at hf
  | dropped i c p q hi hd hm hw why => exact hold.engine hd.store
  | @bought _ i c p quote curve1 curve dec q out1 d hi hcurve hdec hp hin hne hf hq hm hw =>
    refine fills_committed hold (confirmed_consulted hdec) hq rfl fun r hr f hpay => ?_
    have hrow : r = buyFillRow cfg c (buyFigures p q curve out1 d.nextId) d.now := by
      unfold boughtRows buyFillRows at hr
      split_ifs at hr
      · exact List.mem_singleton.mp hr
      · fin_cases hr
        · rfl
        · simp [buyPositionRow] at hpay
    rw [hrow] at hpay
    obtain ⟨size, hbuy⟩ := hquote i c p quote (.inr hi)
    obtain rfl := Payload.fillRecorded.inj hpay
    exact .inr (.inr ⟨i, c, p, .buy quote, ⟨curve1, rfl⟩, hi, ⟨rfl, rfl⟩, rfl, rfl, rfl,
      (buyRecap_spec hbuy hp.recap).1⟩)
  | @sold _ i c p plan curve1 curve dec v gross1 d hi hcurve hdec hv hheld hp hin hf hq hm hw =>
    refine fills_committed hold (confirmed_consulted hdec) hq rfl fun r hr f hpay => ?_
    have hrow : r = sellFillRow cfg c p plan curve (sellFiguresOf cfg plan gross1 d.nextId)
        d.now := by
      unfold soldRows sellRows at hr
      simp only at hr
      split_ifs at hr
      · fin_cases hr
        · rfl
        · simp [positionClosedRow] at hpay
      · exact List.mem_singleton.mp hr
    rw [hrow] at hpay
    obtain rfl := Payload.fillRecorded.inj hpay
    exact .inr (.inr ⟨i, c, p, .sell plan, ⟨curve1, rfl⟩, hi, ⟨rfl, rfl⟩, rfl, rfl, rfl, rfl⟩)

end Steps

section Runs

variable {cfg : DeskConfig} {s₀ s : Sys} {as : List Action} {i : ℕ} {c : PlaceCall} {p : Placed}
  {quoted : Quoted} {approval : ApprovalRecord}

/-- What a waiting call has quoted, an approval that matches its order allows. -/
lemma quote_allowed (hb : ∀ bs, (Runs.after (step cfg) s₀ bs).Books cfg)
    (hwaits : Waits cfg s₀ as s) (hi : s.Holds i c p quoted) (hvalid : approval.valid = true)
    (hm : approval.matches c.request = true) :
    approval.Allows p.curve0 (quotedLamports quoted) (quotedUnits quoted) c.request.side := by
  obtain ⟨dec, latency, dropped, hasked, -, hq⟩ := hwaits.quoted i c p quoted hi
  cases hq with
  | buy q hside hbuy =>
    obtain ⟨n, m, hn, hsize, -, hle⟩ := hasked.sized hb hside
    have hsize : c.request.sizeLamports = some m := hsize
    rw [hside]
    refine ⟨m, (ApprovalRecord.buy_size hvalid hm hside).trans hsize, ?_⟩
    rw [hn, Option.getD_some] at hbuy
    calc q.filled ≤ n := hbuy.filled_eq ▸ min_le_left _ _
      _ ≤ m := hle
  | sell plan hside hsell =>
    have hpos : 0 < sellUnits c.request p.curve0 := hsell.units_eq ▸ hsell.units_pos
    have hle : plan.filledUnits ≤ sellUnits c.request p.curve0 :=
      hsell.units_eq ▸ hsell.filled_le
    rw [hside]
    exact ApprovalRecord.allows_sell hvalid hm hside hpos _ hle

/-- A fill of no more than was quoted is allowed where the quote is. -/
lemma Confirms.allowed {a : Action} {f : FillRecorded} (h : Confirms s a i c p quoted f)
    (hside : c.request.side = match quoted with | .buy _ => .buy | .sell _ => .sell)
    (hq : approval.Allows p.curve0 (quotedLamports quoted) (quotedUnits quoted) c.request.side) :
    f.side = c.request.side ∧
      approval.Allows p.curve0 f.filledLamports f.filledUnits c.request.side := by
  have hamount := h.amount
  cases quoted with
  | buy q =>
    obtain ⟨hf, hle⟩ := hamount
    rw [hside] at hq ⊢
    obtain ⟨n, hn, hqn⟩ := hq
    exact ⟨hf, n, hn, hle.trans hqn⟩
  | sell plan =>
    obtain ⟨hf, heq⟩ := hamount
    rw [hside] at hq ⊢
    exact ⟨hf, heq ▸ hq⟩

/-- **A human approval binds what is traded.** In every run, of an order that a valid approval
matches: it is of the approved side, ticket, mint and slippage; what a call quotes of it at its
first reading is no more than was approved; and so is every fill a step records of it. -/
theorem approval_binds (cfg : DeskConfig) (now e₀ : ℤ) (killswitch : KillSwitch)
    (as : List Action) {approval : ApprovalRecord} (hvalid : approval.valid = true)
    {r : OrderRequest} (hm : approval.matches r = true) :
    approval.Binds r ∧
      (∀ i c p quoted, (Runs.after (step cfg) (start now e₀ killswitch) as).Holds i c p quoted →
        c.request = r →
          approval.Allows p.curve0 (quotedLamports quoted) (quotedUnits quoted) r.side) ∧
      ∀ a, ∀ e ∈ (Runs.after (step cfg) (start now e₀ killswitch) (as ++ [a])).store.read, ∀ f,
        e.payload = .fillRecorded f → f.decisionId ≠ none →
        (∀ e' ∈ (Runs.after (step cfg) (start now e₀ killswitch) as).store.read,
          e'.payload ≠ .fillRecorded f) →
        ∃ i c p quoted,
          Confirms (Runs.after (step cfg) (start now e₀ killswitch) as) a i c p quoted f ∧
          (c.request = r → f.side = r.side ∧
            approval.Allows p.curve0 f.filledLamports f.filledUnits r.side) := by
  have hb := books_after cfg now e₀ killswitch
  have hwaits := waits_after cfg now e₀ killswitch as
  refine ⟨(ApprovalRecord.binds_of_matches hm).1, ?_, ?_⟩
  · rintro i c p quoted hi rfl
    exact quote_allowed hb hwaits hi hvalid hm
  · intro a e he f hf horder hnew
    rw [Runs.after_snoc] at he
    have hquote : ∀ i c p quote,
        (Runs.after (step cfg) (start now e₀ killswitch) as).Holds i c p (.buy quote) →
          ∃ size, BuyQuoted cfg c size p.curve0 quote := by
      intro i c p quote hi
      obtain ⟨dec, latency, dropped, -, -, hq⟩ := hwaits.quoted i c p _ hi
      cases hq with
      | buy _ _ hbuy => exact ⟨_, hbuy⟩
    rcases (step_move cfg _ a).fills hquote e he f hf with
      ⟨e', he', hf'⟩ | hnone | ⟨i, c, p, quoted, hc⟩
    · exact absurd hf' (hnew e' he')
    · exact absurd hnone horder
    · refine ⟨i, c, p, quoted, hc, ?_⟩
      rintro rfl
      refine hc.allowed ?_ (quote_allowed hb hwaits (.inr hc.waits) hvalid hm)
      obtain ⟨dec, latency, dropped, -, -, hq⟩ := hwaits.quoted i c p quoted (.inr hc.waits)
      cases hq with
      | buy _ hside _ => exact hside
      | sell _ hside _ => exact hside

end Runs

/-- A human approval of the sample buy. -/
def sampleApproval : ApprovalRecord where
  id := 0
  kind := .humanBuy
  ticketId := some ['t']
  mint := some (sampleMint 'a')
  sizeLamports := some 100000000
  tokenUnits := none
  maxSlippageBps := some 300
  exitRuleId := none
  approvedBy := .human ['h']
  rawMessage := []
  at_ := 0

/-- The sample buy, waiting for its second reading. -/
def sampleHeld : List Action := sampleReserves :: (samplePlace 0 (sampleBuy 'a' 1)).take 3

theorem approval_binds_sample :
    sampleApproval.Binds (sampleBuy 'a' 1).request ∧
      (∀ i c p quoted, (sampleAfter sampleHeld).Holds i c p quoted →
        c.request = (sampleBuy 'a' 1).request →
          sampleApproval.Allows p.curve0 (quotedLamports quoted) (quotedUnits quoted) .buy) ∧
      ((sampleAfter sampleHeld).waiting 0).isSome = true := by
  have hvalid : sampleApproval.valid = true := by decide
  have hm : sampleApproval.matches (sampleBuy 'a' 1).request = true := by decide
  obtain ⟨hbinds, hquoted, -⟩ := approval_binds sampleConfig 0 10000000000 {} sampleHeld hvalid hm
  exact ⟨hbinds, hquoted, by decide +kernel⟩

end Sys

end PumpGrok
